import LetsChat.Query

/-! When a statement's text is the statement that the function means: the lexer
reads the intended tokens, each embedded string being the value of its literal. -/

namespace LetsChat.Query
open Lib Sql

def pieces : Query → List Piece
  | selectUserPassword uid => [.sql "SELECT password FROM t_user WHERE id=".toList, .int uid]
  | insertChatMsg msg_id from_uid to_uid content now =>
    [.sql "INSERT INTO t_chat_msg (msg_id, from_uid, to_uid, content, create_time) VALUES (".toList,
      .quoted msg_id, .sql ", ".toList, .int from_uid, .sql ", ".toList, .int to_uid,
      .sql ", ".toList, .quoted content, .sql ", ".toList, .int now, .sql ")".toList]
  | selectOfflineMsgs uid last_msg_id =>
    [.sql "SELECT msg_id, from_uid, to_uid, content, create_time FROM t_chat_msg WHERE to_uid=".toList,
      .int uid, .sql " AND id > ".toList, .int last_msg_id,
      .sql " ORDER BY id ASC LIMIT 100".toList]
  | insertUser username password email =>
    [.sql "INSERT INTO t_user (username, password, email) VALUES (".toList, .quoted username,
      .sql ", ".toList, .quoted password, .sql ", ".toList, .quoted email,
      .sql ") RETURNING id".toList]
  | selectUserByEmail email =>
    [.sql "SELECT id, username, password FROM t_user WHERE email=".toList, .quoted email]
  | insertFriendRequest from_uid to_uid reason now =>
    [.sql "INSERT INTO t_friend_request (from_uid, to_uid, reason, create_time) VALUES (".toList,
      .int from_uid, .sql ", ".toList, .int to_uid, .sql ", ".toList, .quoted reason,
      .sql ", ".toList, .int now, .sql ") RETURNING id".toList]
  | selectFriendRequests uid =>
    [.sql "SELECT id, from_uid, to_uid, reason, create_time, status FROM t_friend_request WHERE to_uid=".toList,
      .int uid, .sql " AND status=0 ORDER BY id ASC".toList]
  | selectPendingRequest req_id =>
    [.sql "SELECT from_uid, to_uid FROM t_friend_request WHERE id=".toList, .int req_id,
      .sql " AND status=0".toList]
  | insertFriend uid friend_uid now =>
    [.sql "INSERT INTO t_friend (uid, friend_uid, create_time) VALUES (".toList, .int uid,
      .sql ", ".toList, .int friend_uid, .sql ", ".toList, .int now,
      .sql ") ON CONFLICT DO NOTHING".toList]
  | acceptRequest req_id =>
    [.sql "UPDATE t_friend_request SET status=1 WHERE id=".toList, .int req_id]
  | rejectRequest req_id =>
    [.sql "UPDATE t_friend_request SET status=2 WHERE id=".toList, .int req_id]
  | selectFriend uid1 uid2 =>
    [.sql "SELECT 1 FROM t_friend WHERE uid=".toList, .int uid1, .sql " AND friend_uid=".toList,
      .int uid2, .sql " LIMIT 1".toList]
  | selectFriends uid => [.sql "SELECT friend_uid FROM t_friend WHERE uid=".toList, .int uid]
  | insertGroupMsg msg_id group_id from_uid content now =>
    [.sql "INSERT INTO t_group_msg (msg_id, group_id, from_uid, content, create_time) VALUES (".toList,
      .quoted msg_id, .sql ", ".toList, .int group_id, .sql ", ".toList, .int from_uid,
      .sql ", ".toList, .quoted content, .sql ", ".toList, .int now, .sql ")".toList]
  | selectGroupMsgs group_id last_msg_id =>
    [.sql "SELECT msg_id, group_id, from_uid, content, create_time FROM t_group_msg WHERE group_id=".toList,
      .int group_id, .sql " AND id > ".toList, .int last_msg_id,
      .sql " ORDER BY id ASC LIMIT 100".toList]

def strings : Query → List Text
  | insertChatMsg msg_id _ _ content _ => [msg_id, content]
  | insertUser username password email => [username, password, email]
  | selectUserByEmail email => [email]
  | insertFriendRequest _ _ reason _ => [reason]
  | insertGroupMsg msg_id _ _ content _ => [msg_id, content]
  | _ => []

/-! The source writes the quotes of a literal at the ends of the fragments around it. The
fragments are variables here, so that no proof evaluates a long literal twice. -/

section Shapes
variable (A B C D : Text) (m n k : Int) (s t u : Text)

theorem render_int : render [.sql A, .int m] = A ++ to_string m := by
  simp only [render, List.flatMap_cons, List.flatMap_nil, Piece.text, List.append_nil, to_string]

theorem render_int_int : render [.sql A, .int m, .sql B, .int n, .sql C] =
    A ++ to_string m ++ B ++ to_string n ++ C := by
  simp only [render, List.flatMap_cons, List.flatMap_nil, Piece.text, List.append_nil, to_string,
    List.append_assoc]

theorem render_int_last : render [.sql A, .int m, .sql B] = A ++ to_string m ++ B := by
  simp only [render, List.flatMap_cons, List.flatMap_nil, Piece.text, List.append_nil, to_string,
    List.append_assoc]

theorem render_ints : render [.sql A, .int m, .sql B, .int n, .sql B, .int k, .sql C] =
    A ++ to_string m ++ B ++ to_string n ++ B ++ to_string k ++ C := by
  simp only [render, List.flatMap_cons, List.flatMap_nil, Piece.text, List.append_nil, to_string,
    List.append_assoc]

theorem render_quoted : render [.sql A, .quoted s] = (A ++ ['\'']) ++ s ++ ['\''] := by
  simp only [render, List.flatMap_cons, List.flatMap_nil, Piece.text, List.append_nil,
    List.append_assoc, List.cons_append, List.nil_append]

theorem render_message : render [.sql A, .quoted s, .sql B, .int m, .sql B, .int n, .sql B,
      .quoted t, .sql B, .int k, .sql C] =
    (A ++ ['\'']) ++ s ++ ('\'' :: B) ++ to_string m ++ B ++ to_string n ++ (B ++ ['\'']) ++ t
      ++ ('\'' :: B) ++ to_string k ++ C := by
  simp only [render, List.flatMap_cons, List.flatMap_nil, Piece.text, List.append_nil, to_string,
    List.append_assoc, List.cons_append, List.nil_append]

theorem render_user : render [.sql A, .quoted s, .sql B, .quoted t, .sql B, .quoted u, .sql C] =
    (A ++ ['\'']) ++ s ++ ('\'' :: (B ++ ['\''])) ++ t ++ ('\'' :: (B ++ ['\''])) ++ u
      ++ ('\'' :: C) := by
  simp only [render, List.flatMap_cons, List.flatMap_nil, Piece.text, List.append_nil,
    List.append_assoc, List.cons_append, List.nil_append]

theorem render_request : render [.sql A, .int m, .sql B, .int n, .sql B, .quoted s, .sql B,
      .int k, .sql C] =
    A ++ to_string m ++ B ++ to_string n ++ (B ++ ['\'']) ++ s ++ ('\'' :: B) ++ to_string k
      ++ C := by
  simp only [render, List.flatMap_cons, List.flatMap_nil, Piece.text, List.append_nil, to_string,
    List.append_assoc, List.cons_append, List.nil_append]

end Shapes

theorem toList_snoc {l : List Char} {c : Char} {s : String} (h : s.toList = l ++ [c]) :
    (String.ofList l).toList ++ [c] = s.toList := by
  rw [h, String.toList_ofList]

theorem toList_cons {l : List Char} {c : Char} {s : String} (h : s.toList = c :: l) :
    c :: (String.ofList l).toList = s.toList := by
  rw [h, String.toList_ofList]

theorem text_eq_render (q : Query) : q.text = render q.pieces := by
  have hopen : ", ".toList ++ ['\''] = ", '".toList := toList_snoc String.toList_ofList
  have hclose : '\'' :: ", ".toList = "', ".toList := toList_cons String.toList_ofList
  have hboth : '\'' :: ", '".toList = "', '".toList := toList_cons String.toList_ofList
  have hlast : ['\''] = "'".toList := String.toList_ofList.symm
  cases q with
  | selectUserPassword | acceptRequest | rejectRequest | selectFriends =>
    exact (render_int _ _).symm
  | selectFriendRequests | selectPendingRequest => exact (render_int_last _ _ _).symm
  | selectOfflineMsgs | selectFriend | selectGroupMsgs => exact (render_int_int _ _ _ _ _).symm
  | insertFriend => exact (render_ints _ _ _ _ _ _).symm
  | selectUserByEmail email =>
    have hstart : "SELECT id, username, password FROM t_user WHERE email=".toList ++ ['\''] =
        "SELECT id, username, password FROM t_user WHERE email='".toList :=
      toList_snoc String.toList_ofList
    rw [pieces, render_quoted, hstart, hlast]
    rfl
  | insertChatMsg msg_id from_uid to_uid content now =>
    have hstart : "INSERT INTO t_chat_msg (msg_id, from_uid, to_uid, content, create_time) VALUES (".toList
          ++ ['\''] =
        "INSERT INTO t_chat_msg (msg_id, from_uid, to_uid, content, create_time) VALUES ('".toList :=
      toList_snoc String.toList_ofList
    rw [pieces, render_message, hstart, hopen, hclose]
    rfl
  | insertGroupMsg msg_id group_id from_uid content now =>
    have hstart : "INSERT INTO t_group_msg (msg_id, group_id, from_uid, content, create_time) VALUES (".toList
          ++ ['\''] =
        "INSERT INTO t_group_msg (msg_id, group_id, from_uid, content, create_time) VALUES ('".toList :=
      toList_snoc String.toList_ofList
    rw [pieces, render_message, hstart, hopen, hclose]
    rfl
  | insertUser username password email =>
    have hstart : "INSERT INTO t_user (username, password, email) VALUES (".toList ++ ['\''] =
        "INSERT INTO t_user (username, password, email) VALUES ('".toList :=
      toList_snoc String.toList_ofList
    have hreturning : '\'' :: ") RETURNING id".toList = "') RETURNING id".toList :=
      toList_cons String.toList_ofList
    rw [pieces, render_user, hstart, hopen, hboth, hreturning]
    rfl
  | insertFriendRequest from_uid to_uid reason now =>
    rw [pieces, render_request, hopen, hclose]
    rfl

theorem strings_pieces (q : Query) : Sql.strings q.pieces = q.strings := by
  cases q <;> rfl

theorem joined_pieces (q : Query) : Joined q.pieces := by
  have hcomma : Separates ", ".toList ∧ Opening ", ".toList :=
    of_ofList (P := fun t => Separates t ∧ Opening t) (by decide)
  have hparen : Separates ")".toList ∧ Last ")".toList :=
    of_ofList (P := fun t => Separates t ∧ Last t) (by decide)
  have hreturning : Separates ") RETURNING id".toList ∧ Last ") RETURNING id".toList :=
    of_ofList (P := fun t => Separates t ∧ Last t) (by decide)
  have hafter : Separates " AND id > ".toList ∧ Opening " AND id > ".toList :=
    of_ofList (P := fun t => Separates t ∧ Opening t) (by decide)
  have hlimit : Separates " ORDER BY id ASC LIMIT 100".toList ∧
      Last " ORDER BY id ASC LIMIT 100".toList :=
    of_ofList (P := fun t => Separates t ∧ Last t) (by decide)
  have hpending : Separates " AND status=0".toList ∧ Last " AND status=0".toList :=
    of_ofList (P := fun t => Separates t ∧ Last t) (by decide)
  have hordered : Separates " AND status=0 ORDER BY id ASC".toList ∧
      Last " AND status=0 ORDER BY id ASC".toList :=
    of_ofList (P := fun t => Separates t ∧ Last t) (by decide)
  have hconflict : Separates ") ON CONFLICT DO NOTHING".toList ∧
      Last ") ON CONFLICT DO NOTHING".toList :=
    of_ofList (P := fun t => Separates t ∧ Last t) (by decide)
  have hfriend : Separates " AND friend_uid=".toList ∧ Opening " AND friend_uid=".toList :=
    of_ofList (P := fun t => Separates t ∧ Opening t) (by decide)
  have hone : Separates " LIMIT 1".toList ∧ Last " LIMIT 1".toList :=
    of_ofList (P := fun t => Separates t ∧ Last t) (by decide)
  cases q with
  | selectUserPassword | selectUserByEmail | acceptRequest | rejectRequest | selectFriends =>
    exact ⟨of_ofList (by decide), trivial, trivial⟩
  | insertChatMsg | insertGroupMsg =>
    exact ⟨of_ofList (by decide), hcomma.1, hcomma.2, hcomma.1, hcomma.2, hcomma.1, hcomma.2,
      hcomma.1, hcomma.2, hparen⟩
  | selectOfflineMsgs | selectGroupMsgs =>
    exact ⟨of_ofList (by decide), hafter.1, hafter.2, hlimit⟩
  | insertUser =>
    exact ⟨of_ofList (by decide), hcomma.1, hcomma.2, hcomma.1, hcomma.2, hreturning⟩
  | insertFriendRequest =>
    exact ⟨of_ofList (by decide), hcomma.1, hcomma.2, hcomma.1, hcomma.2, hcomma.1, hcomma.2,
      hreturning⟩
  | selectFriendRequests => exact ⟨of_ofList (by decide), hordered⟩
  | selectPendingRequest => exact ⟨of_ofList (by decide), hpending⟩
  | insertFriend =>
    exact ⟨of_ofList (by decide), hcomma.1, hcomma.2, hcomma.1, hcomma.2, hconflict⟩
  | selectFriend => exact ⟨of_ofList (by decide), hfriend.1, hfriend.2, hone⟩

/-- What the server reads in the text it is handed is the intended statement. -/
def LexesAsIntended (q : Query) : Prop := lex (cStr q.text) = some (tokens q.pieces)

instance (q : Query) : Decidable q.LexesAsIntended := inferInstanceAs (Decidable (_ = _))

theorem lexesAsIntended_iff (q : Query) :
    q.LexesAsIntended ↔ ∀ s ∈ q.strings, '\'' ∉ s ∧ '\x00' ∉ s := by
  rw [LexesAsIntended, text_eq_render, lex_cStr_render_iff q.joined_pieces, strings_pieces]

theorem strings_stay_data_iff (q : Query) (hnul : ∀ s ∈ q.strings, '\x00' ∉ s) :
    lex (cStr q.text) = some (tokens q.pieces) ↔ ∀ s ∈ q.strings, '\'' ∉ s := by
  have hiff := lexesAsIntended_iff q
  exact hiff.trans ⟨fun h s hs => (h s hs).1, fun h s hs => ⟨h s hs, hnul s hs⟩⟩

theorem strings_stay_data_iff_greeting :
    lex (cStr (insertChatMsg "7".toList 1 2 "hi".toList 0).text) =
        some (tokens (insertChatMsg "7".toList 1 2 "hi".toList 0).pieces) ↔
      ∀ s ∈ (insertChatMsg "7".toList 1 2 "hi".toList 0).strings, '\'' ∉ s :=
  strings_stay_data_iff (insertChatMsg "7".toList 1 2 "hi".toList 0) (by decide)

theorem apostrophe_ends_literal :
    lex (cStr (insertChatMsg "7".toList 1 2 "it's".toList 0).text) ≠
      some (tokens (insertChatMsg "7".toList 1 2 "it's".toList 0).pieces) := by
  intro h
  have hclean := (lexesAsIntended_iff _).mp h "it's".toList
    (List.mem_cons_of_mem _ (List.mem_singleton.mpr rfl))
  exact absurd hclean.1 (by decide)

end LetsChat.Query
