import LetsChat.FriendTables
import LetsChat.OfflineSync

/-! What the replies to the three reading requests say. A failed query and a query without
rows come out of the client the same, and the client does not read the message id of a row. -/

namespace LetsChat
open Lib Prog PooledDbClient LogicServiceImpl

inductive ReadRequest
  | syncMsg (r : SyncMsgReq)
  | listFriends (r : FriendListReq)
  | getFriendRequests (r : GetFriendReqsReq)

namespace ReadRequest

def request : ReadRequest → Request
  | syncMsg r => .syncMsg r
  | listFriends r => .listFriends r
  | getFriendRequests r => .getFriendRequests r

def site : ReadRequest → Site
  | syncMsg _ => .getofflineMsgs
  | listFriends _ => .listFriends
  | getFriendRequests _ => .getFriendRequestsForUser

def query : ReadRequest → Query
  | syncMsg r => .selectOfflineMsgs r.uid r.last_msg_id
  | listFriends r => .selectFriends r.uid
  | getFriendRequests r => .selectFriendRequests r.uid

def friendsOf (t : Tables) (uid : Int) : List Int :=
  (t.t_friend.filter fun r => r.uid = uid).map (·.friend_uid)

def requestsTo (t : Tables) (uid : Int) : List FriendRequest :=
  ((pendingRows t).filter fun r => r.to_uid = uid).map asRequest

def msgCells (m : ChatMsg) : List Text :=
  [to_string m.msg_id, to_string m.from_uid, to_string m.to_uid, m.content, to_string m.create_time]

def requestCells (r : FriendRequest) : List Text :=
  [to_string r.req_id, to_string r.from_uid, to_string r.to_uid, r.reason, to_string r.create_time,
    to_string r.status]

/-- A reply of success lists the rows that the query returns on the tables, with the cells of
all its columns. -/
def ListsRows (t : Tables) (r : ReadRequest) (reply : Reply) : Prop :=
  match r, reply with
  | syncMsg _, .syncMsg res =>
    res.err_code = ErrorCode.ERR_SUCCESS.toInt →
      res.msgs.map msgCells = (r.query.exec t).1.rows
  | listFriends _, .listFriends res =>
    res.err_code = .ERR_SUCCESS →
      (res.friend_uids.map fun b => [to_string b]) = (r.query.exec t).1.rows
  | getFriendRequests _, .getFriendRequests res =>
    res.err_code = .ERR_SUCCESS → res.requests.map requestCells = (r.query.exec t).1.rows
  | _, _ => False

def IdsAreDefault (t : Tables) : ReadRequest → Prop
  | syncMsg r => ∀ row ∈ offlineRows t r.uid r.last_msg_id, row.msg_id = to_string 0
  | _ => True

def RepliesTruly (impl : LogicServiceImpl) (e : Env) (w : World) (r : ReadRequest) : Prop :=
  ∃ reply, ((handle impl r.request).run e.exec w).1 = some reply ∧ r.ListsRows w.tables reply

end ReadRequest

def handedOn {α : Type} (e : Env) (site : Site) (rows : List α) : List α :=
  if e.Returns site then rows else []

theorem listed_iff {α β : Type} {e : Env} {site : Site} (read : α → β) (listed : β → List Text)
    (cells : α → List Text) (rows : List α) :
    (handedOn e site (rows.map read)).map listed = rows.map cells ↔
      (e.Returns site ∧ ∀ r ∈ rows, listed (read r) = cells r) ∨ rows = [] := by
  by_cases hret : e.Returns site
  · rw [handedOn, if_pos hret, List.map_map, List.map_inj_left]
    constructor
    · exact fun hall => .inl ⟨hret, hall⟩
    · rintro (⟨-, hall⟩ | rfl)
      · exact hall
      · exact nofun
  · rw [handedOn, if_neg hret, List.map_nil, eq_comm, List.map_eq_nil_iff]
    exact ⟨.inr, fun h => h.resolve_left fun hread => hret hread.1⟩

theorem ntuples_map {α : Type} (cells : α → List Text) (rows : List α) :
    (PGresult.tuples (rows.map cells)).ntuples = 0 ↔ rows = [] := by
  rw [PGresult.ntuples_tuples, List.length_map, List.length_eq_zero_iff]

namespace ReadRequest

def reply (e : Env) (t : Tables) : ReadRequest → Reply
  | syncMsg r => .syncMsg
    { msgs := handedOn e .getofflineMsgs ((offlineRows t r.uid r.last_msg_id).map ofRow) }
  | listFriends r => .listFriends { friend_uids := handedOn e .listFriends (friendsOf t r.uid) }
  | getFriendRequests r => .getFriendRequests
    { requests := handedOn e .getFriendRequestsForUser (requestsTo t r.uid) }

theorem run_handle (impl : LogicServiceImpl) (e : Env) (w : World) (r : ReadRequest) :
    (handle impl r.request).run e.exec w = (some (r.reply e w.tables), w) := by
  cases r with
  | syncMsg r =>
    show (Reply.syncMsg <$> LogicServiceImpl.syncMsg r).run e.exec w = _
    rw [run_map, run_syncMsg]
    rfl
  | listFriends r =>
    show (Reply.listFriends <$> LogicServiceImpl.listFriends r).run e.exec w = _
    rw [run_map, LogicServiceImpl.listFriends, run_bind_of _ (run_listFriends e w r.uid)]
    rfl
  | getFriendRequests r =>
    show (Reply.getFriendRequests <$> LogicServiceImpl.getFriendRequests r).run e.exec w = _
    rw [run_map, LogicServiceImpl.getFriendRequests,
      run_bind_of _ (run_getFriendRequestsForUser e w r.uid)]
    rfl

theorem repliesTruly_iff_lists (impl : LogicServiceImpl) (e : Env) (w : World) (r : ReadRequest) :
    r.RepliesTruly impl e w ↔ r.ListsRows w.tables (r.reply e w.tables) := by
  rw [RepliesTruly, run_handle]
  constructor
  · rintro ⟨reply, ⟨⟩, hlists⟩
    exact hlists
  · exact fun hlists => ⟨_, rfl, hlists⟩

theorem msgCells_ofRow (r : ChatMsgRow) :
    msgCells (ofRow r) = Query.chatMsgCells r ↔ r.msg_id = to_string 0 := by
  simp [msgCells, ofRow, Query.chatMsgCells, eq_comm]

theorem repliesTruly_iff (impl : LogicServiceImpl) (e : Env) (w : World) (r : ReadRequest) :
    r.RepliesTruly impl e w ↔ (e.Returns r.site ∧ r.IdsAreDefault w.tables) ∨
      (r.query.exec w.tables).1.ntuples = 0 := by
  rw [repliesTruly_iff_lists]
  cases r with
  | syncMsg r =>
    refine (forall_prop_of_true rfl).trans ((listed_iff ofRow msgCells _ _).trans ?_)
    simp only [msgCells_ofRow]
    exact or_congr_right (ntuples_map _ _).symm
  | listFriends r =>
    refine (forall_prop_of_true rfl).trans ((listed_iff _ _ _ _).trans ?_)
    exact or_congr (and_congr_right fun _ => iff_true_intro fun _ _ => rfl) (ntuples_map _ _).symm
  | getFriendRequests r =>
    have hquery : ((getFriendRequests r).query.exec w.tables).1 =
        .tuples (((pendingRows w.tables).filter fun row => row.to_uid = r.uid).map
          Query.friendRequestCells) := by
      rw [← filter_pendingRows]
      rfl
    apply (forall_prop_of_true rfl).trans
    rw [hquery]
    apply (listed_iff asRequest requestCells _ _).trans
    exact or_congr (and_congr_right fun _ => iff_true_intro fun _ _ => rfl) (ntuples_map _ _).symm

def outage : Env := { Env.fair with acquire := fun _ => false }

theorem empty_inbox_in_outage :
    ¬(syncMsg { uid := 2, last_msg_id := 0 }).RepliesTruly bare outage oneMessage := by
  rw [repliesTruly_iff_lists]
  intro hlists
  have hrows : ([] : List (List Text)) = [Query.chatMsgCells ⟨1, "7".toList, 1, 2, "hi".toList, 0⟩] :=
    hlists rfl
  cases hrows

end ReadRequest
end LetsChat
