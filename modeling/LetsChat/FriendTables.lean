import LetsChat.DbClient

/-! What the functions of `PooledDbClient` do to the two friend tables and read from them. -/

namespace LetsChat
open Lib Prog PooledDbClient

def Befriended (t : Tables) (a b : Int) : Prop := ∃ r ∈ t.t_friend, r.uid = a ∧ r.friend_uid = b

instance (t : Tables) (a b : Int) : Decidable (Befriended t a b) :=
  inferInstanceAs (Decidable (∃ r ∈ t.t_friend, r.uid = a ∧ r.friend_uid = b))

def pendingRow (t : Tables) (req_id : Int) : Option FriendRequestRow :=
  (t.t_friend_request.find req_id).filter fun r => r.status = 0

def pendingRows (t : Tables) : List FriendRequestRow :=
  t.t_friend_request.rows.filter fun r => r.status = 0

section Statements
variable (t : Tables)

theorem insertFriend_present {a b : Int} (h : Befriended t a b) (now : Int) :
    Query.exec (.insertFriend a b now) t = (.command 0, t) := by
  have hany : t.t_friend.any (fun r => r.uid = a ∧ r.friend_uid = b) = true := by
    rw [List.any_eq_true]
    obtain ⟨r, hr, hrow⟩ := h
    exact ⟨r, hr, decide_eq_true hrow⟩
  rw [Query.exec, if_pos hany]

theorem insertFriend_absent {a b : Int} (h : ¬Befriended t a b) (now : Int) :
    Query.exec (.insertFriend a b now) t =
      (.command 1, { t with t_friend := t.t_friend ++ [⟨a, b, now⟩] }) := by
  have hany : ¬t.t_friend.any (fun r => r.uid = a ∧ r.friend_uid = b) = true := by
    rw [List.any_eq_true]
    rintro ⟨r, hr, hrow⟩
    exact h ⟨r, hr, of_decide_eq_true hrow⟩
  rw [Query.exec, if_neg hany]

theorem befriended_insertFriend (a b now x y : Int) :
    Befriended (Query.exec (.insertFriend a b now) t).2 x y ↔
      (x = a ∧ y = b) ∨ Befriended t x y := by
  by_cases h : Befriended t a b
  · rw [insertFriend_present t h]
    refine ⟨.inr, ?_⟩
    rintro (⟨rfl, rfl⟩ | hxy)
    · exact h
    · exact hxy
  · rw [insertFriend_absent t h]
    constructor
    · rintro ⟨r, hr, rfl, rfl⟩
      rcases List.mem_append.mp hr with hr | hr
      · exact .inr ⟨r, hr, rfl, rfl⟩
      · obtain rfl := List.mem_singleton.mp hr
        exact .inl ⟨rfl, rfl⟩
    · rintro (⟨rfl, rfl⟩ | ⟨r, hr, hrow⟩)
      · exact ⟨_, List.mem_append_right _ (List.mem_singleton.mpr rfl), rfl, rfl⟩
      · exact ⟨r, List.mem_append_left _ hr, hrow⟩

theorem insertFriend_requests (a b now : Int) :
    (Query.exec (.insertFriend a b now) t).2.t_friend_request = t.t_friend_request := by
  rw [Query.exec]
  split <;> rfl

theorem insertFriend_status (a b now : Int) :
    (Query.exec (.insertFriend a b now) t).1.status = .PGRES_COMMAND_OK := by
  rw [Query.exec]
  split <;> rfl

theorem pendingRows_id (req_id : Int) :
    (pendingRows t).filter (fun r => r.id = req_id) = (pendingRow t req_id).toList := by
  have hswap : (pendingRows t).filter (fun r => r.id = req_id) =
      (t.t_friend_request.rows.filter fun r => r.id = req_id).filter fun r => r.status = 0 := by
    rw [pendingRows, List.filter_filter, List.filter_filter]
    congr 1
    funext r
    exact Bool.and_comm _ _
  rw [hswap, t.t_friend_request.filter_key, pendingRow]
  cases t.t_friend_request.find req_id with
  | none => rfl
  | some r => by_cases hr : r.status = 0 <;> simp [hr, Option.filter]

theorem filter_pendingRows (uid : Int) :
    t.t_friend_request.rows.filter (fun r => r.to_uid = uid ∧ r.status = 0) =
      (pendingRows t).filter fun r => r.to_uid = uid := by
  rw [pendingRows, List.filter_filter]
  congr 1
  funext r
  exact Bool.decide_and _ _

theorem selectPending_eq (req_id : Int) :
    Query.exec (.selectPendingRequest req_id) t =
      (.tuples ((pendingRow t req_id).toList.map fun r => [to_string r.from_uid, to_string r.to_uid]),
        t) := by
  have hand : t.t_friend_request.rows.filter (fun r => r.id = req_id ∧ r.status = 0) =
      (pendingRows t).filter fun r => r.id = req_id := by
    rw [pendingRows, List.filter_filter]
    congr 1
    funext r
    exact Bool.decide_and _ _
  rw [Query.exec, hand, pendingRows_id]

theorem unique_insertFriend (a b now : Int)
    (h : (t.t_friend.map fun r => (r.uid, r.friend_uid)).Nodup) :
    ((Query.exec (.insertFriend a b now) t).2.t_friend.map fun r => (r.uid, r.friend_uid)).Nodup := by
  by_cases hab : Befriended t a b
  · rwa [insertFriend_present t hab]
  · rw [insertFriend_absent t hab, List.map_append, List.map_singleton]
    refine List.nodup_append.mpr ⟨h, List.nodup_singleton _, fun x hx y hy => ?_⟩
    obtain ⟨r, hr, rfl⟩ := List.mem_map.mp hx
    obtain rfl := List.mem_singleton.mp hy
    intro heq
    exact hab ⟨r, hr, congrArg Prod.fst heq, congrArg Prod.snd heq⟩

end Statements

section Accept
variable (e : Env) (w : World) (req_id : Int)

def foundRow (t : Tables) : Option FriendRequestRow :=
  if e.Returns .acceptFriendRequest then pendingRow t req_id else none

def insertedBoth (row : FriendRequestRow) (t : Tables) : Tables :=
  let now := e.time .acceptFriendRequest
  let first := (e.pqExec .acceptIns1 (.insertFriend row.from_uid row.to_uid now) t).2
  (e.pqExec .acceptIns2 (.insertFriend row.to_uid row.from_uid now) first).2

def InsertsDone : Prop := e.stmt .acceptIns1 = .done ∧ e.stmt .acceptIns2 = .done

instance : Decidable (InsertsDone e) := inferInstanceAs (Decidable (_ ∧ _))

theorem pqExec_insertFriend_status (site : Site) (a b now : Int) (t : Tables) :
    (e.pqExec site (.insertFriend a b now) t).1.status = .PGRES_COMMAND_OK ↔ e.stmt site = .done := by
  rw [Env.pqExec_fst, e.serve_plain rfl]
  by_cases hdone : e.stmt site = .done
  · rw [if_pos hdone, insertFriend_status]
    exact iff_of_true rfl hdone
  · rw [if_neg hdone]
    exact iff_of_false (by decide) hdone

theorem pqExec_insertFriend_tables (site : Site) (a b now : Int) (t : Tables) :
    (e.pqExec site (.insertFriend a b now) t).2 =
      if e.stmt site = .failed then t else (Query.exec (.insertFriend a b now) t).2 := by
  rw [Env.pqExec_snd, e.serve_plain rfl]

theorem run_acceptFriendRequest :
    (acceptFriendRequest req_id).run e.exec w =
      match foundRow e req_id w.tables with
      | none => (some false, w)
      | some row =>
        if InsertsDone e then
          (some true, { w with
            tables := (e.pqExec .acceptUpd (.acceptRequest req_id)
              (insertedBoth e row w.tables)).2 })
        else (some false, { w with tables := insertedBoth e row w.tables }) := by
  unfold acceptFriendRequest foundRow
  refine (run_query e w _ rfl rfl false fun w => by simp).trans ?_
  by_cases hret : e.Returns .acceptFriendRequest
  · rw [if_pos hret, if_pos hret, selectPending_eq]
    cases hrow : pendingRow w.tables req_id with
    | none => simp
    | some row =>
      have hfailed : (¬e.stmt .acceptIns1 = .done ∨ ¬e.stmt .acceptIns2 = .done) ↔ ¬InsertsDone e :=
        Decidable.not_and_iff_or_not.symm
      simp only [Option.toList_some, List.map_cons, List.map_nil, PGresult.status_tuples,
        PGresult.ntuples_tuples, List.length_singleton, ne_eq, not_true_eq_false, false_or,
        Nat.one_ne_zero, if_false, PGresult.getvalue, PGresult.rows_tuples, List.getElem?_cons_zero,
        List.getElem?_cons_succ, Option.bind_some, Option.getD_some, stoll_to_string, ofOption_some,
        ret_bind, time_bind, pqExec_bind, run_op, Env.exec, pqExec_insertFriend_status, hfailed]
      by_cases hdone : InsertsDone e
      · simp only [hdone, not_true_eq_false, if_false, if_true, run_op, run_ret, pure_eq]
        rfl
      · simp only [hdone, not_false_eq_true, if_true, if_false, run_ret, pure_eq]
        rfl
  · rw [if_neg hret, if_neg hret]

variable (row : FriendRequestRow) (t : Tables)

theorem insertedBoth_requests : (insertedBoth e row t).t_friend_request = t.t_friend_request := by
  unfold insertedBoth
  dsimp only
  rw [pqExec_insertFriend_tables, pqExec_insertFriend_tables]
  split <;> split <;> simp only [insertFriend_requests]

theorem befriended_insertedBoth (x y : Int) :
    Befriended (insertedBoth e row t) x y ↔
      (e.stmt .acceptIns1 ≠ .failed ∧ x = row.from_uid ∧ y = row.to_uid) ∨
      (e.stmt .acceptIns2 ≠ .failed ∧ x = row.to_uid ∧ y = row.from_uid) ∨ Befriended t x y := by
  unfold insertedBoth
  dsimp only
  rw [pqExec_insertFriend_tables, pqExec_insertFriend_tables]
  by_cases h₁ : e.stmt .acceptIns1 = .failed
  · by_cases h₂ : e.stmt .acceptIns2 = .failed
    · simp [h₁, h₂]
    · simp [h₁, h₂, befriended_insertFriend]
  · by_cases h₂ : e.stmt .acceptIns2 = .failed
    · simp [h₁, h₂, befriended_insertFriend]
    · simp [h₁, h₂, befriended_insertFriend, or_left_comm]

end Accept

section Requests

def asRequest (r : FriendRequestRow) : FriendRequest :=
  { req_id := r.id, from_uid := r.from_uid, to_uid := r.to_uid, reason := r.reason,
    create_time := r.create_time, status := r.status }

theorem run_getFriendRequestsForUser (e : Env) (w : World) (uid : Int) :
    (getFriendRequestsForUser uid).run e.exec w =
      (some (if e.Returns .getFriendRequestsForUser then
        ((pendingRows w.tables).filter fun r => r.to_uid = uid).map asRequest else []), w) := by
  have hexec : Query.exec (.selectFriendRequests uid) w.tables =
      (.tuples (((pendingRows w.tables).filter fun r => r.to_uid = uid).map Query.friendRequestCells),
        w.tables) := by
    rw [← filter_pendingRows]
    rfl
  refine (run_query e w _ rfl rfl [] fun w => by simp).trans ?_
  by_cases hret : e.Returns .getFriendRequestsForUser
  · rw [if_pos hret, if_pos hret, hexec]
    have hcells : ∀ rows : List FriendRequestRow, (List.range rows.length).mapM
        (friendRequest (.tuples (rows.map Query.friendRequestCells))) = some (rows.map asRequest) := by
      intro rows
      apply mapM_rows _ asRequest rows
      intro i r hr
      simp [friendRequest, PGresult.getvalue, hr, Query.friendRequestCells, asRequest, stoi]
    simp [hcells]
  · rw [if_neg hret, if_neg hret]

theorem run_listFriends (e : Env) (w : World) (uid : Int) :
    (PooledDbClient.listFriends uid).run e.exec w =
      (some (if e.Returns .listFriends then
        (w.tables.t_friend.filter fun r => r.uid = uid).map (·.friend_uid) else []), w) := by
  refine (run_query e w _ rfl rfl [] fun w => by simp).trans ?_
  by_cases hret : e.Returns .listFriends
  · rw [if_pos hret, if_pos hret, Query.exec]
    have hcells : ∀ rows : List FriendRow, (List.range rows.length).mapM
        (fun i => stoll ((PGresult.tuples (rows.map fun r => [to_string r.friend_uid])).getvalue i 0)) =
          some (rows.map (·.friend_uid)) := by
      intro rows
      apply mapM_rows _ (·.friend_uid) rows
      intro i r hr
      simp [PGresult.getvalue, hr]
    simp [hcells]
  · rw [if_neg hret, if_neg hret]

variable {e : Env} (he : e.Serves) (w : World)
include he

end Requests
end LetsChat
