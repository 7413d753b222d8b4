import LetsChat.FriendTables
import LetsChat.LogicService

/-! The friend tables as an abstract friendship: the requests that wait for an answer, and
the ones that were accepted. -/

namespace LetsChat
open Lib Prog Machine PooledDbClient LogicServiceImpl

/-- Requests are listed in the order of their creation. -/
structure Friendship where
  pending : List FriendRequest := []
  accepted : List FriendRequest := []

namespace Friendship

def Friends (f : Friendship) (a b : Int) : Prop :=
  ∃ q ∈ f.accepted, (q.from_uid = a ∧ q.to_uid = b) ∨ (q.from_uid = b ∧ q.to_uid = a)

instance (f : Friendship) (a b : Int) : Decidable (f.Friends a b) :=
  inferInstanceAs (Decidable (∃ q ∈ f.accepted, _))

def create (f : Friendship) (q : FriendRequest) : Friendship :=
  { f with pending := f.pending ++ [q] }

def answer (f : Friendship) (req_id : Int) (accept : Bool) : Friendship where
  pending := f.pending.filter fun q => q.req_id ≠ req_id
  accepted := f.accepted ++ if accept then f.pending.filter fun q => q.req_id = req_id else []

end Friendship

inductive FriendCall
  | sendFriendRequest (r : SendFriendReq)
  | respondFriendRequest (r : RespondFriendReq)

def FriendCall.request : FriendCall → Request
  | sendFriendRequest r => .sendFriendRequest r
  | respondFriendRequest r => .respondFriendRequest r

/-- What a call and its reply mean: a request is created with the id of the reply. -/
def Friendship.after (f : Friendship) : (FriendCall × ServingEnv) × Option Reply → Friendship
  | ((.sendFriendRequest r, e), some (.sendFriendRequest res)) =>
    if res.err_code = .ERR_SUCCESS then
      f.create
        { req_id := res.req_id
          from_uid := r.from_uid
          to_uid := r.to_uid
          reason := r.reason
          create_time := e.env.time .createFriendRequest }
    else f
  | ((.respondFriendRequest r, _), _) => f.answer r.req_id r.accept
  | _ => f

structure Simulates (f : Friendship) (t : Tables) : Prop where
  pending : (pendingRows t).map asRequest = f.pending
  friends : ∀ a b, Befriended t a b ↔ f.Friends a b
  unique : (t.t_friend.map fun r => (r.uid, r.friend_uid)).Nodup

theorem pending_updateStatus {f : Friendship} {t : Tables}
    (hpending : (pendingRows t).map asRequest = f.pending) (req_id : Int) {status : Int}
    (hstatus : status ≠ 0) :
    (pendingRows (Query.updateStatus req_id status t).2).map asRequest =
      f.pending.filter fun q => q.req_id ≠ req_id := by
  have hrows : pendingRows (Query.updateStatus req_id status t).2 =
      (pendingRows t).filter fun r => !decide (r.id = req_id) := by
    unfold pendingRows Query.updateStatus
    exact t.t_friend_request.filter_update (fun r => r.id = req_id) (fun r => r.status = 0)
      (Query.setStatus status) (fun _ => rfl) fun r => decide_eq_false hstatus
  rw [hrows, ← hpending, List.filter_map]
  congr 2
  funext r
  exact decide_not.symm

section Steps
variable {f : Friendship} {t : Tables} (hsim : Simulates f t)
include hsim

theorem Simulates.create (from_uid to_uid : Int) (reason : Text) (now : Int) :
    Simulates (f.create ⟨t.t_friend_request.next, from_uid, to_uid, reason, now, 0⟩)
      (Query.exec (.insertFriendRequest from_uid to_uid reason now) t).2 where
  pending := by
    show (List.filter _ (t.t_friend_request.rows ++ [_])).map asRequest = f.pending ++ _
    rw [List.filter_append, List.map_append, ← hsim.pending]
    rfl
  friends := hsim.friends
  unique := hsim.unique

theorem Simulates.pending_id (req_id : Int) :
    f.pending.filter (fun q => q.req_id = req_id) = ((pendingRow t req_id).toList).map asRequest := by
  rw [← hsim.pending, List.filter_map, ← pendingRows_id]
  rfl

theorem Simulates.accept {e : Env} (he : e.Serves) {req_id : Int} {row : FriendRequestRow}
    (hrow : pendingRow t req_id = some row) :
    Simulates (f.answer req_id true) (Query.updateStatus req_id 1 (insertedBoth e row t)).2 where
  pending := by
    refine pending_updateStatus ?_ req_id (by decide)
    unfold pendingRows
    rw [insertedBoth_requests]
    exact hsim.pending
  friends a b := by
    have hreach : ∀ site, e.stmt site ≠ .failed := fun site => (he.returns site).reaches.2
    have hfriends : Befriended (Query.updateStatus req_id 1 (insertedBoth e row t)).2 a b ↔
        (a = row.from_uid ∧ b = row.to_uid) ∨ (a = row.to_uid ∧ b = row.from_uid) ∨ f.Friends a b := by
      rw [← hsim.friends]
      apply (befriended_insertedBoth e row t a b).trans
      simp only [hreach, ne_eq, not_false_eq_true, true_and]
    rw [hfriends]
    unfold Friendship.answer Friendship.Friends
    rw [if_pos rfl, hsim.pending_id, hrow]
    simp only [Option.toList_some, List.map_cons, List.map_nil, List.mem_append,
      List.mem_singleton, or_and_right, exists_or, exists_eq_left]
    unfold asRequest
    constructor
    · rintro (⟨rfl, rfl⟩ | ⟨rfl, rfl⟩ | h)
      · exact .inr (.inl ⟨rfl, rfl⟩)
      · exact .inr (.inr ⟨rfl, rfl⟩)
      · exact .inl h
    · rintro (h | ⟨rfl, rfl⟩ | ⟨rfl, rfl⟩)
      · exact .inr (.inr h)
      · exact .inl ⟨rfl, rfl⟩
      · exact .inr (.inl ⟨rfl, rfl⟩)
  unique := by
    show ((insertedBoth e row t).t_friend.map fun r => (r.uid, r.friend_uid)).Nodup
    unfold insertedBoth
    dsimp only
    rw [pqExec_insertFriend_tables, pqExec_insertFriend_tables,
      if_neg (he.returns .acceptIns2).reaches.2, if_neg (he.returns .acceptIns1).reaches.2]
    exact unique_insertFriend _ _ _ _ (unique_insertFriend _ _ _ _ hsim.unique)

end Steps

def Issues (i : FriendCall × ServingEnv) (o : Option Reply) (t t' : Tables) : Prop :=
  (∃ r e res, i = (.sendFriendRequest r, e) ∧ o = some (.sendFriendRequest res) ∧
    res.err_code = .ERR_SUCCESS ∧ res.req_id = t.t_friend_request.next ∧
    t'.t_friend_request.next = t.t_friend_request.next + 1) ∨
  (∃ r e res, i = (.respondFriendRequest r, e) ∧ o = some (.respondFriendRequest res) ∧
    t'.t_friend_request.next = t.t_friend_request.next)

section Queries
variable {f : Friendship} {w : World} (hsim : Simulates f w.tables)
include hsim

theorem Simulates.ids : (f.pending.map (·.req_id)).Nodup := by
  rw [← hsim.pending, List.map_map]
  have hasc : (pendingRows w.tables).Pairwise fun a b => a.id < b.id :=
    w.tables.t_friend_request.ascending.sublist List.filter_sublist
  refine List.pairwise_map.mpr (hasc.imp fun {a b} hlt => ?_)
  exact Int.ne_of_lt hlt

theorem Simulates.listed (a : Int) :
    ((w.tables.t_friend.filter fun r => r.uid = a).map (·.friend_uid)).Nodup ∧
      ∀ b, b ∈ (w.tables.t_friend.filter fun r => r.uid = a).map (·.friend_uid) ↔ f.Friends a b := by
  constructor
  · have hpairs : ((w.tables.t_friend.filter fun r => r.uid = a).map fun r =>
        (r.uid, r.friend_uid)).Nodup :=
      hsim.unique.sublist (List.filter_sublist.map _)
    -- all these rows have the same first component
    have hfirst : (w.tables.t_friend.filter fun r => r.uid = a).map (fun r => (r.uid, r.friend_uid)) =
        ((w.tables.t_friend.filter fun r => r.uid = a).map (·.friend_uid)).map fun b => (a, b) := by
      rw [List.map_map]
      apply List.map_congr_left
      intro r hr
      have huid : r.uid = a := of_decide_eq_true (List.mem_filter.mp hr).2
      rw [huid]
      rfl
    rw [hfirst] at hpairs
    exact hpairs.of_map _
  · intro b
    rw [← hsim.friends]
    simp only [List.mem_map, List.mem_filter, decide_eq_true_eq, Befriended, and_assoc]

end Queries

def Issued (h : History (FriendCall × ServingEnv) (Option Reply)) (t : Tables) : Prop :=
  ∀ ev ∈ h, ∀ res, ev.2 = some (.sendFriendRequest res) → res.req_id < t.t_friend_request.next

theorem Issued.step {h : History (FriendCall × ServingEnv) (Option Reply)} {t t' : Tables}
    {i : FriendCall × ServingEnv} {o : Option Reply} (hissued : Issued h t)
    (hstep : Issues i o t t') : Issued (h ++ [(i, o)]) t' := by
  intro ev hev res hres
  rcases List.mem_append.mp hev with hev | hev
  · have hlt := hissued ev hev res hres
    rcases hstep with ⟨_, _, _, -, -, -, -, hnext⟩ | ⟨_, _, _, -, -, hnext⟩
    · omega
    · omega
  · obtain rfl := List.mem_singleton.mp hev
    rcases hstep with ⟨_, _, res', -, rfl, -, hid, hnext⟩ | ⟨_, _, _, -, rfl, -⟩
    · cases hres
      omega
    · cases hres

end LetsChat
