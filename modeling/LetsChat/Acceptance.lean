import LetsChat.FriendTables

/-! Accepting a friend request when statements may fail. -/

namespace LetsChat
open Lib Prog PooledDbClient

def Symmetric (t : Tables) : Prop := ∀ a b, Befriended t a b → Befriended t b a

def AllOrNothing (e : Env) (w : World) (req_id : Int) : Prop :=
  let res := (acceptFriendRequest req_id).run e.exec w
  (res.1 = some false → res.2.tables.t_friend = w.tables.t_friend ∧
    res.2.tables.t_friend_request = w.tables.t_friend_request) ∧
  (Symmetric w.tables → Symmetric res.2.tables)

/-- Once the request is found, both inserts succeed, or neither of them adds a row: it does not
reach the server, or its row is there already. -/
def InsertsTogether (e : Env) (t : Tables) (req_id : Int) : Prop :=
  ∀ row, foundRow e req_id t = some row → InsertsDone e ∨
    ((e.stmt .acceptIns1 = .failed ∨ Befriended t row.from_uid row.to_uid) ∧
      (e.stmt .acceptIns2 = .failed ∨ Befriended t row.to_uid row.from_uid))

section Inserts
variable {e : Env} {row : FriendRequestRow} {t : Tables}

theorem insertedBoth_friends_iff :
    (insertedBoth e row t).t_friend = t.t_friend ↔
      (e.stmt .acceptIns1 = .failed ∨ Befriended t row.from_uid row.to_uid) ∧
        (e.stmt .acceptIns2 = .failed ∨ Befriended t row.to_uid row.from_uid) := by
  constructor
  · intro hsame
    have hrows : ∀ x y, Befriended (insertedBoth e row t) x y → Befriended t x y := by
      intro x y h
      unfold Befriended at h
      rwa [hsame] at h
    constructor
    · by_cases h₁ : e.stmt .acceptIns1 = .failed
      · exact .inl h₁
      · exact .inr (hrows _ _ ((befriended_insertedBoth e row t _ _).mpr (.inl ⟨h₁, rfl, rfl⟩)))
    · by_cases h₂ : e.stmt .acceptIns2 = .failed
      · exact .inl h₂
      · exact .inr (hrows _ _ ((befriended_insertedBoth e row t _ _).mpr
          (.inr (.inl ⟨h₂, rfl, rfl⟩))))
  · rintro ⟨hfirst, hsecond⟩
    have hnone : ∀ site a b now, e.stmt site = .failed ∨ Befriended t a b →
        (e.pqExec site (.insertFriend a b now) t).2 = t := by
      intro site a b now h
      rw [pqExec_insertFriend_tables]
      split
      · rfl
      · next hreach => rw [insertFriend_present t (h.resolve_left hreach)]
    unfold insertedBoth
    dsimp only
    rw [hnone _ _ _ _ hfirst, hnone _ _ _ _ hsecond]

theorem Symmetric.insertedBoth (hsymm : Symmetric t) (hdone : InsertsDone e) :
    Symmetric (insertedBoth e row t) := by
  have hreach : ∀ site, e.stmt site = .done → e.stmt site ≠ .failed := by
    intro site h
    rw [h]
    decide
  intro a b hab
  rw [befriended_insertedBoth] at hab ⊢
  rcases hab with ⟨-, rfl, rfl⟩ | ⟨-, rfl, rfl⟩ | hab
  · exact .inr (.inl ⟨hreach _ hdone.2, rfl, rfl⟩)
  · exact .inl ⟨hreach _ hdone.1, rfl, rfl⟩
  · exact .inr (.inr (hsymm a b hab))

theorem pqExec_acceptRequest_friends (e : Env) (site : Site) (req_id : Int) (t : Tables) :
    (e.pqExec site (.acceptRequest req_id) t).2.t_friend = t.t_friend := by
  rw [Env.pqExec_snd, e.serve_plain rfl]
  split <;> rfl

end Inserts

theorem all_or_nothing_iff (e : Env) (w : World) (req_id : Int) :
    AllOrNothing e w req_id ↔ InsertsTogether e w.tables req_id := by
  unfold AllOrNothing InsertsTogether
  rw [run_acceptFriendRequest]
  cases hfound : foundRow e req_id w.tables with
  | none => exact iff_of_true ⟨fun _ => ⟨rfl, rfl⟩, id⟩ fun row hrow => by cases hrow
  | some row =>
    dsimp only
    by_cases hdone : InsertsDone e
    · rw [if_pos hdone]
      refine iff_of_true ⟨fun h => (by cases h), fun hsymm => ?_⟩ fun _ _ => .inl hdone
      -- the update does not touch the friendships
      have hafter : Symmetric (insertedBoth e row w.tables) := hsymm.insertedBoth hdone
      unfold Symmetric Befriended at hafter ⊢
      rwa [pqExec_acceptRequest_friends]
    · rw [if_neg hdone]
      constructor
      · rintro ⟨hfalse, -⟩ _ ⟨⟩
        exact .inr (insertedBoth_friends_iff.mp (hfalse rfl).1)
      · intro htogether
        have hsame := insertedBoth_friends_iff.mpr ((htogether row rfl).resolve_left hdone)
        refine ⟨fun _ => ⟨hsame, insertedBoth_requests e row w.tables⟩, fun hsymm => ?_⟩
        unfold Symmetric Befriended at hsymm ⊢
        rwa [hsame]

def onePending : World :=
  { World.empty with
    tables := { Tables.empty with
      t_friend_request := SerialTable.empty.insert (fun id => ⟨id, 1, 2, [], 0, 0⟩) fun _ => rfl } }

/-- The connection breaks between the two inserts. -/
def halfway : Env :=
  { Env.fair with stmt := fun site => if site = .acceptIns2 then .failed else .done }

theorem half_made_friendship : ¬AllOrNothing halfway onePending 1 := by
  rintro ⟨-, hsymm⟩
  have hempty : Symmetric onePending.tables := by
    rintro a b ⟨r, hr, -⟩
    exact absurd hr List.not_mem_nil
  have hback := hsymm hempty 1 2
  rw [run_acceptFriendRequest] at hback
  exact absurd (hback (by decide)) (by decide)

end LetsChat
