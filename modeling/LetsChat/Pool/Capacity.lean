import LetsChat.Pool.Accounting

/-! `max_pool_` is tested before the lock is given up to connect, and not again after it
is taken back. The bound holds exactly in the runs in which there is still room then. -/

namespace LetsChat.Pool
open Lib Lib.Machine

variable {K : PoolKind} {τ : Type}

def Capped (max_pool_ : SizeT) (s : State K τ) : Prop :=
  s.idle_.length + s.guards.length ≤ max_pool_.toNat ∧ s.total_created_ ≤ max_pool_

/-- When a thread comes back with a connection the counter is below the bound. -/
def RoomOnRelock (max_pool_ : SizeT) (s : State K τ) (i : Input K τ) : Prop :=
  ∀ t c, i = .relock t → s.threads t = .connected (some c) → s.total_created_ < max_pool_

variable {max_pool_ : SizeT} {s s' : State K τ} {i : Input K τ} {o : Output}

theorem Accounted.capped_iff (h : Accounted s) : Capped max_pool_ s ↔ s.total_created_ ≤ max_pool_ := by
  rw [Capped, ← h.total, and_iff_right_iff_imp]
  exact id

theorem release_total_le (s : State K τ) (c : Conn) :
    (s.release c).2.total_created_ ≤ s.total_created_ := by
  unfold State.release
  dsimp only
  split
  · exact BitVec.le_refl _
  · dsimp only
    split
    · next hpos => exact Nat.le_of_lt (toNat_pred hpos ▸ Nat.lt_succ_self _)
    · exact BitVec.le_refl _

theorem capped_construct {min_pool : SizeT} (init : Startup K min_pool) (hmin : min_pool ≤ max_pool_) :
    Capped max_pool_ (construct init : State K τ) := by
  have haccounted : Accounted (construct init : State K τ) := accounted_construct init
  have hlength : (construct init : State K τ).idle_.length ≤ init.attempts.length := by
    rw [construct, List.length_map]
    exact List.length_filterMap_le ..
  rw [init.length_eq] at hlength
  apply haccounted.capped_iff.mpr
  rw [BitVec.le_def, haccounted.total]
  exact hlength.trans hmin

variable [DecidableEq τ]

theorem turn_total_le (h : Accounted s) (t : τ) :
    (s.turn max_pool_ t).2.total_created_ ≤ s.total_created_ := by
  have htotal := drain_total s.isHealthy s.idle_ s.total_created_ (h.total ▸ Nat.le_add_right ..)
  rw [turn_total]
  exact Nat.le.intro htotal

theorem capped_step_iff (h : Accounted s) (hcapped : Capped max_pool_ s)
    (hstep : (pool K τ max_pool_).step s i = some (o, s')) :
    Capped max_pool_ s' ↔ RoomOnRelock max_pool_ s i := by
  have hle := h.capped_iff.mp hcapped
  rw [(accounted_step h hstep).capped_iff]
  cases move_of_step hstep with
  | acquire => exact iff_of_true hle nofun
  | locked t => exact iff_of_true (BitVec.le_trans (turn_total_le h t) hle) nofun
  | failed => exact iff_of_true hle nofun
  | created => exact iff_of_true hle nofun
  | joined t c ht =>
    -- the counter goes up by one, whatever it has become since the test
    have hafter := (h.handNew (State.transit_of_eq ht)).total
    change (s.total_created_ + 1).toNat = s.idle_.length + (s.guards ++ [c]).length at hafter
    rw [List.length_append, List.length_singleton, ← Nat.add_assoc, ← h.total] at hafter
    show (s.total_created_ + 1).toNat ≤ max_pool_.toNat ↔ _
    rw [hafter]
    exact ⟨fun hroom _ _ _ _ => hroom, fun hroom => hroom t c rfl ht⟩
  | gaveUp t ht =>
    apply iff_of_true hle
    rintro _ c ⟨⟩ hc
    rw [ht] at hc
    cases hc
  | woken t => exact iff_of_true (BitVec.le_trans (turn_total_le h t) hle) nofun
  | timeout => exact iff_of_true hle nofun
  | released c => exact iff_of_true (BitVec.le_trans (release_total_le s c) hle) nofun
  | setStatus => exact iff_of_true hle nofun

theorem cap_holds_iff {min_pool : SizeT} (hmin : min_pool ≤ max_pool_) (init : Startup K min_pool)
    (is : List (Input K τ)) :
    (pool K τ max_pool_).EveryState (fun _ => Capped max_pool_) [] (construct init) is ↔
      (pool K τ max_pool_).EveryStep (fun _ s i _ _ => RoomOnRelock max_pool_ s i) []
        (construct init) is :=
  everyState_iff_everyStep (I := fun _ => Accounted)
    (fun _ _ _ _ _ h _ _ hstep => accounted_step h hstep)
    (fun _ _ _ _ _ h hcapped hstep => capped_step_iff h hcapped hstep)
    (accounted_construct init) (capped_construct init hmin)

def noneAtStartup : Startup DbPool 0 := ⟨[], rfl, List.nodup_nil⟩

def twoAcquires : List (Input DbPool Bool) :=
  [.acquire false, .acquire true, .lock false, .lock true,
    .connect false (some .CONNECTION_OK) ⟨1, by decide⟩,
    .connect true (some .CONNECTION_OK) ⟨2, by decide⟩, .relock false, .relock true]

theorem cap_holds_iff_twoAcquires :
    (0 : SizeT) ≤ 1 ∧
      ((pool DbPool Bool 1).EveryState (fun _ => Capped 1) [] (construct noneAtStartup) twoAcquires ↔
        (pool DbPool Bool 1).EveryStep (fun _ s i _ _ => RoomOnRelock 1 s i) []
          (construct noneAtStartup) twoAcquires) :=
  ⟨by decide, cap_holds_iff (by decide) noneAtStartup twoAcquires⟩

theorem two_connections_of_one :
    ¬(pool DbPool Bool 1).EveryState (fun _ => Capped 1) [] (construct noneAtStartup) twoAcquires := by
  intro h
  have h₁ := h.2 _ _ rfl
  have h₂ := h₁.2 _ _ rfl
  have h₃ := h₂.2 _ _ rfl
  have h₄ := h₃.2 _ _ rfl
  have h₅ := h₄.2 _ _ rfl
  have h₆ := h₅.2 _ _ rfl
  have h₇ := h₆.2 _ _ rfl
  have h₈ := h₇.2 _ _ rfl
  have htwo : ¬(2 : SizeT) ≤ 1 := by decide
  exact htwo h₈.2

end LetsChat.Pool
