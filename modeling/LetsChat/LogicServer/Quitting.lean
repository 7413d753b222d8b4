import LetsChat.LogicServer.Ownership
import LetsChat.Pool.Lifetime

/-! A thread that has a connection needs nobody else to give it back. Once the calls have ended
the destructors of the pools close all that was opened. -/

namespace LetsChat.LogicServer
open Lib Lib.Machine Prog

variable {password_ : Text} {impl : LogicServiceImpl} {s s' : State password_}

section Enabled
variable {k : Nat} {req : Request} {e : Env} {past : List GuardedEvent}

end Enabled

theorem pools_of_move {i : Input password_} (hmove : Move impl s i s') : s'.pools = s.pools ∨
    ∃ p i o pool, (poolMachine password_ p).step (s.pools p) i = some (o, pool) ∧
      s'.pools = Function.update s.pools p pool := by
  cases hmove with
  | call => exact .inl rfl
  | pick => exact .inl rfl
  | left k req e past next guard guards s₁ hk hguards hdestroyed =>
    cases hdestroyed with
    | empty => exact .inl rfl
    | released p c o pool hstep => exact .inr ⟨p, _, o, pool, hstep, rfl⟩
  | asked p i k t answer o pool hi hk hopening hstep =>
    refine .inr ⟨p, i, o, pool, hstep, ?_⟩
    unfold returned
    split
    · rfl
    · split <;> rfl
  | setStatus p c status o pool hstep => exact .inr ⟨p, _, o, pool, hstep, rfl⟩

def PoolsRun (init : (p : PoolName) → Pool.Startup (p.kind password_) p.min_pool)
    (s : State password_) : Prop :=
  ∀ p, ∃ h, (poolMachine password_ p).Run h (Pool.construct (init p)) (s.pools p)

variable {init : (p : PoolName) → Pool.Startup (p.kind password_) p.min_pool}

theorem poolsRun_step (h : PoolsRun init s) {i : Input password_} {u : Unit}
    (hstep : (server password_ impl).step s i = some (u, s')) : PoolsRun init s' := by
  rcases pools_of_move (move_of_step hstep) with hsame | ⟨p, i, o, pool, hpool, hupdate⟩
  · rw [PoolsRun, hsame]
    exact h
  · rw [PoolsRun, hupdate]
    refine (Function.forall_update_iff s.pools fun p pool =>
      ∃ h, (poolMachine password_ p).Run h (Pool.construct (init p)) pool).mpr
      ⟨?_, fun p' _ => h p'⟩
    obtain ⟨hist, hrun⟩ := h p
    exact ⟨hist ++ [(i, o)], path_snoc.mpr ⟨_, hrun, hpool⟩⟩

theorem Sound.ended (h : Sound s) (hended : ∀ t ∈ s.calls.threads, t.rest.finished = true)
    (k : Nat) : s.guards k = [] := by
  cases hk : s.calls.threads[k]? with
  | none => exact h.threaded.absent k hk
  | some t =>
    obtain ⟨g, hnested, hsort⟩ := h.threaded.nested k t hk
    have hfinished := hended t (List.mem_of_getElem? hk)
    obtain rfl : g = none := by
      cases hrest : t.rest with
      | ret a =>
        rw [hrest] at hnested
        exact hnested
      | throw =>
        rw [hrest] at hnested
        exact hnested
      | op o next =>
        rw [hrest] at hfinished
        cases hfinished
    exact List.map_eq_nil_iff.mp hsort

/-- Each pool has come to its state by a run of its own. Once all calls have returned, the
destructors close every connection as often as any such run has opened and not closed it. -/
theorem server_quits_clean (init : (p : PoolName) → Pool.Startup (p.kind password_) p.min_pool)
    (w : World) (is : List (Input password_)) :
    (server password_ impl).EveryState (fun _ s =>
      (∀ t ∈ s.calls.threads, t.rest.finished = true) →
        ∀ p, (∃ h, (poolMachine password_ p).Run h (Pool.construct (init p)) (s.pools p)) ∧
          ∀ h, (poolMachine password_ p).Run h (Pool.construct (init p)) (s.pools p) →
            ∀ c, (Pool.opened (init p) h).count c =
              (Pool.closed h ++ (s.pools p).destroy.1.freed).count c) []
      (start init w) is := by
  have hall : (server password_ impl).EveryState (fun _ s => Sound s ∧ PoolsRun init s) []
      (start init w) is :=
    everyState_of_invariant (I := fun _ s => Sound s ∧ PoolsRun init s)
      (fun _ _ _ _ _ h hstep => ⟨h.1.step hstep, poolsRun_step h.2 hstep⟩)
      ⟨.initial init w, fun p => ⟨[], rfl⟩⟩
  refine hall.mono fun _ s ⟨hsound, hruns⟩ hended p => ⟨hruns p, fun hist hrun => ?_⟩
  have hguards : (s.pools p).guards = [] := by
    apply List.eq_nil_iff_forall_not_mem.mpr
    intro c hc
    obtain ⟨k, hk⟩ := ((hsound.pooled.holders p).mem_iff c).mp hc
    rw [State.holds_nil (hsound.ended hended k)] at hk
    cases hk
  have htransit : ∀ k, (s.pools p).transit k = none := by
    intro k
    have hout : (s.pools p).threads k = .out := by
      by_contra hne
      obtain ⟨t, answer, hk, hopening⟩ := hsound.asking p k hne
      have hfinished := hended t (List.mem_of_getElem? hk)
      obtain ⟨o, next, hrest, -⟩ := opening_answer hopening
      rw [hrest] at hfinished
      cases hfinished
    exact Pool.State.transit_of_eq hout
  exact (Pool.closedOnce_of_run hrun).all_closed_iff.mpr ⟨hguards, htransit⟩

end LetsChat.LogicServer
