import LetsChat.Lib.Path
import LetsChat.Pool.Accounting

/-! A pool from its constructor to its destructor. Each connection that was opened is closed
once, and what the destructor leaves open is in a guard or on its way into one. -/

namespace LetsChat.Pool
open Lib Lib.Machine

variable {K : PoolKind} {τ : Type}

/-- `~DbPool` and `~RedisPool`. -/
def State.destroy (s : State K τ) : Output × State K τ :=
  ({ freed := s.idle_ }, { s.freeAll s.idle_ with idle_ := [], total_created_ := 0 })

def Startup.opens {min_pool : SizeT} (init : Startup K min_pool) : List Conn :=
  (init.attempts.filterMap K.connection).map Prod.fst

def Input.opens : Input K τ → List Conn
  | .connect _ attempt c => if (K.createConn attempt).isSome then [c] else []
  | _ => []

def opened {min_pool : SizeT} (init : Startup K min_pool) (h : History (Input K τ) Output) :
    List Conn :=
  init.opens ++ h.flatMap fun e => e.1.opens

def closed (h : History (Input K τ) Output) : List Conn := h.flatMap fun e => e.2.freed

variable {max_pool_ : SizeT} {s s' : State K τ} {i : Input K τ} {o : Output}

theorem turnover_destroy (h : Accounted s) :
    Turnover [] s.destroy.1.freed s.live s.destroy.2.live :=
  .closing (List.nodup_append.mp h.owners.nodup).1
    (fun _ hc => h.owners.live_of_mem (List.mem_append_left _ hc)) fun _ => State.live_freeAll

theorem live_destroy_iff (h : Accounted s) (c : Conn) :
    s.destroy.2.live c ↔ c ∈ s.guards ∨ ∃ t, s.transit t = some c :=
  State.live_freeAll.trans (h.owners.free.live_iff c)

structure ClosedOnce {min_pool : SizeT} (init : Startup K min_pool)
    (h : History (Input K τ) Output) (s : State K τ) : Prop where
  balanced : Balanced (opened init h) (closed h) s.live
  destroyed : Balanced (opened init h) (closed h ++ s.destroy.1.freed) s.destroy.2.live
  all_closed_iff :
    (∀ c, (opened init h).count c = (closed h ++ s.destroy.1.freed).count c) ↔
      s.guards = [] ∧ ∀ t, s.transit t = none

theorem closedOnce_of_balanced {min_pool : SizeT} {init : Startup K min_pool}
    {h : History (Input K τ) Output} (haccounted : Accounted s)
    (hbalanced : Balanced (opened init h) (closed h) s.live) : ClosedOnce init h s := by
  have hdestroyed : Balanced (opened init h) (closed h ++ s.destroy.1.freed) s.destroy.2.live := by
    have hall := hbalanced.turnover (turnover_destroy haccounted)
    rw [List.append_nil] at hall
    exact hall
  refine ⟨hbalanced, hdestroyed, hdestroyed.count_eq_iff.trans ⟨fun hdead => ?_, ?_⟩⟩
  · have hnowhere := fun c hc => hdead c ((live_destroy_iff haccounted c).mpr hc)
    refine ⟨List.eq_nil_iff_forall_not_mem.mpr fun c hc => hnowhere c (.inl hc), fun t => ?_⟩
    exact Option.eq_none_iff_forall_ne_some.mpr fun c hc => hnowhere c (.inr ⟨t, hc⟩)
  · rintro ⟨hguards, htransit⟩ c hc
    rcases (live_destroy_iff haccounted c).mp hc with hmem | ⟨t, ht⟩
    · rw [hguards] at hmem
      cases hmem
    · rw [htransit t] at ht
      cases ht

theorem balanced_construct {min_pool : SizeT} (init : Startup K min_pool) :
    let h : History (Input K τ) Output := []
    Balanced (opened init h) (closed h) (construct init : State K τ).live := by
  intro h
  have hopens : opened init h = init.opens := List.append_nil _
  rw [hopens]
  refine .start init.distinct fun c => ?_
  have howned := (accounted_construct (τ := τ) init).owners.live_iff c
  rw [construct, List.append_nil] at howned
  refine howned.trans ⟨?_, .inl⟩
  rintro (hmem | ⟨t, ht⟩)
  · exact hmem
  · cases ht

theorem turnover_release (hsafe : SafeStep s i (s.release c).1) :
    Turnover [] (s.release c).1.freed s.live (s.release c).2.live := by
  refine .closing hsafe.freed_nodup hsafe.freed_live fun c' => ?_
  unfold State.release
  dsimp only
  split
  · exact ⟨fun hlive => ⟨hlive, List.not_mem_nil⟩, And.left⟩
  · exact State.live_freeAll

variable [DecidableEq τ]

theorem turnover_turn {t : τ} (hsafe : SafeStep s i (s.turn max_pool_ t).1) :
    Turnover [] (s.turn max_pool_ t).1.freed s.live (s.turn max_pool_ t).2.live := by
  refine .closing hsafe.freed_nodup hsafe.freed_live fun c => ?_
  unfold State.turn
  dsimp only
  split
  · exact State.live_freeAll
  · split
    · exact State.live_freeAll
    · exact State.live_freeAll

theorem turnover_connect {t : τ} {attempt : K.Attempt} {c : Conn}
    (hstep : (pool K τ max_pool_).step s (.connect t attempt c) = some (o, s')) :
    Turnover (Input.opens (.connect t attempt c : Input K τ)) o.freed s.live s'.live := by
  obtain ⟨-, hcreate⟩ := Option.ite_none_right_eq_some.mp hstep
  cases hconn : K.createConn attempt with
  | none =>
    have hnone : Input.opens (.connect t attempt c : Input K τ) = [] := by
      simp [Input.opens, hconn]
    rw [hconn] at hcreate
    cases hcreate
    rw [hnone]
    exact .quiet fun c' => Iff.rfl
  | some status =>
    have hsome : Input.opens (.connect t attempt c : Input K τ) = [c] := by
      simp [Input.opens, hconn]
    rw [hconn] at hcreate
    obtain ⟨hfresh, ⟨⟩⟩ := Option.ite_none_right_eq_some.mp hcreate
    have hdead : ¬s.live c := not_not_intro hfresh
    rw [hsome]
    exact .opening hdead fun c' => State.live_setHeap

theorem turnover_step (h : Accounted s) (hstep : (pool K τ max_pool_).step s i = some (o, s')) :
    Turnover i.opens o.freed s.live s'.live := by
  have hsafe := safeStep_of_accounted h hstep
  cases move_of_step hstep with
  | acquire => exact .quiet fun c => Iff.rfl
  | locked => exact turnover_turn hsafe
  | failed => exact turnover_connect hstep
  | created => exact turnover_connect hstep
  | joined => exact .quiet fun c => Iff.rfl
  | gaveUp => exact .quiet fun c => Iff.rfl
  | woken => exact turnover_turn hsafe
  | timeout => exact .quiet fun c => Iff.rfl
  | released => exact turnover_release hsafe
  | setStatus c status hc =>
    refine .quiet fun c' => State.live_setHeap.trans ⟨?_, .inr⟩
    rintro (rfl | hlive)
    · exact hc
    · exact hlive

theorem balanced_everyState {min_pool : SizeT} (init : Startup K min_pool) (is : List (Input K τ)) :
    (pool K τ max_pool_).EveryState
      (fun h s => Accounted s ∧ Balanced (opened init h) (closed h) s.live) []
      (construct init) is := by
  refine everyState_of_invariant (fun h s i o s' hI hstep => ?_)
    ⟨accounted_construct init, balanced_construct init⟩
  refine ⟨accounted_step hI.1 hstep, ?_⟩
  have hnext := hI.2.turnover (turnover_step hI.1 hstep)
  rw [opened, List.append_assoc] at hnext
  simp only [opened, closed, List.flatMap_append, List.flatMap_singleton]
  exact hnext

theorem closedOnce_of_run {min_pool : SizeT} {init : Startup K min_pool}
    {h : History (Input K τ) Output} (hrun : (pool K τ max_pool_).Run h (construct init) s) :
    ClosedOnce init h s := by
  have hall := (balanced_everyState init (h.map (·.1))).along hrun
  exact closedOnce_of_balanced hall.1 hall.2

/-- In every run of any number of threads a connection has been closed as often as opened while
it is not live, and once less while it is. A destructor at the end closes all that is left,
exactly when no guard is held and no thread has a connection it has not put into one. -/
theorem connections_closed_once {min_pool : SizeT} (init : Startup K min_pool)
    (is : List (Input K τ)) :
    (pool K τ max_pool_).EveryState (ClosedOnce init) [] (construct init) is :=
  (balanced_everyState init is).mono fun _ _ hI => closedOnce_of_balanced hI.1 hI.2

end LetsChat.Pool
