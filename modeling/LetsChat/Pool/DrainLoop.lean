import LetsChat.Lib.Loop
import LetsChat.Pool.IdleWait

/-! The `while (true)` of `Acquire`, pass by pass, up to its first return or the first time
that it gives `mu_` up, and the turn that the machine makes of it. -/

namespace LetsChat.Pool
open Lib

variable {K : PoolKind} {τ : Type}

/-- Where the part of the loop under `mu_` ends: at the return of a guard, at the unlocking
before `CreateConn`, or in `wait_until`. -/
inductive Stop
  | returned (c : Conn)
  | unlocked
  | waiting

structure Draining (K : PoolKind) (τ : Type) where
  pool : State K τ
  freed : List Conn

def acquirePass (max_pool_ : SizeT) (d : Draining K τ) :
    Pass (Draining K τ) (Stop × Draining K τ) :=
  match d.pool.idle_ with
  | c :: idle =>
    let s := { d.pool with idle_ := idle }
    if !s.isHealthy c then
      let s := { s.freeAll [c] with total_created_ := s.total_created_ - 1 }
      .again ⟨s, d.freed ++ [c]⟩
    else .leave (.returned c, ⟨s.hand c, d.freed⟩)
  | [] =>
    if d.pool.total_created_ < max_pool_ then .leave (.unlocked, d) else .leave (.waiting, d)

section Pass
variable {max_pool_ : SizeT} {d d' : Draining K τ} {stop : Stop}

theorem acquirePass_again (h : acquirePass max_pool_ d = .again d') :
    ∃ c idle, d.pool.idle_ = c :: idle ∧ d.pool.isHealthy c = false ∧
      d' = ⟨{ d.pool.freeAll [c] with idle_ := idle, total_created_ := d.pool.total_created_ - 1 },
        d.freed ++ [c]⟩ := by
  unfold acquirePass at h
  split at h
  · next c idle hidle =>
    dsimp only at h
    split at h
    · next hbroken =>
      cases h
      exact ⟨c, idle, hidle, (Bool.not_eq_true' _).mp hbroken, rfl⟩
    · cases h
  · split at h
    · cases h
    · cases h

theorem acquirePass_leave (h : acquirePass max_pool_ d = .leave (stop, d')) :
    (∃ c idle, d.pool.idle_ = c :: idle ∧ d.pool.isHealthy c = true ∧ stop = .returned c ∧
      d' = ⟨{ d.pool with idle_ := idle }.hand c, d.freed⟩) ∨
    (d.pool.idle_ = [] ∧ d' = d ∧
      stop = if d.pool.total_created_ < max_pool_ then .unlocked else .waiting) := by
  unfold acquirePass at h
  split at h
  · next c idle hidle =>
    dsimp only at h
    split at h
    · cases h
    · next hhealthy =>
      have hc : d.pool.isHealthy c = true := by
        rw [Bool.not_eq_true', Bool.not_eq_false] at hhealthy
        exact hhealthy
      cases h
      exact .inl ⟨c, idle, hidle, hc, rfl, rfl⟩
  · next hidle =>
    split at h
    · next hroom =>
      cases h
      exact .inr ⟨hidle, rfl, (if_pos hroom).symm⟩
    · next hfull =>
      cases h
      exact .inr ⟨hidle, rfl, (if_neg hfull).symm⟩

end Pass

theorem heap_freeAll_append (s : State K τ) (a b : List Conn) :
    ((s.freeAll a).freeAll b).heap = (s.freeAll (a ++ b)).heap := by
  funext c
  simp only [State.freeAll, List.mem_append]
  by_cases ha : c ∈ a
  · simp [ha]
  · simp [ha]

/-- The loop has freed `d.freed`, all of it unhealthy, from the front of `s.idle_`. What is left
to drain makes the rest of the whole. -/
structure DrainedFrom (s : State K τ) (d : Draining K τ) : Prop where
  idle : s.idle_ = d.freed ++ d.pool.idle_
  unhealthy : ∀ c ∈ d.freed, s.isHealthy c = false
  total : d.pool.total_created_.toNat + d.freed.length = s.total_created_.toNat
  heap : d.pool.heap = (s.freeAll d.freed).heap
  guards : d.pool.guards = s.guards
  threads : d.pool.threads = s.threads
  drain : drain s.isHealthy s.idle_ s.total_created_ =
    let rest := drain s.isHealthy d.pool.idle_ d.pool.total_created_
    { rest with freed := d.freed ++ rest.freed }

namespace DrainedFrom
variable {max_pool_ : SizeT} {s : State K τ} {d d' : Draining K τ}

theorem start (s : State K τ) : DrainedFrom s ⟨s, []⟩ where
  idle := rfl
  unhealthy := nofun
  total := rfl
  heap := by
    funext c
    show s.heap c = if c ∈ [] then none else s.heap c
    rw [if_neg List.not_mem_nil]
  guards := rfl
  threads := rfl
  drain := rfl

theorem isHealthy_eq (h : DrainedFrom s d) (c : Conn) : d.pool.isHealthy c = s.isHealthy c := by
  rw [State.isHealthy, h.heap]
  show (if c ∈ d.freed then none else s.heap c).any K.isHealthy = s.isHealthy c
  split
  · next hc => exact (h.unhealthy c hc).symm
  · rfl

theorem again (h : DrainedFrom s d) (hcounted : s.idle_.length ≤ s.total_created_.toNat)
    (hpass : acquirePass max_pool_ d = .again d') :
    DrainedFrom s d' ∧ d'.pool.idle_.length < d.pool.idle_.length := by
  obtain ⟨c, idle, hidle, hbroken, rfl⟩ := acquirePass_again hpass
  have hwhole := h.idle
  have htotal := h.total
  have hrest := h.drain
  rw [hidle] at hwhole hrest
  rw [h.isHealthy_eq] at hbroken
  have hpos : 0 < d.pool.total_created_.toNat := by
    rw [hwhole, List.length_append, List.length_cons] at hcounted
    omega
  refine ⟨⟨?_, ?_, ?_, ?_, h.guards, h.threads, ?_⟩, ?_⟩
  · exact hwhole.trans (List.append_cons ..)
  · intro c' hc'
    rcases List.mem_append.mp hc' with hfreed | hlast
    · exact h.unhealthy c' hfreed
    · exact List.mem_singleton.mp hlast ▸ hbroken
  · have hpred := toNat_pred hpos
    show (d.pool.total_created_ - 1).toNat + (d.freed ++ [c]).length = s.total_created_.toNat
    rw [List.length_append, List.length_singleton]
    omega
  · have hfree : (d.pool.freeAll [c]).heap = ((s.freeAll d.freed).freeAll [c]).heap := by
      unfold State.freeAll
      rw [h.heap]
      rfl
    exact hfree.trans (heap_freeAll_append s d.freed [c])
  · rw [hrest, Pool.drain, if_neg (Bool.eq_false_iff.mp hbroken)]
    show Drained.mk (d.freed ++ c :: _) _ _ _ = Drained.mk (d.freed ++ [c] ++ _) _ _ _
    rw [List.append_cons]
  · rw [hidle]
    exact Nat.lt_succ_self _

end DrainedFrom

structure DrainResult (s : State K τ) (stop : Stop) (d : Draining K τ) : Prop where
  total : d.pool.total_created_.toNat + d.freed.length = s.total_created_.toNat
  heap : d.pool.heap = (s.freeAll d.freed).heap
  found : (∃ c ∈ s.idle_, s.isHealthy c = true) →
    ∃ c, stop = .returned c ∧ s.isHealthy c = true ∧ s.idle_ = d.freed ++ c :: d.pool.idle_ ∧
      ∀ c' ∈ d.freed, s.isHealthy c' = false
  emptied : (∀ c ∈ s.idle_, s.isHealthy c = false) →
    d.freed = s.idle_ ∧ d.pool.idle_ = [] ∧ (stop = .unlocked ∨ stop = .waiting)

section Run
variable {max_pool_ : SizeT} {s : State K τ} {d d' : Draining K τ} {stop : Stop}

theorem drainResult_of_leave (h : DrainedFrom s d)
    (hpass : acquirePass max_pool_ d = .leave (stop, d')) : DrainResult s stop d' := by
  have hwhole := h.idle
  rcases acquirePass_leave hpass with ⟨c, idle, hidle, hhealthy, rfl, rfl⟩ | ⟨hidle, rfl, hstop⟩
  · rw [hidle] at hwhole
    rw [h.isHealthy_eq] at hhealthy
    refine ⟨h.total, h.heap, fun _ => ⟨c, rfl, hhealthy, hwhole, h.unhealthy⟩, fun hall => ?_⟩
    have hmem : c ∈ s.idle_ := hwhole ▸ List.mem_append_right d.freed List.mem_cons_self
    rw [hall c hmem] at hhealthy
    cases hhealthy
  · rw [hidle, List.append_nil] at hwhole
    refine ⟨h.total, h.heap, ?_, fun _ => ⟨hwhole.symm, hidle, ?_⟩⟩
    · rintro ⟨c, hc, hhealthy⟩
      rw [h.unhealthy c (hwhole ▸ hc)] at hhealthy
      cases hhealthy
    · rw [hstop]
      split
      · exact .inl rfl
      · exact .inr rfl

theorem passes_acquire (hcounted : s.idle_.length ≤ s.total_created_.toNat) :
    ∃ r, (∃ d, DrainedFrom s d ∧ acquirePass max_pool_ d = .leave r) ∧
      ∀ n, s.idle_.length < n → passes (acquirePass max_pool_) n ⟨s, []⟩ = some r :=
  passes_of_measure (I := DrainedFrom s) (fun d => d.pool.idle_.length)
    (fun _ _ h hpass => h.again hcounted hpass) (fun d _ h hpass => ⟨d, h, hpass⟩) (.start s)

/-- From a counter that counts the idle connections, the loop ends, takes the first healthy
connection, and frees those before it and no others. -/
theorem acquire_drains (max_pool_ : SizeT) (s : State K τ)
    (hcounted : s.idle_.length ≤ s.total_created_.toNat) :
    ∃ stop d, DrainResult s stop d ∧
      ∀ n, s.idle_.length < n → passes (acquirePass max_pool_) n ⟨s, []⟩ = some (stop, d) := by
  obtain ⟨⟨stop, d'⟩, ⟨d, hinv, hpass⟩, hpasses⟩ := @passes_acquire _ _ max_pool_ s hcounted
  exact ⟨stop, d', drainResult_of_leave hinv hpass, hpasses⟩

end Run

def brokenFirst : State DbPool Unit where
  idle_ := [⟨40, by decide⟩, ⟨48, by decide⟩]
  total_created_ := 2
  guards := []
  threads _ := .out
  heap c := if c.addr = 40 then some .CONNECTION_BAD else some .CONNECTION_OK

theorem acquire_drains_brokenFirst : ∃ stop d, DrainResult brokenFirst stop d ∧
    ∀ n, 2 < n → passes (acquirePass 5) n ⟨brokenFirst, []⟩ = some (stop, d) :=
  acquire_drains 5 brokenFirst (by decide)

def Stop.handed : Stop → Option Conn
  | .returned c => some c
  | _ => none

def Stop.pc : Stop → PC
  | .returned _ => .out
  | .unlocked => .connecting
  | .waiting => .waiting

theorem DrainedFrom.pool_eq {s : State K τ} {d : Draining K τ} (h : DrainedFrom s d)
    (found : Option Conn) (idle : List Conn) :
    { d.pool with idle_ := idle } = s.drained ⟨d.freed, found, idle, d.pool.total_created_⟩ := by
  obtain ⟨⟨idle', total, guards, threads, heap⟩, freed⟩ := d
  have hheap : heap = (s.freeAll freed).heap := h.heap
  have hguards : guards = s.guards := h.guards
  have hthreads : threads = s.threads := h.threads
  rw [hheap, hguards, hthreads]
  rfl

section Machine
variable [DecidableEq τ] {max_pool_ : SizeT} {s s' : State K τ} {i : Input K τ} {o : Output}

theorem turn_of_leave {d d' : Draining K τ} {stop : Stop} (h : DrainedFrom s d)
    (hpass : acquirePass max_pool_ d = .leave (stop, d')) (t : τ) :
    s.turn max_pool_ t = (⟨d'.freed, stop.handed⟩, d'.pool.setThread t stop.pc) := by
  have hdrain := h.drain
  rcases acquirePass_leave hpass with ⟨c, idle, hidle, hhealthy, rfl, rfl⟩ | ⟨hidle, rfl, rfl⟩
  · rw [h.isHealthy_eq] at hhealthy
    rw [hidle, drain, if_pos hhealthy] at hdrain
    dsimp only at hdrain
    rw [List.append_nil] at hdrain
    rw [State.turn, hdrain, h.pool_eq (some c) idle]
    rfl
  · rw [hidle, drain] at hdrain
    dsimp only at hdrain
    rw [List.append_nil] at hdrain
    have hpool : s.drained ⟨d'.freed, none, [], d'.pool.total_created_⟩ = d'.pool := by
      rw [← h.pool_eq none [], ← hidle]
    rw [State.turn, hdrain]
    dsimp only
    split
    · exact congrArg (fun pool => (_, State.setThread pool t _)) hpool
    · exact congrArg (fun pool => (_, State.setThread pool t _)) hpool

def RunsLoop (max_pool_ : SizeT) (s : State K τ) (i : Input K τ) (o : Output) (s' : State K τ) :
    Prop :=
  ∀ t, i = .lock t ∨ i = .wake t → ∃ stop d, DrainResult s stop d ∧
    passes (acquirePass max_pool_) (s.idle_.length + 1) ⟨s, []⟩ = some (stop, d) ∧
    o = ⟨d.freed, stop.handed⟩ ∧ s' = d.pool.setThread t stop.pc

theorem runsLoop_step (h : Accounted s) (hstep : (pool K τ max_pool_).step s i = some (o, s')) :
    RunsLoop max_pool_ s i o s' := by
  have hcounted : s.idle_.length ≤ s.total_created_.toNat := h.total ▸ Nat.le_add_right ..
  obtain ⟨⟨stop, d'⟩, ⟨d, hinv, hpass⟩, hpasses⟩ := @passes_acquire _ _ max_pool_ s hcounted
  rintro t (rfl | rfl)
  all_goals
    have hturn := turn_of_leave hinv hpass t
    obtain ⟨-, hdone⟩ := Option.ite_none_right_eq_some.mp hstep
    rw [Option.some.inj hdone] at hturn
    obtain ⟨rfl, rfl⟩ := Prod.mk.inj hturn
    exact ⟨stop, d', drainResult_of_leave hinv hpass, hpasses _ (Nat.lt_succ_self _), rfl, rfl⟩

/-- In every run the turns of the machine are the loop of the source. -/
theorem turns_run_loop {min_pool : SizeT} (init : Startup K min_pool) (is : List (Input K τ)) :
    (pool K τ max_pool_).EveryStep (fun _ s i o s' => RunsLoop max_pool_ s i o s') []
      (construct init) is :=
  Machine.everyStep_of_invariant (fun _ _ _ _ _ h hstep => accounted_step h hstep)
    (fun _ _ _ _ _ h hstep => runsLoop_step h hstep) (accounted_construct init)

end Machine
end LetsChat.Pool
