import LetsChat.LogicServer.Guards
import LetsChat.Pool.Steps

/-! The logic server with the two pools of `RunServer`. The calls run in threads of their own;
a guard comes from the pool's `Acquire`, and its destructor runs where the function that has it
returns. -/

namespace LetsChat.LogicServer
open Lib Prog

namespace PoolName

@[reducible] def kind (password_ : Text) : PoolName → Pool.PoolKind
  | db => Pool.DbPool
  | redis => Pool.RedisPool password_

/-! The sizes in `RunServer`. -/

def min_pool : PoolName → Pool.SizeT := fun _ => 2

def max_pool : PoolName → Pool.SizeT
  | db => 20
  | redis => 50

end PoolName

abbrev GuardedProg := Prog (Guarded.Ret Op.Ret) Reply

abbrev GuardedEvent := Event (Guarded.Ret Op.Ret)

def opening : GuardedProg → Option (PoolName × (Bool → GuardedEvent × GuardedProg))
  | .op (.perform (.acquire site)) next =>
    some (.db, fun ok => (⟨.perform (.acquire site), ok⟩, next ok))
  | .op (.perform .redisAcquire) next =>
    some (.redis, fun ok => (⟨.perform .redisAcquire, ok⟩, next ok))
  | _ => none

def inScope : GuardedProg → Option Scope
  | .op (.perform o) _ => inside o
  | _ => none

theorem opening_answer {rest : GuardedProg} {p : PoolName}
    {answer : Bool → GuardedEvent × GuardedProg} (h : opening rest = some (p, answer)) :
    ∃ (o : Op) (next : o.Ret → GuardedProg), rest = .op (.perform o) next ∧ opens o ≠ none ∧
      ∀ ok, ∃ r, answer ok = (⟨.perform o, r⟩, next r) ∧ takes ⟨o, r⟩ = some (p, ok) := by
  unfold opening at h
  split at h
  · next site next =>
    cases h
    exact ⟨.acquire site, next, rfl, Option.some_ne_none _, fun ok => ⟨ok, rfl, rfl⟩⟩
  · next next =>
    cases h
    exact ⟨.redisAcquire, next, rfl, Option.some_ne_none _, fun ok => ⟨ok, rfl, rfl⟩⟩
  · cases h

theorem opening_eq_none {o : Op} {next : o.Ret → GuardedProg} :
    opening (.op (.perform o) next) = none ↔ opens o = none := by
  cases o <;> simp [opening, opens]

/-- A guard is there after a failed `Acquire` too, without a connection. -/
structure ConnGuard where
  pool : PoolName
  conn : Option Pool.Conn

abbrev GuardedCalls := Conf (Guarded.Ret Op.Ret) Request Env World Reply

abbrev GuardedThread := Thread (Guarded.Ret Op.Ret) Request Env Reply

/-- `guards` are the guards of the threads, the innermost first. -/
structure State (password_ : Text) where
  calls : GuardedCalls
  pools : (p : PoolName) → Pool.State (p.kind password_) Nat
  guards : Nat → List ConnGuard

inductive Input (password_ : Text)
  | call (req : Request) (e : Env)
  | pick (k : Nat)
  | pool (p : PoolName) (i : Pool.Input (p.kind password_) Nat)

def execGuarded (e : Env) : (o : Guarded Op) → World → Guarded.Ret Op.Ret o × World
  | .perform o, w => e.exec o w
  | .leave, w => ((), w)

def guardedService (impl : LogicServiceImpl) :
    Machine GuardedCalls (Sched Request Env) (Option GuardedEvent) :=
  interleaving (guardedHandle impl) execGuarded

def poolMachine (password_ : Text) (p : PoolName) :
    Machine (Pool.State (p.kind password_) Nat) (Pool.Input (p.kind password_) Nat) Pool.Output :=
  Pool.pool (p.kind password_) Nat p.max_pool

variable {password_ : Text}

namespace State

def setPool (s : State password_) (p : PoolName) (pool : Pool.State (p.kind password_) Nat) :
    State password_ :=
  { s with pools := Function.update s.pools p pool }

def setGuards (s : State password_) (k : Nat) (guards : List ConnGuard) : State password_ :=
  { s with guards := Function.update s.guards k guards }

def setThread (s : State password_) (k : Nat) (t : GuardedThread) : State password_ :=
  { s with calls := ⟨s.calls.shared, s.calls.threads.set k t⟩ }

def resume (s : State password_) (k : Nat) (t : GuardedThread) (guard : ConnGuard)
    (answer : GuardedEvent × GuardedProg) : State password_ :=
  (s.setGuards k (guard :: s.guards k)).setThread k
    ⟨t.call, t.env, t.past ++ [answer.1], answer.2⟩

/-- `~ConnGuard`. -/
def destroy (s : State password_) (guard : ConnGuard) : Option (State password_) :=
  match guard.conn with
  | none => some s
  | some c => do
    let (_, pool) ← (poolMachine password_ guard.pool).step (s.pools guard.pool) (.release c)
    some (s.setPool guard.pool pool)

/-- At the end of its scope the innermost guard is destroyed. -/
def leaving (s : State password_) (k : Nat) : GuardedProg → Option (State password_)
  | .op .leave _ =>
    match s.guards k with
    | [] => none
    | guard :: guards => do
      let s ← s.destroy guard
      some (s.setGuards k guards)
  | _ => some s

def call (impl : LogicServiceImpl) (s : State password_) (req : Request) (e : Env) :
    State password_ :=
  { s with calls := { s.calls with
      threads := s.calls.threads ++ [⟨req, e, [], guardedHandle impl req⟩] } }

end State

def returned (s : State password_) (p : PoolName) (k : Nat) (t : GuardedThread)
    (answer : Bool → GuardedEvent × GuardedProg) (o : Pool.Output)
    (pool : Pool.State (p.kind password_) Nat) : State password_ :=
  match o.handed with
  | some c => (s.setPool p pool).resume k t ⟨p, some c⟩ (answer true)
  | none =>
    if pool.threads k = .out then (s.setPool p pool).resume k t ⟨p, none⟩ (answer false)
    else s.setPool p pool

def poolStep (s : State password_) (p : PoolName) (i : Pool.Input (p.kind password_) Nat) :
    Option (State password_) :=
  match i.thread with
  | some k => do
    let t ← s.calls.threads[k]?
    let (p', answer) ← opening t.rest
    if p' = p then
      let (o, pool) ← (poolMachine password_ p).step (s.pools p) i
      some (returned s p k t answer o pool)
    else none
  | none =>
    match i with
    | .setStatus c status => do
      let (_, pool) ← (poolMachine password_ p).step (s.pools p) (.setStatus c status)
      some (s.setPool p pool)
    | _ => none

def pickStep (impl : LogicServiceImpl) (s : State password_) (k : Nat) :
    Option (State password_) := do
  let t ← s.calls.threads[k]?
  if (opening t.rest).isSome then none
  else
    let s ← s.leaving k t.rest
    let (_, calls) ← (guardedService impl).step s.calls (.pick k)
    some { s with calls }

def serverStep (impl : LogicServiceImpl) (s : State password_) :
    Input password_ → Option (State password_)
  | .call req e => some (s.call impl req e)
  | .pick k => pickStep impl s k
  | .pool p i => poolStep s p i

def server (password_ : Text) (impl : LogicServiceImpl) :
    Machine (State password_) (Input password_) Unit where
  step s i := (serverStep impl s i).map fun s' => ((), s')

/-- What `RunServer` starts from, given the connections that its pools open. -/
def start (init : (p : PoolName) → Pool.Startup (p.kind password_) p.min_pool) (w : World) :
    State password_ where
  calls := ⟨w, []⟩
  pools p := Pool.construct (init p)
  guards _ := []

inductive Destroyed (s : State password_) : ConnGuard → State password_ → Prop
  | empty (p : PoolName) : Destroyed s ⟨p, none⟩ s
  | released (p : PoolName) (c : Pool.Conn) (o : Pool.Output)
      (pool : Pool.State (p.kind password_) Nat) :
      (poolMachine password_ p).step (s.pools p) (.release c) = some (o, pool) →
      Destroyed s ⟨p, some c⟩ (s.setPool p pool)

theorem destroyed_of_destroy {s s' : State password_} {guard : ConnGuard}
    (h : s.destroy guard = some s') : Destroyed s guard s' := by
  obtain ⟨p, conn⟩ := guard
  cases conn with
  | none =>
    cases h
    exact .empty p
  | some c =>
    obtain ⟨⟨o, pool⟩, hstep, h⟩ := Option.bind_eq_some_iff.mp h
    cases h
    exact .released p c o pool hstep

theorem Destroyed.keeps {s s' : State password_} {guard : ConnGuard} (h : Destroyed s guard s') :
    s'.calls = s.calls ∧ s'.guards = s.guards := by
  cases h <;> exact ⟨rfl, rfl⟩

inductive Move (impl : LogicServiceImpl) (s : State password_) :
    Input password_ → State password_ → Prop
  | call (req : Request) (e : Env) : Move impl s (.call req e) (s.call impl req e)
  | pick (k : Nat) (req : Request) (e : Env) (past : List GuardedEvent) (o : Op)
      (next : o.Ret → GuardedProg) :
      s.calls.threads[k]? = some ⟨req, e, past, .op (.perform o) next⟩ → opens o = none →
      Move impl s (.pick k) { s with
        calls := ⟨(e.exec o s.calls.shared).2, s.calls.threads.set k
          ⟨req, e, past ++ [⟨.perform o, (e.exec o s.calls.shared).1⟩],
            next (e.exec o s.calls.shared).1⟩⟩ }
  | left (k : Nat) (req : Request) (e : Env) (past : List GuardedEvent) (next : Unit → GuardedProg)
      (guard : ConnGuard) (guards : List ConnGuard) (s' : State password_) :
      s.calls.threads[k]? = some ⟨req, e, past, .op .leave next⟩ →
      s.guards k = guard :: guards → Destroyed s guard s' →
      Move impl s (.pick k) ((s'.setGuards k guards).setThread k
        ⟨req, e, past ++ [⟨.leave, ()⟩], next ()⟩)
  | asked (p : PoolName) (i : Pool.Input (p.kind password_) Nat) (k : Nat) (t : GuardedThread)
      (answer : Bool → GuardedEvent × GuardedProg) (o : Pool.Output)
      (pool : Pool.State (p.kind password_) Nat) : i.thread = some k →
      s.calls.threads[k]? = some t → opening t.rest = some (p, answer) →
      (poolMachine password_ p).step (s.pools p) i = some (o, pool) →
      Move impl s (.pool p i) (returned s p k t answer o pool)
  | setStatus (p : PoolName) (c : Pool.Conn) (status : (p.kind password_).Status) (o : Pool.Output)
      (pool : Pool.State (p.kind password_) Nat) :
      (poolMachine password_ p).step (s.pools p) (.setStatus c status) = some (o, pool) →
      Move impl s (.pool p (.setStatus c status)) (s.setPool p pool)

theorem move_of_pick {impl : LogicServiceImpl} {s s' : State password_} {k : Nat}
    (h : pickStep impl s k = some s') : Move impl s (.pick k) s' := by
  obtain ⟨t, ht, h⟩ := Option.bind_eq_some_iff.mp h
  obtain ⟨hopening, h⟩ := Option.ite_none_left_eq_some.mp h
  obtain ⟨s₁, hleaving, h⟩ := Option.bind_eq_some_iff.mp h
  obtain ⟨⟨ev, calls⟩, hstep, h⟩ := Option.bind_eq_some_iff.mp h
  cases h
  have hsame : s₁.calls = s.calls := by
    unfold State.leaving at hleaving
    split at hleaving
    · split at hleaving
      · cases hleaving
      · obtain ⟨s₂, hdestroy, hleaving⟩ := Option.bind_eq_some_iff.mp hleaving
        cases hleaving
        exact (destroyed_of_destroy hdestroy).keeps.1
    · cases hleaving
      rfl
  rcases interleaving_step hstep with ⟨req, e, hi, -⟩ | ⟨k', req, e, past, o, next, hi, hk, rfl⟩
  · cases hi
  cases hi
  rw [hsame] at hk
  obtain rfl := Option.some.inj (ht.symm.trans hk)
  rw [hsame]
  cases o with
  | perform o =>
    cases hleaving
    exact .pick k req e past o next hk (opening_eq_none.mp (Option.not_isSome_iff_eq_none.mp hopening))
  | leave =>
    change (match s.guards k with
      | [] => none
      | guard :: guards => _) = _ at hleaving
    split at hleaving
    · cases hleaving
    · next guard guards hguards =>
      obtain ⟨s₂, hdestroy, hleaving⟩ := Option.bind_eq_some_iff.mp hleaving
      cases hleaving
      have hmove : Move impl s (.pick k) ((s₂.setGuards k guards).setThread k
          ⟨req, e, past ++ [⟨.leave, ()⟩], next ()⟩) :=
        .left k req e past next guard guards s₂ hk hguards (destroyed_of_destroy hdestroy)
      rwa [State.setThread, hsame] at hmove

theorem move_of_pool {impl : LogicServiceImpl} {s s' : State password_} {p : PoolName}
    {i : Pool.Input (p.kind password_) Nat} (h : poolStep s p i = some s') :
    Move impl s (.pool p i) s' := by
  unfold poolStep at h
  split at h
  · next k hi =>
    obtain ⟨t, ht, h⟩ := Option.bind_eq_some_iff.mp h
    obtain ⟨⟨p', answer⟩, hopening, h⟩ := Option.bind_eq_some_iff.mp h
    obtain ⟨rfl, h⟩ := Option.ite_none_right_eq_some.mp h
    obtain ⟨⟨o, pool⟩, hstep, h⟩ := Option.bind_eq_some_iff.mp h
    cases h
    exact .asked _ i k t answer o pool hi ht hopening hstep
  · split at h
    · next c status _ =>
      obtain ⟨⟨o, pool⟩, hstep, h⟩ := Option.bind_eq_some_iff.mp h
      cases h
      exact .setStatus p c status o pool hstep
    · cases h

theorem move_of_step {impl : LogicServiceImpl} {s s' : State password_} {i : Input password_}
    {u : Unit} (h : (server password_ impl).step s i = some (u, s')) : Move impl s i s' := by
  obtain ⟨s'', hstep, heq⟩ := Option.map_eq_some_iff.mp h
  cases heq
  cases i with
  | call req e =>
    cases hstep
    exact .call req e
  | pick k => exact move_of_pick hstep
  | pool p i => exact move_of_pool hstep

end LetsChat.LogicServer
