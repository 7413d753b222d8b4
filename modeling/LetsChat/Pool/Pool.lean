import LetsChat.Lib.Machine
import LetsChat.Messages

/-! `DbPool` and `RedisPool`: one algorithm over two kinds of connection, run by any
number of threads. A step is what a thread does while it holds `mu_`, or the connecting
it does without it. -/

namespace LetsChat.Pool
open Lib

abbrev SizeT := BitVec 64

structure Conn where
  addr : BitVec 64
  notNull : addr ≠ 0
  deriving DecidableEq

/-- The status that a connection has, and what a connection attempt comes to. -/
structure PoolKind where
  Status : Type
  isHealthy : Status → Bool
  Attempt : Type
  createConn : Attempt → Option Status

inductive ConnStatusType
  | CONNECTION_OK
  | CONNECTION_BAD
  deriving DecidableEq

/-- An attempt is the result of `PQconnectdb`, which may be null. -/
def DbPool : PoolKind where
  Status := ConnStatusType
  isHealthy status := status = .CONNECTION_OK
  Attempt := Option ConnStatusType
  createConn conn := conn.bind fun status =>
    if status ≠ .CONNECTION_OK then none else some status

inductive AuthReply
  | null
  | error
  | ok
  deriving DecidableEq

/-- The results of `redisConnect` (its `err`, or null), of `AUTH`, and `err` after it. -/
structure RedisAttempt where
  connect : Option Int
  auth : AuthReply
  errAfterAuth : Int

def RedisPool (password_ : Text) : PoolKind where
  Status := Int
  isHealthy err := err = 0
  Attempt := RedisAttempt
  createConn attempt := attempt.connect.bind fun err =>
    if err ≠ 0 then none
    else if password_ ≠ [] then
      if attempt.auth ≠ .ok then none else some attempt.errAfterAuth
    else some err

/-- What the loop of `Acquire` does with the idle connections before it stops: the ones
it frees, the healthy one that it finds, what stays idle, and the counter. -/
structure Drained where
  freed : List Conn
  found : Option Conn
  idle : List Conn
  total : SizeT

def drain (healthy : Conn → Bool) : List Conn → SizeT → Drained
  | [], total => ⟨[], none, [], total⟩
  | c :: idle, total =>
    if healthy c then ⟨[], some c, idle, total⟩
    else
      let rest := drain healthy idle (total - 1)
      { rest with freed := c :: rest.freed }

inductive PC
  | out
  | start
  | connecting
  | connected (c : Option Conn)
  | waiting
  deriving DecidableEq

structure State (K : PoolKind) (τ : Type) where
  idle_ : List Conn
  total_created_ : SizeT
  guards : List Conn
  threads : τ → PC
  heap : Conn → Option K.Status

inductive Input (K : PoolKind) (τ : Type)
  | acquire (t : τ)
  | lock (t : τ)
  | connect (t : τ) (attempt : K.Attempt) (c : Conn)
  | relock (t : τ)
  | wake (t : τ)
  | timeout (t : τ)
  | release (c : Conn)
  | setStatus (c : Conn) (status : K.Status)

structure Output where
  freed : List Conn := []
  handed : Option Conn := none

section Machine
variable {K : PoolKind} {τ : Type} [DecidableEq τ]

namespace State

def isHealthy (s : State K τ) (c : Conn) : Bool := (s.heap c).any K.isHealthy

def setThread (s : State K τ) (t : τ) (pc : PC) : State K τ :=
  { s with threads := Function.update s.threads t pc }

def setHeap (s : State K τ) (c : Conn) (status : Option K.Status) : State K τ :=
  { s with heap := Function.update s.heap c status }

def freeAll (s : State K τ) (freed : List Conn) : State K τ :=
  { s with heap := fun c => if c ∈ freed then none else s.heap c }

def drained (s : State K τ) (d : Drained) : State K τ :=
  { s.freeAll d.freed with idle_ := d.idle, total_created_ := d.total }

def hand (s : State K τ) (c : Conn) : State K τ := { s with guards := s.guards ++ [c] }

def handNew (s : State K τ) (c : Conn) : State K τ :=
  { s.hand c with total_created_ := s.total_created_ + 1 }

/-- One turn of the loop of `Acquire`, from `mu_` being locked to it being unlocked. -/
def turn (max_pool_ : SizeT) (s : State K τ) (t : τ) : Output × State K τ :=
  let d := drain s.isHealthy s.idle_ s.total_created_
  match d.found with
  | some c => ({ freed := d.freed, handed := some c }, ((s.drained d).hand c).setThread t .out)
  | none =>
    -- the slot is not reserved while `mu_` is unlocked
    if d.total < max_pool_ then ({ freed := d.freed }, (s.drained d).setThread t .connecting)
    else ({ freed := d.freed }, (s.drained d).setThread t .waiting)

def release (s : State K τ) (c : Conn) : Output × State K τ :=
  let s' := { s with guards := s.guards.erase c }
  if s.isHealthy c then ({}, { s' with idle_ := s.idle_ ++ [c] })
  else
    ({ freed := [c] },
      { s'.freeAll [c] with
        total_created_ := if 0 < s.total_created_ then s.total_created_ - 1 else s.total_created_ })

end State

def PoolKind.connection (K : PoolKind) (p : K.Attempt × Conn) : Option (Conn × K.Status) :=
  (K.createConn p.1).map fun status => (p.2, status)

/-- The calls of `CreateConn` in the constructor. What they return is distinct. -/
structure Startup (K : PoolKind) (min_pool : SizeT) where
  attempts : List (K.Attempt × Conn)
  length_eq : attempts.length = min_pool.toNat
  distinct : ((attempts.filterMap K.connection).map Prod.fst).Nodup

def construct {min_pool : SizeT} (init : Startup K min_pool) : State K τ :=
  let conns := init.attempts.filterMap K.connection
  { idle_ := conns.map Prod.fst
    total_created_ := BitVec.ofNat 64 conns.length
    guards := []
    threads := fun _ => .out
    heap := fun c => (conns.find? fun p => p.1 = c).map Prod.snd }

def pool (K : PoolKind) (τ : Type) [DecidableEq τ] (max_pool_ : SizeT) :
    Machine (State K τ) (Input K τ) Output where
  step s
    | .acquire t => if s.threads t = .out then some ({}, s.setThread t .start) else none
    | .lock t => if s.threads t = .start then some (s.turn max_pool_ t) else none
    | .connect t attempt c =>
      if s.threads t = .connecting then
        match K.createConn attempt with
        | none => some ({}, s.setThread t (.connected none))
        | some status =>
          if s.heap c = none then
            some ({}, (s.setHeap c (some status)).setThread t (.connected (some c)))
          else none
      else none
    | .relock t =>
      match s.threads t with
      | .connected (some c) => some ({ handed := some c }, (s.handNew c).setThread t .out)
      -- after a failed attempt the thread waits without another look at `idle_`
      | .connected none => some ({}, s.setThread t .waiting)
      | _ => none
    | .wake t => if s.threads t = .waiting then some (s.turn max_pool_ t) else none
    | .timeout t => if s.threads t = .waiting then some ({}, s.setThread t .out) else none
    | .release c => if c ∈ s.guards then some (s.release c) else none
    | .setStatus c status =>
      if s.heap c ≠ none then some ({}, s.setHeap c (some status)) else none

inductive Move (max_pool_ : SizeT) (s : State K τ) : Input K τ → Output → State K τ → Prop
  | acquire (t : τ) : s.threads t = .out → Move max_pool_ s (.acquire t) {} (s.setThread t .start)
  | locked (t : τ) : s.threads t = .start →
      Move max_pool_ s (.lock t) (s.turn max_pool_ t).1 (s.turn max_pool_ t).2
  | failed (t : τ) (attempt : K.Attempt) (c : Conn) : s.threads t = .connecting →
      Move max_pool_ s (.connect t attempt c) {} (s.setThread t (.connected none))
  | created (t : τ) (attempt : K.Attempt) (c : Conn) (status : K.Status) :
      s.threads t = .connecting → s.heap c = none →
      Move max_pool_ s (.connect t attempt c) {}
        ((s.setHeap c (some status)).setThread t (.connected (some c)))
  | joined (t : τ) (c : Conn) : s.threads t = .connected (some c) →
      Move max_pool_ s (.relock t) { handed := some c } ((s.handNew c).setThread t .out)
  | gaveUp (t : τ) : s.threads t = .connected none →
      Move max_pool_ s (.relock t) {} (s.setThread t .waiting)
  | woken (t : τ) : s.threads t = .waiting →
      Move max_pool_ s (.wake t) (s.turn max_pool_ t).1 (s.turn max_pool_ t).2
  | timeout (t : τ) : s.threads t = .waiting → Move max_pool_ s (.timeout t) {} (s.setThread t .out)
  | released (c : Conn) : c ∈ s.guards → Move max_pool_ s (.release c) (s.release c).1 (s.release c).2
  | setStatus (c : Conn) (status : K.Status) : s.heap c ≠ none →
      Move max_pool_ s (.setStatus c status) {} (s.setHeap c (some status))

theorem move_of_step {max_pool_ : SizeT} {s s' : State K τ} {i : Input K τ} {o : Output}
    (hstep : (pool K τ max_pool_).step s i = some (o, s')) : Move max_pool_ s i o s' := by
  cases i with
  | acquire t =>
    obtain ⟨ht, ⟨⟩⟩ := Option.ite_none_right_eq_some.mp hstep
    exact .acquire t ht
  | lock t =>
    obtain ⟨ht, hturn⟩ := Option.ite_none_right_eq_some.mp hstep
    have hmove : Move max_pool_ s (.lock t) _ _ := .locked t ht
    rw [Option.some.inj hturn] at hmove
    exact hmove
  | connect t attempt c =>
    obtain ⟨ht, hcreate⟩ := Option.ite_none_right_eq_some.mp hstep
    cases hconn : K.createConn attempt with
    | none =>
      rw [hconn] at hcreate
      cases hcreate
      exact .failed t attempt c ht
    | some status =>
      rw [hconn] at hcreate
      obtain ⟨hfresh, ⟨⟩⟩ := Option.ite_none_right_eq_some.mp hcreate
      exact .created t attempt c status ht hfresh
  | relock t =>
    simp only [pool] at hstep
    split at hstep
    · next c ht =>
      cases hstep
      exact .joined t c ht
    · next ht =>
      cases hstep
      exact .gaveUp t ht
    · cases hstep
  | wake t =>
    obtain ⟨ht, hturn⟩ := Option.ite_none_right_eq_some.mp hstep
    have hmove : Move max_pool_ s (.wake t) _ _ := .woken t ht
    rw [Option.some.inj hturn] at hmove
    exact hmove
  | timeout t =>
    obtain ⟨ht, ⟨⟩⟩ := Option.ite_none_right_eq_some.mp hstep
    exact .timeout t ht
  | release c =>
    obtain ⟨hc, hrelease⟩ := Option.ite_none_right_eq_some.mp hstep
    have hmove : Move max_pool_ s (.release c) _ _ := .released c hc
    rw [Option.some.inj hrelease] at hmove
    exact hmove
  | setStatus c status =>
    obtain ⟨hc, ⟨⟩⟩ := Option.ite_none_right_eq_some.mp hstep
    exact .setStatus c status hc

end Machine
end LetsChat.Pool
