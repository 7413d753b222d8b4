import LetsChat.LogicServer.Server

/-! Who has which connection. A statement or a command runs on a live connection that no other
thread has, and a thread that asks for a connection has none. -/

namespace LetsChat.LogicServer
open Lib Lib.Machine Prog

variable {password_ : Text} {impl : LogicServiceImpl} {s s' : State password_}

namespace ConnGuard

def sort (guard : ConnGuard) : PoolName × Bool := (guard.pool, guard.conn.isSome)

def connOf (guard : ConnGuard) (p : PoolName) : Option Pool.Conn :=
  if guard.pool = p then guard.conn else none

theorem findSome?_connOf (guard : ConnGuard) (p : PoolName) :
    [guard].findSome? (fun guard => guard.connOf p) = guard.connOf p := by
  rw [List.findSome?_cons, List.findSome?_nil]
  cases guard.connOf p <;> rfl

end ConnGuard

namespace State

def holds (s : State password_) (p : PoolName) (k : Nat) : Option Pool.Conn :=
  (s.guards k).findSome? fun guard => guard.connOf p

theorem holds_setGuards (s : State password_) (k : Nat) (guards : List ConnGuard)
    (p : PoolName) : (s.setGuards k guards).holds p =
      Function.update (s.holds p) k (guards.findSome? fun guard => guard.connOf p) := by
  funext k'
  exact Function.apply_update (fun _ (guards : List ConnGuard) =>
    guards.findSome? fun guard => guard.connOf p) s.guards k guards k'

theorem holds_nil {k : Nat} (h : s.guards k = []) (p : PoolName) : s.holds p k = none := by
  rw [holds, h]
  rfl

theorem holds_singleton {k : Nat} {guard : ConnGuard} (h : s.guards k = [guard]) (p : PoolName) :
    s.holds p k = guard.connOf p := by
  rw [holds, h, ConnGuard.findSome?_connOf]

end State

/-- The guards of a thread are those that its program is in the scope of. -/
structure Threaded (calls : GuardedCalls) (guards : Nat → List ConnGuard) : Prop where
  nested : ∀ k t, calls.threads[k]? = some t →
    ∃ g, t.rest.Nested takes allowed g ∧ (guards k).map ConnGuard.sort = g.toList
  absent : ∀ k, calls.threads[k]? = none → guards k = []

structure Pooled (s : State password_) : Prop where
  accounted : ∀ p, Pool.Accounted (s.pools p)
  holders : ∀ p, Holders (s.pools p).guards (s.holds p)

def Asking (calls : GuardedCalls) (p : PoolName) (k : Nat) : Prop :=
  ∃ t answer, calls.threads[k]? = some t ∧ opening t.rest = some (p, answer)

structure Sound (s : State password_) : Prop where
  threaded : Threaded s.calls s.guards
  pooled : Pooled s
  asking : ∀ p k, (s.pools p).threads k ≠ .out → Asking s.calls p k

namespace Threaded
variable {calls : GuardedCalls} {guards : Nat → List ConnGuard} {k : Nat} {t : GuardedThread}

theorem call (h : Threaded calls guards) (req : Request) (e : Env) : Threaded
    { calls with threads := calls.threads ++ [⟨req, e, [], guardedHandle impl req⟩] } guards := by
  constructor
  · intro k t hk
    by_cases hlt : k < calls.threads.length
    · exact h.nested k t ((List.getElem?_append_left hlt).symm.trans hk)
    · have hnone := h.absent k (List.getElem?_eq_none (Nat.le_of_not_lt hlt))
      rw [List.getElem?_append_right (Nat.le_of_not_lt hlt)] at hk
      obtain rfl := List.mem_singleton.mp (List.mem_of_getElem? hk)
      exact ⟨none, nested_guardedHandle impl req, by rw [hnone]; rfl⟩
  · intro k hk
    refine h.absent k (List.getElem?_eq_none ?_)
    have hle := List.getElem?_eq_none_iff.mp hk
    rw [List.length_append] at hle
    exact Nat.le_of_add_right_le hle

theorem update (h : Threaded calls guards) (hk : calls.threads[k]? = some t) (w : World)
    (t' : GuardedThread) {guards' : List ConnGuard} {g : Option (PoolName × Bool)}
    (hnested : t'.rest.Nested takes allowed g) (hsort : guards'.map ConnGuard.sort = g.toList) :
    Threaded ⟨w, calls.threads.set k t'⟩ (Function.update guards k guards') := by
  constructor
  · intro j u hj
    rcases getElem?_set_cases hj with ⟨rfl, rfl⟩ | ⟨hne, hold⟩
    · exact ⟨g, hnested, by rw [Function.update_self]; exact hsort⟩
    · rw [Function.update_of_ne hne]
      exact h.nested j u hold
  · intro j hj
    have hle := List.getElem?_eq_none_iff.mp hj
    rw [List.length_set] at hle
    have hne : j ≠ k := by
      rintro rfl
      exact absurd (List.getElem?_eq_some_iff.mp hk).1 (Nat.not_lt_of_le hle)
    rw [Function.update_of_ne hne]
    exact h.absent j (List.getElem?_eq_none hle)

theorem nested_opening (h : Threaded calls guards) (hk : calls.threads[k]? = some t)
    {p : PoolName} {answer : Bool → GuardedEvent × GuardedProg}
    (hopening : opening t.rest = some (p, answer)) : guards k = [] ∧
      ∀ ok, (answer ok).2.Nested takes allowed (some (p, ok)) := by
  obtain ⟨g, hnested, hsort⟩ := h.nested k t hk
  obtain ⟨o, next, hrest, -, hanswer⟩ := opening_answer hopening
  rw [hrest] at hnested
  have hall : ∀ ok, g = none ∧ (answer ok).2.Nested takes allowed (some (p, ok)) := by
    intro ok
    obtain ⟨r, heq, htakes⟩ := hanswer ok
    have hnext := hnested.2 r
    rw [htakes] at hnext
    rw [heq]
    exact hnext
  obtain rfl := (hall true).1
  exact ⟨List.map_eq_nil_iff.mp hsort, fun ok => (hall ok).2⟩

theorem singleton (h : Threaded calls guards) {guard : ConnGuard} (hmem : guard ∈ guards k) :
    guards k = [guard] := by
  cases hk : calls.threads[k]? with
  | none =>
    rw [h.absent k hk] at hmem
    exact absurd hmem List.not_mem_nil
  | some t =>
    obtain ⟨g, -, hsort⟩ := h.nested k t hk
    cases g with
    | none =>
      rw [List.map_eq_nil_iff.mp hsort] at hmem
      exact absurd hmem List.not_mem_nil
    | some g =>
      obtain ⟨guard', hguards, -⟩ := List.map_eq_singleton_iff.mp hsort
      rw [hguards] at hmem ⊢
      rw [List.mem_singleton.mp hmem]

end Threaded

theorem holds_iff (h : Threaded s.calls s.guards) {p : PoolName} {k : Nat} {c : Pool.Conn} :
    s.holds p k = some c ↔ ⟨p, some c⟩ ∈ s.guards k := by
  constructor
  · intro hholds
    obtain ⟨guard, hmem, hconn⟩ := List.exists_of_findSome?_eq_some hholds
    have hof : (if guard.pool = p then guard.conn else none) = some c := hconn
    obtain ⟨rfl, hc⟩ := Option.ite_none_right_eq_some.mp hof
    rw [← hc]
    exact hmem
  · intro hmem
    rw [State.holds_singleton (h.singleton hmem), ConnGuard.connOf, if_pos rfl]

namespace Pooled

theorem update (h : Pooled s) {p : PoolName} {pool : Pool.State (p.kind password_) Nat}
    {s' : State password_} (hpools : s'.pools = Function.update s.pools p pool)
    (hothers : ∀ p', p' ≠ p → s'.holds p' = s.holds p') (haccounted : Pool.Accounted pool)
    (hholders : Holders pool.guards (s'.holds p)) : Pooled s' := by
  constructor
  · rw [hpools]
    exact (Function.forall_update_iff s.pools fun _ pool => Pool.Accounted pool).mpr
      ⟨haccounted, fun p' _ => h.accounted p'⟩
  · rw [hpools]
    refine (Function.forall_update_iff s.pools fun p' pool => Holders pool.guards (s'.holds p')).mpr
      ⟨hholders, fun p' hp => ?_⟩
    rw [hothers p' hp]
    exact h.holders p'

theorem setPool (h : Pooled s) {p : PoolName} {pool : Pool.State (p.kind password_) Nat}
    (haccounted : Pool.Accounted pool) (hguards : pool.guards = (s.pools p).guards) :
    Pooled (s.setPool p pool) := by
  refine h.update rfl (fun _ _ => rfl) haccounted ?_
  rw [hguards]
  exact h.holders p

theorem setGuards (h : Pooled s) {k : Nat} {guards : List ConnGuard}
    (hnone : ∀ p, (guards.findSome? fun guard => guard.connOf p) = s.holds p k) :
    Pooled (s.setGuards k guards) := by
  refine ⟨h.accounted, fun p => ?_⟩
  rw [State.holds_setGuards, hnone, Function.update_eq_self]
  exact h.holders p

theorem handed (h : Pooled s) {k : Nat} {p : PoolName} {c : Pool.Conn}
    {pool : Pool.State (p.kind password_) Nat} (hguard : s.guards k = [])
    (haccounted : Pool.Accounted pool) (hguards : pool.guards = (s.pools p).guards ++ [c]) :
    Pooled ((s.setPool p pool).setGuards k [⟨p, some c⟩]) := by
  have hholds : ∀ p', ((s.setPool p pool).setGuards k [⟨p, some c⟩]).holds p' =
      Function.update (s.holds p') k (if p = p' then some c else none) := by
    intro p'
    rw [State.holds_setGuards, ConnGuard.findSome?_connOf]
    rfl
  refine h.update rfl (fun p' hp => ?_) haccounted ?_
  · rw [hholds, if_neg (Ne.symm hp)]
    exact Function.update_eq_self_iff.mpr (State.holds_nil hguard p').symm
  · have hnodup := Pool.guards_nodup haccounted
    rw [hguards] at hnodup
    have hfresh : c ∉ (s.pools p).guards := fun hmem =>
      (List.nodup_append.mp hnodup).2.2 c hmem c (List.mem_singleton_self c) rfl
    rw [hholds, hguards, if_pos rfl]
    exact (h.holders p).take (State.holds_nil hguard p) hfresh

theorem destroyed (h : Pooled s) {k : Nat} {guard : ConnGuard} (hguard : s.guards k = [guard])
    (hdestroyed : Destroyed s guard s') : Pooled (s'.setGuards k []) := by
  cases hdestroyed with
  | empty p =>
    apply h.setGuards
    intro p'
    rw [State.holds_singleton hguard, ConnGuard.connOf, ite_self]
    rfl
  | released p c o pool hstep =>
    have hheld := State.holds_singleton hguard
    have hholds : ∀ p', ((s.setPool p pool).setGuards k []).holds p' =
        Function.update (s.holds p') k none := State.holds_setGuards (s.setPool p pool) k []
    obtain ⟨-, hguards, -⟩ := Pool.releaseStep hstep
    refine h.update rfl (fun p' hp => ?_) (Pool.accounted_step (h.accounted p) hstep) ?_
    · rw [hholds, Function.update_eq_self_iff, hheld, ConnGuard.connOf, if_neg (Ne.symm hp)]
    · rw [hguards, hholds]
      apply (h.holders p).leave (Pool.guards_nodup (h.accounted p))
      rw [hheld, ConnGuard.connOf, if_pos rfl]

end Pooled

theorem Asking.congr {calls calls' : GuardedCalls} {p : PoolName} {k : Nat}
    (h : Asking calls p k) (hthread : calls'.threads[k]? = calls.threads[k]?) :
    Asking calls' p k := by
  rw [Asking, hthread]
  exact h

theorem Destroyed.threads {guard : ConnGuard} (h : Destroyed s guard s') (p : PoolName) :
    (s'.pools p).threads = (s.pools p).threads := by
  cases h with
  | empty => rfl
  | released p' c o pool hstep =>
    refine (Function.forall_update_iff s.pools fun p pool =>
      pool.threads = (s.pools p).threads).mpr ⟨?_, fun _ _ => rfl⟩ p
    exact (Pool.releaseStep hstep).2.2

namespace Sound

theorem call (h : Sound s) (req : Request) (e : Env) : Sound (s.call impl req e) where
  threaded := h.threaded.call req e
  pooled := ⟨h.pooled.accounted, h.pooled.holders⟩
  asking p k hout := by
    obtain ⟨t, answer, hk, hopening⟩ := h.asking p k hout
    have hlt := (List.getElem?_eq_some_iff.mp hk).1
    exact ⟨t, answer, (List.getElem?_append_left hlt).trans hk, hopening⟩

theorem asking_set (h : Sound s) {k : Nat} {t : GuardedThread} (hk : s.calls.threads[k]? = some t)
    (hopening : opening t.rest = none) (w : World) (t' : GuardedThread) {p : PoolName} {j : Nat}
    (hout : (s.pools p).threads j ≠ .out) : Asking ⟨w, s.calls.threads.set k t'⟩ p j := by
  have hasking := h.asking p j hout
  have hne : k ≠ j := by
    rintro rfl
    obtain ⟨t₁, answer, hk₁, hopening₁⟩ := hasking
    obtain rfl := Option.some.inj (hk₁.symm.trans hk)
    rw [hopening] at hopening₁
    cases hopening₁
  exact hasking.congr (List.getElem?_set_ne hne)

theorem pick (h : Sound s) {k : Nat} {req : Request} {e : Env} {past : List GuardedEvent}
    {o : Op} {next : o.Ret → GuardedProg}
    (hk : s.calls.threads[k]? = some ⟨req, e, past, .op (.perform o) next⟩)
    (hopens : opens o = none) (w : World) (r : o.Ret) :
    Sound { s with
      calls := ⟨w, s.calls.threads.set k ⟨req, e, past ++ [⟨.perform o, r⟩], next r⟩⟩ } where
  threaded := by
    obtain ⟨g, hnested, hsort⟩ := h.threaded.nested k _ hk
    have hnext := hnested.2 r
    rw [takes_of_opens hopens r] at hnext
    have hupdate := h.threaded.update hk w ⟨req, e, past ++ [⟨.perform o, r⟩], next r⟩ hnext hsort
    rwa [Function.update_eq_self] at hupdate
  pooled := ⟨h.pooled.accounted, h.pooled.holders⟩
  asking _ _ hout := h.asking_set hk (opening_eq_none.mpr hopens) w _ hout

theorem left (h : Sound s) {k : Nat} {req : Request} {e : Env} {past : List GuardedEvent}
    {next : Unit → GuardedProg} (hk : s.calls.threads[k]? = some ⟨req, e, past, .op .leave next⟩)
    {guard : ConnGuard} {guards : List ConnGuard} (hguards : s.guards k = guard :: guards)
    (hdestroyed : Destroyed s guard s') : Sound ((s'.setGuards k guards).setThread k
      ⟨req, e, past ++ [⟨.leave, ()⟩], next ()⟩) := by
  obtain ⟨hcalls, hkept⟩ := hdestroyed.keeps
  have hsingle := h.threaded.singleton (hguards ▸ List.mem_cons_self)
  obtain rfl : guards = [] := (List.cons.inj (hguards.symm.trans hsingle)).2
  refine ⟨?_, ?_, fun p j hout => ?_⟩
  · obtain ⟨g, hnested, -⟩ := h.threaded.nested k _ hk
    rw [State.setThread, State.setGuards, hcalls, hkept]
    exact h.threaded.update hk s.calls.shared _ hnested.2 rfl
  · have hpooled := h.pooled.destroyed hsingle hdestroyed
    exact ⟨hpooled.accounted, hpooled.holders⟩
  · have hout' : (s.pools p).threads j ≠ .out := by
      rw [← hdestroyed.threads p]
      exact hout
    rw [State.setThread, State.setGuards, hcalls]
    exact h.asking_set hk rfl _ _ hout'

theorem setStatus (h : Sound s) {p : PoolName} {c : Pool.Conn}
    {status : (p.kind password_).Status} {o : Pool.Output}
    {pool : Pool.State (p.kind password_) Nat}
    (hstep : (poolMachine password_ p).step (s.pools p) (.setStatus c status) = some (o, pool)) :
    Sound (s.setPool p pool) where
  threaded := h.threaded
  pooled := h.pooled.setPool (Pool.accounted_step (h.pooled.accounted p) hstep)
    (Pool.setStatusStep hstep).1
  asking := by
    refine (Function.forall_update_iff s.pools fun p' pool => ∀ k, pool.threads k ≠ .out →
      Asking s.calls p' k).mpr ⟨?_, fun p' _ => h.asking p'⟩
    rw [(Pool.setStatusStep hstep).2]
    exact h.asking p

theorem resumed (h : Sound s) {p : PoolName} {k : Nat} {t : GuardedThread}
    {answer : Bool → GuardedEvent × GuardedProg} {pool : Pool.State (p.kind password_) Nat}
    (hk : s.calls.threads[k]? = some t) (hopening : opening t.rest = some (p, answer))
    (conn : Option Pool.Conn)
    (hpooled : Pooled ((s.setPool p pool).setGuards k [⟨p, conn⟩]))
    (hout : ∀ p' k', ((s.setPool p pool).pools p').threads k' ≠ .out →
      k' ≠ k ∧ Asking s.calls p' k') :
    Sound ((s.setPool p pool).resume k t ⟨p, conn⟩ (answer conn.isSome)) := by
  obtain ⟨hguard, hnext⟩ := h.threaded.nested_opening hk hopening
  have hguards : ((s.setPool p pool).guards k) = [] := hguard
  rw [State.resume, hguards]
  refine ⟨?_, ⟨hpooled.accounted, hpooled.holders⟩, fun p' k' hk' => ?_⟩
  · exact h.threaded.update hk s.calls.shared _ (hnext conn.isSome) rfl
  · obtain ⟨hne, hasking⟩ := hout p' k' hk'
    exact hasking.congr (List.getElem?_set_ne hne.symm)

theorem asked (h : Sound s) {p : PoolName} {i : Pool.Input (p.kind password_) Nat} {k : Nat}
    {t : GuardedThread} {answer : Bool → GuardedEvent × GuardedProg} {o : Pool.Output}
    {pool : Pool.State (p.kind password_) Nat} (hi : i.thread = some k)
    (hk : s.calls.threads[k]? = some t) (hopening : opening t.rest = some (p, answer))
    (hstep : (poolMachine password_ p).step (s.pools p) i = some (o, pool)) :
    Sound (returned s p k t answer o pool) := by
  have hguard := (h.threaded.nested_opening hk hopening).1
  have haccounted := Pool.accounted_step (h.pooled.accounted p) hstep
  have hthread := Pool.threadStep_of_step hi hstep
  -- the other threads are where they were, and this one is in no other pool
  have hothers : ∀ p' k', ((s.setPool p pool).pools p').threads k' ≠ .out →
      k' = k ∧ p' = p ∨ k' ≠ k ∧ Asking s.calls p' k' := by
    refine (Function.forall_update_iff s.pools fun p' pool' => ∀ k', pool'.threads k' ≠ .out →
      k' = k ∧ p' = p ∨ k' ≠ k ∧ Asking s.calls p' k').mpr
      ⟨fun k' hout => ?_, fun p' hp k' hout => ?_⟩
    · by_cases hkk : k' = k
      · exact .inl ⟨hkk, rfl⟩
      · rw [hthread.others k' hkk] at hout
        exact .inr ⟨hkk, h.asking p k' hout⟩
    · refine .inr ⟨?_, h.asking p' k' hout⟩
      rintro rfl
      obtain ⟨t', answer', hk', hopening'⟩ := h.asking p' k' hout
      obtain rfl := Option.some.inj (hk'.symm.trans hk)
      exact hp (Prod.mk.inj (Option.some.inj (hopening'.symm.trans hopening))).1
  have hout : pool.threads k = .out → ∀ p' k',
      ((s.setPool p pool).pools p').threads k' ≠ .out → k' ≠ k ∧ Asking s.calls p' k' := by
    intro hreturned p' k' hout
    rcases hothers p' k' hout with ⟨rfl, rfl⟩ | hother
    · have hpool : (s.setPool p' pool).pools p' = pool := Function.update_self ..
      rw [hpool] at hout
      exact absurd hreturned hout
    · exact hother
  unfold returned
  cases hhanded : o.handed with
  | none =>
    have hguards : pool.guards = (s.pools p).guards := by
      rw [hthread.guards, hhanded, Option.toList_none, List.append_nil]
    have hpooled := h.pooled.setPool haccounted hguards
    dsimp only
    split
    · next hreturned =>
      refine h.resumed hk hopening none (hpooled.setGuards fun p' => ?_) (hout hreturned)
      rw [ConnGuard.findSome?_connOf, ConnGuard.connOf, ite_self]
      exact (State.holds_nil hguard p').symm
    · refine ⟨h.threaded, hpooled, fun p' k' hk' => ?_⟩
      rcases hothers p' k' hk' with ⟨rfl, rfl⟩ | ⟨-, hasking⟩
      · exact ⟨t, answer, hk, hopening⟩
      · exact hasking
  | some c =>
    have hguards : pool.guards = (s.pools p).guards ++ [c] := by
      rw [hthread.guards, hhanded, Option.toList_some]
    exact h.resumed hk hopening (some c) (h.pooled.handed hguard haccounted hguards)
      (hout (hthread.returned c hhanded))

theorem step (h : Sound s) {i : Input password_} {u : Unit}
    (hstep : (server password_ impl).step s i = some (u, s')) : Sound s' := by
  cases move_of_step hstep with
  | call req e => exact h.call req e
  | pick k req e past o next hk hopens => exact h.pick hk hopens _ _
  | left k req e past next guard guards s₁ hk hguards hdestroyed => exact h.left hk hguards hdestroyed
  | asked p i k t answer o pool hi hk hopening hpool => exact h.asked hi hk hopening hpool
  | setStatus p c status o pool hpool => exact h.setStatus hpool

theorem initial (init : (p : PoolName) → Pool.Startup (p.kind password_) p.min_pool) (w : World) :
    Sound (start init w) := by
  refine ⟨⟨fun k t hk => ?_, fun _ _ => rfl⟩,
    ⟨fun p => Pool.accounted_construct (init p), fun p => ?_⟩, fun p k hout => ?_⟩
  · have hnone : (start init w).calls.threads[k]? = none := List.getElem?_nil
    rw [hnone] at hk
    cases hk
  · show Holders [] fun _ : Nat => none
    exact .none
  · have hstart : ((start init w).pools p).threads k = .out := rfl
    exact absurd hstart hout

end Sound

/-- A statement or command runs on a connection of the thread. What a thread has is live and
nobody else's, and a thread that is in `Acquire` has nothing. -/
structure Exclusive (s : State password_) : Prop where
  used : ∀ k t sc, s.calls.threads[k]? = some t → inScope t.rest = some sc →
    ∃ c, s.guards k = [⟨sc.pool, some c⟩]
  owned : ∀ k p c, ⟨p, some c⟩ ∈ s.guards k → (s.pools p).live c ∧ c ∉ (s.pools p).idle_ ∧
    ∀ k', ⟨p, some c⟩ ∈ s.guards k' → k' = k
  acquiring : ∀ p k, (s.pools p).threads k ≠ .out → s.guards k = [] ∧
    ∀ p', p' ≠ p → (s.pools p').threads k = .out

theorem Sound.exclusive (h : Sound s) : Exclusive s := by
  constructor
  · intro k t sc hk hscope
    obtain ⟨g, hnested, hsort⟩ := h.threaded.nested k t hk
    unfold inScope at hscope
    split at hscope
    · next o next hrest =>
      rw [hrest] at hnested
      obtain rfl := hnested.1 sc hscope
      obtain ⟨⟨p, conn⟩, hguards, hguard⟩ := List.map_eq_singleton_iff.mp hsort
      obtain ⟨rfl, hsome⟩ := Prod.mk.inj hguard
      obtain ⟨c, rfl⟩ := Option.isSome_iff_exists.mp hsome
      exact ⟨c, hguards⟩
    · cases hscope
  · intro k p c hmem
    have hholders := h.pooled.holders p
    have hholds := (holds_iff h.threaded).mpr hmem
    have howners := (h.pooled.accounted p).owners
    have hguard := (hholders.mem_iff c).mpr ⟨k, hholds⟩
    refine ⟨howners.live_of_mem (List.mem_append_right _ hguard), fun hidle => ?_,
      fun k' hk' => hholders.single k' k c ((holds_iff h.threaded).mpr hk') hholds⟩
    exact (List.nodup_append.mp howners.nodup).2.2 c hidle c hguard rfl
  · intro p k hout
    obtain ⟨t, answer, hk, hopening⟩ := h.asking p k hout
    refine ⟨(h.threaded.nested_opening hk hopening).1, fun p' hp => ?_⟩
    by_contra hother
    obtain ⟨t', answer', hk', hopening'⟩ := h.asking p' k hother
    obtain rfl := Option.some.inj (hk'.symm.trans hk)
    exact hp (Prod.mk.inj (Option.some.inj (hopening'.symm.trans hopening))).1

theorem everyState_sound (init : (p : PoolName) → Pool.Startup (p.kind password_) p.min_pool)
    (w : World) (is : List (Input password_)) :
    (server password_ impl).EveryState (fun _ s => Sound s) [] (start init w) is :=
  everyState_of_invariant (I := fun _ s => Sound s) (fun _ _ _ _ _ h hstep => h.step hstep)
    (.initial init w)

/-- In every run of any number of calls over the two pools, whatever fails and whatever becomes
of the connections, no connection is used by two threads at once or after it was closed, and
no thread asks for one while it has one. -/
theorem connections_not_shared
    (init : (p : PoolName) → Pool.Startup (p.kind password_) p.min_pool) (w : World)
    (is : List (Input password_)) :
    (server password_ impl).EveryState (fun _ s => Exclusive s) [] (start init w) is :=
  (everyState_sound init w is).mono fun _ _ h => h.exclusive

end LetsChat.LogicServer
