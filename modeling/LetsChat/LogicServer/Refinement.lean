import LetsChat.Lib.Path
import LetsChat.LogicServer.Server

/-! The server refines the service of the handlers alone. To the calls the pools are an
environment in which acquisitions succeed or fail. -/

namespace LetsChat.LogicServer
open Lib Lib.Machine Prog

variable {password_ : Text} {impl : LogicServiceImpl} {s s' : State password_}

abbrev Calls := Conf Op.Ret Request Env World Reply

def answerTo (sc : Scope) : Event Op.Ret → Option Bool
  | ⟨.acquire site, ok⟩ => if .db site = sc then some ok else none
  | ⟨.redisAcquire, ok⟩ => if .redis = sc then some ok else none
  | _ => none

def acquires (e : Env) : Scope → Bool
  | .db site => e.acquire site
  | .redis => e.redisAcquire

/-- The environment answers as the pools have done, and is otherwise the other one. -/
structure Agrees (past : List (Event Op.Ret)) (e e' : Env) : Prop where
  answers : ∀ sc ok, ∀ ev ∈ past, answerTo sc ev = some ok → acquires e' sc = ok
  rest : { e' with acquire := e.acquire, redisAcquire := e.redisAcquire } = e

section Agrees
variable {past : List (Event Op.Ret)} {e e' : Env}

theorem Agrees.init {ev : Event Op.Ret} (h : Agrees (past ++ [ev]) e e') : Agrees past e e' :=
  ⟨fun sc ok ev' hev' => h.answers sc ok ev' (List.mem_append_left _ hev'), h.rest⟩

theorem Agrees.exec (h : Agrees past e e') {o : Op} (hopens : opens o = none) (w : World) :
    e'.exec o w = e.exec o w := by
  rw [← h.rest]
  cases o with
  | acquire site => cases hopens
  | redisAcquire => cases hopens
  | _ => rfl

theorem Agrees.exec_answer {ev : Event Op.Ret} (h : Agrees (past ++ [ev]) e e') {sc : Scope}
    (hopens : opens ev.1 = some sc) (w : World) : e'.exec ev.1 w = (ev.2, w) := by
  have hanswer := fun ok => h.answers sc ok ev (List.mem_append_right _ (List.mem_singleton_self _))
  obtain ⟨o, r⟩ := ev
  cases o with
  | acquire site =>
    cases hopens
    exact congrArg (·, w) (hanswer r (if_pos rfl))
  | redisAcquire =>
    cases hopens
    exact congrArg (·, w) (hanswer r (by simp [answerTo]))
  | _ => cases hopens

def recollect (past : List (Event Op.Ret)) (e : Env) : Env :=
  { e with
    acquire := fun site => (past.findSome? (answerTo (.db site))).getD (e.acquire site)
    redisAcquire := (past.findSome? (answerTo .redis)).getD e.redisAcquire }

theorem acquires_recollect (past : List (Event Op.Ret)) (e : Env) (sc : Scope) :
    acquires (recollect past e) sc = (past.findSome? (answerTo sc)).getD (acquires e sc) := by
  cases sc <;> rfl

theorem opens_of_answerTo {sc : Scope} {ev : Event Op.Ret} {ok : Bool}
    (h : answerTo sc ev = some ok) : opens ev.1 = some sc := by
  obtain ⟨o, r⟩ := ev
  cases o with
  | acquire site => exact congrArg some (Option.ite_none_right_eq_some.mp h).1
  | redisAcquire => exact congrArg some (Option.ite_none_right_eq_some.mp h).1
  | _ => cases h

/-- As no function is called twice, none has had two answers. -/
theorem agrees_recollect {req : Request} {q : Prog Op.Ret Reply}
    (htrace : Trace (handle impl req) past q) (e : Env) : Agrees past e (recollect past e) := by
  refine ⟨fun sc ok ev hev hok => ?_, rfl⟩
  obtain ⟨before, after, k, rfl, hsplit⟩ := htrace.split hev
  have honce := (unopened_handle impl req).asks hsplit sc (opens_of_answerTo hok)
  have hbefore : before.findSome? (answerTo sc) = none := by
    rw [List.findSome?_eq_none_iff]
    intro ev' hev'
    cases hanswer : answerTo sc ev' with
    | none => rfl
    | some ok' => exact absurd (opens_of_answerTo hanswer) (honce ev' hev')
  rw [acquires_recollect, List.findSome?_append, hbefore, Option.none_or, List.findSome?_cons, hok]
  rfl

end Agrees

def withEnvs (f : Nat → Env) (calls : Calls) : Calls :=
  { calls with threads := calls.threads.mapIdx fun k t => { t with env := f k } }

def Answering (f : Nat → Env) (calls : Calls) : Prop :=
  ∀ k t, calls.threads[k]? = some t → Agrees t.past t.env (f k)

def Simulated (impl : LogicServiceImpl) (w : World) (calls : Calls) : Prop :=
  ∀ f, Answering f calls → ∃ h, (concurrentService impl).Run h ⟨w, []⟩ (withEnvs f calls)

def recalled (calls : Calls) (k : Nat) : Env :=
  match calls.threads[k]? with
  | some t => recollect t.past t.env
  | none => .fair

theorem answering_recalled {calls : Calls} (h : WellTraced (handle impl) calls) :
    Answering (recalled calls) calls := by
  intro k t hk
  rw [recalled, hk]
  exact agrees_recollect (h t (List.mem_of_getElem? hk)) t.env

/-- What a step of the server is to the calls: nothing, a new call, or an operation that has the
same result in all environments that agree with it. -/
inductive Advance (impl : LogicServiceImpl) (calls : Calls) : Calls → Prop
  | none : Advance impl calls calls
  | call (req : Request) (e : Env) : Advance impl calls
      { calls with threads := calls.threads ++ [⟨req, e, [], handle impl req⟩] }
  | answered (k : Nat) (req : Request) (e : Env) (past : List (Event Op.Ret)) (o : Op)
      (next : o.Ret → Prog Op.Ret Reply) (w : World) (r : o.Ret) :
      calls.threads[k]? = some ⟨req, e, past, .op o next⟩ →
      (∀ e', Agrees (past ++ [⟨o, r⟩]) e e' → e'.exec o calls.shared = (r, w)) →
      Advance impl calls
        ⟨w, calls.threads.set k ⟨req, e, past ++ [⟨o, r⟩], next r⟩⟩

theorem wellTraced_advance {calls calls' : Calls} (h : WellTraced (handle impl) calls)
    (hadvance : Advance impl calls calls') : WellTraced (handle impl) calls' := by
  intro t ht
  cases hadvance with
  | none => exact h t ht
  | call req e =>
    rcases List.mem_append.mp ht with ht | ht
    · exact h t ht
    · obtain rfl := List.mem_singleton.mp ht
      exact .nil _
  | answered k req e past o next w r hk hexec =>
    rcases List.mem_or_eq_of_mem_set ht with ht | rfl
    · exact h t ht
    · exact (h _ (List.mem_of_getElem? hk)).snoc r

section Erased
variable {k : Nat} {t : GuardedThread}

theorem advance_answered {calls : GuardedCalls} {o : Op} {next : o.Ret → GuardedProg}
    (hk : calls.threads[k]? = some t) (hrest : t.rest = .op (.perform o) next) (w : World)
    (r : o.Ret) (hexec : ∀ e', Agrees (t.erase.past ++ [⟨o, r⟩]) t.env e' →
      e'.exec o calls.shared = (r, w)) :
    Advance impl calls.erase (Conf.erase ⟨w, calls.threads.set k
      ⟨t.call, t.env, t.past ++ [⟨.perform o, r⟩], next r⟩⟩) := by
  have hthread : calls.erase.threads[k]? =
      some ⟨t.call, t.env, t.erase.past, .op o fun r => (next r).erase⟩ := by
    rw [Conf.erase_getElem? hk, Thread.erase, hrest]
    rfl
  have hnext : Thread.erase ⟨t.call, t.env, t.past ++ [⟨.perform o, r⟩], next r⟩ =
      (⟨t.call, t.env, t.erase.past ++ [⟨o, r⟩], (next r).erase⟩ :
        Thread Op.Ret Request Env Reply) := by
    rw [Thread.erase, List.filterMap_append]
    rfl
  rw [Conf.erase_set, hnext]
  exact .answered k _ _ _ o _ w r hthread hexec

theorem advance_asked {calls : GuardedCalls} {p : PoolName}
    {answer : Bool → GuardedEvent × GuardedProg} (hk : calls.threads[k]? = some t)
    (hopening : opening t.rest = some (p, answer)) (ok : Bool) :
    Advance impl calls.erase (Conf.erase ⟨calls.shared, calls.threads.set k
      ⟨t.call, t.env, t.past ++ [(answer ok).1], (answer ok).2⟩⟩) := by
  obtain ⟨o, next, hrest, hopens, hanswer⟩ := opening_answer hopening
  obtain ⟨r, heq, -⟩ := hanswer ok
  obtain ⟨sc, hsc⟩ := Option.ne_none_iff_exists'.mp hopens
  rw [heq]
  exact advance_answered hk hrest _ r fun e' he' => he'.exec_answer hsc _

theorem advance_of_step {i : Input password_} {u : Unit}
    (hstep : (server password_ impl).step s i = some (u, s')) :
    Advance impl s.calls.erase s'.calls.erase := by
  cases move_of_step hstep with
  | call req e =>
    have hcalled : (s.call impl req e).calls.erase = { s.calls.erase with
        threads := s.calls.erase.threads ++ [⟨req, e, [], handle impl req⟩] } := by
      rw [← erase_guardedHandle]
      exact congrArg (Conf.mk _) List.map_append
    rw [hcalled]
    exact .call req e
  | pick k req e past o next hk hopens =>
    exact advance_answered hk rfl _ _ fun e' he' => he'.exec hopens _
  | left k req e past next guard guards s₁ hk hguards hdestroyed =>
    have hsame : ((s₁.setGuards k guards).setThread k
        ⟨req, e, past ++ [⟨.leave, ()⟩], next ()⟩).calls.erase = s.calls.erase := by
      have hthread : Thread.erase ⟨req, e, past ++ [⟨.leave, ()⟩], next ()⟩ =
          Thread.erase (⟨req, e, past, .op .leave next⟩ : GuardedThread) := by
        rw [Thread.erase, List.filterMap_append]
        exact congrArg (fun past => Thread.mk req e past (next ()).erase) (List.append_nil _)
      rw [State.setThread, State.setGuards, hdestroyed.keeps.1, Conf.erase_set, hthread,
        set_of_getElem? (Conf.erase_getElem? hk)]
      rfl
    rw [hsame]
    exact .none
  | asked p i k t answer o pool hi hk hopening hpool =>
    unfold returned
    split
    · exact advance_asked hk hopening true
    · split
      · exact advance_asked hk hopening false
      · exact .none
  | setStatus => exact .none

end Erased

namespace Simulated
variable {w : World} {calls calls' : Calls}

theorem call (h : Simulated impl w calls) (req : Request) (e : Env) : Simulated impl w
    { calls with threads := calls.threads ++ [⟨req, e, [], handle impl req⟩] } := by
  intro f hf
  have hold : Answering f calls := fun k t hk =>
    hf k t ((List.getElem?_append_left (List.getElem?_eq_some_iff.mp hk).1).trans hk)
  obtain ⟨hist, hrun⟩ := h f hold
  have hcalled : withEnvs f
      { calls with threads := calls.threads ++ [⟨req, e, [], handle impl req⟩] } =
      ⟨calls.shared, (withEnvs f calls).threads ++
        [⟨req, f calls.threads.length, [], handle impl req⟩]⟩ := by
    simp only [withEnvs, List.mapIdx_concat]
  refine ⟨hist ++ [(.call req (f calls.threads.length), none)], path_snoc.mpr ⟨_, hrun, ?_⟩⟩
  rw [hcalled]
  rfl

theorem answered (h : Simulated impl w calls) {k : Nat} {req : Request} {e : Env}
    {past : List (Event Op.Ret)} {o : Op} {next : o.Ret → Prog Op.Ret Reply}
    (hk : calls.threads[k]? = some ⟨req, e, past, .op o next⟩) (w' : World) (r : o.Ret)
    (hexec : ∀ e', Agrees (past ++ [⟨o, r⟩]) e e' → e'.exec o calls.shared = (r, w')) :
    Simulated impl w ⟨w', calls.threads.set k ⟨req, e, past ++ [⟨o, r⟩], next r⟩⟩ := by
  intro f hf
  have hlt := (List.getElem?_eq_some_iff.mp hk).1
  have hagrees := hf k _ (List.getElem?_set_self hlt)
  have hold : Answering f calls := by
    intro k' t' hk'
    by_cases hkk : k' = k
    · subst hkk
      obtain rfl := Option.some.inj (hk'.symm.trans hk)
      exact hagrees.init
    · exact hf k' t' ((List.getElem?_set_ne (Ne.symm hkk)).trans hk')
  obtain ⟨hist, hrun⟩ := h f hold
  have hthread : (withEnvs f calls).threads[k]? = some ⟨req, f k, past, .op o next⟩ := by
    rw [withEnvs, List.getElem?_mapIdx, hk]
    rfl
  have hstep := interleaving_pick (handle impl) Env.exec hthread
  have hanswer : (f k).exec o (withEnvs f calls).shared = (r, w') := hexec (f k) hagrees
  have hset : withEnvs f ⟨w', calls.threads.set k ⟨req, e, past ++ [⟨o, r⟩], next r⟩⟩ =
      ⟨w', (withEnvs f calls).threads.set k ⟨req, f k, past ++ [⟨o, r⟩], next r⟩⟩ := by
    simp only [withEnvs, List.mapIdx_set]
  rw [hanswer] at hstep
  refine ⟨hist ++ [(.pick k, some ⟨o, r⟩)], path_snoc.mpr ⟨_, hrun, ?_⟩⟩
  rw [hset]
  exact hstep

theorem advance (h : Simulated impl w calls) (hadvance : Advance impl calls calls') :
    Simulated impl w calls' := by
  cases hadvance with
  | none => exact h
  | call req e => exact h.call req e
  | answered k req e past o next w' r hk hexec => exact h.answered hk w' r hexec

end Simulated

structure Refines (impl : LogicServiceImpl) (w : World) (s : State password_) : Prop where
  traced : WellTraced (handle impl) s.calls.erase
  simulated : Simulated impl w s.calls.erase

theorem Refines.step {w : World} (h : Refines impl w s) {i : Input password_} {u : Unit}
    (hstep : (server password_ impl).step s i = some (u, s')) : Refines impl w s' where
  traced := wellTraced_advance h.traced (advance_of_step hstep)
  simulated := h.simulated.advance (advance_of_step hstep)

theorem Refines.initial (init : (p : PoolName) → Pool.Startup (p.kind password_) p.min_pool)
    (w : World) : Refines impl w (start init w) where
  traced _ ht := absurd ht List.not_mem_nil
  simulated _ _ := ⟨[], rfl⟩

/-- The server does what the service does in which acquisitions may fail: in every run, the calls
and what they have left, but for the ends of their scopes, are as in a run of the service alone,
in environments that differ from those of the calls in the acquisitions only. -/
theorem server_refines_service
    (init : (p : PoolName) → Pool.Startup (p.kind password_) p.min_pool) (w : World)
    (is : List (Input password_)) :
    (server password_ impl).EveryState (fun _ s => ∃ f, Answering f s.calls.erase ∧
      ∃ h, (concurrentService impl).Run h ⟨w, []⟩ (withEnvs f s.calls.erase)) [] (start init w)
      is := by
  have hrun : (server password_ impl).EveryState (fun _ s => Refines impl w s) []
      (start init w) is :=
    everyState_of_invariant (I := fun _ s => Refines impl w s)
      (fun _ _ _ _ _ h hstep => h.step hstep) (.initial init w)
  apply hrun.mono
  intro _ s h
  have hf := answering_recalled h.traced
  exact ⟨recalled s.calls.erase, hf, h.simulated _ hf⟩

end LetsChat.LogicServer
