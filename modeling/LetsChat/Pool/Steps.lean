import LetsChat.Pool.Accounting

/-! What a step of a pool does to its guards and to the threads in `Acquire`. -/

namespace LetsChat.Pool
open Lib Lib.Machine

variable {K : PoolKind} {τ : Type}

def Input.thread : Input K τ → Option τ
  | .acquire t | .lock t | .connect t _ _ | .relock t | .wake t | .timeout t => some t
  | .release _ | .setStatus _ _ => none

theorem guards_nodup {s : State K τ} (h : Accounted s) : s.guards.Nodup :=
  (List.nodup_append.mp h.owners.nodup).2.1

theorem release_keeps (s : State K τ) (c : Conn) :
    (s.release c).2.guards = s.guards.erase c ∧ (s.release c).2.threads = s.threads := by
  unfold State.release
  dsimp only
  split <;> exact ⟨rfl, rfl⟩

variable [DecidableEq τ] {max_pool_ : SizeT} {s s' : State K τ} {i : Input K τ} {o : Output} {t : τ}

theorem threads_setThread (s : State K τ) (t : τ) (pc : PC) : (s.setThread t pc).threads t = pc :=
  Function.update_self ..

structure ThreadStep (t : τ) (s : State K τ) (o : Output) (s' : State K τ) : Prop where
  guards : s'.guards = s.guards ++ o.handed.toList
  returned : ∀ c, o.handed = some c → s'.threads t = .out
  others : ∀ t', t' ≠ t → s'.threads t' = s.threads t'

theorem threadStep_setThread (s : State K τ) (t : τ) (pc : PC) :
    ThreadStep t s {} (s.setThread t pc) where
  guards := (List.append_nil _).symm
  returned c hc := by cases hc
  others t' ht' := Function.update_of_ne ht' ..

theorem threadStep_turn (s : State K τ) (t : τ) :
    ThreadStep t s (s.turn max_pool_ t).1 (s.turn max_pool_ t).2 := by
  unfold State.turn
  dsimp only
  split
  · exact ⟨rfl, fun _ _ => threads_setThread .., fun t' ht' => Function.update_of_ne ht' ..⟩
  · split
    · exact ⟨(List.append_nil _).symm, nofun, fun t' ht' => Function.update_of_ne ht' ..⟩
    · exact ⟨(List.append_nil _).symm, nofun, fun t' ht' => Function.update_of_ne ht' ..⟩

theorem threadStep_of_step (hi : i.thread = some t)
    (hstep : (pool K τ max_pool_).step s i = some (o, s')) : ThreadStep t s o s' := by
  cases move_of_step hstep with
  | acquire t' =>
    obtain rfl := Option.some.inj hi
    exact threadStep_setThread s t' _
  | locked t' =>
    obtain rfl := Option.some.inj hi
    exact threadStep_turn s t'
  | failed t' =>
    obtain rfl := Option.some.inj hi
    exact threadStep_setThread s t' _
  | created t' =>
    obtain rfl := Option.some.inj hi
    exact ⟨(List.append_nil _).symm, nofun, fun t'' ht'' => Function.update_of_ne ht'' ..⟩
  | joined t' =>
    obtain rfl := Option.some.inj hi
    exact ⟨rfl, fun _ _ => threads_setThread .., fun t'' ht'' => Function.update_of_ne ht'' ..⟩
  | gaveUp t' =>
    obtain rfl := Option.some.inj hi
    exact threadStep_setThread s t' _
  | woken t' =>
    obtain rfl := Option.some.inj hi
    exact threadStep_turn s t'
  | timeout t' =>
    obtain rfl := Option.some.inj hi
    exact threadStep_setThread s t' _
  | released c => cases hi
  | setStatus c status => cases hi

theorem releaseStep {c : Conn} (hstep : (pool K τ max_pool_).step s (.release c) = some (o, s')) :
    c ∈ s.guards ∧ s'.guards = s.guards.erase c ∧ s'.threads = s.threads := by
  cases move_of_step hstep with
  | released _ hc => exact ⟨hc, release_keeps s c⟩

theorem setStatusStep {c : Conn} {status : K.Status}
    (hstep : (pool K τ max_pool_).step s (.setStatus c status) = some (o, s')) :
    s'.guards = s.guards ∧ s'.threads = s.threads := by
  cases move_of_step hstep with
  | setStatus => exact ⟨rfl, rfl⟩

theorem threads_of_step (hi : i.thread ≠ some t)
    (hstep : (pool K τ max_pool_).step s i = some (o, s')) : s'.threads t = s.threads t := by
  cases hthread : i.thread with
  | some t' =>
    refine (threadStep_of_step hthread hstep).others t fun heq => hi ?_
    rw [hthread, heq]
  | none =>
    cases i with
    | release c => exact congrFun (releaseStep hstep).2.2 t
    | setStatus c status => exact congrFun (setStatusStep hstep).2 t
    | _ => cases hthread

end LetsChat.Pool
