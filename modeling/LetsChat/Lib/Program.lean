import LetsChat.Lib.Machine
import Mathlib.Data.List.Nodup

/-! Programs over a signature of operations. One program has two readings: run
alone against a state, or interleaved with other calls, one operation at a time. -/

namespace Lib

/-- A program asks for operations and goes on with their results. `throw` is an
exception that leaves the call without a result. -/
inductive Prog {Op : Type} (Ret : Op → Type) (α : Type) : Type
  | ret (a : α)
  | throw
  | op (o : Op) (k : Ret o → Prog Ret α)

namespace Prog
variable {Op : Type} {Ret : Op → Type} {α β : Type}

def bind : Prog Ret α → (α → Prog Ret β) → Prog Ret β
  | ret a, f => f a
  | throw, _ => throw
  | op o k, f => op o (fun r => (k r).bind f)

instance : Monad (Prog Ret) where
  pure := ret
  bind := bind

def perform (o : Op) : Prog Ret (Ret o) := op o ret

def ofOption : Option α → Prog Ret α
  | some a => ret a
  | none => throw

@[simp] theorem pure_eq (a : α) : (pure a : Prog Ret α) = ret a := rfl

@[simp] theorem ret_bind (a : α) (f : α → Prog Ret β) : (ret a >>= f) = f a := rfl

@[simp] theorem throw_bind (f : α → Prog Ret β) : (throw >>= f) = throw := rfl

@[simp] theorem op_bind (o : Op) (k : Ret o → Prog Ret α) (f : α → Prog Ret β) :
    (op o k >>= f) = op o (fun r => k r >>= f) := rfl

@[simp] theorem perform_bind (o : Op) (f : Ret o → Prog Ret β) :
    (perform o >>= f) = op o f := rfl

@[simp] theorem ofOption_some (a : α) : (ofOption (some a) : Prog Ret α) = ret a := rfl

@[simp] theorem ofOption_none : (ofOption none : Prog Ret α) = throw := rfl

@[simp] theorem ite_bind (c : Prop) [Decidable c] (p q : Prog Ret α) (f : α → Prog Ret β) :
    ((if c then p else q) >>= f) = if c then p >>= f else q >>= f := by
  split <;> rfl

theorem bind_ret (p : Prog Ret α) : (p >>= ret) = p := by
  induction p with
  | ret a => rfl
  | throw => rfl
  | op o k ih => rw [op_bind, funext ih]

@[simp] theorem bind_assoc {γ : Type} (p : Prog Ret α) (f : α → Prog Ret β) (g : β → Prog Ret γ) :
    ((p >>= f) >>= g) = (p >>= fun a => f a >>= g) := by
  induction p with
  | ret a => rfl
  | throw => rfl
  | op o k ih => simp only [op_bind, ih]

instance : LawfulMonad (Prog Ret) := LawfulMonad.mk' (Prog Ret) bind_ret (fun _ _ => rfl) bind_assoc

variable {σ : Type}

/-- The result (`none` after an exception) and the state that the program leaves. -/
def run (exec : (o : Op) → σ → Ret o × σ) : Prog Ret α → σ → Option α × σ
  | ret a, s => (some a, s)
  | throw, s => (none, s)
  | op o k, s => (k (exec o s).1).run exec (exec o s).2

abbrev Event (Ret : Op → Type) := (o : Op) × Ret o

def events (exec : (o : Op) → σ → Ret o × σ) : Prog Ret α → σ → List (Event Ret)
  | ret _, _ => []
  | throw, _ => []
  | op o k, s => ⟨o, (exec o s).1⟩ :: (k (exec o s).1).events exec (exec o s).2

variable (exec : (o : Op) → σ → Ret o × σ)

@[simp] theorem run_ret (a : α) (s : σ) : (ret a : Prog Ret α).run exec s = (some a, s) := rfl

@[simp] theorem run_throw (s : σ) : (throw : Prog Ret α).run exec s = (none, s) := rfl

@[simp] theorem run_op (o : Op) (k : Ret o → Prog Ret α) (s : σ) :
    (op o k).run exec s = (k (exec o s).1).run exec (exec o s).2 := rfl

theorem run_bind (p : Prog Ret α) (f : α → Prog Ret β) (s : σ) :
    (p >>= f).run exec s = match p.run exec s with
      | (some a, s') => (f a).run exec s'
      | (none, s') => (none, s') := by
  induction p generalizing s with
  | ret a => rfl
  | throw => rfl
  | op o k ih => simpa only [op_bind, run_op] using ih (exec o s).1 (exec o s).2

theorem run_bind_of {p : Prog Ret α} {f : α → Prog Ret β} {s s' : σ} {a : α}
    (h : p.run exec s = (some a, s')) : (p >>= f).run exec s = (f a).run exec s' := by
  rw [run_bind, h]

theorem run_map (f : α → β) (p : Prog Ret α) (s : σ) :
    (f <$> p).run exec s = ((p.run exec s).1.map f, (p.run exec s).2) := by
  rw [map_eq_pure_bind, run_bind]
  rcases p.run exec s with ⟨_ | a, s'⟩ <;> rfl

def Within (P : Op → Prop) : Prog Ret α → Prop
  | ret _ => True
  | throw => True
  | op o k => P o ∧ ∀ r, (k r).Within P

section Within
variable {P : Op → Prop}

@[simp] theorem within_ret (a : α) : (ret a : Prog Ret α).Within P := trivial

@[simp] theorem within_throw : (throw : Prog Ret α).Within P := trivial

@[simp] theorem within_op (o : Op) (k : Ret o → Prog Ret α) :
    (op o k).Within P ↔ P o ∧ ∀ r, (k r).Within P := Iff.rfl

@[simp] theorem within_perform (o : Op) : (perform o : Prog Ret (Ret o)).Within P ↔ P o :=
  and_iff_left fun _ => trivial

@[simp] theorem within_ofOption (a : Option α) : (ofOption a : Prog Ret α).Within P := by
  cases a <;> trivial

@[simp] theorem within_ofOption_bind {a : Option α} {f : α → Prog Ret β} :
    (ofOption a >>= f).Within P ↔ ∀ x, a = some x → (f x).Within P := by
  cases a <;> simp

theorem Within.mono {Q : Op → Prop} (hpq : ∀ o, P o → Q o) {p : Prog Ret α} (hp : p.Within P) :
    p.Within Q := by
  induction p with
  | ret a => trivial
  | throw => trivial
  | op o k ih => exact ⟨hpq o hp.1, fun r => ih r (hp.2 r)⟩

theorem within_of_forall (hP : ∀ o, P o) (p : Prog Ret α) : p.Within P := by
  induction p with
  | ret a => trivial
  | throw => trivial
  | op o k ih => exact ⟨hP o, ih⟩

theorem within_bind {p : Prog Ret α} {f : α → Prog Ret β} (hp : p.Within P)
    (hf : ∀ a, (f a).Within P) : (p >>= f).Within P := by
  induction p with
  | ret a => exact hf a
  | throw => trivial
  | op o k ih => exact ⟨hp.1, fun r => ih r (hp.2 r)⟩

theorem within_map {p : Prog Ret α} (f : α → β) (hp : p.Within P) : (f <$> p).Within P := by
  rw [map_eq_pure_bind]
  exact within_bind hp fun _ => trivial

theorem within_of_map {p : Prog Ret α} {f : α → β} (hp : (f <$> p).Within P) : p.Within P := by
  rw [map_eq_pure_bind] at hp
  induction p with
  | ret a => trivial
  | throw => trivial
  | op o k ih => exact ⟨hp.1, fun r => ih r (hp.2 r)⟩

@[simp] theorem within_ite {c : Prop} [Decidable c] {p q : Prog Ret α} :
    (if c then p else q).Within P ↔ (c → p.Within P) ∧ (¬c → q.Within P) := by
  split <;> simp [*]

theorem within_optional {p : Prog Ret (Option α)} {f : Option α → Prog Ret β} (hp : p.Within P)
    (hnone : (f none).Within P) (hsome : ∀ a, (f (some a)).Within P) : (p >>= f).Within P := by
  apply within_bind hp
  intro res
  cases res with
  | none => exact hnone
  | some a => exact hsome a

theorem run_keeps {τ : Type} {exec : (o : Op) → σ → Ret o × σ} (view : σ → τ)
    (hop : ∀ o s, P o → view (exec o s).2 = view s) {p : Prog Ret α} (hp : p.Within P) (s : σ) :
    view (p.run exec s).2 = view s := by
  induction p generalizing s with
  | ret a => rfl
  | throw => rfl
  | op o k ih => exact (ih (exec o s).1 (hp.2 _) (exec o s).2).trans (hop o s hp.1)

theorem Within.events {p : Prog Ret α} (hp : p.Within P) (exec : (o : Op) → σ → Ret o × σ) (s : σ) :
    ∀ ev ∈ p.events exec s, P ev.1 := by
  induction p generalizing s with
  | ret a => exact fun ev hev => absurd hev List.not_mem_nil
  | throw => exact fun ev hev => absurd hev List.not_mem_nil
  | op o k ih =>
    intro ev hev
    rcases List.mem_cons.mp hev with rfl | hev
    · exact hp.1
    · exact ih _ (hp.2 _) _ ev hev

end Within

/-- `Trace p tr q`: `p` has performed the operations of `tr` and `q` is what remains. -/
inductive Trace : Prog Ret α → List (Event Ret) → Prog Ret α → Prop
  | nil (p) : Trace p [] p
  | cons {o k r tr q} (h : Trace (k r) tr q) : Trace (op o k) (⟨o, r⟩ :: tr) q

theorem Trace.snoc {p : Prog Ret α} {tr : List (Event Ret)} {o : Op} {k : Ret o → Prog Ret α}
    (h : Trace p tr (op o k)) (r : Ret o) : Trace p (tr ++ [⟨o, r⟩]) (k r) := by
  generalize hq : op o k = q at h
  induction h with
  | nil p => subst hq; exact .cons (.nil _)
  | cons _ ih => exact .cons (ih hq)

theorem Trace.split {p q : Prog Ret α} {tr : List (Event Ret)} (h : Trace p tr q)
    {ev : Event Ret} (hev : ev ∈ tr) :
    ∃ tr₁ tr₂ k, tr = tr₁ ++ ev :: tr₂ ∧ Trace p tr₁ (op ev.1 k) := by
  induction h with
  | nil p => exact absurd hev List.not_mem_nil
  | @cons o k r tr q h ih =>
    rcases List.mem_cons.mp hev with rfl | hev
    · exact ⟨[], tr, k, rfl, .nil _⟩
    · obtain ⟨tr₁, tr₂, k', rfl, htr⟩ := ih hev
      exact ⟨⟨o, r⟩ :: tr₁, tr₂, k', rfl, .cons htr⟩

theorem Within.asks {P : Op → Prop} {p : Prog Ret α} (hp : p.Within P) {tr : List (Event Ret)}
    {o : Op} {k : Ret o → Prog Ret α} (h : Trace p tr (op o k)) : P o := by
  generalize hq : op o k = q at h
  induction h with
  | nil p =>
    subst hq
    exact hp.1
  | cons _ ih => exact ih (hp.2 _) hq

theorem Within.traced {P : Op → Prop} {p q : Prog Ret α} (hp : p.Within P)
    {tr : List (Event Ret)} (h : Trace p tr q) : ∀ ev ∈ tr, P ev.1 := by
  intro ev hev
  obtain ⟨_, _, _, -, hsplit⟩ := h.split hev
  exact hp.asks hsplit

/-- Each operation that the program asks for meets `R`, given the events before it. -/
def Disciplined (R : List (Event Ret) → Op → Prop) : List (Event Ret) → Prog Ret α → Prop
  | _, ret _ => True
  | _, throw => True
  | past, op o k => R past o ∧ ∀ r, (k r).Disciplined R (past ++ [⟨o, r⟩])

section Disciplined
variable {R : List (Event Ret) → Op → Prop} {past : List (Event Ret)}

@[simp] theorem disciplined_ret (a : α) : (ret a : Prog Ret α).Disciplined R past := trivial

@[simp] theorem disciplined_throw : (throw : Prog Ret α).Disciplined R past := trivial

@[simp] theorem disciplined_op (o : Op) (k : Ret o → Prog Ret α) :
    (op o k).Disciplined R past ↔ R past o ∧ ∀ r, (k r).Disciplined R (past ++ [⟨o, r⟩]) := Iff.rfl

@[simp] theorem disciplined_ofOption_bind {a : Option α} {f : α → Prog Ret β} :
    (ofOption a >>= f).Disciplined R past ↔ ∀ x, a = some x → (f x).Disciplined R past := by
  cases a <;> simp

@[simp] theorem disciplined_ite {c : Prop} [Decidable c] {p q : Prog Ret α} :
    (if c then p else q).Disciplined R past ↔
      (c → p.Disciplined R past) ∧ (¬c → q.Disciplined R past) := by
  split <;> simp [*]

theorem disciplined_bind {p : Prog Ret α} {f : α → Prog Ret β} (hp : p.Disciplined R past)
    (hf : ∀ a past, (f a).Disciplined R past) : (p >>= f).Disciplined R past := by
  induction p generalizing past with
  | ret a => exact hf a past
  | throw => trivial
  | op o k ih => exact ⟨hp.1, fun r => ih r (hp.2 r)⟩

theorem disciplined_map {p : Prog Ret α} (f : α → β) (hp : p.Disciplined R past) :
    (f <$> p).Disciplined R past := by
  rw [map_eq_pure_bind]
  exact disciplined_bind hp fun _ _ => trivial

theorem disciplined_of_map {p : Prog Ret α} {f : α → β} (hp : (f <$> p).Disciplined R past) :
    p.Disciplined R past := by
  rw [map_eq_pure_bind] at hp
  induction p generalizing past with
  | ret a => trivial
  | throw => trivial
  | op o k ih => exact ⟨hp.1, fun r => ih r (hp.2 r)⟩

theorem Disciplined.within {P : Op → Prop} {p : Prog Ret α} (hp : p.Disciplined R past)
    (hwithin : p.Within P) : p.Disciplined (fun past o => R past o ∧ P o) past := by
  induction p generalizing past with
  | ret a => trivial
  | throw => trivial
  | op o k ih => exact ⟨⟨hp.1, hwithin.1⟩, fun r => ih r (hp.2 r) (hwithin.2 r)⟩

theorem Disciplined.within_of {P : Op → Prop} {p : Prog Ret α} (hp : p.Disciplined R past)
    (hr : ∀ past o, R past o → P o) : p.Within P := by
  induction p generalizing past with
  | ret a => trivial
  | throw => trivial
  | op o k ih => exact ⟨hr past o hp.1, fun r => ih r (hp.2 r)⟩

theorem Within.disciplined {P : Op → Prop} {p : Prog Ret α} (hp : p.Within P)
    (hpr : ∀ more o, P o → R (past ++ more) o) : p.Disciplined R past := by
  induction p generalizing past with
  | ret a => trivial
  | throw => trivial
  | op o k ih =>
    refine ⟨?_, fun r => ih r (hp.2 r) fun more o ho => ?_⟩
    · have hfirst := hpr [] o hp.1
      rwa [List.append_nil] at hfirst
    · rw [List.append_assoc]
      exact hpr _ o ho

theorem Disciplined.asks {p : Prog Ret α} (hp : p.Disciplined R past) {tr : List (Event Ret)}
    {o : Op} {k : Ret o → Prog Ret α} (h : Trace p tr (op o k)) : R (past ++ tr) o := by
  generalize hq : op o k = q at h
  induction h generalizing past with
  | nil p =>
    subst hq
    rw [List.append_nil]
    exact hp.1
  | @cons o' k' r tr q h ih =>
    -- the event moves from the rest of the trace to the past
    have hnext := ih (hp.2 r) hq
    rwa [List.append_assoc] at hnext

end Disciplined

/-- Each result of the program meets `Q`, given the events that lead to it. -/
def Concludes (Q : List (Event Ret) → α → Prop) : List (Event Ret) → Prog Ret α → Prop
  | past, ret a => Q past a
  | _, throw => True
  | past, op o k => ∀ r, (k r).Concludes Q (past ++ [⟨o, r⟩])

section Concludes
variable {past : List (Event Ret)}

theorem concludes_of_forall {Q : List (Event Ret) → α → Prop} (hq : ∀ past a, Q past a)
    (p : Prog Ret α) : p.Concludes Q past := by
  induction p generalizing past with
  | ret a => exact hq past a
  | throw => trivial
  | op o k ih => exact fun r => ih r

theorem Within.concludes_stable {P : Op → Prop} {S : List (Event Ret) → Prop}
    (hs : ∀ past ev, P ev.1 → S past → S (past ++ [ev])) {p : Prog Ret α} (hp : p.Within P)
    (hpast : S past) : p.Concludes (fun past _ => S past) past := by
  induction p generalizing past with
  | ret a => exact hpast
  | throw => trivial
  | op o k ih => exact fun r => ih r (hp.2 r) (hs past _ hp.1 hpast)

theorem concludes_of_stable {S : List (Event Ret) → Prop} (hs : ∀ past ev, S past → S (past ++ [ev]))
    (hpast : S past) (p : Prog Ret α) : p.Concludes (fun past _ => S past) past :=
  (within_of_forall (P := fun _ => True) (fun _ => trivial) p).concludes_stable
    (fun past ev _ => hs past ev) hpast

theorem concludes_trace {p q : Prog Ret α} (h : Trace p past q) :
    q.Concludes (fun past a => Trace p past (ret a)) past := by
  induction q generalizing past with
  | ret a => exact h
  | throw => trivial
  | op o k ih => exact fun r => ih r (h.snoc r)

@[simp] theorem concludes_ite {Q : List (Event Ret) → α → Prop} {c : Prop} [Decidable c]
    {p q : Prog Ret α} : (if c then p else q).Concludes Q past ↔
      (c → p.Concludes Q past) ∧ (¬c → q.Concludes Q past) := by
  split <;> simp [*]

theorem concludes_bind {Q : List (Event Ret) → β → Prop} {p : Prog Ret α} {f : α → Prog Ret β}
    (hp : p.Concludes (fun past a => (f a).Concludes Q past) past) : (p >>= f).Concludes Q past := by
  induction p generalizing past with
  | ret a => exact hp
  | throw => trivial
  | op o k ih => exact fun r => ih r (hp r)

theorem Within.concludes {P : Op → Prop} {p : Prog Ret α} (hp : p.Within P)
    (hpast : ∀ ev ∈ past, P ev.1) : p.Concludes (fun past _ => ∀ ev ∈ past, P ev.1) past := by
  induction p generalizing past with
  | ret a => exact hpast
  | throw => trivial
  | op o k ih =>
    refine fun r => ih r (hp.2 r) ?_
    rw [List.forall_mem_append]
    exact ⟨hpast, List.forall_mem_singleton.mpr hp.1⟩

theorem Concludes.mono {Q Q' : List (Event Ret) → α → Prop} (hq : ∀ past a, Q past a → Q' past a)
    {p : Prog Ret α} (hp : p.Concludes Q past) : p.Concludes Q' past := by
  induction p generalizing past with
  | ret a => exact hq past a hp
  | throw => trivial
  | op o k ih => exact fun r => ih r (hp r)

theorem Concludes.and {Q Q' : List (Event Ret) → α → Prop} {p : Prog Ret α}
    (hp : p.Concludes Q past) (hp' : p.Concludes Q' past) :
    p.Concludes (fun past a => Q past a ∧ Q' past a) past := by
  induction p generalizing past with
  | ret a => exact ⟨hp, hp'⟩
  | throw => trivial
  | op o k ih => exact fun r => ih r (hp r) (hp' r)

theorem concludes_map {Q : List (Event Ret) → β → Prop} {p : Prog Ret α} {f : α → β}
    (hp : p.Concludes (fun past a => Q past (f a)) past) : (f <$> p).Concludes Q past := by
  rw [map_eq_pure_bind]
  exact concludes_bind hp

theorem Concludes.disciplined_bind {R : List (Event Ret) → Op → Prop} {p : Prog Ret α}
    {f : α → Prog Ret β} (hf : p.Concludes (fun past a => (f a).Disciplined R past) past)
    (hp : p.Disciplined R past) : (p >>= f).Disciplined R past := by
  induction p generalizing past with
  | ret a => exact hf
  | throw => trivial
  | op o k ih => exact ⟨hp.1, fun r => ih r (hf r) (hp.2 r)⟩

theorem Concludes.returns {Q : List (Event Ret) → α → Prop} {p : Prog Ret α}
    (hp : p.Concludes Q past) {tr : List (Event Ret)} {a : α} (h : Trace p tr (ret a)) :
    Q (past ++ tr) a := by
  generalize hr : ret a = q at h
  induction h generalizing past with
  | nil p =>
    subst hr
    rw [List.append_nil]
    exact hp
  | @cons o k r tr q h ih =>
    have hrest := ih (hp r) hr
    rwa [List.append_assoc] at hrest

end Concludes
end Prog

section Interleaving
variable {Op κ ε σ α : Type} {Ret : Op → Type}

def Prog.finished : Prog Ret α → Bool
  | .op _ _ => false
  | _ => true

theorem Prog.within_of_finished {P : Op → Prop} {p : Prog Ret α} (h : p.finished = true) :
    p.Within P := by
  cases p with
  | ret a => trivial
  | throw => trivial
  | op o k => cases h

theorem Prog.disciplined_of_finished {R : List (Event Ret) → Op → Prop} {past : List (Event Ret)}
    {p : Prog Ret α} (h : p.finished = true) : p.Disciplined R past := by
  cases p with
  | ret a => trivial
  | throw => trivial
  | op o k => cases h

structure Thread (Ret : Op → Type) (κ ε α : Type) where
  call : κ
  env : ε
  past : List (Prog.Event Ret)
  rest : Prog Ret α

structure Conf (Ret : Op → Type) (κ ε σ α : Type) where
  shared : σ
  threads : List (Thread Ret κ ε α)

inductive Sched (κ ε : Type)
  | call (c : κ) (e : ε)
  | pick (k : Nat)

/-- Interleaved execution of any number of calls, one operation at a time. -/
def interleaving (body : κ → Prog Ret α) (exec : ε → (o : Op) → σ → Ret o × σ) :
    Machine (Conf Ret κ ε σ α) (Sched κ ε) (Option (Prog.Event Ret)) where
  step c
    | .call req e => some (none, { c with threads := c.threads ++ [⟨req, e, [], body req⟩] })
    | .pick k => match c.threads[k]? with
      | some ⟨req, e, past, .op o next⟩ =>
        let res := exec e o c.shared
        some (some ⟨o, res.1⟩,
          ⟨res.2, c.threads.set k ⟨req, e, past ++ [⟨o, res.1⟩], next res.1⟩⟩)
      | _ => none

theorem interleaving_call (body : κ → Prog Ret α) (exec : ε → (o : Op) → σ → Ret o × σ)
    (c : Conf Ret κ ε σ α) (req : κ) (e : ε) :
    (interleaving body exec).step c (.call req e) =
      some (none, { c with threads := c.threads ++ [⟨req, e, [], body req⟩] }) := rfl

theorem interleaving_pick (body : κ → Prog Ret α) (exec : ε → (o : Op) → σ → Ret o × σ)
    {c : Conf Ret κ ε σ α} {k : Nat} {req : κ} {e : ε} {past : List (Prog.Event Ret)} {o : Op}
    {next : Ret o → Prog Ret α} (hk : c.threads[k]? = some ⟨req, e, past, .op o next⟩) :
    (interleaving body exec).step c (.pick k) =
      some (some ⟨o, (exec e o c.shared).1⟩, ⟨(exec e o c.shared).2, c.threads.set k
        ⟨req, e, past ++ [⟨o, (exec e o c.shared).1⟩], next (exec e o c.shared).1⟩⟩) := by
  simp only [interleaving, hk]

theorem interleaving_step {body : κ → Prog Ret α} {exec : ε → (o : Op) → σ → Ret o × σ}
    {c c' : Conf Ret κ ε σ α} {i : Sched κ ε} {out : Option (Prog.Event Ret)}
    (h : (interleaving body exec).step c i = some (out, c')) :
    (∃ req e, i = .call req e ∧
      c' = { c with threads := c.threads ++ [⟨req, e, [], body req⟩] }) ∨
    (∃ k req e past o next, i = .pick k ∧ c.threads[k]? = some ⟨req, e, past, .op o next⟩ ∧
      c' = ⟨(exec e o c.shared).2, c.threads.set k
        ⟨req, e, past ++ [⟨o, (exec e o c.shared).1⟩], next (exec e o c.shared).1⟩⟩) := by
  cases i with
  | call req e =>
    simp only [interleaving, Option.some.injEq, Prod.mk.injEq] at h
    exact .inl ⟨req, e, rfl, h.2.symm⟩
  | pick k =>
    simp only [interleaving] at h
    split at h
    · next req e past o next hk =>
      simp only [Option.some.injEq, Prod.mk.injEq] at h
      exact .inr ⟨k, req, e, past, o, next, rfl, hk, h.2.symm⟩
    · cases h

theorem set_of_getElem? {β : Type} {l : List β} {k : Nat} {b : β} (h : l[k]? = some b) :
    l.set k b = l := by
  obtain ⟨hlt, rfl⟩ := List.getElem?_eq_some_iff.mp h
  exact List.set_getElem_self hlt

theorem getElem?_set_cases {β : Type} {l : List β} {j : Nat} {b x : β} {k : Nat}
    (h : (l.set k b)[j]? = some x) : j = k ∧ x = b ∨ j ≠ k ∧ l[j]? = some x := by
  by_cases hjk : j = k
  · subst hjk
    have hlt : j < l.length := by
      obtain ⟨hlt, -⟩ := List.getElem?_eq_some_iff.mp h
      rwa [List.length_set] at hlt
    rw [List.getElem?_set_self hlt] at h
    exact .inl ⟨rfl, (Option.some.inj h).symm⟩
  · rw [List.getElem?_set_ne (Ne.symm hjk)] at h
    exact .inr ⟨hjk, h⟩

theorem mem_set_self {β : Type} {l : List β} {k : Nat} {a : β} (h : l[k]? = some a) (b : β) :
    b ∈ l.set k b :=
  List.mem_of_getElem? (List.getElem?_set_self (List.getElem?_eq_some_iff.mp h).1)

theorem flatMap_set_perm {β γ : Type} (f : β → List γ) {l : List β} {k : Nat} {a b : β}
    {more : List γ} (hk : l[k]? = some a) (hf : f b = f a ++ more) :
    ((l.set k b).flatMap f).Perm (l.flatMap f ++ more) := by
  induction l generalizing k with
  | nil => cases hk
  | cons x l ih =>
    cases k with
    | zero =>
      obtain rfl := Option.some.inj hk
      rw [List.set_cons_zero, List.flatMap_cons, List.flatMap_cons, hf, List.append_assoc,
        List.append_assoc]
      exact List.perm_append_comm.append_left _
    | succ k =>
      rw [List.set_cons_succ, List.flatMap_cons, List.flatMap_cons, List.append_assoc]
      exact (ih hk).append_left _

theorem flatMap_apart {β γ : Type} {f : β → List γ} {l : List β} (h : (l.flatMap f).Nodup)
    {i j : Nat} {a b : β} (hi : l[i]? = some a) (hj : l[j]? = some b) (hne : i ≠ j) {x : γ}
    (hx : x ∈ f a) : x ∉ f b := by
  have hpair := List.pairwise_iff_getElem.mp (List.nodup_flatMap.mp h).2
  obtain ⟨hilt, rfl⟩ := List.getElem?_eq_some_iff.mp hi
  obtain ⟨hjlt, rfl⟩ := List.getElem?_eq_some_iff.mp hj
  rcases Nat.lt_or_gt_of_ne hne with hlt | hlt
  · exact fun hx' => hpair i j hilt hjlt hlt hx hx'
  · exact fun hx' => hpair j i hjlt hilt hlt hx' hx

theorem everyState_alone {body : κ → Prog Ret α} {exec : ε → (o : Op) → σ → Ret o × σ}
    {P : Machine.History (Sched κ ε) (Option (Prog.Event Ret)) → Conf Ret κ ε σ α → Prop}
    {k : Nat} {req : κ} {e : ε} {is : List (Sched κ ε)} (p : Prog Ret α)
    {h : Machine.History (Sched κ ε) (Option (Prog.Event Ret))} {c : Conf Ret κ ε σ α}
    {past : List (Prog.Event Ret)} (hk : c.threads[k]? = some ⟨req, e, past, p⟩)
    (hp : (interleaving body exec).EveryState P h c
      (List.replicate (p.events (exec e) c.shared).length (.pick k) ++ is)) :
    ∃ h' past' rest, (interleaving body exec).EveryState P h'
      ⟨(p.run (exec e) c.shared).2, c.threads.set k ⟨req, e, past', rest⟩⟩ is := by
  induction p generalizing h c past with
  | ret a =>
    refine ⟨h, past, .ret a, ?_⟩
    rwa [set_of_getElem? hk]
  | throw =>
    refine ⟨h, past, .throw, ?_⟩
    rwa [set_of_getElem? hk]
  | op o next ih =>
    have hlt : k < c.threads.length := (List.getElem?_eq_some_iff.mp hk).1
    have hnext := hp.2 _ _ (interleaving_pick body exec hk)
    obtain ⟨h', past', rest, hrest⟩ := ih _ (List.getElem?_set_self hlt) hnext
    rw [List.set_set] at hrest
    exact ⟨h', past', rest, hrest⟩

def inTurn (body : κ → Prog Ret α) (exec : ε → (o : Op) → σ → Ret o × σ) (s : σ) (req : κ) (e : ε)
    (req' : κ) (e' : ε) : List (Sched κ ε) :=
  .call req e :: .call req' e' ::
    (List.replicate ((body req).events (exec e) s).length (.pick 0) ++
      List.replicate ((body req').events (exec e') ((body req).run (exec e) s).2).length (.pick 1))

theorem call_mem_inTurn {body : κ → Prog Ret α} {exec : ε → (o : Op) → σ → Ret o × σ} {s : σ}
    {req req' c : κ} {e e' d : ε} (h : Sched.call c d ∈ inTurn body exec s req e req' e') :
    c = req ∨ c = req' := by
  rcases List.mem_cons.mp h with heq | h
  · exact .inl (Sched.call.inj heq).1
  rcases List.mem_cons.mp h with heq | h
  · exact .inr (Sched.call.inj heq).1
  rcases List.mem_append.mp h with h | h <;> cases List.eq_of_mem_replicate h

theorem everyState_inTurn {body : κ → Prog Ret α} {exec : ε → (o : Op) → σ → Ret o × σ}
    {P : Machine.History (Sched κ ε) (Option (Prog.Event Ret)) → Conf Ret κ ε σ α → Prop}
    {s : σ} {req req' : κ} {e e' : ε}
    (hp : (interleaving body exec).EveryState P [] ⟨s, []⟩ (inTurn body exec s req e req' e')) :
    ∃ h c, P h c ∧ c.shared = ((body req').run (exec e') ((body req).run (exec e) s).2).2 := by
  have hcalled := (hp.2 _ _ rfl).2 _ _ rfl
  obtain ⟨_, past, rest, hfirst⟩ := everyState_alone (body req) (k := 0) rfl hcalled
  rw [← List.append_nil (List.replicate _ _)] at hfirst
  obtain ⟨h, _, _, hsecond⟩ := everyState_alone (body req') (k := 1) rfl hfirst
  exact ⟨h, _, hsecond.first, rfl⟩

theorem threads_step {body : κ → Prog Ret α} {exec : ε → (o : Op) → σ → Ret o × σ}
    {c c' : Conf Ret κ ε σ α} {i : Sched κ ε} {out : Option (Prog.Event Ret)}
    {I : Thread Ret κ ε α → Prop} (hinit : ∀ req e, i = .call req e → I ⟨req, e, [], body req⟩)
    (hnext : ∀ req e past o next s, I ⟨req, e, past, .op o next⟩ →
      I ⟨req, e, past ++ [⟨o, (exec e o s).1⟩], next (exec e o s).1⟩)
    (hc : ∀ t ∈ c.threads, I t) (h : (interleaving body exec).step c i = some (out, c')) :
    ∀ t ∈ c'.threads, I t := by
  intro t ht
  rcases interleaving_step h with
    ⟨req, e, rfl, rfl⟩ | ⟨k, req, e, past, o, next, rfl, hk, rfl⟩
  · rcases List.mem_append.mp ht with ht | ht
    · exact hc t ht
    · obtain rfl := List.mem_singleton.mp ht
      exact hinit req e rfl
  · rcases List.mem_or_eq_of_mem_set ht with ht | rfl
    · exact hc t ht
    · exact hnext req e past o next c.shared (hc _ (List.mem_of_getElem? hk))

theorem events_step {body : κ → Prog Ret α} {exec : ε → (o : Op) → σ → Ret o × σ}
    {c c' : Conf Ret κ ε σ α} {i : Sched κ ε} {out : Option (Prog.Event Ret)}
    {P : Prog.Event Ret → σ → Prop} (hkeep : ∀ ev, P ev c.shared → P ev c'.shared)
    (hnew : ∀ k t o next, i = .pick k → c.threads[k]? = some t → t.rest = .op o next →
      P ⟨o, (exec t.env o c.shared).1⟩ (exec t.env o c.shared).2)
    (hc : ∀ t ∈ c.threads, ∀ ev ∈ t.past, P ev c.shared)
    (h : (interleaving body exec).step c i = some (out, c')) :
    ∀ t ∈ c'.threads, ∀ ev ∈ t.past, P ev c'.shared := by
  intro t ht ev hev
  rcases interleaving_step h with
    ⟨req, e, rfl, rfl⟩ | ⟨k, req, e, past, o, next, rfl, hk, rfl⟩
  · rcases List.mem_append.mp ht with ht | ht
    · exact hkeep ev (hc t ht ev hev)
    · obtain rfl := List.mem_singleton.mp ht
      exact absurd hev List.not_mem_nil
  · rcases List.mem_or_eq_of_mem_set ht with ht | rfl
    · exact hkeep ev (hc t ht ev hev)
    · rcases List.mem_append.mp hev with hev | hev
      · exact hkeep ev (hc _ (List.mem_of_getElem? hk) ev hev)
      · obtain rfl := List.mem_singleton.mp hev
        exact hnew k _ o next rfl hk rfl

theorem exists_thread_step {body : κ → Prog Ret α} {exec : ε → (o : Op) → σ → Ret o × σ}
    {c c' : Conf Ret κ ε σ α} {i : Sched κ ε} {out : Option (Prog.Event Ret)}
    {P : κ → List (Prog.Event Ret) → Prop} (hP : ∀ req past ev, P req past → P req (past ++ [ev]))
    (h : (interleaving body exec).step c i = some (out, c')) (hc : ∃ t ∈ c.threads, P t.call t.past) :
    ∃ t ∈ c'.threads, P t.call t.past := by
  obtain ⟨t, ht, hp⟩ := hc
  rcases interleaving_step h with
    ⟨req, e, rfl, rfl⟩ | ⟨k, req, e, past, o, next, rfl, hk, rfl⟩
  · exact ⟨t, List.mem_append_left _ ht, hp⟩
  · obtain ⟨j, hj⟩ := List.mem_iff_getElem?.mp ht
    by_cases hkj : k = j
    · subst hkj
      obtain rfl := Option.some.inj (hj.symm.trans hk)
      exact ⟨_, mem_set_self hk _, hP _ _ _ hp⟩
    · refine ⟨t, List.mem_iff_getElem?.mpr ⟨j, ?_⟩, hp⟩
      rw [List.getElem?_set_ne hkj]
      exact hj

section Calls
variable {β : Type} (f : κ → ε → β)

def called : Sched κ ε → Option β
  | .call req e => some (f req e)
  | .pick _ => none

theorem calls_step {body : κ → Prog Ret α} {exec : ε → (o : Op) → σ → Ret o × σ}
    {c c' : Conf Ret κ ε σ α} {i : Sched κ ε} {out : Option (Prog.Event Ret)}
    (h : (interleaving body exec).step c i = some (out, c')) :
    c'.threads.map (fun t => f t.call t.env) =
      c.threads.map (fun t => f t.call t.env) ++ (called f i).toList := by
  rcases interleaving_step h with
    ⟨req, e, rfl, rfl⟩ | ⟨k, req, e, past, o, next, rfl, hk, rfl⟩
  · rw [List.map_append]
    rfl
  · have hsame : (c.threads.map fun t => f t.call t.env)[k]? = some (f req e) := by
      rw [List.getElem?_map, hk, Option.map_some]
    rw [List.map_set, set_of_getElem? hsame]
    exact (List.append_nil _).symm

def Fresh (c : Conf Ret κ ε σ α) (i : Sched κ ε) : Prop :=
  ∀ req e, i = .call req e → f req e ∉ c.threads.map fun t => f t.call t.env

theorem everyStep_fresh {body : κ → Prog Ret α} {exec : ε → (o : Op) → σ → Ret o × σ}
    {h : Machine.History (Sched κ ε) (Option (Prog.Event Ret))} {c : Conf Ret κ ε σ α}
    {is : List (Sched κ ε)}
    (hnodup : (c.threads.map (fun t => f t.call t.env) ++ is.filterMap (called f)).Nodup) :
    (interleaving body exec).EveryStep (fun _ c i _ _ => Fresh f c i) h c is := by
  induction is generalizing h c with
  | nil => trivial
  | cons i is ih =>
    have hsplit : (i :: is).filterMap (called f) = (called f i).toList ++ is.filterMap (called f) := by
      cases i <;> rfl
    rw [hsplit, ← List.append_assoc] at hnodup
    intro out c' hs
    refine ⟨?_, ih (by rwa [calls_step f hs])⟩
    rintro req e rfl hmem
    exact (List.nodup_append.mp (List.nodup_append.mp hnodup).1).2.2 _ hmem _
      (List.mem_singleton_self _) rfl

end Calls

def WellTraced (body : κ → Prog Ret α) (c : Conf Ret κ ε σ α) : Prop :=
  ∀ t ∈ c.threads, Prog.Trace (body t.call) t.past t.rest

theorem wellTraced_step {body : κ → Prog Ret α} {exec : ε → (o : Op) → σ → Ret o × σ}
    {c c' : Conf Ret κ ε σ α} {i : Sched κ ε} {out : Option (Prog.Event Ret)}
    (hw : WellTraced body c) (h : (interleaving body exec).step c i = some (out, c')) :
    WellTraced body c' :=
  threads_step (I := fun t => Prog.Trace (body t.call) t.past t.rest) (fun _ _ _ => .nil _)
    (fun _ _ _ _ _ _ ht => ht.snoc _) hw h

end Interleaving
end Lib
