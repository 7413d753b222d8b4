import LetsChat.Lib.Interpret

/-! Programs in which a function holds something until it returns. The end of its scope is an
operation of its own, on every way out of the function. -/

namespace Lib

inductive Guarded (Op : Type)
  | perform (o : Op)
  | leave

@[reducible] def Guarded.Ret {Op : Type} (Ret : Op → Type) : Guarded Op → Type
  | .perform o => Ret o
  | .leave => Unit

namespace Prog
variable {Op : Type} {Ret : Op → Type} {α β : Type}

/-- A function with a guard: an exception ends the scope as a result does. -/
def guarded : Prog Ret α → Prog (Guarded.Ret Ret) α
  | ret a => op .leave fun _ => ret a
  | throw => op .leave fun _ => throw
  | op o k => op (.perform o) fun r => (k r).guarded

def unguarded (o : Op) : Prog (Guarded.Ret Ret) (Ret o) := perform (Guarded.perform o)

def erase : Prog (Guarded.Ret Ret) α → Prog Ret α
  | ret a => ret a
  | throw => throw
  | op (.perform o) k => op o fun r => (k r).erase
  | op .leave k => (k ()).erase

theorem erase_guarded (p : Prog Ret α) : p.guarded.erase = p := by
  induction p with
  | ret a => rfl
  | throw => rfl
  | op o k ih => exact congrArg (op o) (funext ih)

theorem erase_bind (p : Prog (Guarded.Ret Ret) α) (f : α → Prog (Guarded.Ret Ret) β) :
    (p >>= f).erase = p.erase >>= fun a => (f a).erase := by
  induction p with
  | ret a => rfl
  | throw => rfl
  | op o k ih =>
    cases o with
    | perform o => exact congrArg (op o) (funext ih)
    | leave => exact ih ()

theorem erase_interpret {Op' : Type} {Ret' : Op' → Type}
    {h : (o : Op') → Prog (Guarded.Ret Ret) (Ret' o)} {h' : (o : Op') → Prog Ret (Ret' o)}
    (hh : ∀ o, (h o).erase = h' o) (p : Prog Ret' α) :
    (p.interpret h).erase = p.interpret h' := by
  induction p with
  | ret a => rfl
  | throw => rfl
  | op o k ih =>
    calc ((op o k).interpret h).erase
      _ = (h o).erase >>= fun r => ((k r).interpret h).erase := erase_bind _ _
      _ = h' o >>= fun r => (k r).interpret h' := by rw [hh, funext ih]

def eraseEvent : Event (Guarded.Ret Ret) → Option (Event Ret)
  | ⟨.perform o, r⟩ => some ⟨o, r⟩
  | ⟨.leave, _⟩ => none

section Nested
variable {γ : Type} {takes : Event Ret → Option γ} {allowed : Option γ → Op → Prop}

/-- `takes` is the guard that an event leads to, and `allowed` the operations that there may be
with the guard or without one. The program ends without a guard, and takes none in the scope of
another. -/
def Nested (takes : Event Ret → Option γ) (allowed : Option γ → Op → Prop) :
    Option γ → Prog (Guarded.Ret Ret) α → Prop
  | g, ret _ => g = none
  | g, throw => g = none
  | g, op (.perform o) k => allowed g o ∧ ∀ r : Ret o, match takes ⟨o, r⟩ with
    | some g' => g = none ∧ (k r).Nested takes allowed (some g')
    | none => (k r).Nested takes allowed g
  | g, op .leave k => g ≠ none ∧ (k ()).Nested takes allowed none

theorem nested_bind {g : Option γ} {p : Prog (Guarded.Ret Ret) α}
    {f : α → Prog (Guarded.Ret Ret) β} (hp : p.Nested takes allowed g)
    (hf : ∀ a, (f a).Nested takes allowed none) : (p >>= f).Nested takes allowed g := by
  induction p generalizing g with
  | ret a =>
    obtain rfl : g = none := hp
    exact hf a
  | throw => exact hp
  | op o k ih =>
    cases o with
    | perform o =>
      refine ⟨hp.1, fun r => ?_⟩
      have hr := hp.2 r
      cases htakes : takes ⟨o, r⟩ with
      | some g' =>
        rw [htakes] at hr
        exact ⟨hr.1, ih r hr.2⟩
      | none =>
        rw [htakes] at hr
        exact ih r hr
    | leave => exact ⟨hp.1, ih () hp.2⟩

theorem Within.nested_interpret {Op' : Type} {Ret' : Op' → Type} {P : Op' → Prop}
    {h : (o : Op') → Prog (Guarded.Ret Ret) (Ret' o)}
    (hh : ∀ o, P o → (h o).Nested takes allowed none) {p : Prog Ret' α} (hp : p.Within P) :
    (p.interpret h).Nested takes allowed none := by
  induction p with
  | ret a => rfl
  | throw => rfl
  | op o k ih => exact nested_bind (hh o hp.1) fun r => ih r (hp.2 r)

theorem nested_guarded {g : γ} {p : Prog Ret α}
    (hp : p.Within fun o => allowed (some g) o ∧ ∀ r, takes ⟨o, r⟩ = none) :
    p.guarded.Nested takes allowed (some g) := by
  induction p with
  | ret a => exact ⟨nofun, rfl⟩
  | throw => exact ⟨nofun, rfl⟩
  | op o k ih =>
    refine ⟨hp.1.1, fun r => ?_⟩
    rw [hp.1.2 r]
    exact ih r (hp.2 r)

end Nested
end Prog

variable {Op κ ε σ α : Type} {Ret : Op → Type}

def Thread.erase (t : Thread (Guarded.Ret Ret) κ ε α) : Thread Ret κ ε α :=
  ⟨t.call, t.env, t.past.filterMap Prog.eraseEvent, t.rest.erase⟩

def Conf.erase (c : Conf (Guarded.Ret Ret) κ ε σ α) : Conf Ret κ ε σ α :=
  ⟨c.shared, c.threads.map Thread.erase⟩

theorem Conf.erase_set (c : Conf (Guarded.Ret Ret) κ ε σ α) (k : Nat)
    (t : Thread (Guarded.Ret Ret) κ ε α) (s : σ) :
    Conf.erase ⟨s, c.threads.set k t⟩ = ⟨s, c.erase.threads.set k t.erase⟩ :=
  congrArg (Conf.mk s) List.map_set

theorem Conf.erase_getElem? {c : Conf (Guarded.Ret Ret) κ ε σ α} {k : Nat}
    {t : Thread (Guarded.Ret Ret) κ ε α} (hk : c.threads[k]? = some t) :
    c.erase.threads[k]? = some t.erase := by
  rw [Conf.erase, List.getElem?_map, hk, Option.map_some]

end Lib
