import Mathlib.Order.Basic

/-! Loops without a condition of their own: every pass through the body goes on with a new
state or leaves the loop. The number of passes is bounded from outside. -/

namespace Lib
variable {σ ε : Type}

inductive Pass (σ ε : Type)
  | again (s : σ)
  | leave (e : ε)

def passes (body : σ → Pass σ ε) : Nat → σ → Option ε
  | 0, _ => none
  | n + 1, s =>
    match body s with
    | .again s' => passes body n s'
    | .leave e => some e

theorem passes_again {body : σ → Pass σ ε} {s s' : σ} (h : body s = .again s') (n : Nat) :
    passes body (n + 1) s = passes body n s' := by
  rw [passes, h]

theorem passes_leave {body : σ → Pass σ ε} {s : σ} {e : ε} (h : body s = .leave e) (n : Nat) :
    passes body (n + 1) s = some e := by
  rw [passes, h]

/-- Total correctness: an invariant `I`, and a measure that every pass but the last one lowers. -/
theorem passes_of_measure {body : σ → Pass σ ε} {I : σ → Prop} {Q : ε → Prop} (m : σ → Nat)
    (hagain : ∀ s s', I s → body s = .again s' → I s' ∧ m s' < m s)
    (hleave : ∀ s e, I s → body s = .leave e → Q e) {s : σ} (hs : I s) :
    ∃ e, Q e ∧ ∀ n, m s < n → passes body n s = some e := by
  induction hm : m s using Nat.strongRecOn generalizing s with
  | ind k ih =>
    subst hm
    cases hbody : body s with
    | again s' =>
      obtain ⟨hs', hlt⟩ := hagain s s' hs hbody
      obtain ⟨e, he, hpasses⟩ := ih (m s') hlt hs' rfl
      refine ⟨e, he, fun n hn => ?_⟩
      obtain ⟨n, rfl⟩ := Nat.exists_eq_succ_of_ne_zero (Nat.ne_zero_of_lt hn)
      have hrest : m s' < n := Nat.lt_of_lt_of_le hlt (Nat.le_of_lt_succ hn)
      exact (passes_again hbody n).trans (hpasses n hrest)
    | leave e =>
      refine ⟨e, hleave s e hs hbody, fun n hn => ?_⟩
      obtain ⟨n, rfl⟩ := Nat.exists_eq_succ_of_ne_zero (Nat.ne_zero_of_lt hn)
      exact passes_leave hbody n

end Lib
