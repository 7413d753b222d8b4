import Mathlib.Data.List.Basic

/-! Deterministic machines driven by inputs. A step answers with an output and
a next state, or refuses the input. Properties of a run are stated at every
state it reaches and at every step it takes, given the events before it. -/

namespace Lib

structure Machine (σ ι ω : Type) where
  step : σ → ι → Option (ω × σ)

namespace Machine
variable {σ ι ω : Type} (m : Machine σ ι ω)

abbrev History (ι ω : Type) := List (ι × ω)

/-- `P` holds of every state that the inputs lead to, `h` being the events so far. -/
def EveryState (P : History ι ω → σ → Prop) : History ι ω → σ → List ι → Prop
  | h, s, [] => P h s
  | h, s, i :: is => P h s ∧ ∀ o s', m.step s i = some (o, s') →
      EveryState P (h ++ [(i, o)]) s' is

/-- `Q` holds of every step that the inputs cause. -/
def EveryStep (Q : History ι ω → σ → ι → ω → σ → Prop) : History ι ω → σ → List ι → Prop
  | _, _, [] => True
  | h, s, i :: is => ∀ o s', m.step s i = some (o, s') →
      Q h s i o s' ∧ EveryStep Q (h ++ [(i, o)]) s' is

variable {m}

theorem EveryState.first {P : History ι ω → σ → Prop} {h : History ι ω} {s : σ} {is : List ι}
    (hp : m.EveryState P h s is) : P h s := by
  cases is with
  | nil => exact hp
  | cons i is => exact hp.1

theorem EveryState.mono {P Q : History ι ω → σ → Prop} {is : List ι}
    (himp : ∀ h s, P h s → Q h s) {h : History ι ω} {s : σ}
    (hp : m.EveryState P h s is) : m.EveryState Q h s is := by
  induction is generalizing h s with
  | nil => exact himp h s hp
  | cons i is ih => exact ⟨himp h s hp.1, fun o s' hs => ih (hp.2 o s' hs)⟩

theorem EveryStep.mono {Q R : History ι ω → σ → ι → ω → σ → Prop} {is : List ι}
    (himp : ∀ h s i o s', m.step s i = some (o, s') → Q h s i o s' → R h s i o s')
    {h : History ι ω} {s : σ} (hq : m.EveryStep Q h s is) : m.EveryStep R h s is := by
  induction is generalizing h s with
  | nil => trivial
  | cons i is ih =>
    intro o s' hs
    exact ⟨himp h s i o s' hs (hq o s' hs).1, ih (hq o s' hs).2⟩

theorem everyState_of_guarded {C : History ι ω → σ → ι → ω → σ → Prop}
    {I : History ι ω → σ → Prop}
    (hstep : ∀ h s i o s', I h s → C h s i o s' → m.step s i = some (o, s') →
      I (h ++ [(i, o)]) s')
    {h : History ι ω} {s : σ} {is : List ι} (hi : I h s) (hc : m.EveryStep C h s is) :
    m.EveryState I h s is := by
  induction is generalizing h s with
  | nil => exact hi
  | cons i is ih =>
    refine ⟨hi, fun o s' hs => ?_⟩
    have hcs := hc o s' hs
    exact ih (hstep h s i o s' hi hcs.1 hs) hcs.2

theorem everyStep_of_guarded {C Q : History ι ω → σ → ι → ω → σ → Prop}
    {I : History ι ω → σ → Prop}
    (hstep : ∀ h s i o s', I h s → C h s i o s' → m.step s i = some (o, s') →
      I (h ++ [(i, o)]) s')
    (hq : ∀ h s i o s', I h s → C h s i o s' → m.step s i = some (o, s') → Q h s i o s')
    {h : History ι ω} {s : σ} {is : List ι} (hi : I h s) (hc : m.EveryStep C h s is) :
    m.EveryStep Q h s is := by
  induction is generalizing h s with
  | nil => trivial
  | cons i is ih =>
    intro o s' hs
    have hcs := hc o s' hs
    exact ⟨hq h s i o s' hi hcs.1 hs, ih (hstep h s i o s' hi hcs.1 hs) hcs.2⟩

theorem everyStep_cons {Q : History ι ω → σ → ι → ω → σ → Prop} {h : History ι ω} {s s' : σ}
    {i : ι} {o : ω} {is : List ι} (hs : m.step s i = some (o, s')) :
    m.EveryStep Q h s (i :: is) ↔ Q h s i o s' ∧ m.EveryStep Q (h ++ [(i, o)]) s' is := by
  rw [EveryStep, hs]
  constructor
  · exact fun hall => hall o s' rfl
  · rintro hall _ _ ⟨⟩
    exact hall

theorem everyStep_true {h : History ι ω} {s : σ} {is : List ι} :
    m.EveryStep (fun _ _ _ _ _ => True) h s is := by
  induction is generalizing h s with
  | nil => trivial
  | cons i is ih => exact fun o s' _ => ⟨trivial, ih⟩

theorem everyStep_of_inputs {C : ι → Prop} {h : History ι ω} {s : σ} {is : List ι}
    (hc : ∀ i ∈ is, C i) : m.EveryStep (fun _ _ i _ _ => C i) h s is := by
  induction is generalizing h s with
  | nil => trivial
  | cons i is ih =>
    exact fun o s' _ => ⟨hc i List.mem_cons_self, ih fun j hj => hc j (List.mem_cons_of_mem _ hj)⟩

theorem everyState_of_invariant {I : History ι ω → σ → Prop}
    (hstep : ∀ h s i o s', I h s → m.step s i = some (o, s') → I (h ++ [(i, o)]) s')
    {h : History ι ω} {s : σ} {is : List ι} (hi : I h s) : m.EveryState I h s is :=
  everyState_of_guarded (fun h s i o s' hI _ hs => hstep h s i o s' hI hs) hi everyStep_true

theorem everyStep_of_invariant {Q : History ι ω → σ → ι → ω → σ → Prop}
    {I : History ι ω → σ → Prop}
    (hstep : ∀ h s i o s', I h s → m.step s i = some (o, s') → I (h ++ [(i, o)]) s')
    (hq : ∀ h s i o s', I h s → m.step s i = some (o, s') → Q h s i o s')
    {h : History ι ω} {s : σ} {is : List ι} (hi : I h s) : m.EveryStep Q h s is :=
  everyStep_of_guarded (fun h s i o s' hI _ hs => hstep h s i o s' hI hs)
    (fun h s i o s' hI _ hs => hq h s i o s' hI hs) hi everyStep_true

theorem everyStep_congr {Q R : History ι ω → σ → ι → ω → σ → Prop} {I : History ι ω → σ → Prop}
    (hstep : ∀ h s i o s', I h s → m.step s i = some (o, s') → I (h ++ [(i, o)]) s')
    (hqr : ∀ h s i o s', I h s → m.step s i = some (o, s') → (Q h s i o s' ↔ R h s i o s'))
    {h : History ι ω} {s : σ} {is : List ι} (hi : I h s) :
    m.EveryStep Q h s is ↔ m.EveryStep R h s is :=
  ⟨everyStep_of_guarded (fun h s i o s' hI _ hs => hstep h s i o s' hI hs)
      (fun h s i o s' hI hQ hs => (hqr h s i o s' hI hs).mp hQ) hi,
    everyStep_of_guarded (fun h s i o s' hI _ hs => hstep h s i o s' hI hs)
      (fun h s i o s' hI hR hs => (hqr h s i o s' hI hs).mpr hR) hi⟩

/-- The exact guard of a property. Where a step from a good state leads to a good
state exactly when it meets `C`, a run stays good exactly when all its steps meet `C`. -/
theorem everyState_iff_everyStep {I P : History ι ω → σ → Prop}
    {C : History ι ω → σ → ι → ω → σ → Prop}
    (hinv : ∀ h s i o s', I h s → P h s → C h s i o s' → m.step s i = some (o, s') →
      I (h ++ [(i, o)]) s')
    (hexact : ∀ h s i o s', I h s → P h s → m.step s i = some (o, s') →
      (P (h ++ [(i, o)]) s' ↔ C h s i o s'))
    {h : History ι ω} {s : σ} {is : List ι} (hi : I h s) (hp : P h s) :
    m.EveryState P h s is ↔ m.EveryStep C h s is := by
  constructor
  · intro hall
    induction is generalizing h s with
    | nil => trivial
    | cons i is ih =>
      intro o s' hs
      have hnext := (hall.2 o s' hs).first
      have hc := (hexact h s i o s' hi hp hs).mp hnext
      exact ⟨hc, ih (hinv h s i o s' hi hp hc hs) hnext (hall.2 o s' hs)⟩
  · intro hall
    have hstep : ∀ h s i o s', (I h s ∧ P h s) → C h s i o s' → m.step s i = some (o, s') →
        I (h ++ [(i, o)]) s' ∧ P (h ++ [(i, o)]) s' := fun h s i o s' hI hc hs =>
      ⟨hinv h s i o s' hI.1 hI.2 hc hs, (hexact h s i o s' hI.1 hI.2 hs).mpr hc⟩
    exact (everyState_of_guarded hstep ⟨hi, hp⟩ hall).mono fun _ _ h => h.2

def restrict (m : Machine σ ι ω) (admits : σ → ι → Prop) [∀ s i, Decidable (admits s i)] :
    Machine σ ι ω where
  step s i := if admits s i then m.step s i else none

theorem restrict_step {m : Machine σ ι ω} {admits : σ → ι → Prop} [∀ s i, Decidable (admits s i)]
    {s s' : σ} {i : ι} {o : ω} (h : (m.restrict admits).step s i = some (o, s')) :
    admits s i ∧ m.step s i = some (o, s') :=
  Option.ite_none_right_eq_some.mp h

end Machine

section Since
variable {α : Type} {P Q : α → Prop} {l : List α} {a : α}

/-- Some event of the list meets `Q`, and all the events after it meet `P`. -/
def Since (P Q : α → Prop) (l : List α) : Prop :=
  ∃ before b after, l = before ++ b :: after ∧ Q b ∧ ∀ c ∈ after, P c

theorem since_concat : Since P Q (l ++ [a]) ↔ Q a ∨ P a ∧ Since P Q l := by
  constructor
  · rintro ⟨before, b, after, heq, hb, hafter⟩
    rcases List.eq_nil_or_concat after with rfl | ⟨rest, c, rfl⟩
    · obtain ⟨-, hlast⟩ := List.append_inj' heq rfl
      obtain rfl := List.singleton_inj.mp hlast
      exact .inl hb
    · rw [List.concat_eq_append, ← List.cons_append, ← List.append_assoc] at heq
      obtain ⟨hinit, hlast⟩ := List.append_inj' heq rfl
      obtain rfl := List.singleton_inj.mp hlast
      rw [List.concat_eq_append] at hafter
      have hrest : ∀ c ∈ rest, P c := fun c hc => hafter c (List.mem_append_left _ hc)
      exact .inr ⟨hafter a (List.mem_append_right _ (List.mem_singleton_self a)),
        before, b, rest, hinit, hb, hrest⟩
  · rintro (ha | ⟨ha, before, b, after, rfl, hb, hafter⟩)
    · exact ⟨l, a, [], rfl, ha, nofun⟩
    · refine ⟨before, b, after ++ [a], List.append_assoc .., hb, fun c hc => ?_⟩
      rcases List.mem_append.mp hc with hc | hc
      · exact hafter c hc
      · exact List.mem_singleton.mp hc ▸ ha

end Since
end Lib
