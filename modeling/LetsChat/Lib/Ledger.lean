import Mathlib.Data.List.Nodup
import Mathlib.Logic.Function.Basic

/-! Who owns a resource. A live resource is in the list of those that are held, or
with the one thread that has it in transit; a resource in neither place is not live. -/

namespace Lib

structure Ledger {α τ : Type} (held : List α) (transit : τ → Option α) (live : α → Prop) : Prop where
  nodup : held.Nodup
  apart : ∀ t a, transit t = some a → a ∉ held
  single : ∀ t t' a, transit t = some a → transit t' = some a → t = t'
  live_iff : ∀ a, live a ↔ a ∈ held ∨ ∃ t, transit t = some a

namespace Ledger
variable {α τ : Type} {held held' freed : List α} {transit : τ → Option α} {live live' : α → Prop}

theorem perm (h : Ledger held transit live) (hp : held.Perm held') : Ledger held' transit live where
  nodup := hp.nodup_iff.mp h.nodup
  apart t a ht hmem := h.apart t a ht (hp.mem_iff.mpr hmem)
  single := h.single
  live_iff a := (h.live_iff a).trans (or_congr_left hp.mem_iff)

theorem congr (h : Ledger held transit live) (hl : ∀ a, live' a ↔ live a) :
    Ledger held transit live' where
  nodup := h.nodup
  apart := h.apart
  single := h.single
  live_iff a := (hl a).trans (h.live_iff a)

theorem live_of_mem (h : Ledger held transit live) {a : α} (ha : a ∈ held) : live a :=
  (h.live_iff a).mpr (.inl ha)

theorem free (h : Ledger (freed ++ held) transit live) :
    Ledger held transit fun a => live a ∧ a ∉ freed where
  nodup := (List.nodup_append.mp h.nodup).2.1
  apart t a ht hmem := h.apart t a ht (List.mem_append_right _ hmem)
  single := h.single
  live_iff a := by
    rw [h.live_iff, List.mem_append]
    constructor
    · rintro ⟨(hf | hheld) | htransit, hnot⟩
      · exact absurd hf hnot
      · exact .inl hheld
      · exact .inr htransit
    · rintro (hheld | ⟨t, ht⟩)
      · have hdisj := (List.nodup_append.mp h.nodup).2.2
        exact ⟨.inl (.inr hheld), fun hf => hdisj a hf a hheld rfl⟩
      · exact ⟨.inr ⟨t, ht⟩, fun hf => h.apart t a ht (List.mem_append_left _ hf)⟩

variable [DecidableEq τ]

theorem update_some_iff {t t' : τ} {a b : α} :
    Function.update transit t (some a) t' = some b ↔
      t' = t ∧ a = b ∨ t' ≠ t ∧ transit t' = some b := by
  by_cases heq : t' = t
  · subst heq
    simp
  · simp [heq]

theorem update_none_iff {t t' : τ} {b : α} :
    Function.update transit t none t' = some b ↔ t' ≠ t ∧ transit t' = some b := by
  by_cases heq : t' = t
  · subst heq
    simp
  · simp [heq]

theorem create (h : Ledger held transit live) {t : τ} (ht : transit t = none) {a : α}
    (ha : ¬live a) : Ledger held (Function.update transit t (some a)) fun b => b = a ∨ live b where
  nodup := h.nodup
  apart t' b hb hmem := by
    rcases update_some_iff.mp hb with ⟨-, rfl⟩ | ⟨-, hb⟩
    · exact ha (h.live_of_mem hmem)
    · exact h.apart t' b hb hmem
  single t₁ t₂ b h₁ h₂ := by
    have hfresh : ∀ t', transit t' ≠ some a := fun t' ht' => ha ((h.live_iff a).mpr (.inr ⟨t', ht'⟩))
    -- the creator is the only one that holds the new resource
    rcases update_some_iff.mp h₁ with ⟨rfl, rfl⟩ | ⟨-, h₁⟩
    · rcases update_some_iff.mp h₂ with ⟨heq, -⟩ | ⟨-, h₂⟩
      · exact heq.symm
      · exact absurd h₂ (hfresh t₂)
    · rcases update_some_iff.mp h₂ with ⟨-, rfl⟩ | ⟨-, h₂⟩
      · exact absurd h₁ (hfresh t₁)
      · exact h.single t₁ t₂ b h₁ h₂
  live_iff b := by
    rw [h.live_iff]
    constructor
    · rintro (rfl | hheld | ⟨t', ht'⟩)
      · exact .inr ⟨t, Function.update_self ..⟩
      · exact .inl hheld
      · have hne : t' ≠ t := by
          rintro rfl
          rw [ht] at ht'
          cases ht'
        exact .inr ⟨t', update_some_iff.mpr (.inr ⟨hne, ht'⟩)⟩
    · rintro (hheld | ⟨t', ht'⟩)
      · exact .inr (.inl hheld)
      · rcases update_some_iff.mp ht' with ⟨-, rfl⟩ | ⟨-, ht'⟩
        · exact .inl rfl
        · exact .inr (.inr ⟨t', ht'⟩)

theorem settle (h : Ledger held transit live) {t : τ} {a : α} (ht : transit t = some a) :
    Ledger (a :: held) (Function.update transit t none) live where
  nodup := List.nodup_cons.mpr ⟨h.apart t a ht, h.nodup⟩
  apart t' b hb hmem := by
    obtain ⟨hne, hb⟩ := update_none_iff.mp hb
    rcases List.mem_cons.mp hmem with rfl | hmem
    · exact hne (h.single t' t b hb ht)
    · exact h.apart t' b hb hmem
  single t₁ t₂ b h₁ h₂ := h.single t₁ t₂ b (update_none_iff.mp h₁).2 (update_none_iff.mp h₂).2
  live_iff b := by
    rw [h.live_iff, List.mem_cons]
    constructor
    · rintro (hheld | ⟨t', ht'⟩)
      · exact .inl (.inr hheld)
      · by_cases heq : t' = t
        · rw [heq, ht, Option.some.injEq] at ht'
          exact .inl (.inl ht'.symm)
        · exact .inr ⟨t', update_none_iff.mpr ⟨heq, ht'⟩⟩
    · rintro ((rfl | hheld) | ⟨t', ht'⟩)
      · exact .inr ⟨t, ht⟩
      · exact .inl hheld
      · exact .inr ⟨t', (update_none_iff.mp ht').2⟩

end Ledger

structure Holders {α τ : Type} (held : List α) (holds : τ → Option α) : Prop where
  mem_iff : ∀ a, a ∈ held ↔ ∃ t, holds t = some a
  single : ∀ t t' a, holds t = some a → holds t' = some a → t = t'

namespace Holders
variable {α τ : Type} {held : List α} {holds : τ → Option α} {t : τ} {a : α}

theorem none : Holders ([] : List α) fun _ : τ => none where
  mem_iff _ := ⟨fun h => absurd h List.not_mem_nil, fun ⟨_, h⟩ => nomatch h⟩
  single _ _ _ h := nomatch h

variable [DecidableEq τ]

theorem take (h : Holders held holds) (ht : holds t = .none) (ha : a ∉ held) :
    Holders (held ++ [a]) (Function.update holds t (some a)) where
  mem_iff b := by
    rw [List.mem_append, List.mem_singleton, h.mem_iff]
    constructor
    · rintro (⟨t', ht'⟩ | rfl)
      · have hne : t' ≠ t := by
          rintro rfl
          rw [ht] at ht'
          cases ht'
        exact ⟨t', Ledger.update_some_iff.mpr (.inr ⟨hne, ht'⟩)⟩
      · exact ⟨t, Function.update_self ..⟩
    · rintro ⟨t', ht'⟩
      rcases Ledger.update_some_iff.mp ht' with ⟨-, rfl⟩ | ⟨-, ht'⟩
      · exact .inr rfl
      · exact .inl ⟨t', ht'⟩
  single t₁ t₂ b h₁ h₂ := by
    have hothers : ∀ t', holds t' ≠ some a := fun t' ht' => ha ((h.mem_iff a).mpr ⟨t', ht'⟩)
    rcases Ledger.update_some_iff.mp h₁ with ⟨rfl, rfl⟩ | ⟨-, h₁⟩
    · rcases Ledger.update_some_iff.mp h₂ with ⟨rfl, -⟩ | ⟨-, h₂⟩
      · rfl
      · exact absurd h₂ (hothers t₂)
    · rcases Ledger.update_some_iff.mp h₂ with ⟨-, rfl⟩ | ⟨-, h₂⟩
      · exact absurd h₁ (hothers t₁)
      · exact h.single t₁ t₂ b h₁ h₂

theorem leave [DecidableEq α] (h : Holders held holds) (hnodup : held.Nodup) (ht : holds t = some a) :
    Holders (held.erase a) (Function.update holds t .none) where
  mem_iff b := by
    rw [hnodup.mem_erase_iff, h.mem_iff]
    constructor
    · rintro ⟨hne, t', ht'⟩
      refine ⟨t', Ledger.update_none_iff.mpr ⟨?_, ht'⟩⟩
      rintro rfl
      exact hne (Option.some.inj (ht'.symm.trans ht))
    · rintro ⟨t', ht'⟩
      obtain ⟨hne, ht'⟩ := Ledger.update_none_iff.mp ht'
      refine ⟨?_, t', ht'⟩
      rintro rfl
      exact hne (h.single t' t b ht' ht)
  single t₁ t₂ b h₁ h₂ :=
    h.single t₁ t₂ b (Ledger.update_none_iff.mp h₁).2 (Ledger.update_none_iff.mp h₂).2

end Holders

section Balance
variable {α : Type} {opened closed opens closes : List α} {live live' : α → Prop}

structure Turnover (opens closes : List α) (live live' : α → Prop) : Prop where
  opens_nodup : opens.Nodup
  opens_fresh : ∀ a ∈ opens, ¬live a
  closes_nodup : closes.Nodup
  closes_live : ∀ a ∈ closes, live a
  live_iff : ∀ a, live' a ↔ a ∈ opens ∨ live a ∧ a ∉ closes

theorem Turnover.quiet (h : ∀ a, live' a ↔ live a) : Turnover [] [] live live' where
  opens_nodup := List.nodup_nil
  opens_fresh := nofun
  closes_nodup := List.nodup_nil
  closes_live := nofun
  live_iff a := by
    rw [h]
    simp

theorem Turnover.closing (hnodup : closes.Nodup) (hlive : ∀ a ∈ closes, live a)
    (h : ∀ a, live' a ↔ live a ∧ a ∉ closes) : Turnover [] closes live live' where
  opens_nodup := List.nodup_nil
  opens_fresh := nofun
  closes_nodup := hnodup
  closes_live := hlive
  live_iff a := by
    rw [h]
    simp

theorem Turnover.opening {a : α} (hfresh : ¬live a) (h : ∀ b, live' b ↔ b = a ∨ live b) :
    Turnover [a] [] live live' where
  opens_nodup := List.nodup_singleton a
  opens_fresh b hb := List.mem_singleton.mp hb ▸ hfresh
  closes_nodup := List.nodup_nil
  closes_live := nofun
  live_iff b := by
    rw [h]
    simp

variable [DecidableEq α]

/-- A resource may be opened again once it is closed. It has been opened once more than it
has been closed while it is live, and as often while it is not. -/
def Balanced (opened closed : List α) (live : α → Prop) : Prop :=
  ∀ a, (live a → opened.count a = closed.count a + 1) ∧ (¬live a → opened.count a = closed.count a)

theorem Balanced.turnover (h : Balanced opened closed live) (ht : Turnover opens closes live live') :
    Balanced (opened ++ opens) (closed ++ closes) live' := by
  intro a
  have hopens : opens.count a = if a ∈ opens then 1 else 0 := ht.opens_nodup.count
  have hcloses : closes.count a = if a ∈ closes then 1 else 0 := ht.closes_nodup.count
  rw [List.count_append, List.count_append, hopens, hcloses, ht.live_iff]
  obtain ⟨hlive, hdead⟩ := h a
  by_cases ha : live a
  · have hnot : a ∉ opens := fun hmem => ht.opens_fresh a hmem ha
    have hcount := hlive ha
    by_cases hclose : a ∈ closes
    · simp [ha, hnot, hclose, hcount]
    · simp [ha, hnot, hclose, hcount]
  · have hnot : a ∉ closes := fun hmem => ha (ht.closes_live a hmem)
    have hcount := hdead ha
    by_cases hopen : a ∈ opens
    · simp [ha, hnot, hopen, hcount]
    · simp [ha, hnot, hopen, hcount]

theorem Balanced.start (h : opened.Nodup) (hlive : ∀ a, live a ↔ a ∈ opened) :
    Balanced opened [] live := by
  intro a
  rw [hlive, h.count]
  by_cases ha : a ∈ opened
  · simp [ha]
  · simp [ha]

theorem Balanced.count_eq_iff (h : Balanced opened closed live) :
    (∀ a, opened.count a = closed.count a) ↔ ∀ a, ¬live a := by
  refine forall_congr' fun a => ⟨fun heq ha => ?_, fun ha => (h a).2 ha⟩
  have hmore := (h a).1 ha
  omega

end Balance
end Lib
