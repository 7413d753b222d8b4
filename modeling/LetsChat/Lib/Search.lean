import Mathlib.Data.List.Infix

/-! The first occurrence of a pattern in a list, found from the front: what can be skipped,
and what an occurrence says about the list. -/

namespace Lib
variable {α : Type}

theorem not_prefix_of_head {p c : α} (h : p ≠ c) (pat s : List α) : ¬p :: pat <+: c :: s :=
  fun hpre => h (List.cons_prefix_cons.mp hpre).1

theorem append_cons_prefix {c : α} {a b x y : List α} (ha : c ∉ a) (hb : c ∉ b)
    (h : a ++ c :: x <+: b ++ c :: y) : a = b ∧ x <+: y := by
  induction a generalizing b with
  | nil =>
    cases b with
    | nil => exact ⟨rfl, (List.cons_prefix_cons.mp h).2⟩
    | cons d b => exact absurd (List.cons_prefix_cons.mp h).1 (List.ne_of_not_mem_cons hb)
  | cons d a ih =>
    cases b with
    | nil => exact absurd (List.cons_prefix_cons.mp h).1.symm (List.ne_of_not_mem_cons ha)
    | cons d' b =>
      obtain ⟨rfl, hrest⟩ := List.cons_prefix_cons.mp h
      obtain ⟨rfl, hxy⟩ := ih (List.not_mem_of_not_mem_cons ha) (List.not_mem_of_not_mem_cons hb) hrest
      exact ⟨rfl, hxy⟩

theorem append_cons_inj {c : α} {a b x y : List α} (ha : c ∉ a) (hb : c ∉ b)
    (h : a ++ c :: x = b ++ c :: y) : a = b ∧ x = y := by
  obtain ⟨rfl, -⟩ := append_cons_prefix ha hb ⟨[], (List.append_nil _).trans h⟩
  exact ⟨rfl, (List.cons.inj (List.append_cancel_left h)).2⟩

variable [DecidableEq α]

def search (pat : List α) : List α → Option Nat
  | [] => if pat = [] then some 0 else none
  | c :: s => if pat <+: c :: s then some 0 else (search pat s).map (· + 1)

variable {pat s : List α}

theorem search_head (h : pat <+: s) : search pat s = some 0 := by
  cases s with
  | nil => exact if_pos (List.prefix_nil.mp h)
  | cons c s => exact if_pos h

theorem search_cons {c : α} (h : ¬pat <+: c :: s) : search pat (c :: s) = (search pat s).map (· + 1) :=
  if_neg h

theorem search_append {p : α} {a : List α} (ha : p ∉ a) :
    search (p :: pat) (a ++ s) = (search (p :: pat) s).map (· + a.length) := by
  induction a with
  | nil => exact Option.map_id_apply.symm
  | cons c a ih =>
    obtain ⟨hc, ha⟩ := not_or.mp (List.mem_cons.not.mp ha)
    rw [List.cons_append, search_cons (not_prefix_of_head hc pat _), ih ha, Option.map_map]
    rfl

theorem search_first {p : α} {a : List α} (ha : p ∉ a) (pat r : List α) :
    search (p :: pat) (a ++ (p :: pat ++ r)) = some a.length := by
  have hhead : search (p :: pat) (p :: pat ++ r) = some 0 :=
    search_head (List.prefix_append (p :: pat) r)
  rw [search_append ha, hhead, Option.map_some, Nat.zero_add]

theorem search_none_of_not_mem {p : α} (h : p ∉ s) : search (p :: pat) s = none := by
  have hskip : search (p :: pat) (s ++ []) = (search (p :: pat) []).map (· + s.length) :=
    search_append h
  rwa [List.append_nil] at hskip

theorem search_sound {i : Nat} (h : search pat s = some i) :
    i + pat.length ≤ s.length ∧ pat <+: s.drop i ∧ ∀ j < i, ¬pat <+: s.drop j := by
  induction s generalizing i with
  | nil =>
    obtain ⟨rfl, ⟨⟩⟩ := Option.ite_none_right_eq_some.mp h
    exact ⟨Nat.le_refl _, List.nil_prefix, nofun⟩
  | cons c s ih =>
    unfold search at h
    split at h
    · next hpre =>
      cases h
      exact ⟨(Nat.zero_add _).symm ▸ hpre.length_le, hpre, nofun⟩
    · next hpre =>
      obtain ⟨i, hi, rfl⟩ := Option.map_eq_some_iff.mp h
      obtain ⟨hlength, hat, hfirst⟩ := ih hi
      refine ⟨?_, hat, fun j hj => ?_⟩
      · rw [List.length_cons]
        omega
      · cases j with
        | zero => exact hpre
        | succ j => exact hfirst j (Nat.lt_of_succ_lt_succ hj)

theorem search_take {i : Nat} (h : search pat s = some i) (r : List α) :
    search pat (s.take i ++ (pat ++ r)) = some i := by
  induction s generalizing i with
  | nil =>
    obtain ⟨rfl, ⟨⟩⟩ := Option.ite_none_right_eq_some.mp h
    exact search_head List.nil_prefix
  | cons c s ih =>
    unfold search at h
    split at h
    · cases h
      exact search_head (List.prefix_append pat r)
    · next hpre =>
      obtain ⟨i, hi, rfl⟩ := Option.map_eq_some_iff.mp h
      have hskip : ¬pat <+: c :: (s.take i ++ (pat ++ r)) := by
        intro hback
        -- an occurrence at the head would end before `r`, so `s` would have it too
        have hat : s.take i ++ pat <+: s := by
          have hdrop := (List.prefix_append_right_inj (s.take i)).mpr (search_sound hi).2.1
          rwa [List.take_append_drop] at hdrop
        have hlong : c :: (s.take i ++ pat) <+: c :: (s.take i ++ (pat ++ r)) := by
          rw [← List.append_assoc]
          exact List.prefix_append (c :: (s.take i ++ pat)) r
        have hlength : pat.length ≤ (c :: (s.take i ++ pat)).length := by
          rw [List.length_cons, List.length_append]
          omega
        exact hpre ((List.prefix_of_prefix_length_le hback hlong hlength).trans
          (List.cons_prefix_cons.mpr ⟨rfl, hat⟩))
      rw [List.take_succ_cons, List.cons_append, search_cons hskip, ih hi, Option.map_some]

theorem not_mem_take_of_search {c : α} {i : Nat} (h : search [c] s = some i) : c ∉ s.take i := by
  intro hmem
  obtain ⟨j, hj, hget⟩ := List.mem_iff_getElem.mp hmem
  rw [List.length_take] at hj
  rw [List.getElem_take] at hget
  apply (search_sound h).2.2 j (by omega)
  rw [List.drop_eq_getElem_cons (by omega), hget]
  exact List.cons_prefix_cons.mpr ⟨rfl, List.nil_prefix⟩

theorem search_complete (h : search pat s = none) (j : Nat) : ¬pat <+: s.drop j := by
  induction s generalizing j with
  | nil =>
    have hne : pat ≠ [] := fun hnil => by
      rw [search, if_pos hnil] at h
      cases h
    rw [List.drop_nil, List.prefix_nil]
    exact hne
  | cons c s ih =>
    unfold search at h
    split at h
    · cases h
    · next hpre =>
      cases j with
      | zero => exact hpre
      | succ j => exact ih (Option.map_eq_none_iff.mp h) j

theorem not_mem_of_search_none {c : α} (h : search [c] s = none) : c ∉ s := by
  intro hmem
  obtain ⟨a, b, rfl⟩ := List.append_of_mem hmem
  apply search_complete h a.length
  rw [List.drop_left]
  exact List.cons_prefix_cons.mpr ⟨rfl, List.nil_prefix⟩

end Lib
