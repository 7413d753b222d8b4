import Mathlib.Data.List.Pairwise
import Mathlib.Data.List.Perm.Subperm
import Mathlib.Order.Bounds.Defs
import Mathlib.Order.Lattice

/-! Reading a list in ascending order of a key page by page: a page has at most `n`
entries past the cursor, and the greatest key of a page is the next cursor. -/

namespace Lib.Paging
variable {α κ : Type} [LinearOrder κ] (key : α → κ)

def after (rows : List α) (c : κ) : List α := rows.filter fun r => c < key r

def page (n : Nat) (rows : List α) (c : κ) : List α := (after key rows c).take n

/-- The pages from a cursor on. The last one is empty. -/
inductive Pages (n : Nat) (rows : List α) : κ → List (List α) → Prop
  | stop {c : κ} : page key n rows c = [] → Pages n rows c [[]]
  | next {c m : κ} {pages : List (List α)} :
    IsGreatest {k | k ∈ (page key n rows c).map key} m → Pages n rows m pages →
    Pages n rows c (page key n rows c :: pages)

variable {key} {n : Nat} {rows : List α} {c m : κ}

theorem after_after (h : c ≤ m) : after key (after key rows c) m = after key rows m := by
  rw [after, after, after, List.filter_filter]
  congr 1
  funext r
  rw [← Bool.decide_and]
  exact decide_eq_decide.mpr ⟨And.left, fun hm => ⟨hm, lt_of_le_of_lt h hm⟩⟩

theorem lt_of_mem_page {k : κ} (hk : k ∈ (page key n rows c).map key) : c < k := by
  obtain ⟨r, hr, rfl⟩ := List.mem_map.mp hk
  exact of_decide_eq_true (List.mem_filter.mp (List.mem_of_mem_take hr)).2

theorem after_greatest (hasc : rows.Pairwise fun a b => key a < key b)
    (hm : IsGreatest {k | k ∈ (page key n rows c).map key} m) :
    after key rows m = (after key rows c).drop n := by
  have hsplit : page key n rows c ++ (after key rows c).drop n = after key rows c :=
    List.take_append_drop n _
  have hafter : (page key n rows c ++ (after key rows c).drop n).Pairwise
      fun a b => key a < key b := by
    rw [hsplit]
    exact hasc.filter _
  have hcross := (List.pairwise_append.mp hafter).2.2
  have hagain : after key (after key rows c) m = after key rows m :=
    after_after (lt_of_mem_page hm.1).le
  rw [← hagain, ← hsplit, after, List.filter_append, hsplit]
  have hpage : (page key n rows c).filter (fun r => m < key r) = [] := by
    apply List.filter_eq_nil_iff.mpr
    intro r hr hlt
    exact not_lt_of_ge (hm.2 (List.mem_map_of_mem hr)) (of_decide_eq_true hlt)
  have hrest : ((after key rows c).drop n).filter (fun r => m < key r) =
      (after key rows c).drop n := by
    apply List.filter_eq_self.mpr
    intro r hr
    obtain ⟨last, hlast, rfl⟩ := List.mem_map.mp hm.1
    exact decide_eq_true (hcross last hlast r hr)
  rw [hpage, hrest, List.nil_append]

theorem Pages.flatten (hn : 0 < n) (hasc : rows.Pairwise fun a b => key a < key b)
    {pages : List (List α)} (h : Pages key n rows c pages) : pages.flatten = after key rows c := by
  induction h with
  | stop hempty =>
    have hnone : after key rows _ = [] := (List.take_eq_nil_iff.mp hempty).resolve_left hn.ne'
    rw [hnone]
    rfl
  | next hm hrest ih =>
    rw [List.flatten_cons, ih, after_greatest hasc hm]
    exact List.take_append_drop n _

theorem mem_page_of_le (hasc : rows.Pairwise fun a b => key a < key b) {r last : α}
    (hlast : last ∈ page key n rows c) (hr : r ∈ rows) (hc : c < key r) (hle : key r ≤ key last) :
    r ∈ page key n rows c := by
  have hsplit : page key n rows c ++ (after key rows c).drop n = after key rows c :=
    List.take_append_drop n _
  have hafter : (after key rows c).Pairwise fun a b => key a < key b := hasc.filter _
  have hmem : r ∈ after key rows c := List.mem_filter.mpr ⟨hr, decide_eq_true hc⟩
  rw [← hsplit] at hafter hmem
  obtain hmem | hmem := List.mem_append.mp hmem
  · exact hmem
  · exact absurd hle (not_le_of_gt ((List.pairwise_append.mp hafter).2.2 last hlast r hmem))

theorem lt_of_full (hasc : rows.Pairwise fun a b => key a < key b) {k : κ}
    (hfull : n ≤ (rows.filter fun r => c < key r ∧ key r < k).length) {r : α}
    (hr : r ∈ page key n rows c) : key r < k := by
  apply lt_of_not_ge
  intro hk
  have hbetween : ∀ x ∈ rows.filter fun r => c < key r ∧ key r < k,
      x ∈ page key n rows c ∧ key x < key r := by
    intro x hx
    obtain ⟨hx, hkeys⟩ := List.mem_filter.mp hx
    obtain ⟨hc, hlt⟩ := of_decide_eq_true hkeys
    have hltr := lt_of_lt_of_le hlt hk
    exact ⟨mem_page_of_le hasc hr hx hc hltr.le, hltr⟩
  have hnodup : (r :: rows.filter fun r => c < key r ∧ key r < k).Nodup := by
    refine List.nodup_cons.mpr ⟨fun hmem => lt_irrefl _ (hbetween r hmem).2, ?_⟩
    exact (hasc.imp fun hlt heq => hlt.ne (congrArg key heq)).filter _
  have hsubset : (r :: rows.filter fun r => c < key r ∧ key r < k) ⊆ page key n rows c :=
    List.cons_subset.mpr ⟨hr, fun x hx => (hbetween x hx).1⟩
  have hlength := (hnodup.subperm hsubset).length_le
  have htake : (page key n rows c).length ≤ n := List.length_take_le ..
  rw [List.length_cons] at hlength
  omega

theorem exists_greatest (hasc : rows.Pairwise fun a b => key a < key b)
    (hpage : page key n rows c ≠ []) : ∃ m, IsGreatest {k | k ∈ (page key n rows c).map key} m := by
  have hlast := List.dropLast_concat_getLast hpage
  have hsorted : (page key n rows c).Pairwise fun a b => key a < key b :=
    (hasc.filter _).sublist (List.take_sublist n _)
  refine ⟨key ((page key n rows c).getLast hpage),
    List.mem_map_of_mem (List.getLast_mem hpage), fun k hk => ?_⟩
  obtain ⟨r, hr, rfl⟩ := List.mem_map.mp hk
  rw [← hlast] at hr hsorted
  obtain hr | hr := List.mem_append.mp hr
  · exact ((List.pairwise_append.mp hsorted).2.2 r hr _ (List.mem_singleton.mpr rfl)).le
  · rw [List.mem_singleton.mp hr]

theorem exists_pages (hn : 0 < n) (hasc : rows.Pairwise fun a b => key a < key b) (c : κ) :
    ∃ pages, Pages key n rows c pages := by
  by_cases hpage : page key n rows c = []
  · exact ⟨_, .stop hpage⟩
  · obtain ⟨m, hm⟩ := exists_greatest hasc hpage
    -- the next cursor leaves fewer rows
    have hless : (after key rows m).length < (after key rows c).length := by
      have hne : after key rows c ≠ [] := fun hnil => hpage (by rw [page, hnil, List.take_nil])
      rw [after_greatest hasc hm, List.length_drop]
      exact Nat.sub_lt (List.length_pos_iff.mpr hne) hn
    obtain ⟨pages, hpages⟩ := exists_pages hn hasc m
    exact ⟨_, .next hm hpages⟩
termination_by (after key rows c).length

end Lib.Paging
