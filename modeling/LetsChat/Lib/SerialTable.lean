import Mathlib.Data.List.Pairwise
import Mathlib.Tactic.SplitIfs

/-! Tables whose key is drawn from a serial counter. The rows are listed in key
order, and every key in use is below the next one. -/

namespace Lib

structure SerialTable (ρ : Type) (key : ρ → Int) where
  rows : List ρ
  next : Int
  ascending : rows.Pairwise fun a b => key a < key b
  below : ∀ r ∈ rows, key r < next

namespace SerialTable
variable {ρ : Type} {key : ρ → Int}

def empty : SerialTable ρ key := ⟨[], 1, .nil, fun _ h => absurd h List.not_mem_nil⟩

def insert (t : SerialTable ρ key) (mk : Int → ρ) (hmk : ∀ k, key (mk k) = k) :
    SerialTable ρ key where
  rows := t.rows ++ [mk t.next]
  next := t.next + 1
  ascending := by
    refine List.pairwise_append.mpr ⟨t.ascending, List.pairwise_singleton _ _, ?_⟩
    intro a ha b hb
    obtain rfl := List.mem_singleton.mp hb
    rw [hmk]
    exact t.below a ha
  below := by
    intro r hr
    rcases List.mem_append.mp hr with hr | hr
    · exact Int.lt_trans (t.below r hr) (Int.lt_succ _)
    · obtain rfl := List.mem_singleton.mp hr
      rw [hmk]
      exact Int.lt_succ _

def update (t : SerialTable ρ key) (p : ρ → Bool) (f : ρ → ρ) (hf : ∀ r, key (f r) = key r) :
    SerialTable ρ key where
  rows := t.rows.map fun r => if p r then f r else r
  next := t.next
  ascending := by
    refine List.pairwise_map.mpr (t.ascending.imp fun {a b} hab => ?_)
    split_ifs <;> simpa only [hf] using hab
  below := by
    intro r hr
    obtain ⟨a, ha, rfl⟩ := List.mem_map.mp hr
    split_ifs <;> simpa only [hf] using t.below a ha

/-- Keys that are drawn and not used, as by an insertion that fails later. -/
def skip (t : SerialTable ρ key) (n : Nat) : SerialTable ρ key where
  rows := t.rows
  next := t.next + n
  ascending := t.ascending
  below := fun r hr =>
    Int.lt_of_lt_of_le (t.below r hr) (Int.le_add_of_nonneg_right (Int.natCast_nonneg n))

theorem ext_rows {t u : SerialTable ρ key} (hrows : t.rows = u.rows) (hnext : t.next = u.next) :
    t = u := by
  cases t
  cases u
  cases hrows
  cases hnext
  rfl

def place (t : SerialTable ρ key) (r : ρ) (h : key r < t.next) : SerialTable ρ key where
  rows := t.rows.filter (fun a => key a < key r) ++ r :: t.rows.filter fun a => key r < key a
  next := t.next
  ascending := by
    refine List.pairwise_append.mpr
      ⟨t.ascending.filter _, List.pairwise_cons.mpr ⟨?_, t.ascending.filter _⟩, ?_⟩
    · exact fun b hb => of_decide_eq_true (List.mem_filter.mp hb).2
    · intro a ha b hb
      have halt : key a < key r := of_decide_eq_true (List.mem_filter.mp ha).2
      rcases List.mem_cons.mp hb with rfl | hb
      · exact halt
      · have hlt : key r < key b := of_decide_eq_true (List.mem_filter.mp hb).2
        exact Int.lt_trans halt hlt
  below := by
    intro a ha
    rcases List.mem_append.mp ha with ha | ha
    · exact t.below a (List.mem_filter.mp ha).1
    · rcases List.mem_cons.mp ha with rfl | ha
      · exact h
      · exact t.below a (List.mem_filter.mp ha).1

def find (t : SerialTable ρ key) (k : Int) : Option ρ := t.rows.find? fun r => key r = k

@[simp] theorem rows_insert (t : SerialTable ρ key) (mk : Int → ρ) (hmk : ∀ k, key (mk k) = k) :
    (t.insert mk hmk).rows = t.rows ++ [mk t.next] := rfl

theorem mem_place {t : SerialTable ρ key} {r a : ρ} {h : key r < t.next} (ha : a ∈ (t.place r h).rows) :
    a = r ∨ a ∈ t.rows := by
  rcases List.mem_append.mp ha with ha | ha
  · exact .inr (List.mem_filter.mp ha).1
  · exact (List.mem_cons.mp ha).imp_right fun ha => (List.mem_filter.mp ha).1

theorem place_skip (t : SerialTable ρ key) (mk : Int → ρ) (hmk : ∀ k, key (mk k) = k)
    (h : key (mk t.next) < (t.skip 1).next) :
    (t.skip 1).place (mk t.next) h = t.insert mk hmk := by
  have hbefore : t.rows.filter (fun a => key a < key (mk t.next)) = t.rows := by
    refine List.filter_eq_self.mpr fun a ha => decide_eq_true ?_
    rw [hmk]
    exact t.below a ha
  have hafter : t.rows.filter (fun a => key (mk t.next) < key a) = [] := by
    apply List.filter_eq_nil_iff.mpr
    intro a ha hlt
    have hlt := of_decide_eq_true hlt
    rw [hmk] at hlt
    exact Int.lt_asymm hlt (t.below a ha)
  have hrows : ((t.skip 1).place (mk t.next) h).rows = (t.insert mk hmk).rows := by
    show t.rows.filter (fun a => key a < key (mk t.next)) ++
      mk t.next :: t.rows.filter (fun a => key (mk t.next) < key a) = _
    rw [hbefore, hafter]
    rfl
  exact ext_rows hrows rfl

theorem key_injOn (t : SerialTable ρ key) {a b : ρ} (ha : a ∈ t.rows) (hb : b ∈ t.rows)
    (h : key a = key b) : a = b := by
  have hsymm : Std.Symm fun a b => key a = key b → a = b := ⟨fun _ _ hab hba => (hab hba.symm).symm⟩
  have hpair : t.rows.Pairwise fun a b => key a = key b → a = b :=
    t.ascending.imp fun hlt heq => absurd heq (Int.ne_of_lt hlt)
  exact hpair.forall_of_forall (fun _ _ _ => rfl) ha hb h

theorem find_eq_some_iff (t : SerialTable ρ key) {k : Int} {r : ρ} :
    t.find k = some r ↔ r ∈ t.rows ∧ key r = k := by
  constructor
  · intro h
    exact ⟨List.mem_of_find?_eq_some h, by simpa using List.find?_some h⟩
  · rintro ⟨hr, rfl⟩
    cases hfind : t.find (key r) with
    | none => exact absurd (List.find?_eq_none.mp hfind r hr) (by simp)
    | some r' =>
      have hkey : key r' = key r := by simpa using List.find?_some hfind
      rw [t.key_injOn (List.mem_of_find?_eq_some hfind) hr hkey]

theorem filter_key (t : SerialTable ρ key) (k : Int) :
    t.rows.filter (fun r => key r = k) = (t.find k).toList := by
  have hfilter : ∀ rows : List ρ, rows.Pairwise (fun a b => key a < key b) →
      rows.filter (fun r => key r = k) = (rows.find? fun r => key r = k).toList := by
    intro rows hasc
    induction rows with
    | nil => rfl
    | cons r rows ih =>
      obtain ⟨hlt, hasc⟩ := List.pairwise_cons.mp hasc
      by_cases hr : key r = k
      · have hrest : rows.filter (fun r => key r = k) = [] := by
          apply List.filter_eq_nil_iff.mpr
          intro b hb heq
          have hlt := hlt b hb
          rw [hr, of_decide_eq_true heq] at hlt
          exact Int.lt_irrefl k hlt
        simp [hr, hrest]
      · simp [hr, ih hasc]
  exact hfilter t.rows t.ascending

theorem find_update (t : SerialTable ρ key) (p : ρ → Bool) (f : ρ → ρ)
    (hf : ∀ r, key (f r) = key r) (k : Int) :
    (t.update p f hf).find k = (t.find k).map fun r => if p r then f r else r := by
  have hkey : ((fun r => decide (key r = k)) ∘ fun r => if p r then f r else r) =
      fun r => decide (key r = k) := by
    funext r
    simp only [Function.comp_apply]
    split_ifs
    · rw [hf]
    · rfl
  simp only [find, update, List.find?_map, hkey]

theorem filter_update (t : SerialTable ρ key) (p q : ρ → Bool) (f : ρ → ρ)
    (hf : ∀ r, key (f r) = key r) (hout : ∀ r, q (f r) = false) :
    (t.update p f hf).rows.filter q = (t.rows.filter q).filter fun r => !p r := by
  unfold update
  dsimp only
  induction t.rows with
  | nil => rfl
  | cons r rows ih =>
    rw [List.map_cons, List.filter_cons, List.filter_cons, ih]
    by_cases hp : p r = true
    · by_cases hq : q r = true <;> simp [hp, hq, hout]
    · by_cases hq : q r = true <;> simp [hp, hq]

end SerialTable
end Lib
