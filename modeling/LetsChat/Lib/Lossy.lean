import Mathlib.Data.List.Infix

/-! A channel that hands a stream over in chunks of at most `k` symbols and loses the rest of
a chunk from a stop symbol `z` on: what may come through, said without the chunks. -/

namespace Lib
variable {α : Type} {z : α} {k : Nat}

/-- `Loses z k s r`: `r` is `s` without some runs of at most `k` symbols. Each of these runs starts
with `z`, and no `z` is left. -/
inductive Loses (z : α) (k : Nat) : List α → List α → Prop
  | nil : Loses z k [] []
  | keep {c : α} {s r : List α} : c ≠ z → Loses z k s r → Loses z k (c :: s) (c :: r)
  | lose {run s r : List α} : run.length < k → Loses z k s r → Loses z k (z :: (run ++ s)) r

namespace Loses
variable {s t r u : List α}

theorem append (hs : Loses z k s r) (ht : Loses z k t u) : Loses z k (s ++ t) (r ++ u) := by
  induction hs with
  | nil => exact ht
  | keep hc _ ih => exact .keep hc ih
  | lose hrun _ ih =>
    rw [List.cons_append, List.append_assoc]
    exact .lose hrun ih

theorem run {w : List α} (h : w.length < k) : Loses z k (z :: w) [] := by
  have hlose : Loses z k (z :: (w ++ [])) [] := .lose h .nil
  rwa [List.append_nil] at hlose

theorem of_notMem (h : z ∉ s) : Loses z k s s := by
  induction s with
  | nil => exact .nil
  | cons c s ih =>
    obtain ⟨hc, hs⟩ := not_or.mp (List.mem_cons.not.mp h)
    exact .keep (Ne.symm hc) (ih hs)

theorem eq_of_notMem (h : Loses z k s r) (hz : z ∉ s) : r = s := by
  induction h with
  | nil => rfl
  | keep _ _ ih => rw [ih (List.not_mem_of_not_mem_cons hz)]
  | lose => exact absurd List.mem_cons_self hz

theorem notMem (h : Loses z k s r) : z ∉ r := by
  induction h with
  | nil => exact List.not_mem_nil
  | keep hc _ ih => exact List.not_mem_cons_of_ne_of_not_mem hc.symm ih
  | lose _ _ ih => exact ih

theorem snoc {c : α} (h : Loses z k s r) (hc : c ≠ z) : Loses z k (s ++ [c]) (r ++ [c]) :=
  h.append (.keep hc .nil)

theorem run_take {a w : List α} (h : (a ++ w).length < k) {m : Nat} (hm : m ≤ w.length)
    (t : List α) : Loses z k (z :: (a ++ (w ++ t).take m)) [] := by
  have hrun : (a ++ w.take m).length < k := by
    rw [List.length_append, List.length_take]
    rw [List.length_append] at h
    omega
  rw [List.take_append_of_le_length hm]
  exact .run hrun

/-- What is lost of the part behind the last `z` is a piece at its front, and any shorter piece
may be lost as well. -/
theorem split {a b : List α} (h : Loses z k (a ++ b) r) (hb : z ∉ b) :
    ∃ n r', r = r' ++ b.drop n ∧ ∀ m ≤ n, Loses z k (a ++ b.take m) r' := by
  generalize hs : a ++ b = s at h
  induction h generalizing a with
  | nil =>
    obtain ⟨rfl, rfl⟩ := List.append_eq_nil_iff.mp hs
    refine ⟨0, [], rfl, fun m _ => ?_⟩
    rw [List.take_nil]
    exact .nil
  | @keep c s r hc h ih =>
    cases a with
    | nil =>
      have hwhole : b = c :: s := hs
      rw [hwhole] at hb
      have hkept : r = s := h.eq_of_notMem (List.not_mem_of_not_mem_cons hb)
      refine ⟨0, [], ?_, fun m hm => ?_⟩
      · rw [hkept]
        exact hwhole.symm
      · rw [Nat.le_zero.mp hm]
        exact .nil
    | cons d a =>
      obtain ⟨rfl, hrest⟩ := List.cons.inj hs
      obtain ⟨n, r', rfl, hloses⟩ := ih hrest
      exact ⟨n, d :: r', rfl, fun m hm => .keep hc (hloses m hm)⟩
  | @lose w s r hw h ih =>
    cases a with
    | nil =>
      rw [List.nil_append] at hs
      exact absurd (hs ▸ List.mem_cons_self) hb
    | cons d a =>
      obtain ⟨rfl, hrest⟩ := List.cons.inj hs
      rcases List.append_eq_append_iff.mp hrest with ⟨w', rfl, rfl⟩ | ⟨a', rfl, rfl⟩
      -- the run goes over the end of `a`, or stops before it
      · have hkept : r = s := h.eq_of_notMem fun hz => hb (List.mem_append_right w' hz)
        refine ⟨w'.length, [], ?_, fun m hm => run_take hw hm s⟩
        rw [List.drop_left]
        exact hkept
      · obtain ⟨n, r', rfl, hloses⟩ := ih rfl
        refine ⟨n, r', rfl, fun m hm => ?_⟩
        rw [List.cons_append, List.append_assoc]
        exact .lose hw (hloses m hm)

theorem nil_of_snoc {c : α} (h : Loses z k (s ++ [c]) []) (hc : c ≠ z) : Loses z k s [] := by
  obtain ⟨n, r', hnil, hloses⟩ := h.split (List.mem_singleton.not.mpr hc.symm)
  obtain ⟨rfl, -⟩ := List.append_eq_nil_iff.mp hnil.symm
  have hfront := hloses 0 (Nat.zero_le n)
  rwa [List.take_zero, List.append_nil] at hfront

end Loses

variable [DecidableEq α]

def upTo (z : α) (chunk : List α) : List α := chunk.takeWhile (· != z)

theorem loses_upTo {chunk : List α} (h : chunk.length ≤ k) : Loses z k chunk (upTo z chunk) := by
  induction chunk with
  | nil => exact .nil
  | cons c chunk ih =>
    rw [List.length_cons] at h
    by_cases hc : c = z
    · have hcut : upTo z (c :: chunk) = [] := List.takeWhile_cons_of_neg (by simpa using hc)
      rw [hcut, hc]
      exact .run h
    · have hkeep : upTo z (c :: chunk) = c :: upTo z chunk :=
        List.takeWhile_cons_of_pos (by simpa using hc)
      rw [hkeep]
      exact .keep hc (ih (Nat.le_of_succ_le h))

theorem loses_of_chunks {chunks : List (List α)} (h : ∀ chunk ∈ chunks, chunk.length ≤ k) :
    Loses z k chunks.flatten (chunks.flatMap (upTo z)) := by
  induction chunks with
  | nil => exact .nil
  | cons chunk chunks ih =>
    obtain ⟨hhead, htail⟩ := List.forall_mem_cons.mp h
    rw [List.flatten_cons, List.flatMap_cons]
    exact (loses_upTo hhead).append (ih htail)

theorem Loses.chunks {s r : List α} (h : Loses z k s r) (hk : 0 < k) :
    ∃ chunks : List (List α), chunks.flatten = s ∧
      (∀ chunk ∈ chunks, 1 ≤ chunk.length ∧ chunk.length ≤ k) ∧ chunks.flatMap (upTo z) = r := by
  induction h with
  | nil => exact ⟨[], rfl, nofun, rfl⟩
  | @keep c s r hc _ ih =>
    obtain ⟨chunks, rfl, hlength, rfl⟩ := ih
    have hkeep : upTo z [c] = [c] := List.takeWhile_cons_of_pos (by simpa using hc)
    refine ⟨[c] :: chunks, rfl, List.forall_mem_cons.mpr ⟨⟨Nat.le_refl 1, hk⟩, hlength⟩, ?_⟩
    rw [List.flatMap_cons, hkeep, List.singleton_append]
  | @lose w s r hw _ ih =>
    obtain ⟨chunks, rfl, hlength, rfl⟩ := ih
    have hcut : upTo z (z :: w) = [] := List.takeWhile_cons_of_neg (by simp)
    refine ⟨(z :: w) :: chunks, rfl,
      List.forall_mem_cons.mpr ⟨⟨Nat.succ_le_succ (Nat.zero_le _), hw⟩, hlength⟩, ?_⟩
    rw [List.flatMap_cons, hcut, List.nil_append]

theorem exists_loses (z : α) {k : Nat} (hk : 0 < k) (s : List α) : ∃ r, Loses z k s r := by
  induction s with
  | nil => exact ⟨[], .nil⟩
  | cons c s ih =>
    obtain ⟨r, hr⟩ := ih
    by_cases hc : c = z
    · have hlose : Loses z k (z :: ([] ++ s)) r := .lose hk hr
      exact ⟨r, hc ▸ hlose⟩
    · exact ⟨c :: r, .keep hc hr⟩

end Lib
