import LetsChat.Lib.Search
import LetsChat.Messages

/-! The searches and slices of `std::string` that `s3_client.h` uses. A position that may be
`npos` is an option. -/

namespace LetsChat
open Lib

def npos : Nat := 2 ^ 64 - 1

def find (s sub : Text) (pos : Nat) : Option Nat :=
  (List.range (s.length + 1)).find? fun i => pos ≤ i ∧ sub.isPrefixOf (s.drop i)

def rfind : Text → Text → Option Nat
  | [], sub => if sub = [] then some 0 else none
  | c :: s, sub =>
    match rfind s sub with
    | some i => some (i + 1)
    | none => if sub.isPrefixOf (c :: s) then some 0 else none

def find_first_of (s chars : Text) (pos : Nat) : Option Nat :=
  (List.range s.length).find? fun i => pos ≤ i ∧ (s[i]?).any (· ∈ chars)

/-- `substr`, which throws when `pos` is behind the end. -/
def substr (s : Text) (pos count : Nat) : Option Text :=
  if pos ≤ s.length then some ((s.drop pos).take count) else none

/-- `substr` with its default count, which is `npos`: up to the end. -/
def substr_to_end (s : Text) (pos : Nat) : Option Text :=
  if pos ≤ s.length then some (s.drop pos) else none

/-- `end - start` for a position that may be `npos`. -/
def distance (stop : Option Nat) (start : Nat) : Nat := stop.getD npos - start

theorem drop_add_append (a r : Text) (j : Nat) : (a ++ r).drop (a.length + j) = r.drop j := by
  rw [← List.drop_drop, List.drop_left]

theorem find_append (a r sub : Text) :
    find (a ++ r) sub a.length = (search sub r).map (· + a.length) := by
  cases hsearch : search sub r with
  | none =>
    refine List.find?_range_eq_none.mpr fun i _ => ?_
    rw [Bool.not_eq_true', decide_eq_false_iff_not]
    rintro ⟨hpos, hpre⟩
    obtain ⟨j, rfl⟩ := Nat.exists_eq_add_of_le hpos
    rw [drop_add_append, List.isPrefixOf_iff_prefix] at hpre
    exact search_complete hsearch j hpre
  | some j =>
    obtain ⟨hlength, hat, hfirst⟩ := search_sound hsearch
    rw [Option.map_some, Nat.add_comm]
    refine List.find?_range_eq_some.mpr ⟨?_, ?_, fun i hi => ?_⟩
    · rw [decide_eq_true_eq, drop_add_append, List.isPrefixOf_iff_prefix]
      exact ⟨Nat.le_add_right _ _, hat⟩
    · rw [List.mem_range, List.length_append]
      omega
    · rw [Bool.not_eq_true', decide_eq_false_iff_not]
      rintro ⟨hpos, hpre⟩
      obtain ⟨k, rfl⟩ := Nat.exists_eq_add_of_le hpos
      rw [drop_add_append, List.isPrefixOf_iff_prefix] at hpre
      exact hfirst k (by omega) hpre

theorem find_zero (s sub : Text) : find s sub 0 = search sub s := by
  have hfind : find s sub 0 = (search sub s).map id := find_append [] s sub
  rwa [Option.map_id] at hfind

theorem find_first_of_append {a tok t chars : Text} {c : Char} (htok : ∀ d ∈ tok, d ∉ chars)
    (hc : c ∈ chars) : find_first_of (a ++ (tok ++ c :: t)) chars a.length =
      some (a.length + tok.length) := by
  have hstop : (a ++ (tok ++ c :: t))[a.length + tok.length]? = some c := by
    rw [← List.append_assoc, ← List.length_append, List.getElem?_append_right (Nat.le_refl _),
      Nat.sub_self]
    rfl
  refine List.find?_range_eq_some.mpr ⟨?_, ?_, fun i hi => ?_⟩
  · rw [decide_eq_true_eq, hstop, Option.any_some, decide_eq_true_eq]
    exact ⟨Nat.le_add_right _ _, hc⟩
  · exact List.mem_range.mpr (List.getElem?_eq_some_iff.mp hstop).1
  · rw [Bool.not_eq_true', decide_eq_false_iff_not]
    rintro ⟨hpos, hin⟩
    obtain ⟨k, rfl⟩ := Nat.exists_eq_add_of_le hpos
    have hk : k < tok.length := by omega
    rw [List.getElem?_append_right (Nat.le_add_right _ _), Nat.add_sub_cancel_left,
      List.getElem?_append_left hk, List.getElem?_eq_getElem hk, Option.any_some,
      decide_eq_true_eq] at hin
    exact htok _ (List.getElem_mem hk) hin

theorem substr_append (a mid t : Text) :
    substr (a ++ (mid ++ t)) a.length mid.length = some mid := by
  rw [substr, if_pos (by rw [List.length_append]; exact Nat.le_add_right _ _), List.drop_left,
    List.take_left]

theorem substr_isSome {s : Text} {pos : Nat} (h : pos ≤ s.length) (count : Nat) :
    ∃ v, substr s pos count = some v :=
  ⟨_, if_pos h⟩

theorem distance_some (start n : Nat) : distance (some (start + n)) start = n := by
  rw [distance, Option.getD_some, Nat.add_sub_cancel_left]

theorem substr_to_end_append (a r : Text) : substr_to_end (a ++ r) a.length = some r := by
  rw [substr_to_end, if_pos (by rw [List.length_append]; exact Nat.le_add_right _ _),
    List.drop_left]

theorem rfind_none {c : Char} {s : Text} (h : c ∉ s) : rfind s [c] = none := by
  induction s with
  | nil => rfl
  | cons d s ih =>
    obtain ⟨hd, hs⟩ := not_or.mp (List.mem_cons.not.mp h)
    have hhead : ¬[c].isPrefixOf (d :: s) = true := by
      rw [List.isPrefixOf_iff_prefix]
      exact not_prefix_of_head hd [] s
    rw [rfind, ih hs]
    exact if_neg hhead

theorem rfind_append {c : Char} (a : Text) {b : Text} (hb : c ∉ b) :
    rfind (a ++ c :: b) [c] = some a.length := by
  induction a with
  | nil =>
    have hhead : [c].isPrefixOf (c :: b) = true :=
      List.isPrefixOf_iff_prefix.mpr (List.cons_prefix_cons.mpr ⟨rfl, List.nil_prefix⟩)
    rw [List.nil_append, rfind, rfind_none hb]
    exact if_pos hhead
  | cons d a ih => rw [List.cons_append, rfind, ih, List.length_cons]

end LetsChat
