import Mathlib.Data.List.TakeWhile
import Mathlib.Data.Nat.Digits.Defs

/-! Decimal printing of integers, and reading them back as `strtoll` does:
leading blanks, an optional sign, then the longest run of digits. -/

namespace Lib.Decimal

def print : Int → List Char
  | .ofNat n => Nat.toDigits 10 n
  | .negSucc n => '-' :: Nat.toDigits 10 (n + 1)

def isBlank (c : Char) : Bool :=
  c ∈ [' ', '\t', '\n', '\r', '\x0b', '\x0c']

def readNat (cs : List Char) : Option Nat :=
  match cs.takeWhile Char.isDigit with
  | [] => none
  | ds => some (Nat.ofDigitChars 10 ds 0)

/-- `none` when there is no digit to convert. -/
def read (cs : List Char) : Option Int :=
  match cs.dropWhile isBlank with
  | '-' :: ds => (readNat ds).map fun n => -(n : Int)
  | '+' :: ds => (readNat ds).map Int.ofNat
  | ds => (readNat ds).map Int.ofNat

theorem isDigit_of_mem {n : Nat} {c : Char} (hc : c ∈ Nat.toDigits 10 n) : c.isDigit = true :=
  Nat.isDigit_of_mem_toDigits (by decide) (by decide) hc

theorem mem_print {n : Int} {c : Char} (hc : c ∈ print n) : c = '-' ∨ c.isDigit = true := by
  cases n with
  | ofNat n => exact .inr (isDigit_of_mem hc)
  | negSucc n =>
    rcases List.mem_cons.mp hc with rfl | hc
    · exact .inl rfl
    · exact .inr (isDigit_of_mem hc)

theorem not_mem_print {n : Int} {c : Char} (hd : c.isDigit = false) (hs : c ≠ '-') :
    c ∉ print n := by
  intro hc
  rcases mem_print hc with rfl | hc
  · exact hs rfl
  · rw [hd] at hc
    cases hc

theorem readNat_toDigits (n : Nat) : readNat (Nat.toDigits 10 n) = some n := by
  have htake : (Nat.toDigits 10 n).takeWhile Char.isDigit = Nat.toDigits 10 n :=
    List.takeWhile_eq_self_iff.mpr fun c hc => isDigit_of_mem hc
  unfold readNat
  rw [htake]
  split
  · next h => exact absurd h Nat.toDigits_ne_nil
  · rw [Nat.ofDigitChars_ten_toDigits]

theorem not_isBlank_of_isDigit {c : Char} (hc : c.isDigit = true) : isBlank c = false := by
  rw [Bool.eq_false_iff]
  intro hb
  simp only [isBlank, List.mem_cons, List.not_mem_nil, or_false, decide_eq_true_eq] at hb
  rcases hb with rfl | rfl | rfl | rfl | rfl | rfl <;> exact absurd hc (by decide)

theorem dropWhile_isBlank_toDigits (n : Nat) :
    (Nat.toDigits 10 n).dropWhile isBlank = Nat.toDigits 10 n := by
  cases h : Nat.toDigits 10 n with
  | nil => rfl
  | cons c cs =>
    have hc : c.isDigit = true := isDigit_of_mem (n := n) (h ▸ List.mem_cons_self)
    have hblank : ¬isBlank c = true := by rw [not_isBlank_of_isDigit hc]; exact Bool.false_ne_true
    rw [List.dropWhile_cons_of_neg hblank]

theorem read_print (n : Int) : read (print n) = some n := by
  cases n with
  | negSucc n =>
    have hdrop : ('-' :: Nat.toDigits 10 (n + 1)).dropWhile isBlank =
        '-' :: Nat.toDigits 10 (n + 1) := rfl
    simp only [read, print, hdrop, readNat_toDigits]
    rfl
  | ofNat n =>
    simp only [read, print, dropWhile_isBlank_toDigits]
    -- a digit is neither of the two signs, so the last branch reads it
    split
    · next ds h =>
      exact absurd (isDigit_of_mem (n := n) (h ▸ List.mem_cons_self)) (by decide)
    · next ds h =>
      exact absurd (isDigit_of_mem (n := n) (h ▸ List.mem_cons_self)) (by decide)
    · rw [readNat_toDigits, Option.map_some]

theorem print_injective : Function.Injective print := by
  intro m n h
  have hr := congrArg read h
  rw [read_print, read_print] at hr
  exact Option.some.inj hr

end Lib.Decimal
