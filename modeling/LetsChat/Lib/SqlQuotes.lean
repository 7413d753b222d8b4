import Mathlib.Algebra.Order.BigOperators.Group.List
import LetsChat.Lib.SqlText

/-! Quote counting: a text spells every literal of its token sequence out, so a
string that holds a quote, or is cut at a NUL, cannot come back as its own literal. -/

namespace Lib.Sql

/-- The string that `c_str()` hands over ends at the first NUL. -/
def cStr (text : List Char) : List Char := text.takeWhile (· != '\x00')

def quotes (text : List Char) : Nat := text.count '\''

def Token.quotes : Token → Nat
  | literal v => 2 + 2 * Sql.quotes v
  | _ => 0

def tokensQuotes (ts : List Token) : Nat := (ts.map Token.quotes).sum

def Mode.quotes : Mode → Nat
  | literal cs => 1 + 2 * Sql.quotes cs
  | closing cs => 2 + 2 * Sql.quotes cs
  | _ => 0

def Lexer.quotes (l : Lexer) : Nat := tokensQuotes l.tokens + l.mode.quotes

theorem quotes_append (as bs : List Char) : quotes (as ++ bs) = quotes as + quotes bs :=
  List.count_append

theorem quotes_cons (c : Char) (cs : List Char) :
    quotes (c :: cs) = quotes [c] + quotes cs := quotes_append [c] cs

theorem quotes_eq_zero {text : List Char} : quotes text = 0 ↔ '\'' ∉ text :=
  List.count_eq_zero

theorem quotes_singleton {c : Char} (hc : c ≠ '\'') : quotes [c] = 0 :=
  quotes_eq_zero.mpr fun h => hc (List.mem_singleton.mp h).symm

theorem quotes_print (n : Int) : quotes (Decimal.print n) = 0 :=
  quotes_eq_zero.mpr (Decimal.not_mem_print (by decide) (by decide))

theorem tokensQuotes_append (as bs : List Token) :
    tokensQuotes (as ++ bs) = tokensQuotes as + tokensQuotes bs := by
  rw [tokensQuotes, List.map_append, List.sum_append]
  rfl

theorem tokensQuotes_singleton (t : Token) : tokensQuotes [t] = t.quotes := by
  rw [tokensQuotes, List.map_singleton, List.sum_singleton]

theorem quotes_start (out : List Token) (c : Char) :
    (start out c).quotes = tokensQuotes out + quotes [c] := by
  unfold start
  split_ifs with hq hw hs
  · subst hq
    rfl
  · rw [quotes_singleton hq]
    rfl
  · rw [quotes_singleton hq]
    rfl
  · simp only [Lexer.quotes, tokensQuotes_append, tokensQuotes_singleton, quotes_singleton hq]
    rfl

theorem quotes_step (l : Lexer) (c : Char) : (l.step c).quotes = l.quotes + quotes [c] := by
  obtain ⟨out, mode⟩ := l
  cases mode with
  | gap => exact quotes_start out c
  | word cs =>
    simp only [Lexer.step]
    split_ifs with hw
    · rw [quotes_singleton (isWordChar_ne_quote hw)]
      rfl
    · rw [quotes_start, tokensQuotes_append, tokensQuotes_singleton]
      rfl
  | literal cs =>
    simp only [Lexer.step]
    split_ifs with hc
    · subst hc
      simp only [Lexer.quotes, Mode.quotes, quotes, List.count_singleton_self]
      omega
    · simp only [Lexer.quotes, Mode.quotes, quotes_append, quotes_singleton hc]
      omega
  | closing cs =>
    simp only [Lexer.step]
    split_ifs with hc
    · subst hc
      simp only [Lexer.quotes, Mode.quotes, quotes_append]
      have hone : quotes ['\''] = 1 := rfl
      omega
    · rw [quotes_start, tokensQuotes_append, tokensQuotes_singleton]
      rfl

theorem quotes_scan (l : Lexer) (text : List Char) :
    (scan l text).quotes = l.quotes + quotes text := by
  induction text generalizing l with
  | nil => rfl
  | cons c cs ih => rw [scan_cons, ih, quotes_step, quotes_cons c cs, Nat.add_assoc]

theorem quotes_of_finish {l : Lexer} {ts : List Token} (h : l.finish = some ts) :
    l.quotes = tokensQuotes ts := by
  obtain ⟨out, mode⟩ := l
  cases mode with
  | literal cs => cases h
  | gap =>
    cases h
    rfl
  | word cs =>
    cases h
    rw [tokensQuotes_append, tokensQuotes_singleton]
    rfl
  | closing cs =>
    cases h
    rw [tokensQuotes_append, tokensQuotes_singleton]
    rfl

theorem quotes_of_lex {text : List Char} {ts : List Token} (h : lex text = some ts) :
    quotes text = tokensQuotes ts := by
  have hscan := quotes_scan ⟨[], .gap⟩ text
  rw [quotes_of_finish h] at hscan
  simpa only [Lexer.quotes, Mode.quotes, tokensQuotes, List.map_nil, List.sum_nil, Nat.zero_add]
    using hscan.symm

theorem quotes_fragment {t : List Char} (hq : '\'' ∉ t) (hends : Ends t) :
    tokensQuotes (Piece.sql t).tokens = 0 := by
  have hlex : lex t = some (Piece.sql t).tokens := by
    unfold lex Lexer.finish
    rw [show (scan ⟨[], .gap⟩ t).flush = ⟨(Piece.sql t).tokens, .gap⟩ from
      congrArg (Lexer.mk _) hends]
  rw [← quotes_of_lex hlex, quotes_eq_zero.mpr hq]

theorem quotes_intTokens (n : Int) : tokensQuotes (intTokens n) = 0 := by
  cases n <;> rfl

theorem quotes_render {ps : List Piece} (hj : Joined ps) :
    quotes (render ps) = ((strings ps).map fun s => 2 + quotes s).sum ∧
      tokensQuotes (tokens ps) = ((strings ps).map fun s => 2 + 2 * quotes s).sum := by
  induction ps with
  | nil => exact ⟨rfl, rfl⟩
  | cons p ps ih =>
    have hrender : render (p :: ps) = p.text ++ render ps := rfl
    have htokens : tokens (p :: ps) = p.tokens ++ tokens ps := rfl
    rw [hrender, htokens, quotes_append, tokensQuotes_append]
    cases p with
    | sql t =>
      obtain ⟨hq, -, hends, -, hjs⟩ := hj.sql
      have hzero : quotes (Piece.sql t).text = 0 := quotes_eq_zero.mpr hq
      rw [hzero, quotes_fragment hq hends, Nat.zero_add, Nat.zero_add]
      exact ih hjs
    | int n =>
      have hzero : quotes (Piece.int n).text = 0 := quotes_print n
      have htoks : tokensQuotes (Piece.int n).tokens = 0 := quotes_intTokens n
      rw [hzero, htoks, Nat.zero_add, Nat.zero_add]
      exact ih hj.2
    | quoted s =>
      have hs : strings (Piece.quoted s :: ps) = s :: strings ps := rfl
      have htext : quotes (Piece.quoted s).text = 2 + quotes s := by
        have hone : quotes ['\''] = 1 := rfl
        rw [Piece.text, quotes_append, quotes_cons, hone]
        omega
      have htoks : tokensQuotes (Piece.quoted s).tokens = 2 + 2 * quotes s :=
        tokensQuotes_singleton _
      rw [hs, List.map_cons, List.map_cons, List.sum_cons, List.sum_cons, htext, htoks,
        (ih hj.2).1, (ih hj.2).2]
      exact ⟨rfl, rfl⟩

theorem cStr_append {as : List Char} (h : '\x00' ∉ as) (bs : List Char) :
    cStr (as ++ bs) = as ++ cStr bs :=
  List.takeWhile_append_of_pos fun c hc => by
    simpa using fun h0 : c = '\x00' => h (h0 ▸ hc)

theorem cStr_of_notMem {text : List Char} (h : '\x00' ∉ text) : cStr text = text := by
  have happ := cStr_append h []
  rwa [List.append_nil, show cStr [] = [] from rfl, List.append_nil] at happ

theorem cStr_append_of_mem {as : List Char} (h : '\x00' ∈ as) (bs : List Char) :
    cStr (as ++ bs) = cStr as := by
  induction as with
  | nil => cases h
  | cons c as ih =>
    by_cases hc : c = '\x00'
    · subst hc
      rfl
    · have htail : '\x00' ∈ as := (List.mem_cons.mp h).resolve_left fun h0 => hc h0.symm
      have hkeep : (c != '\x00') = true := by simpa using hc
      simp only [cStr, List.cons_append, List.takeWhile_cons, hkeep, if_true] at ih ⊢
      rw [ih htail]

theorem quotes_cStr_le (text : List Char) : quotes (cStr text) ≤ quotes text :=
  (List.takeWhile_sublist _).count_le _

theorem notMem_render {ps : List Piece} (hj : Joined ps) (h : ∀ s ∈ strings ps, '\x00' ∉ s) :
    '\x00' ∉ render ps := by
  induction ps with
  | nil => exact List.not_mem_nil
  | cons p ps ih =>
    have hrender : render (p :: ps) = p.text ++ render ps := rfl
    rw [hrender, List.mem_append, not_or]
    cases p with
    | sql t => exact ⟨hj.sql.2.1, ih hj.sql.2.2.2.2 h⟩
    | int n => exact ⟨Decimal.not_mem_print (by decide) (by decide), ih hj.2 h⟩
    | quoted s =>
      refine ⟨?_, ih hj.2 fun s' hs' => h s' (List.mem_cons_of_mem _ hs')⟩
      have hs : '\x00' ∉ s := h s List.mem_cons_self
      simpa [Piece.text] using hs

theorem quotes_cStr_lt {ps : List Piece} (hj : Joined ps) {s : List Char} (hs : s ∈ strings ps)
    (h0 : '\x00' ∈ s) : quotes (cStr (render ps)) < quotes (render ps) := by
  induction ps with
  | nil => cases hs
  | cons p ps ih =>
    have hrender : render (p :: ps) = p.text ++ render ps := rfl
    rw [hrender, quotes_append]
    have hskip : '\x00' ∉ p.text → Joined ps → s ∈ strings ps →
        quotes (cStr (p.text ++ render ps)) < quotes p.text + quotes (render ps) := by
      intro hp hjs hmem
      rw [cStr_append hp, quotes_append]
      exact Nat.add_lt_add_left (ih hjs hmem) _
    cases p with
    | sql t => exact hskip hj.sql.2.1 hj.sql.2.2.2.2 hs
    | int n => exact hskip (Decimal.not_mem_print (by decide) (by decide)) hj.2 hs
    | quoted s' =>
      -- the closing quote of the first string with a NUL is cut off
      by_cases h' : '\x00' ∈ s'
      · have hmem : '\x00' ∈ '\'' :: s' := List.mem_cons_of_mem _ h'
        have hcut : quotes (cStr ((Piece.quoted s').text ++ render ps)) ≤ quotes ('\'' :: s') := by
          rw [Piece.text, List.append_assoc, cStr_append_of_mem hmem]
          exact quotes_cStr_le _
        have htext : quotes (Piece.quoted s').text = quotes ('\'' :: s') + 1 := quotes_append _ _
        omega
      · have hp : '\x00' ∉ (Piece.quoted s').text := by simpa [Piece.text] using h'
        rcases List.mem_cons.mp hs with rfl | hs
        · exact absurd h0 h'
        · exact hskip hp hj.2 hs

theorem eq_of_sum_le {f g : List Char → Nat} {ss : List (List Char)} (hle : ∀ s, f s ≤ g s)
    (h : (ss.map g).sum ≤ (ss.map f).sum) : ∀ s ∈ ss, f s = g s := by
  induction ss with
  | nil => exact fun s hs => absurd hs List.not_mem_nil
  | cons a ss ih =>
    rw [List.map_cons, List.map_cons, List.sum_cons, List.sum_cons] at h
    have hss := List.sum_le_sum fun s (_ : s ∈ ss) => hle s
    have ha := hle a
    intro s hs
    rcases List.mem_cons.mp hs with rfl | hs
    · omega
    · exact ih (by omega) s hs

theorem lex_cStr_render_iff {ps : List Piece} (hj : Joined ps) :
    lex (cStr (render ps)) = some (tokens ps) ↔
      ∀ s ∈ strings ps, '\'' ∉ s ∧ '\x00' ∉ s := by
  constructor
  · intro h
    have hcount := quotes_of_lex h
    obtain ⟨htext, htoks⟩ := quotes_render hj
    have hcut := quotes_cStr_le (render ps)
    have hle : ∀ s, 2 + quotes s ≤ 2 + 2 * quotes s := fun s => by omega
    have hsum := List.sum_le_sum fun s (_ : s ∈ strings ps) => hle s
    have heq : ∀ s ∈ strings ps, 2 + quotes s = 2 + 2 * quotes s := eq_of_sum_le hle (by omega)
    intro s hs
    refine ⟨quotes_eq_zero.mp (by have := heq s hs; omega), fun h0 => ?_⟩
    have hlt := quotes_cStr_lt hj hs h0
    omega
  · intro h
    rw [cStr_of_notMem (notMem_render hj fun s hs => (h s hs).2)]
    exact lex_render hj fun s hs => (h s hs).1

end Lib.Sql
