import LetsChat.Lib.Decimal

/-! Lexing of SQL text under the standard quoting rule, and text assembled from
fixed fragments, integers and quoted strings. The lexer is a left fold, so a
text assembled from pieces is lexed piece by piece. -/

namespace Lib.Sql

inductive Token
  | word (cs : List Char)
  | literal (value : List Char)
  | symbol (c : Char)
  deriving DecidableEq

/-- Where the lexer stands: between tokens, inside a word, inside a literal, or just
after a quote that closes a literal unless another quote follows. -/
inductive Mode
  | gap
  | word (cs : List Char)
  | literal (cs : List Char)
  | closing (cs : List Char)
  deriving DecidableEq

structure Lexer where
  tokens : List Token
  mode : Mode
  deriving DecidableEq

def isWordChar (c : Char) : Bool := c.isAlphanum || c == '_'

def start (out : List Token) (c : Char) : Lexer :=
  if c = '\'' then ⟨out, .literal []⟩
  else if isWordChar c then ⟨out, .word [c]⟩
  else if c.isWhitespace then ⟨out, .gap⟩
  else ⟨out ++ [.symbol c], .gap⟩

def Lexer.step : Lexer → Char → Lexer
  | ⟨out, .gap⟩, c => start out c
  | ⟨out, .word cs⟩, c =>
    if isWordChar c then ⟨out, .word (cs ++ [c])⟩ else start (out ++ [.word cs]) c
  | ⟨out, .literal cs⟩, c =>
    if c = '\'' then ⟨out, .closing cs⟩ else ⟨out, .literal (cs ++ [c])⟩
  | ⟨out, .closing cs⟩, c =>
    if c = '\'' then ⟨out, .literal (cs ++ [c])⟩ else start (out ++ [.literal cs]) c

def Lexer.flush : Lexer → Lexer
  | ⟨out, .word cs⟩ => ⟨out ++ [.word cs], .gap⟩
  | ⟨out, .closing cs⟩ => ⟨out ++ [.literal cs], .gap⟩
  | l => l

def Lexer.finish (l : Lexer) : Option (List Token) :=
  match l.flush with
  | ⟨out, .gap⟩ => some out
  | _ => none

def scan (l : Lexer) (text : List Char) : Lexer := text.foldl Lexer.step l

def lex (text : List Char) : Option (List Token) := (scan ⟨[], .gap⟩ text).finish

@[simp] theorem scan_nil (l : Lexer) : scan l [] = l := rfl

@[simp] theorem scan_cons (l : Lexer) (c : Char) (cs : List Char) :
    scan l (c :: cs) = scan (l.step c) cs := rfl

theorem scan_append (l : Lexer) (as bs : List Char) : scan l (as ++ bs) = scan (scan l as) bs :=
  List.foldl_append

theorem of_ofList {P : List Char → Prop} {l : List Char} (h : P l) : P (String.ofList l).toList := by
  rwa [String.toList_ofList]

inductive Piece
  | sql (fragment : List Char)
  | int (n : Int)
  | quoted (s : List Char)

def Piece.text : Piece → List Char
  | sql t => t
  | int n => Decimal.print n
  | quoted s => '\'' :: s ++ ['\'']

def render (ps : List Piece) : List Char := ps.flatMap Piece.text

def intTokens : Int → List Token
  | .ofNat n => [.word (Nat.toDigits 10 n)]
  | .negSucc n => [.symbol '-', .word (Nat.toDigits 10 (n + 1))]

def Piece.tokens : Piece → List Token
  | sql t => (scan ⟨[], .gap⟩ t).flush.tokens
  | int n => intTokens n
  | quoted s => [.literal s]

def tokens (ps : List Piece) : List Token := ps.flatMap Piece.tokens

def strings (ps : List Piece) : List (List Char) :=
  ps.filterMap fun | .quoted s => some s | _ => none

def Closed (t : List Char) : Prop := (scan ⟨[], .gap⟩ t).mode = .gap

def Ends (t : List Char) : Prop := (scan ⟨[], .gap⟩ t).flush.mode = .gap

def Separates : List Char → Prop
  | [] => False
  | c :: _ => isWordChar c = false ∧ c ≠ '\''

instance (t : List Char) : Decidable (Closed t) := inferInstanceAs (Decidable (_ = _))

instance (t : List Char) : Decidable (Ends t) := inferInstanceAs (Decidable (_ = _))

instance : (t : List Char) → Decidable (Separates t)
  | [] => inferInstanceAs (Decidable False)
  | _ :: _ => inferInstanceAs (Decidable (_ ∧ _))

def Follows : List Piece → Prop
  | [] => True
  | .sql t :: _ => Separates t
  | _ :: _ => False

def Opening (t : List Char) : Prop := '\'' ∉ t ∧ '\x00' ∉ t ∧ Closed t

def Last (t : List Char) : Prop := '\'' ∉ t ∧ '\x00' ∉ t ∧ Ends t

instance (t : List Char) : Decidable (Opening t) := inferInstanceAs (Decidable (_ ∧ _ ∧ _))

instance (t : List Char) : Decidable (Last t) := inferInstanceAs (Decidable (_ ∧ _ ∧ _))

def Joined : List Piece → Prop
  | [] => True
  | [.sql t] => Last t
  | .sql t :: ps => Opening t ∧ Joined ps
  | .int _ :: ps => Follows ps ∧ Joined ps
  | .quoted _ :: ps => Follows ps ∧ Joined ps

def Lexer.after (out : List Token) (l : Lexer) : Lexer := ⟨out ++ l.tokens, l.mode⟩

theorem start_after (out out' : List Token) (c : Char) :
    start (out ++ out') c = (start out' c).after out := by
  unfold start
  split_ifs <;> simp only [Lexer.after, List.append_assoc]

theorem step_after (out : List Token) (l : Lexer) (c : Char) :
    (l.after out).step c = (l.step c).after out := by
  obtain ⟨out', mode⟩ := l
  cases mode with
  | gap => exact start_after out out' c
  | word cs =>
    simp only [Lexer.after, Lexer.step]
    split_ifs
    · rfl
    · rw [List.append_assoc, start_after, Lexer.after]
  | literal cs =>
    simp only [Lexer.after, Lexer.step]
    split_ifs <;> rfl
  | closing cs =>
    simp only [Lexer.after, Lexer.step]
    split_ifs
    · rfl
    · rw [List.append_assoc, start_after, Lexer.after]

theorem scan_after (out : List Token) (l : Lexer) (text : List Char) :
    scan (l.after out) text = (scan l text).after out := by
  induction text generalizing l with
  | nil => rfl
  | cons c cs ih => rw [scan_cons, step_after, ih, scan_cons]

theorem flush_after (out : List Token) (l : Lexer) : (l.after out).flush = l.flush.after out := by
  obtain ⟨out', mode⟩ := l
  cases mode <;> simp only [Lexer.after, Lexer.flush, List.append_assoc]

theorem scan_gap (out : List Token) (text : List Char) :
    scan ⟨out, .gap⟩ text = (scan ⟨[], .gap⟩ text).after out := by
  rw [← scan_after, Lexer.after, List.append_nil]

theorem flush_of_gap {l : Lexer} (h : l.mode = .gap) : l.flush = l := by
  obtain ⟨out, mode⟩ := l
  cases mode <;> first | rfl | cases h

theorem Joined.sql {t : List Char} {ps : List Piece} (hj : Joined (.sql t :: ps)) :
    '\'' ∉ t ∧ '\x00' ∉ t ∧ Ends t ∧ (ps = [] ∨ Closed t) ∧ Joined ps := by
  cases ps with
  | nil => exact ⟨hj.1, hj.2.1, hj.2.2, .inl rfl, trivial⟩
  | cons p ps =>
    obtain ⟨⟨hq, h0, hclosed⟩, hjs⟩ := hj
    have hends : Ends t := by
      rw [Ends, flush_of_gap hclosed]
      exact hclosed
    exact ⟨hq, h0, hends, .inr hclosed, hjs⟩

theorem finish_of_flush {l : Lexer} {out : List Token} (h : l.flush = ⟨out, .gap⟩) :
    l.finish = some out := by
  rw [Lexer.finish, h]

/-- A character that separates is read as if the pending token had been closed first. -/
theorem step_flush {l : Lexer} {c : Char} (hl : l.flush.mode = .gap)
    (hw : isWordChar c = false) (hq : c ≠ '\'') : l.step c = l.flush.step c := by
  obtain ⟨out, mode⟩ := l
  cases mode with
  | gap => rfl
  | word cs => simp [Lexer.step, Lexer.flush, hw]
  | literal cs => cases hl
  | closing cs => simp [Lexer.step, Lexer.flush, hq]

theorem finish_scan_flush {l : Lexer} {ps : List Piece} (hl : l.flush.mode = .gap)
    (hf : Follows ps) : (scan l (render ps)).finish = (scan l.flush (render ps)).finish := by
  rcases ps with _ | ⟨p, ps⟩
  · have hflush : l.flush.flush = l.flush := flush_of_gap hl
    simp only [render, List.flatMap_nil, scan_nil, Lexer.finish, hflush]
  · cases p with
    | sql t =>
      rcases t with _ | ⟨c, t⟩
      · cases hf
      · simp only [render, List.flatMap_cons, Piece.text, List.cons_append, scan_cons,
          step_flush hl hf.1 hf.2]
    | int n => cases hf
    | quoted s => cases hf

theorem isWordChar_of_isDigit {c : Char} (hc : c.isDigit = true) : isWordChar c = true := by
  simp [isWordChar, Char.isAlphanum, hc]

theorem isWordChar_ne_quote {c : Char} (hc : isWordChar c = true) : c ≠ '\'' := by
  rintro rfl
  exact absurd hc (by decide)

theorem scan_word (out : List Token) (cs ds : List Char) (hds : ∀ c ∈ ds, isWordChar c = true) :
    scan ⟨out, .word cs⟩ ds = ⟨out, .word (cs ++ ds)⟩ := by
  induction ds generalizing cs with
  | nil => rw [scan_nil, List.append_nil]
  | cons c ds ih =>
    have hc : isWordChar c = true := hds c List.mem_cons_self
    rw [scan_cons, Lexer.step, if_pos hc, ih (cs ++ [c]) fun d hd => hds d (List.mem_cons_of_mem _ hd),
      List.append_assoc]
    rfl

theorem scan_toDigits (out : List Token) (n : Nat) :
    scan ⟨out, .gap⟩ (Nat.toDigits 10 n) = ⟨out, .word (Nat.toDigits 10 n)⟩ := by
  have hall : ∀ c ∈ Nat.toDigits 10 n, isWordChar c = true := fun c hc =>
    isWordChar_of_isDigit (Decimal.isDigit_of_mem hc)
  cases h : Nat.toDigits 10 n with
  | nil => exact absurd h Nat.toDigits_ne_nil
  | cons c cs =>
    rw [h] at hall
    have hc : isWordChar c = true := hall c List.mem_cons_self
    have hstart : start out c = ⟨out, .word [c]⟩ := by
      rw [start, if_neg (isWordChar_ne_quote hc), if_pos hc]
    rw [scan_cons, Lexer.step, hstart, scan_word out [c] cs fun d hd =>
      hall d (List.mem_cons_of_mem _ hd)]
    rfl

theorem flush_scan_int (out : List Token) (n : Int) :
    (scan ⟨out, .gap⟩ (Decimal.print n)).flush = ⟨out ++ intTokens n, .gap⟩ := by
  cases n with
  | ofNat n =>
    rw [Decimal.print, scan_toDigits]
    rfl
  | negSucc n =>
    have hsign : Lexer.step ⟨out, .gap⟩ '-' = ⟨out ++ [.symbol '-'], .gap⟩ := rfl
    rw [Decimal.print, scan_cons, hsign, scan_toDigits]
    simp only [Lexer.flush, intTokens, List.append_assoc, List.cons_append, List.nil_append]

theorem scan_literal (out : List Token) (cs s : List Char) (hs : '\'' ∉ s) :
    scan ⟨out, .literal cs⟩ s = ⟨out, .literal (cs ++ s)⟩ := by
  induction s generalizing cs with
  | nil => rw [scan_nil, List.append_nil]
  | cons c s ih =>
    have hc : c ≠ '\'' := fun h => hs (h ▸ List.mem_cons_self)
    have htail : '\'' ∉ s := fun h => hs (List.mem_cons_of_mem _ h)
    rw [scan_cons, Lexer.step, if_neg hc, ih (cs ++ [c]) htail, List.append_assoc]
    rfl

theorem flush_scan_quoted (out : List Token) (s : List Char) (hs : '\'' ∉ s) :
    (scan ⟨out, .gap⟩ (Piece.quoted s).text).flush = ⟨out ++ [.literal s], .gap⟩ := by
  have hopen : Lexer.step ⟨out, .gap⟩ '\'' = ⟨out, .literal []⟩ := rfl
  rw [Piece.text, List.cons_append, scan_cons, hopen, scan_append, scan_literal out [] s hs]
  rfl

theorem finish_scan_render (ps : List Piece) (hj : Joined ps)
    (hq : ∀ s ∈ strings ps, '\'' ∉ s) (out : List Token) :
    (scan ⟨out, .gap⟩ (render ps)).finish = some (out ++ tokens ps) := by
  induction ps generalizing out with
  | nil =>
    rw [tokens, List.flatMap_nil, List.append_nil]
    rfl
  | cons p ps ih =>
    have hrender : render (p :: ps) = p.text ++ render ps := rfl
    have htokens : tokens (p :: ps) = p.tokens ++ tokens ps := rfl
    rw [hrender, htokens, scan_append, ← List.append_assoc]
    -- a value leaves a pending token, which the next fragment closes
    have hvalue : Follows ps → Joined ps →
        (scan ⟨out, .gap⟩ p.text).flush = ⟨out ++ p.tokens, .gap⟩ →
        (scan (scan ⟨out, .gap⟩ p.text) (render ps)).finish =
          some ((out ++ p.tokens) ++ tokens ps) := by
      intro hf hjs hflush
      have hqs : ∀ s ∈ strings ps, '\'' ∉ s := by
        intro s hs
        cases p with
        | quoted s' => exact hq s (List.mem_cons_of_mem _ hs)
        | _ => exact hq s hs
      have hgap : (scan ⟨out, .gap⟩ p.text).flush.mode = .gap := by rw [hflush]
      rw [finish_scan_flush hgap hf, hflush, ih hjs hqs]
    cases p with
    | sql t =>
      obtain ⟨-, -, hends, hclosed, hjs⟩ := hj.sql
      rw [Piece.text, scan_gap out t]
      rcases hclosed with rfl | hclosed
      · have hflush : ((scan ⟨[], .gap⟩ t).after out).flush =
            ⟨out ++ (Piece.sql t).tokens, .gap⟩ := by
          rw [flush_after, Lexer.after, hends]
          rfl
        rw [tokens, List.flatMap_nil, List.append_nil]
        exact finish_of_flush hflush
      · have hout : (scan ⟨[], .gap⟩ t).after out = ⟨out ++ (Piece.sql t).tokens, .gap⟩ := by
          rw [Lexer.after, hclosed, Piece.tokens, flush_of_gap hclosed]
        rw [hout]
        exact ih hjs hq _
    | int n => exact hvalue hj.1 hj.2 (flush_scan_int out n)
    | quoted s =>
      exact hvalue hj.1 hj.2 (flush_scan_quoted out s (hq s List.mem_cons_self))

theorem lex_render {ps : List Piece} (hj : Joined ps) (hq : ∀ s ∈ strings ps, '\'' ∉ s) :
    lex (render ps) = some (tokens ps) := finish_scan_render ps hj hq []

end Lib.Sql
