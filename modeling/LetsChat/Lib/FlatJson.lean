import LetsChat.Lib.Search

/-! Flat JSON objects printed without whitespace: names and strings that need no escapes,
numbers, and the three literals. -/

namespace Lib.FlatJson

structure Plain where
  text : List Char
  noQuote : '"' ∉ text
  noBackslash : '\\' ∉ text
  deriving DecidableEq

structure Digits where
  text : List Char
  nonempty : text ≠ []
  digits : ∀ c ∈ text, c.isDigit

inductive Sign
  | none
  | plus
  | minus

def Sign.print : Sign → List Char
  | none => []
  | plus => ['+']
  | minus => ['-']

structure Exponent where
  upper : Bool
  sign : Sign
  digits : Digits

def Exponent.print (e : Exponent) : List Char :=
  (if e.upper then 'E' else 'e') :: (e.sign.print ++ e.digits.text)

/-- The integer part has no leading zeros. -/
structure Number where
  negative : Bool
  integer : Nat
  fraction : Option Digits
  exponent : Option Exponent

def Number.print (n : Number) : List Char :=
  (if n.negative then ['-'] else []) ++ Nat.toDigits 10 n.integer
    ++ n.fraction.elim [] (fun d => '.' :: d.text) ++ n.exponent.elim [] Exponent.print

inductive Token
  | number (n : Number)
  | true
  | false
  | null

def Token.print : Token → List Char
  | number n => n.print
  | true => ['t', 'r', 'u', 'e']
  | false => ['f', 'a', 'l', 's', 'e']
  | null => ['n', 'u', 'l', 'l']

inductive Value
  | string (s : Plain)
  | token (t : Token)

def Value.print : Value → List Char
  | string s => '"' :: s.text ++ ['"']
  | token t => t.print

def Value.contents : Value → List Char
  | string s => s.text
  | token t => t.print

structure Member where
  name : Plain
  value : Value

def Member.print (m : Member) : List Char :=
  '"' :: m.name.text ++ '"' :: ':' :: m.value.print

def printRest (ms : List Member) : List Char := ms.flatMap (fun m => ',' :: m.print) ++ ['\x7d']

def print : List Member → List Char
  | [] => ['\x7b', '\x7d']
  | m :: ms => '\x7b' :: (m.print ++ printRest ms)

def lookup (ms : List Member) (key : List Char) : Option Value :=
  (ms.find? fun m => m.name.text = key).map (·.value)

def Structural (c : Char) : Prop := c = '"' ∨ c = ':' ∨ c = ',' ∨ c = '\x7d'

instance (c : Char) : Decidable (Structural c) := inferInstanceAs (Decidable (_ ∨ _))

def Clear (cs : List Char) : Prop := ∀ c ∈ cs, ¬Structural c

@[simp] theorem clear_nil : Clear [] := fun _ hc => absurd hc List.not_mem_nil

@[simp] theorem clear_cons {c : Char} {cs : List Char} :
    Clear (c :: cs) ↔ ¬Structural c ∧ Clear cs := List.forall_mem_cons

@[simp] theorem clear_append {cs ds : List Char} : Clear (cs ++ ds) ↔ Clear cs ∧ Clear ds :=
  List.forall_mem_append

theorem not_structural_of_isDigit {c : Char} (h : c.isDigit = true) : ¬Structural c := by
  rintro (rfl | rfl | rfl | rfl) <;> cases h

theorem Digits.clear (d : Digits) : Clear d.text :=
  fun c hc => not_structural_of_isDigit (d.digits c hc)

theorem Exponent.clear (e : Exponent) : Clear e.print := by
  have hletter : ∀ upper : Bool, ¬Structural (if upper then 'E' else 'e') := by decide
  have hsign : ∀ sign : Sign, Clear sign.print := by
    intro sign
    cases sign <;> simp [Sign.print, Structural]
  exact clear_cons.mpr ⟨hletter e.upper, clear_append.mpr ⟨hsign e.sign, e.digits.clear⟩⟩

theorem Number.clear (n : Number) : Clear n.print := by
  have hminus : Clear (if n.negative then ['-'] else []) := by
    cases n.negative <;> simp [Structural]
  have hinteger : Clear (Nat.toDigits 10 n.integer) := fun c hc =>
    not_structural_of_isDigit (Nat.isDigit_of_mem_toDigits (by decide) (by decide) hc)
  have hfraction : Clear (n.fraction.elim [] fun d => '.' :: d.text) := by
    cases n.fraction with
    | none => exact clear_nil
    | some d => exact clear_cons.mpr ⟨by decide, d.clear⟩
  have hexponent : Clear (n.exponent.elim [] Exponent.print) := by
    cases n.exponent with
    | none => exact clear_nil
    | some e => exact e.clear
  exact clear_append.mpr ⟨clear_append.mpr ⟨clear_append.mpr ⟨hminus, hinteger⟩, hfraction⟩, hexponent⟩

theorem Token.clear (t : Token) : Clear t.print := by
  cases t with
  | number n => exact n.clear
  | _ => simp [Token.print, Structural]

theorem clear_of_isAlphanum {key : List Char} (h : key.all Char.isAlphanum = true) :
    Clear key := by
  intro c hc hstruct
  have halnum : c.isAlphanum = true := List.all_eq_true.mp h c hc
  rcases hstruct with rfl | rfl | rfl | rfl <;> cases halnum

theorem Clear.noQuote {cs : List Char} (h : Clear cs) : '"' ∉ cs := fun hc => h _ hc (.inl rfl)

def pattern (key : List Char) (quote : Bool) : List Char :=
  '"' :: (key ++ '"' :: ':' :: if quote then ['"'] else [])

def Hit (key : List Char) (quote : Bool) (m : Member) : Prop :=
  m.name.text = key ∧ (quote → ∃ s, m.value = .string s)

/-- No occurrence starts in `a` when `r` follows. -/
def Skips (pat a r : List Char) : Prop := search pat (a ++ r) = (search pat r).map (· + a.length)

theorem Skips.append {pat a b r : List Char} (ha : Skips pat a (b ++ r)) (hb : Skips pat b r) :
    Skips pat (a ++ b) r := by
  unfold Skips at *
  rw [List.append_assoc, ha, hb, Option.map_map]
  congr 1
  funext i
  rw [Function.comp_apply, List.length_append]
  omega

/-- The first occurrence is right after `pre`. -/
def Finds (pat pre r : List Char) : Prop := search pat (pre ++ r) = some pre.length

theorem Skips.finds_here {pat a r : List Char} (ha : Skips pat a r) (h : pat <+: r) :
    Finds pat a r := by
  have hfound := ha.trans (congrArg _ (search_head h))
  rwa [Option.map_some, Nat.zero_add] at hfound

theorem Skips.finds {pat a pre r : List Char} (ha : Skips pat a (pre ++ r)) (h : Finds pat pre r) :
    Finds pat (a ++ pre) r := by
  have hfound := ha.trans (congrArg _ h)
  rwa [Option.map_some, Nat.add_comm, ← List.length_append, ← List.append_assoc] at hfound

theorem skips_clear {key : List Char} {quote : Bool} {a : List Char} (ha : '"' ∉ a) (r : List Char) :
    Skips (pattern key quote) a r :=
  search_append ha

theorem token_not_quoted (t : Token) {c : Char} (hquote : c ≠ '"') (r : List Char) :
    ¬['"'] <+: t.print ++ c :: r := by
  have hclear := t.clear
  cases ht : t.print with
  | nil => exact not_prefix_of_head hquote.symm _ _
  | cons d ds =>
    rw [ht] at hclear
    exact not_prefix_of_head (List.ne_of_not_mem_cons hclear.noQuote) _ _

theorem printRest_cons (m : Member) (ms : List Member) :
    printRest (m :: ms) = [','] ++ m.print ++ printRest ms := by
  rw [printRest, List.flatMap_cons, List.append_assoc]
  rfl

theorem print_cons (m : Member) (ms : List Member) :
    print (m :: ms) = ['\x7b'] ++ m.print ++ printRest ms := rfl

theorem hit_pattern {key : List Char} {quote : Bool} {m : Member} (hm : Hit key quote m)
    (r : List Char) : pattern key quote <+: m.print ++ r := by
  obtain ⟨rfl, hquote⟩ := hm
  cases quote with
  | false =>
    refine ⟨m.value.print ++ r, ?_⟩
    simp [pattern, Member.print]
  | true =>
    obtain ⟨s, hs⟩ := hquote rfl
    refine ⟨s.text ++ '"' :: r, ?_⟩
    simp [pattern, Member.print, Value.print, hs]

section Search
variable {key : List Char} {quote : Bool} (hne : key ≠ []) (hkey : Clear key)
include hne hkey

theorem skips_closing {c : Char} (hc : Structural c) (r : List Char) :
    Skips (pattern key quote) ['"'] (c :: r) := by
  apply search_cons
  intro hpre
  cases key with
  | nil => exact hne rfl
  | cons k key =>
    have hk := (List.cons_prefix_cons.mp (List.cons_prefix_cons.mp hpre).2).1
    exact hkey k List.mem_cons_self (hk ▸ hc)

theorem skips_value (v : Value) {c : Char} (hc : Structural c) (hcolon : c ≠ ':') (r : List Char) :
    Skips (pattern key quote) v.print (c :: r) := by
  cases v with
  | token t => exact skips_clear t.clear.noQuote _
  | string s =>
    have hopen : Skips (pattern key quote) ['"'] (s.text ++ ['"'] ++ c :: r) := by
      rw [List.append_assoc]
      apply search_cons
      intro hpre
      -- the contents of a string may be the key, but no colon follows them
      obtain ⟨-, hrest⟩ := append_cons_prefix hkey.noQuote s.noQuote (List.cons_prefix_cons.mp hpre).2
      exact hcolon (List.cons_prefix_cons.mp hrest).1.symm
    have hclosing : Skips (pattern key quote) ['"'] (c :: r) := skips_closing hne hkey hc r
    exact hopen.append ((skips_clear s.noQuote _).append hclosing)

theorem skips_member {m : Member} (hm : ¬Hit key quote m) {c : Char} (hc : Structural c)
    (hcolon : c ≠ ':') (hquote : c ≠ '"') (r : List Char) :
    Skips (pattern key quote) m.print (c :: r) := by
  have hvalue : Skips (pattern key quote) ([':'] ++ m.value.print) (c :: r) :=
    (skips_clear (by decide) _).append (skips_value hne hkey m.value hc hcolon r)
  have hclosing : Skips (pattern key quote) ['"'] (':' :: m.value.print ++ c :: r) :=
    skips_closing hne hkey (.inr (.inl rfl)) _
  have hname := (skips_clear m.name.noQuote _).append (hclosing.append hvalue)
  have hopen : Skips (pattern key quote) ['"']
      (m.name.text ++ (['"'] ++ ([':'] ++ m.value.print)) ++ c :: r) := by
    rw [List.append_assoc]
    refine search_cons fun hpre => hm ?_
    obtain ⟨hname, hrest⟩ := append_cons_prefix hkey.noQuote m.name.noQuote
      (List.cons_prefix_cons.mp hpre).2
    refine ⟨hname.symm, fun hq => ?_⟩
    rw [if_pos hq] at hrest
    have hvalue : ['"'] <+: m.value.print ++ c :: r := (List.cons_prefix_cons.mp hrest).2
    cases hv : m.value with
    | string s => exact ⟨s, rfl⟩
    | token t =>
      rw [hv] at hvalue
      exact absurd hvalue (token_not_quoted t hquote r)
  exact hopen.append hname

theorem skips_before {m : Member} (hm : ¬Hit key quote m) (ms : List Member) :
    Skips (pattern key quote) m.print (printRest ms) := by
  cases ms with
  | nil => exact skips_member hne hkey hm (.inr (.inr (.inr rfl))) (by decide) (by decide) _
  | cons m' ms =>
    exact skips_member hne hkey hm (.inr (.inr (.inl rfl))) (by decide) (by decide) _

theorem search_rest_none {ms : List Member} (hms : ∀ m ∈ ms, ¬Hit key quote m) :
    search (pattern key quote) (printRest ms) = none := by
  induction ms with
  | nil => exact search_none_of_not_mem (by decide)
  | cons m ms ih =>
    obtain ⟨hm, hms⟩ := List.forall_mem_cons.mp hms
    have hskip := (skips_clear (by decide : '"' ∉ [',']) _).append (skips_before hne hkey hm ms)
    rw [printRest_cons, hskip, ih hms]
    rfl

theorem finds_rest {before : List Member} (hbefore : ∀ a ∈ before, ¬Hit key quote a) {m : Member}
    (hm : Hit key quote m) (ms : List Member) :
    ∃ pre, printRest (before ++ m :: ms) = pre ++ (m.print ++ printRest ms) ∧
      Finds (pattern key quote) pre (m.print ++ printRest ms) := by
  induction before with
  | nil =>
    refine ⟨[','], ?_, (skips_clear (by decide) _).finds_here (hit_pattern hm _)⟩
    rw [List.nil_append, printRest_cons, List.append_assoc]
  | cons a before ih =>
    obtain ⟨ha, hbefore⟩ := List.forall_mem_cons.mp hbefore
    obtain ⟨pre, hsplit, hfound⟩ := ih hbefore
    have hmember := skips_before hne hkey ha (before ++ m :: ms)
    rw [hsplit] at hmember
    refine ⟨[','] ++ a.print ++ pre, ?_, ((skips_clear (by decide) _).append hmember).finds hfound⟩
    rw [List.cons_append, printRest_cons, hsplit, List.append_assoc ([','] ++ a.print)]

theorem search_none {ms : List Member} (hms : ∀ m ∈ ms, ¬Hit key quote m) :
    search (pattern key quote) (print ms) = none := by
  cases ms with
  | nil => exact search_none_of_not_mem (by decide)
  | cons m ms =>
    obtain ⟨hm, hms⟩ := List.forall_mem_cons.mp hms
    have hskip := (skips_clear (by decide : '"' ∉ ['\x7b']) _).append
      (skips_before hne hkey hm ms)
    rw [print_cons, hskip, search_rest_none hne hkey hms]
    rfl

theorem finds_member {before : List Member} (hbefore : ∀ a ∈ before, ¬Hit key quote a) {m : Member}
    (hm : Hit key quote m) (ms : List Member) :
    ∃ pre, print (before ++ m :: ms) = pre ++ (m.print ++ printRest ms) ∧
      Finds (pattern key quote) pre (m.print ++ printRest ms) := by
  cases before with
  | nil =>
    exact ⟨['\x7b'], rfl, (skips_clear (by decide) _).finds_here (hit_pattern hm _)⟩
  | cons a before =>
    obtain ⟨ha, hbefore⟩ := List.forall_mem_cons.mp hbefore
    obtain ⟨pre, hsplit, hfound⟩ := finds_rest hne hkey hbefore hm ms
    have hmember := skips_before hne hkey ha (before ++ m :: ms)
    rw [hsplit] at hmember
    refine ⟨['\x7b'] ++ a.print ++ pre, ?_,
      ((skips_clear (by decide) _).append hmember).finds hfound⟩
    rw [List.cons_append, print_cons, hsplit, List.append_assoc (['\x7b'] ++ a.print)]

end Search

end Lib.FlatJson
