import Mathlib.Data.List.Infix
import Mathlib.Data.List.TakeWhile

/-! The parameters of a URL: the query is split at each '&', a parameter at its first '=',
and both halves are percent-decoded. Printed parameters that nobody has encoded come back
exactly when none of their values has anything in it that the reader understands. -/

namespace Lib.UrlQuery

def hexDigit (c : Char) : Option Nat :=
  if c.isDigit then some (c.toNat - '0'.toNat)
  else if 'a' ≤ c ∧ c ≤ 'f' then some (c.toNat - 'a'.toNat + 10)
  else if 'A' ≤ c ∧ c ≤ 'F' then some (c.toNat - 'A'.toNat + 10)
  else none

def decode : List Char → List Char
  | '%' :: a :: b :: s =>
    match hexDigit a, hexDigit b with
    | some high, some low => Char.ofNat (16 * high + low) :: decode s
    | _, _ => '%' :: decode (a :: b :: s)
  | c :: s => c :: decode s
  | [] => []

def Unescaped (s : List Char) : Prop :=
  ∀ a b t, '%' :: a :: b :: t <:+ s → ¬((hexDigit a).isSome ∧ (hexDigit b).isSome)

theorem length_decode_le (s : List Char) : (decode s).length ≤ s.length := by
  fun_induction decode s with
  | case1 a b s high low _ _ ih =>
    simp only [List.length_cons]
    omega
  | case2 a b s _ ih => exact Nat.succ_le_succ ih
  | case3 c s _ ih => exact Nat.succ_le_succ ih
  | case4 => exact Nat.le_refl _

theorem unescaped_cons (c : Char) (s : List Char) :
    Unescaped (c :: s) ↔
      (∀ a b t, c :: s = '%' :: a :: b :: t → ¬((hexDigit a).isSome ∧ (hexDigit b).isSome)) ∧
        Unescaped s := by
  constructor
  · intro h
    exact ⟨fun a b t heq => h a b t (heq ▸ List.suffix_refl _),
      fun a b t hsuffix => h a b t (hsuffix.trans (List.suffix_cons c s))⟩
  · rintro ⟨hhead, htail⟩ a b t hsuffix
    rcases List.suffix_cons_iff.mp hsuffix with heq | hsuffix
    · exact hhead a b t heq.symm
    · exact htail a b t hsuffix

theorem decode_eq_self_iff (s : List Char) : decode s = s ↔ Unescaped s := by
  fun_induction decode s with
  | case1 a b s high low hb ha ih =>
    have hshort := length_decode_le s
    constructor
    · intro h
      have hlength := congrArg List.length h
      simp only [List.length_cons] at hlength
      omega
    · intro h
      refine absurd ⟨?_, ?_⟩ (h a b s (List.suffix_refl _))
      · rw [ha]
        rfl
      · rw [hb]
        rfl
  | case2 a b s hno ih =>
    have hhead : ∀ a' b' t, '%' :: a :: b :: s = '%' :: a' :: b' :: t →
        ¬((hexDigit a').isSome ∧ (hexDigit b').isSome) := by
      intro a' b' t heq
      cases heq
      rintro ⟨ha, hb⟩
      obtain ⟨high, hhigh⟩ := Option.isSome_iff_exists.mp ha
      obtain ⟨low, hlow⟩ := Option.isSome_iff_exists.mp hb
      exact hno high low hhigh hlow
    rw [unescaped_cons, List.cons_inj_right, ih, and_iff_right hhead]
  | case3 c s hno ih =>
    have hhead : ∀ a b t, c :: s = '%' :: a :: b :: t →
        ¬((hexDigit a).isSome ∧ (hexDigit b).isSome) := by
      intro a b t heq
      cases heq
      exact absurd rfl (hno a b t rfl)
    rw [unescaped_cons, List.cons_inj_right, ih, and_iff_right hhead]
  | case4 =>
    apply iff_of_true rfl
    intro a b t hsuffix
    exact absurd (List.suffix_nil.mp hsuffix) (List.cons_ne_nil _ _)

theorem mem_decode {c : Char} (hpercent : c ≠ '%') (hhex : hexDigit c = none) {s : List Char}
    (h : c ∈ s) : c ∈ decode s := by
  fun_induction decode s with
  | case1 a b s high low hb ha ih =>
    rcases List.mem_cons.mp h with rfl | h
    · exact absurd rfl hpercent
    rcases List.mem_cons.mp h with rfl | h
    · rw [hhex] at ha
      cases ha
    rcases List.mem_cons.mp h with rfl | h
    · rw [hhex] at hb
      cases hb
    exact List.mem_cons_of_mem _ (ih h)
  | case2 a b s _ ih =>
    rcases List.mem_cons.mp h with rfl | h
    · exact absurd rfl hpercent
    · exact List.mem_cons_of_mem _ (ih h)
  | case3 d s _ ih =>
    rcases List.mem_cons.mp h with rfl | h
    · exact List.mem_cons_self
    · exact List.mem_cons_of_mem _ (ih h)
  | case4 => exact h

theorem unescaped_append {a : List Char} (h : '%' ∉ a) (s : List Char) :
    Unescaped (a ++ s) ↔ Unescaped s := by
  induction a with
  | nil => exact Iff.rfl
  | cons c a ih =>
    obtain ⟨hc, ha⟩ := not_or.mp (List.mem_cons.not.mp h)
    rw [List.cons_append, unescaped_cons, ih ha]
    exact and_iff_right fun x y t heq => absurd (List.cons.inj heq).1.symm hc

theorem unescaped_of_not_mem {s : List Char} (h : '%' ∉ s) : Unescaped s := by
  have hnil : Unescaped [] := (decode_eq_self_iff []).mp rfl
  have hplain : Unescaped (s ++ []) := (unescaped_append h []).mpr hnil
  rwa [List.append_nil] at hplain

theorem decode_of_not_mem {s : List Char} (h : '%' ∉ s) : decode s = s :=
  (decode_eq_self_iff s).mpr (unescaped_of_not_mem h)

def field (part : List Char) : List Char × List Char :=
  (decode (part.takeWhile (· ≠ '=')), decode ((part.dropWhile (· ≠ '=')).drop 1))

def fields (query : List Char) : List (List Char × List Char) := (query.splitOn '&').map field

def cut (url : List Char) : List Char := url.takeWhile (· ≠ '#')

def params (url : List Char) : List (List Char × List Char) :=
  match (cut url).dropWhile (· ≠ '?') with
  | [] => []
  | _ :: query => fields query

def print (fs : List (List Char × List Char)) : List Char :=
  ['&'].intercalate (fs.map fun f => f.1 ++ '=' :: f.2)

def CleanName (s : List Char) : Prop := ∀ c ∈ s, c ∉ ['=', '&', '#', '%']

instance (s : List Char) : Decidable (CleanName s) := List.decidableBAll _ s

structure Harmless (value : List Char) : Prop where
  amp : '&' ∉ value
  hash : '#' ∉ value
  unescaped : Unescaped value

theorem harmless_append {a : List Char} (hamp : '&' ∉ a) (hhash : '#' ∉ a) (hpercent : '%' ∉ a)
    (s : List Char) : Harmless (a ++ s) ↔ Harmless s := by
  constructor
  · intro h
    exact ⟨fun hc => h.amp (List.mem_append_right a hc), fun hc => h.hash (List.mem_append_right a hc),
      (unescaped_append hpercent s).mp h.unescaped⟩
  · intro h
    exact ⟨List.not_mem_append hamp h.amp, List.not_mem_append hhash h.hash,
      (unescaped_append hpercent s).mpr h.unescaped⟩

def visible (value : List Char) : List Char := value.takeWhile fun c => c ≠ '&' ∧ c ≠ '#'

theorem takeWhile_ne_append {c : Char} {a : List Char} (h : c ∉ a) (s : List Char) :
    (a ++ s).takeWhile (· ≠ c) = a ++ s.takeWhile (· ≠ c) :=
  List.takeWhile_append_of_pos fun _ hd => decide_eq_true (ne_of_mem_of_not_mem hd h)

theorem dropWhile_ne_append {c : Char} {a : List Char} (h : c ∉ a) (s : List Char) :
    (a ++ s).dropWhile (· ≠ c) = s.dropWhile (· ≠ c) :=
  List.dropWhile_append_of_pos fun _ hd => decide_eq_true (ne_of_mem_of_not_mem hd h)

theorem cut_append {a : List Char} (h : '#' ∉ a) (s : List Char) : cut (a ++ s) = a ++ cut s :=
  takeWhile_ne_append h s

theorem cut_of_not_mem {s : List Char} (h : '#' ∉ s) : cut s = s := by
  have hcut : cut (s ++ []) = s ++ [] := cut_append h []
  rwa [List.append_nil] at hcut

theorem cut_fragment {a : List Char} (h : '#' ∉ a) (s : List Char) : cut (a ++ '#' :: s) = a := by
  have hcut : cut (a ++ '#' :: s) = a ++ [] := cut_append h _
  rwa [List.append_nil] at hcut

theorem cut_separator {a : List Char} (h : '#' ∉ a) {c : Char} (hc : c ≠ '#') (s : List Char) :
    cut (a ++ c :: s) = a ++ c :: cut s := by
  have hmem : '#' ∉ a ++ [c] :=
    List.not_mem_append h (List.mem_singleton.not.mpr (Ne.symm hc))
  rw [List.append_cons, cut_append hmem, ← List.append_cons]

theorem params_append_of_mem {base : List Char} (h : '#' ∈ base) (s : List Char) :
    params (base ++ s) = params base := by
  obtain ⟨a, b, rfl, ha⟩ := List.eq_append_cons_of_mem h
  rw [params, params, List.append_assoc, List.cons_append, cut_fragment ha, cut_fragment ha]

theorem params_append {base : List Char} (hmark : '?' ∉ base) (hhash : '#' ∉ base)
    (query : List Char) : params (base ++ '?' :: query) = fields (cut query) := by
  have hcut : cut (base ++ '?' :: query) = base ++ '?' :: cut query :=
    cut_separator hhash (by decide) query
  have hquery : (base ++ '?' :: cut query).dropWhile (· ≠ '?') = '?' :: cut query := by
    rw [dropWhile_ne_append hmark]
    rfl
  rw [params, hcut, hquery]

theorem head_splitOn (c : Char) (s : List Char) :
    (s.splitOn c).head? = some (s.takeWhile (· ≠ c)) := by
  induction s with
  | nil => rfl
  | cons d s ih =>
    rw [List.splitOn_cons_eq_if_modifyHead]
    by_cases hd : d = c
    · subst hd
      rw [if_pos (BEq.refl d), List.takeWhile_cons_of_neg (by simp)]
      rfl
    · have hkeep : (d :: s).takeWhile (· ≠ c) = d :: s.takeWhile (· ≠ c) :=
        takeWhile_ne_append (List.mem_singleton.not.mpr (Ne.symm hd)) s
      rw [if_neg (by simpa using hd), List.head?_modifyHead, ih, hkeep]
      rfl

theorem field_split {name : List Char} (h : '=' ∉ name) (s : List Char) :
    field (name ++ '=' :: s) = (decode name, decode s) := by
  have htake : (name ++ '=' :: s).takeWhile (· ≠ '=') = name := by
    rw [takeWhile_ne_append h, List.takeWhile_cons_of_neg (by decide), List.append_nil]
  have hdrop : (name ++ '=' :: s).dropWhile (· ≠ '=') = '=' :: s := by
    rw [dropWhile_ne_append h, List.dropWhile_cons_of_neg (by decide)]
  rw [field, htake, hdrop]
  rfl

theorem field_append {name : List Char} (hname : CleanName name) (s : List Char) :
    field (name ++ '=' :: s) = (name, decode s) := by
  have hequal : '=' ∉ name := fun hc => hname _ hc (by decide)
  have hdecode : decode name = name := decode_of_not_mem fun hc => hname _ hc (by decide)
  rw [field_split hequal, hdecode]

theorem visible_append (value : List Char) {rest : List Char}
    (hrest : rest = [] ∨ ∃ query, rest = '&' :: query) :
    visible (value ++ rest) = visible value := by
  have hstop : visible rest = [] := by
    rcases hrest with rfl | ⟨query, rfl⟩ <;> rfl
  induction value with
  | nil => exact hstop
  | cons c value ih =>
    unfold visible at ih ⊢
    rw [List.cons_append, List.takeWhile_cons, List.takeWhile_cons, ih]

section Name
variable {name value : List Char} (hname : CleanName name)
include hname

theorem not_mem_start {c : Char} (hc : c = '&' ∨ c = '#') : c ∉ name ++ ['='] := by
  intro hmem
  rcases List.mem_append.mp hmem with hmem | hmem
  · apply hname c hmem
    rcases hc with rfl | rfl <;> decide
  · obtain rfl := List.mem_singleton.mp hmem
    rcases hc with hc | hc <;> exact absurd hc (by decide)

theorem head_fields {rest : List Char} (hrest : rest = [] ∨ ∃ query, rest = '&' :: query) :
    (fields (cut (name ++ '=' :: (value ++ rest)))).head? = some (name, decode (visible value)) := by
  have hvisible : ((value ++ rest).takeWhile (· ≠ '#')).takeWhile (· ≠ '&') = visible value := by
    rw [List.takeWhile_takeWhile, ← visible_append value hrest, visible]
    simp only [decide_eq_true_eq]
  have hhead : (cut (name ++ '=' :: (value ++ rest))).takeWhile (· ≠ '&') =
      name ++ '=' :: visible value := by
    rw [List.append_cons, cut_append (not_mem_start hname (.inr rfl)),
      takeWhile_ne_append (not_mem_start hname (.inl rfl)), cut, hvisible, ← List.append_cons]
  rw [fields, List.head?_map, head_splitOn, hhead, Option.map_some, field_append hname]

theorem field_of_harmless (hvalue : Harmless value) : field (name ++ '=' :: value) = (name, value) := by
  rw [field_append hname, (decode_eq_self_iff value).mpr hvalue.unescaped]

theorem not_mem_part (hvalue : Harmless value) :
    '#' ∉ name ++ '=' :: value ∧ '&' ∉ name ++ '=' :: value := by
  rw [List.append_cons]
  exact ⟨List.not_mem_append (not_mem_start hname (.inr rfl)) hvalue.hash,
    List.not_mem_append (not_mem_start hname (.inl rfl)) hvalue.amp⟩

theorem fields_last (hvalue : Harmless value) :
    fields (cut (name ++ '=' :: value)) = [(name, value)] := by
  obtain ⟨hhash, hamp⟩ := not_mem_part hname hvalue
  rw [cut_of_not_mem hhash, fields, List.splitOn_eq_singleton hamp, List.map_singleton,
    field_of_harmless hname hvalue]

theorem fields_cons (hvalue : Harmless value) (query : List Char) :
    fields (cut (name ++ '=' :: value ++ '&' :: query)) = (name, value) :: fields (cut query) := by
  obtain ⟨hhash, hamp⟩ := not_mem_part hname hvalue
  rw [cut_separator hhash (by decide), fields, List.splitOn_append_cons_self_of_not_mem hamp,
    List.map_cons, field_of_harmless hname hvalue]
  rfl

end Name

theorem harmless_of_visible {value : List Char} (h : decode (visible value) = value) :
    Harmless value := by
  have hprefix : visible value <+: value := List.takeWhile_prefix _
  have hlong : value.length ≤ (visible value).length := by
    have hdecode := length_decode_le (visible value)
    rwa [h] at hdecode
  have hall : visible value = value := hprefix.eq_of_length_le hlong
  have hkept : ∀ c ∈ value, c ≠ '&' ∧ c ≠ '#' := fun c hc =>
    of_decide_eq_true (List.takeWhile_eq_self_iff.mp hall c hc)
  rw [hall] at h
  exact ⟨fun hc => (hkept _ hc).1 rfl, fun hc => (hkept _ hc).2 rfl, (decode_eq_self_iff value).mp h⟩

theorem print_cons (f : List Char × List Char) {fs : List (List Char × List Char)} (hne : fs ≠ []) :
    print (f :: fs) = f.1 ++ '=' :: f.2 ++ '&' :: print fs := by
  obtain ⟨g, gs, rfl⟩ := List.exists_cons_of_ne_nil hne
  rw [print, List.map_cons, List.map_cons, List.intercalate_cons_cons, print, List.map_cons]
  simp only [List.append_assoc, List.singleton_append]

theorem print_singleton (f : List Char × List Char) : print [f] = f.1 ++ '=' :: f.2 := by
  rw [print, List.map_singleton, List.intercalate_singleton]

theorem head_print {f : List Char × List Char} (hname : CleanName f.1)
    (fs : List (List Char × List Char)) :
    (fields (cut (print (f :: fs)))).head? = some (f.1, decode (visible f.2)) := by
  by_cases hlast : fs = []
  · subst hlast
    have hhead : (fields (cut (f.1 ++ '=' :: (f.2 ++ [])))).head? =
        some (f.1, decode (visible f.2)) := head_fields hname (.inl rfl)
    rwa [List.append_nil, ← print_singleton] at hhead
  · rw [print_cons f hlast, List.append_assoc, List.cons_append]
    exact head_fields hname (.inr ⟨print fs, rfl⟩)

theorem fields_print_iff {fs : List (List Char × List Char)} (hne : fs ≠ [])
    (hnames : ∀ f ∈ fs, CleanName f.1) :
    fields (cut (print fs)) = fs ↔ ∀ f ∈ fs, Harmless f.2 := by
  induction fs with
  | nil => exact absurd rfl hne
  | cons f fs ih =>
    obtain ⟨hname, hnames⟩ := List.forall_mem_cons.mp hnames
    -- the first parameter is as long as its value only if nothing in the value stops it
    have hfirst : fields (cut (print (f :: fs))) = f :: fs → Harmless f.2 := by
      intro h
      have hhead := head_print hname fs
      rw [h, List.head?_cons, Option.some_inj] at hhead
      exact harmless_of_visible (congrArg Prod.snd hhead).symm
    rw [List.forall_mem_cons]
    by_cases hlast : fs = []
    · subst hlast
      constructor
      · intro h
        exact ⟨hfirst h, fun _ hg => absurd hg List.not_mem_nil⟩
      · rintro ⟨hvalue, -⟩
        rw [print_singleton]
        exact fields_last hname hvalue
    · have hrest : Harmless f.2 → fields (cut (print (f :: fs))) = f :: fields (cut (print fs)) := by
        intro hvalue
        rw [print_cons f hlast]
        exact fields_cons hname hvalue (print fs)
      constructor
      · intro h
        have hvalue : Harmless f.2 := hfirst h
        rw [hrest hvalue] at h
        exact ⟨hvalue, (ih hlast hnames).mp (List.cons.inj h).2⟩
      · rintro ⟨hvalue, hvalues⟩
        rw [hrest hvalue, (ih hlast hnames).mpr hvalues]

theorem params_print_iff {base : List Char} (hmark : '?' ∉ base) (hhash : '#' ∉ base)
    {fs : List (List Char × List Char)} (hne : fs ≠ []) (hnames : ∀ f ∈ fs, CleanName f.1) :
    params (base ++ '?' :: print fs) = fs ↔ ∀ f ∈ fs, Harmless f.2 := by
  rw [params_append hmark hhash, fields_print_iff hne hnames]

theorem mem_field {c : Char} (hpercent : c ≠ '%') (hhex : hexDigit c = none) (hequal : c ≠ '=')
    {part : List Char} (h : c ∈ part) : c ∈ (field part).1 ∨ c ∈ (field part).2 := by
  by_cases hsplit : '=' ∈ part
  · obtain ⟨name, value, rfl, hname⟩ := List.eq_append_cons_of_mem hsplit
    rw [field_split hname]
    rcases List.mem_append.mp h with h | h
    · exact .inl (mem_decode hpercent hhex h)
    · rcases List.mem_cons.mp h with heq | h
      · exact absurd heq hequal
      · exact .inr (mem_decode hpercent hhex h)
  · have htake : part.takeWhile (· ≠ '=') = part :=
      List.takeWhile_eq_self_iff.mpr fun d hd => decide_eq_true (ne_of_mem_of_not_mem hd hsplit)
    left
    rw [field, htake]
    exact mem_decode hpercent hhex h

theorem mem_of_fields_eq {c : Char} (hpercent : c ≠ '%') (hhex : hexDigit c = none) (hequal : c ≠ '=')
    {part : List Char} {f : List Char × List Char} (h : fields part = [f]) (hmem : c ∈ part) :
    c ∈ f.1 ∨ c ∈ f.2 := by
  obtain ⟨whole, hsplit, rfl⟩ := List.map_eq_singleton_iff.mp h
  have hwhole : whole = part := by
    have hjoin : ['&'].intercalate (part.splitOn '&') = part := List.intercalate_splitOn '&'
    rwa [hsplit, List.intercalate_singleton] at hjoin
  rw [hwhole]
  exact mem_field hpercent hhex hequal hmem

theorem params_second_mark {a b : List Char} (ha : '?' ∉ a) (hhash : '#' ∉ a ++ '?' :: b)
    {f : List Char × List Char} (hf : CleanName f.1) (hfragment : '#' ∉ f.2)
    {fs : List (List Char × List Char)} (hne : fs ≠ []) :
    params (a ++ '?' :: b ++ '?' :: print (f :: fs)) =
      fields (b ++ '?' :: (f.1 ++ '=' :: f.2)) ++ fields (cut (print fs)) := by
  obtain ⟨hhash, hb⟩ := not_or.mp (List.mem_append.not.mp hhash)
  have hb : '#' ∉ b := List.not_mem_of_not_mem_cons hb
  have hclean : '#' ∉ b ++ '?' :: (f.1 ++ '=' :: f.2) := by
    have hname : '#' ∉ f.1 := fun hc => hf _ hc (by decide)
    simp [hb, hname, hfragment]
  have hquery : a ++ '?' :: b ++ '?' :: print (f :: fs) =
      a ++ '?' :: ((b ++ '?' :: (f.1 ++ '=' :: f.2)) ++ '&' :: print fs) := by
    rw [print_cons f hne]
    simp only [List.append_assoc, List.cons_append]
  rw [hquery, params_append ha hhash, cut_separator hclean (by decide), fields,
    List.splitOn_append_cons_self, List.map_append]
  rfl

theorem params_ne_of_mem {base : List Char} (hmark : '?' ∈ base) (hhash : '#' ∉ base)
    {f g : List Char × List Char} {rest : List (List Char × List Char)}
    (hnodup : ((f :: g :: rest).map Prod.fst).Nodup) (hf : CleanName f.1) (hg : CleanName g.1)
    (hfragment : '#' ∉ f.2) (hfirst : '?' ∉ f.1 ∧ '?' ∉ f.2) :
    params (base ++ '?' :: print (f :: g :: rest)) ≠ f :: g :: rest := by
  intro h
  obtain ⟨a, b, rfl, ha⟩ := List.eq_append_cons_of_mem hmark
  obtain ⟨tail, htail⟩ := List.head?_eq_some_iff.mp (head_print hg rest)
  rw [params_second_mark ha hhash hf hfragment (List.cons_ne_nil g rest), htail] at h
  cases hfields : fields (b ++ '?' :: (f.1 ++ '=' :: f.2)) with
  | nil => exact List.splitOn_ne_nil '&' _ (List.map_eq_nil_iff.mp hfields)
  | cons x xs =>
    rw [hfields, List.cons_append] at h
    obtain ⟨rfl, hbehind⟩ := List.cons.inj h
    cases xs with
    | nil =>
      have hmem : '?' ∈ b ++ '?' :: (x.1 ++ '=' :: x.2) :=
        List.mem_append_right b List.mem_cons_self
      rcases mem_of_fields_eq (by decide) (by decide) (by decide) hfields hmem with hmem | hmem
      · exact hfirst.1 hmem
      · exact hfirst.2 hmem
    | cons y ys =>
      -- the second name would come back behind the second parameter
      have hrest : ys ++ (g.1, decode (visible g.2)) :: tail = rest := (List.cons.inj hbehind).2
      rw [List.map_cons, List.map_cons] at hnodup
      apply (List.nodup_cons.mp (List.nodup_cons.mp hnodup).2).1
      rw [← hrest, List.map_append, List.map_cons]
      exact List.mem_append_right _ List.mem_cons_self

end Lib.UrlQuery
