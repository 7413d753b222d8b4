import LetsChat.Lib.FlatJson
import LetsChat.S3Client

/-! `ExtractJsonValue` on the replies of the master: two searches that find the member of
an object, and an index that is never behind the end. -/

namespace LetsChat
open Lib

theorem search_key (key : Text) (quote : Bool) :
    "\"".toList ++ key ++ (if quote then "\":\"".toList else "\":".toList) =
      FlatJson.pattern key quote := by
  cases quote <;> exact List.append_assoc _ _ _

theorem extractJsonValue_eq (json key : Text) :
    extractJsonValue json key =
      match search (FlatJson.pattern key true) json with
      | none =>
        match search (FlatJson.pattern key false) json with
        | none => some []
        | some start =>
          let start := start + (FlatJson.pattern key false).length
          substr json start (distance (find_first_of json ",\x7d".toList start) start)
      | some start =>
        let start := start + (FlatJson.pattern key true).length
        substr json start (distance (find json "\"".toList start) start) := by
  have hquoted := search_key key true
  have hplain := search_key key false
  rw [if_pos rfl] at hquoted
  rw [if_neg Bool.false_ne_true] at hplain
  rw [← find_zero, ← find_zero, ← hquoted, ← hplain]
  rfl

theorem extractJsonValue_isSome (json key : Text) : ∃ v, extractJsonValue json key = some v := by
  rw [extractJsonValue_eq]
  cases hquoted : search (FlatJson.pattern key true) json with
  | some start => exact substr_isSome (search_sound hquoted).1 _
  | none =>
    cases hplain : search (FlatJson.pattern key false) json with
    | some start => exact substr_isSome (search_sound hplain).1 _
    | none => exact ⟨[], rfl⟩

section Extract
variable {key pre : Text}

theorem extract_string {str t : Text} (hstr : '"' ∉ str)
    (hfinds : FlatJson.Finds (FlatJson.pattern key true) pre
      (FlatJson.pattern key true ++ (str ++ '"' :: t))) :
    extractJsonValue (pre ++ (FlatJson.pattern key true ++ (str ++ '"' :: t))) key = some str := by
  have hstop : find ((pre ++ FlatJson.pattern key true) ++ (str ++ '"' :: t)) "\"".toList
      (pre ++ FlatJson.pattern key true).length =
        some ((pre ++ FlatJson.pattern key true).length + str.length) := by
    have hclose : search "\"".toList (str ++ '"' :: t) = some str.length := by
      apply (search_append hstr).trans
      rw [search_head (List.cons_prefix_cons.mpr ⟨rfl, List.nil_prefix⟩), Option.map_some,
        Nat.zero_add]
    rw [find_append, hclose, Option.map_some, Nat.add_comm]
  rw [extractJsonValue_eq, hfinds]
  dsimp only
  rw [← List.length_append, ← List.append_assoc, hstop, distance_some, substr_append]

theorem extract_token {tok t : Text} {c : Char} (htok : ∀ d ∈ tok, d ∉ ",\x7d".toList)
    (hc : c ∈ ",\x7d".toList)
    (hnone : search (FlatJson.pattern key true)
      (pre ++ (FlatJson.pattern key false ++ (tok ++ c :: t))) = none)
    (hfinds : FlatJson.Finds (FlatJson.pattern key false) pre
      (FlatJson.pattern key false ++ (tok ++ c :: t))) :
    extractJsonValue (pre ++ (FlatJson.pattern key false ++ (tok ++ c :: t))) key = some tok := by
  rw [extractJsonValue_eq, hnone, hfinds]
  dsimp only
  rw [← List.length_append, ← List.append_assoc, find_first_of_append htok hc, distance_some,
    substr_append]

end Extract

open FlatJson in
theorem member_string_print {m : Member} {key : Text} {str : Plain} (hname : m.name.text = key)
    (hvalue : m.value = .string str) (r : Text) :
    m.print ++ r = pattern key true ++ (str.text ++ '"' :: r) := by
  subst hname
  simp [Member.print, Value.print, pattern, hvalue]

open FlatJson in
theorem member_token_print {m : Member} {key : Text} {t : Token} (hname : m.name.text = key)
    (hvalue : m.value = .token t) (r : Text) :
    m.print ++ r = pattern key false ++ (t.print ++ r) := by
  subst hname
  simp [Member.print, Value.print, pattern, hvalue]

open FlatJson in
theorem printRest_head (ms : List Member) :
    ∃ c r, printRest ms = c :: r ∧ c ∈ ",\x7d".toList := by
  cases ms with
  | nil => exact ⟨_, _, rfl, by decide⟩
  | cons m ms => exact ⟨_, _, rfl, by decide⟩

open FlatJson in
theorem not_mem_stop {c : Char} (h : ¬Structural c) : c ∉ ",\x7d".toList := by
  intro hc
  rcases List.mem_cons.mp hc with rfl | hc
  · exact h (by decide)
  · obtain rfl := List.mem_singleton.mp hc
    exact h (by decide)

section Members
open FlatJson
variable {key : Text} (hne : key ≠ []) (hkey : Clear key)
include hne hkey

theorem extract_missing {ms : List Member} (hmiss : ∀ m ∈ ms, m.name.text ≠ key) :
    extractJsonValue (print ms) key = some [] := by
  have hhit : ∀ quote, ∀ m ∈ ms, ¬Hit key quote m := fun quote m hm hit => hmiss m hm hit.1
  rw [extractJsonValue_eq, search_none hne hkey (hhit true), search_none hne hkey (hhit false)]

variable {before after : List Member} {m : Member} (hname : m.name.text = key)
  (hbefore : ∀ a ∈ before, a.name.text ≠ key)
include hname hbefore

theorem extract_member_string {str : Plain} (hvalue : m.value = .string str) :
    extractJsonValue (print (before ++ m :: after)) key = some str.text := by
  have hmiss : ∀ a ∈ before, ¬Hit key true a := fun a ha hit => hbefore a ha hit.1
  obtain ⟨pre, hsplit, hfinds⟩ := finds_member hne hkey hmiss ⟨hname, fun _ => ⟨str, hvalue⟩⟩ after
  rw [member_string_print hname hvalue] at hsplit hfinds
  rw [hsplit, extract_string str.noQuote hfinds]

theorem extract_member_token (hafter : ∀ a ∈ after, a.name.text ≠ key) {t : Token}
    (hvalue : m.value = .token t) :
    extractJsonValue (print (before ++ m :: after)) key = some t.print := by
  have hmiss : ∀ a ∈ before, ¬Hit key false a := fun a ha hit => hbefore a ha hit.1
  -- no member has the key in front of a string, so the first search fails
  have hnone : ∀ a ∈ before ++ m :: after, ¬Hit key true a := by
    intro a ha hit
    rcases List.mem_append.mp ha with ha | ha
    · exact hbefore a ha hit.1
    rcases List.mem_cons.mp ha with rfl | ha
    · obtain ⟨str, hstr⟩ := hit.2 rfl
      rw [hvalue] at hstr
      cases hstr
    · exact hafter a ha hit.1
  obtain ⟨pre, hsplit, hfinds⟩ := finds_member hne hkey hmiss ⟨hname, nofun⟩ after
  have hsearch := search_none hne hkey hnone
  obtain ⟨c, r, hrest, hc⟩ := printRest_head after
  rw [member_token_print hname hvalue, hrest] at hsplit hfinds
  rw [hsplit] at hsearch
  rw [hsplit, extract_token (fun d hd => not_mem_stop (t.clear d hd)) hc hsearch hfinds]

end Members

theorem ne_name_of_nodup {before after : List FlatJson.Member} {m : FlatJson.Member}
    (h : ((before ++ m :: after).map fun m => m.name.text).Nodup) :
    ∀ a ∈ after, a.name.text ≠ m.name.text := by
  rw [List.map_append, List.map_cons] at h
  intro a ha heq
  have hmem := List.mem_map_of_mem (f := fun m : FlatJson.Member => m.name.text) ha
  rw [heq] at hmem
  exact (List.nodup_cons.mp (List.nodup_append.mp h).2.1).1 hmem

open FlatJson in
theorem extract_member (ms : List Member) (key : Text)
    (hdistinct : (ms.map fun m => m.name.text).Nodup) (hne : key ≠ []) (hkey : Clear key) :
    extractJsonValue (print ms) key = some ((lookup ms key).elim [] Value.contents) := by
  rw [lookup]
  cases hfind : ms.find? fun m => m.name.text = key with
  | none =>
    have hmiss : ∀ m ∈ ms, m.name.text ≠ key := fun m hm heq =>
      List.find?_eq_none.mp hfind m hm (decide_eq_true heq)
    exact extract_missing hne hkey hmiss
  | some m =>
    obtain ⟨hname, before, after, rfl, hbefore⟩ := List.find?_eq_some_iff_append.mp hfind
    have hname : m.name.text = key := of_decide_eq_true hname
    have hbefore : ∀ a ∈ before, a.name.text ≠ key := fun a ha =>
      of_decide_eq_false (Bool.not_eq_true' _ |>.mp (hbefore a ha))
    have hafter : ∀ a ∈ after, a.name.text ≠ key := hname ▸ ne_name_of_nodup hdistinct
    rw [Option.map_some]
    cases hvalue : m.value with
    | string str => exact extract_member_string hne hkey hname hbefore hvalue
    | token t => exact extract_member_token hne hkey hname hbefore hafter hvalue

open FlatJson in
/-- It throws on no input, and finds the member of a printed object wherever the key's text
may also stand. -/
theorem extractJsonValue_correct :
    (∀ json key, ∃ v, extractJsonValue json key = some v) ∧
      ∀ (ms : List Member) (key : Text), (ms.map fun m => m.name.text).Nodup → key ≠ [] →
        Clear key → extractJsonValue (print ms) key = some ((lookup ms key).elim [] Value.contents) :=
  ⟨extractJsonValue_isSome, extract_member⟩

open FlatJson in
/-- The key is also a value, and the file id has a comma in it. -/
def assignReply : List Member :=
  [⟨⟨"kind".toList, by decide, by decide⟩, .string ⟨"fid".toList, by decide, by decide⟩⟩,
    ⟨⟨"count".toList, by decide, by decide⟩, .token (.number ⟨false, 1, none, none⟩)⟩,
    ⟨⟨"fid".toList, by decide, by decide⟩, .string ⟨"3,01637037d6".toList, by decide, by decide⟩⟩]

theorem extractJsonValue_correct_assignReply :
    (assignReply.map fun m => m.name.text).Nodup ∧ ("fid".toList : Text) ≠ [] ∧
      FlatJson.Clear "fid".toList ∧
      extractJsonValue (FlatJson.print assignReply) "fid".toList = some "3,01637037d6".toList :=
  ⟨by decide +kernel, by decide, FlatJson.clear_of_isAlphanum (by decide),
    extractJsonValue_correct.2 assignReply "fid".toList (by decide +kernel) (by decide)
      (FlatJson.clear_of_isAlphanum (by decide))⟩

end LetsChat
