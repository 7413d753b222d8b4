import LetsChat.S3Client

/-! `ParseEndpoint` and the URL that `BuildPublicBaseUrl` prints undo each other. -/

namespace LetsChat
open Lib

namespace ParsedEndpoint

def print (p : ParsedEndpoint) : Text :=
  p.scheme ++ "://".toList ++ p.host ++ ":".toList ++ to_string p.port

/-- What every parsed endpoint meets, and what a printed one needs to be read back. -/
structure Readable (p : ParsedEndpoint) : Prop where
  scheme : ∀ r, search "://".toList (p.scheme ++ ("://".toList ++ r)) = some p.scheme.length
  host : '/' ∉ p.host
  port : IsInt p.port

theorem stoi_to_string {n : Int} (h : IsInt n) : stoi (to_string n) = some n := by
  have hread : Decimal.read (to_string n) = some n := Decimal.read_print n
  rw [stoi, hread, Option.filter_some, if_pos (decide_eq_true h)]

theorem isInt_of_stoi {s : Text} {n : Int} (h : stoi s = some n) : IsInt n := by
  have hrange := (Option.filter_eq_some_iff.mp h).2
  exact of_decide_eq_true hrange

theorem substr_take {s v : Text} {n : Nat} (h : substr s 0 n = some v) : v = s.take n := by
  rw [substr, if_pos (Nat.zero_le _)] at h
  exact (Option.some.inj h).symm

theorem splitScheme_first {endpoint default_scheme scheme remain : Text} (hdefault : ':' ∉ default_scheme)
    (h : splitScheme endpoint default_scheme = some (scheme, remain)) (r : Text) :
    search "://".toList (scheme ++ ("://".toList ++ r)) = some scheme.length := by
  unfold splitScheme at h
  rw [find_zero] at h
  cases hsearch : search "://".toList endpoint with
  | none =>
    rw [hsearch] at h
    cases h
    exact search_first hdefault ['/', '/'] r
  | some i =>
    rw [hsearch] at h
    obtain ⟨v, hv, h⟩ := Option.bind_eq_some_iff.mp h
    obtain ⟨w, -, h⟩ := Option.bind_eq_some_iff.mp h
    cases h
    obtain rfl := substr_take hv
    have hlength : (endpoint.take i).length = i :=
      List.length_take_of_le (Nat.le_trans (Nat.le_add_right _ _) (search_sound hsearch).1)
    rw [search_take hsearch, hlength]

theorem not_mem_cutPath {s remain : Text} (h : cutPath s = some remain) : '/' ∉ remain := by
  unfold cutPath at h
  rw [find_zero] at h
  cases hsearch : search "/".toList s with
  | none =>
    rw [hsearch] at h
    obtain rfl := Option.some.inj h
    exact not_mem_of_search_none hsearch
  | some i =>
    rw [hsearch] at h
    obtain rfl := substr_take h
    exact not_mem_take_of_search hsearch

theorem parseEndpoint_readable {endpoint default_scheme : Text} {default_port : Int}
    {p : ParsedEndpoint} (hscheme : ':' ∉ default_scheme) (hport : IsInt default_port)
    (h : parseEndpoint endpoint default_scheme default_port = some p) : p.Readable := by
  unfold parseEndpoint at h
  obtain ⟨⟨scheme, rest⟩, hsplit, h⟩ := Option.bind_eq_some_iff.mp h
  obtain ⟨remain, hcut, h⟩ := Option.bind_eq_some_iff.mp h
  have hfirst := splitScheme_first hscheme hsplit
  have hslash : '/' ∉ remain := not_mem_cutPath hcut
  cases hcolon : rfind remain ":".toList with
  | none =>
    rw [hcolon] at h
    cases h
    exact ⟨hfirst, hslash, hport⟩
  | some i =>
    rw [hcolon] at h
    obtain ⟨host, hhost, h⟩ := Option.bind_eq_some_iff.mp h
    obtain ⟨digits, -, h⟩ := Option.bind_eq_some_iff.mp h
    obtain ⟨port, hstoi, h⟩ := Option.bind_eq_some_iff.mp h
    cases h
    obtain rfl := substr_take hhost
    exact ⟨hfirst, fun hmem => hslash (List.mem_of_mem_take hmem), isInt_of_stoi hstoi⟩

theorem splitScheme_print {scheme : Text} (r default_scheme : Text)
    (h : search "://".toList (scheme ++ ("://".toList ++ r)) = some scheme.length) :
    splitScheme (scheme ++ ("://".toList ++ r)) default_scheme = some (scheme, r) := by
  have hscheme : substr (scheme ++ ("://".toList ++ r)) 0 scheme.length = some scheme :=
    substr_append [] scheme _
  have hremain : substr_to_end (scheme ++ ("://".toList ++ r)) (scheme.length + 3) = some r := by
    rw [← List.append_assoc]
    have hend := substr_to_end_append (scheme ++ "://".toList) r
    rwa [List.length_append] at hend
  unfold splitScheme
  rw [find_zero, h]
  dsimp only
  rw [hscheme, hremain]
  rfl

theorem cutPath_append {remain suffix : Text} (h : '/' ∉ remain)
    (hsuffix : suffix = [] ∨ ∃ path, suffix = '/' :: path) : cutPath (remain ++ suffix) = some remain := by
  unfold cutPath
  rw [find_zero]
  rcases hsuffix with rfl | ⟨path, rfl⟩
  · have hnone : search "/".toList remain = none := search_none_of_not_mem h
    rw [List.append_nil, hnone]
  · have hslash : search "/".toList (remain ++ '/' :: path) = some remain.length :=
      search_first h [] path
    rw [hslash]
    exact substr_append [] remain _

def authority (p : ParsedEndpoint) : Text := p.host ++ ':' :: to_string p.port

theorem print_append (p : ParsedEndpoint) (suffix : Text) :
    p.print ++ suffix = p.scheme ++ ("://".toList ++ (p.authority ++ suffix)) := by
  unfold print authority
  simp only [List.append_assoc]
  rfl

theorem Readable.slash_not_mem {p : ParsedEndpoint} (hp : p.Readable) : '/' ∉ p.authority := by
  apply List.not_mem_append hp.host
  intro hmem
  rcases List.mem_cons.mp hmem with heq | hmem
  · exact absurd heq (by decide)
  · exact Decimal.not_mem_print (by decide) (by decide) hmem

theorem Readable.parse_print {p : ParsedEndpoint} (hp : p.Readable) {suffix : Text}
    (hsuffix : suffix = [] ∨ ∃ path, suffix = '/' :: path) (default_scheme : Text)
    (default_port : Int) :
    parseEndpoint (p.print ++ suffix) default_scheme default_port = some p := by
  have hsplit : splitScheme (p.print ++ suffix) default_scheme =
      some (p.scheme, p.authority ++ suffix) := by
    rw [print_append]
    exact splitScheme_print _ _ (hp.scheme _)
  have hcut : cutPath (p.authority ++ suffix) = some p.authority :=
    cutPath_append hp.slash_not_mem hsuffix
  have hcolon : rfind p.authority ":".toList = some p.host.length :=
    rfind_append p.host (Decimal.not_mem_print (by decide) (by decide))
  have hhost : substr p.authority 0 p.host.length = some p.host := substr_append [] p.host _
  have hdigits : substr_to_end p.authority (p.host.length + 1) = some (to_string p.port) := by
    have hend := substr_to_end_append (p.host ++ [':']) (to_string p.port)
    rwa [List.length_append, List.append_assoc] at hend
  have hport : stoi (to_string p.port) = some p.port := stoi_to_string hp.port
  unfold parseEndpoint
  rw [hsplit, Option.bind_eq_bind, Option.bind_some]
  dsimp only
  rw [hcut, Option.bind_eq_bind, Option.bind_some, hcolon]
  dsimp only
  rw [hhost, hdigits, Option.bind_eq_bind, Option.bind_some, Option.bind_some, hport]
  rfl

end ParsedEndpoint

theorem S3Client.buildPublicBaseUrl_eq (s3 : S3Client) :
    s3.buildPublicBaseUrl = s3.public_.print := rfl

open ParsedEndpoint in
theorem S3Client.new_readable {master_endpoint public_endpoint bucket access_key secret_key : Text}
    {s3 : S3Client}
    (h : S3Client.new master_endpoint public_endpoint bucket access_key secret_key = some s3) :
    s3.master_.Readable ∧ s3.public_.Readable := by
  obtain ⟨master_, hmaster, h⟩ := Option.bind_eq_some_iff.mp h
  obtain ⟨public_, hpublic, h⟩ := Option.bind_eq_some_iff.mp h
  cases h
  exact ⟨parseEndpoint_readable (by decide) (by decide) hmaster,
    parseEndpoint_readable (by decide) (by decide) hpublic⟩

open ParsedEndpoint in
/-- A suffix may itself have the separators in it. -/
theorem parse_print_inverse :
    (∀ (endpoint default_scheme : Text) (default_port : Int) (p : ParsedEndpoint),
      ':' ∉ default_scheme → '/' ∉ default_scheme → IsInt default_port →
      parseEndpoint endpoint default_scheme default_port = some p →
      ∀ (s3 : S3Client), s3.public_ = p → ∀ default_scheme' default_port',
        parseEndpoint s3.buildPublicBaseUrl default_scheme' default_port' = some p) ∧
    ∀ (scheme host : Text) (port : Int) (suffix : Text),
      scheme ≠ [] → ':' ∉ scheme → '/' ∉ scheme → ':' ∉ host → '/' ∉ host → IsInt port →
      (suffix = [] ∨ ∃ path, suffix = '/' :: path) → ∀ default_scheme default_port,
        parseEndpoint (scheme ++ "://".toList ++ host ++ ":".toList ++ to_string port ++ suffix)
          default_scheme default_port = some ⟨scheme, host, port⟩ := by
  constructor
  · intro endpoint default_scheme default_port p hcolon _ hport hparse s3 hpublic ds dp
    subst hpublic
    have hread : s3.public_.Readable := parseEndpoint_readable hcolon hport hparse
    have hback : parseEndpoint (s3.public_.print ++ []) ds dp = some s3.public_ :=
      hread.parse_print (.inl rfl) ds dp
    rwa [List.append_nil, ← s3.buildPublicBaseUrl_eq] at hback
  · intro scheme host port suffix _ hscheme _ _ hhost hport hsuffix ds dp
    have hread : Readable ⟨scheme, host, port⟩ :=
      ⟨search_first hscheme ['/', '/'], hhost, hport⟩
    exact hread.parse_print hsuffix ds dp

theorem parse_print_inverse_volume :
    parseEndpoint "127.0.0.1:8080/dir".toList "http".toList 9333 =
      some ⟨"http".toList, "127.0.0.1".toList, 8080⟩ ∧
    parseEndpoint "http://127.0.0.1:8080".toList [] 0 =
      some ⟨"http".toList, "127.0.0.1".toList, 8080⟩ ∧
    parseEndpoint "http://127.0.0.1:8080/a:1://b".toList [] 0 =
      some ⟨"http".toList, "127.0.0.1".toList, 8080⟩ := by
  have hparse : parseEndpoint "127.0.0.1:8080/dir".toList "http".toList 9333 =
      some ⟨"http".toList, "127.0.0.1".toList, 8080⟩ := by decide +kernel
  refine ⟨hparse, ?_, ?_⟩
  · exact parse_print_inverse.1 _ _ _ _ (by decide) (by decide) (by decide) hparse
      ⟨⟨[], [], 0⟩, ⟨"http".toList, "127.0.0.1".toList, 8080⟩, [], [], []⟩ rfl [] 0
  · exact parse_print_inverse.2 "http".toList "127.0.0.1".toList 8080 "/a:1://b".toList (by decide)
      (by decide) (by decide) (by decide) (by decide) (by decide) (.inr ⟨_, rfl⟩) [] 0

end LetsChat
