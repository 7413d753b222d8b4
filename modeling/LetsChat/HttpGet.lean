import LetsChat.Lib.Lossy
import LetsChat.Lib.SqlQuotes
import LetsChat.UploadUrls

/-! `S3Client::HttpGet`: what it returns of a reply, and for which replies that does not depend
on the chunks in which `recv` delivers them. -/

namespace LetsChat
open Lib

/-- What the calls of the operating system come to. For a request that was sent, `recv` lists
what it puts into the buffer, call by call, before it returns an error. -/
structure Network where
  socket : Int
  gethostbyname : Text → Option (BitVec 32)
  connect : BitVec 32 → BitVec 16 → Int
  recv : BitVec 32 → BitVec 16 → Text → List Text

namespace S3Client

def request (host path : Text) : Text :=
  "GET ".toList ++ path ++ " HTTP/1.1\r\n".toList ++ ("Host: ".toList ++ host ++ "\r\n".toList)
    ++ "Connection: close\r\n\r\n".toList

def receive (response : Text) : List Text → Text
  | [] => response
  | bytes :: calls =>
    if bytes.length = 0 then response
    -- `response += buffer` reads the buffer as a C string, and `bytes` is no part of the call
    else receive (response ++ Sql.cStr (bytes ++ ['\x00'])) calls

def httpGet (net : Network) (host : Text) (port : Int) (path : Text) : Option Text :=
  if net.socket < 0 then some []
  else
    match net.gethostbyname (Sql.cStr host) with
    | none => some []
    | some s_addr =>
      let sin_port := BitVec.ofInt 16 port
      if net.connect s_addr sin_port < 0 then some []
      else
        let response := receive [] (net.recv s_addr sin_port (request host path))
        match find response "\r\n\r\n".toList 0 with
        | some header_end => substr_to_end response (header_end + 4)
        | none => some response

end S3Client

def blankLine : Text := "\r\n\r\n".toList

def replyBody (s : Text) : Text :=
  match search blankLine s with
  | some header_end => s.drop (header_end + 4)
  | none => s

/-- A way in which `recv` may cut a stream for a buffer of 4095 bytes. -/
def Chunking (s : Text) (chunks : List Text) : Prop :=
  chunks.flatten = s ∧ ∀ chunk ∈ chunks, 1 ≤ chunk.length ∧ chunk.length ≤ 4095

def Network.Answers (net : Network) (host : Text) (port : Int) (path s : Text) : Prop :=
  0 ≤ net.socket ∧ ∃ s_addr, net.gethostbyname (Sql.cStr host) = some s_addr ∧
    0 ≤ net.connect s_addr (.ofInt 16 port) ∧
    Chunking s (net.recv s_addr (.ofInt 16 port) (S3Client.request host path))

def SplitInvariant (s : Text) : Prop :=
  ∀ host port path (net₁ net₂ : Network),
    net₁.Answers host port path s → net₂.Answers host port path s →
      S3Client.httpGet net₁ host port path = S3Client.httpGet net₂ host port path ∧
        S3Client.httpGet net₁ host port path = some (replyBody s)

theorem cStr_buffer (bytes : Text) : Sql.cStr (bytes ++ ['\x00']) = upTo '\x00' bytes := by
  by_cases h : '\x00' ∈ bytes
  · exact Sql.cStr_append_of_mem h ['\x00']
  · have hall : upTo '\x00' bytes = bytes := Sql.cStr_of_notMem h
    rw [Sql.cStr_append h, hall]
    exact List.append_nil bytes

theorem receive_eq {chunks : List Text} (h : ∀ chunk ∈ chunks, 1 ≤ chunk.length)
    (response : Text) :
    S3Client.receive response chunks = response ++ chunks.flatMap (upTo '\x00') := by
  induction chunks generalizing response with
  | nil => exact (List.append_nil response).symm
  | cons chunk chunks ih =>
    obtain ⟨hchunk, hchunks⟩ := List.forall_mem_cons.mp h
    rw [S3Client.receive, if_neg (Nat.ne_of_gt hchunk), cStr_buffer, ih hchunks,
      List.flatMap_cons, List.append_assoc]

theorem httpGet_received {net : Network} {host path : Text} {port : Int} {s_addr : BitVec 32}
    (hsocket : 0 ≤ net.socket) (hhost : net.gethostbyname (Sql.cStr host) = some s_addr)
    (hconnect : 0 ≤ net.connect s_addr (.ofInt 16 port)) :
    S3Client.httpGet net host port path = some (replyBody
      (S3Client.receive [] (net.recv s_addr (.ofInt 16 port) (S3Client.request host path)))) := by
  rw [S3Client.httpGet, if_neg (not_lt.mpr hsocket), hhost]
  dsimp only
  rw [if_neg (not_lt.mpr hconnect)]
  generalize S3Client.receive [] _ = response
  rw [find_zero, replyBody]
  show (match search blankLine response with | some i => _ | none => _) = _
  cases hfind : search blankLine response with
  | none => rfl
  | some header_end =>
    have hlength : header_end + 4 ≤ response.length := (search_sound hfind).1
    exact if_pos hlength

theorem splitInvariant_iff_loses (s : Text) :
    SplitInvariant s ↔ ∀ r, Loses '\x00' 4095 s r → replyBody r = replyBody s := by
  constructor
  · intro h r hr
    obtain ⟨chunks, hflatten, hlength, rfl⟩ := hr.chunks (by decide)
    let net : Network := ⟨0, fun _ => some 0, fun _ _ => 0, fun _ _ _ => chunks⟩
    have hanswers : net.Answers [] 80 [] s :=
      ⟨le_refl 0, 0, rfl, le_refl 0, hflatten, hlength⟩
    have hbody := (h [] 80 [] net net hanswers hanswers).2
    have hget : S3Client.httpGet net [] 80 [] = _ :=
      httpGet_received (le_refl 0) rfl (le_refl 0)
    rw [receive_eq fun chunk hchunk => (hlength chunk hchunk).1] at hget
    exact Option.some.inj (hget.symm.trans hbody)
  · intro h host port path net₁ net₂ h₁ h₂
    have hget : ∀ net : Network, net.Answers host port path s →
        S3Client.httpGet net host port path = some (replyBody s) := by
      rintro net ⟨hsocket, s_addr, hhost, hconnect, hflatten, hlength⟩
      rw [httpGet_received hsocket hhost hconnect,
        receive_eq fun chunk hchunk => (hlength chunk hchunk).1, List.nil_append]
      have hloses := loses_of_chunks (z := '\x00') fun chunk hchunk => (hlength chunk hchunk).2
      rw [hflatten] at hloses
      exact congrArg some (h _ hloses)
    exact ⟨(hget net₁ h₁).trans (hget net₂ h₂).symm, hget net₁ h₁⟩

def EndsHeader (r : Text) : Prop :=
  ∃ header, r = header ++ blankLine ∧ search blankLine r = some header.length

/-- The header of `s` keeps its end, whatever runs of at most 4095 bytes are left out of it that
start at its NULs. -/
def HeaderSafe (s : Text) : Prop :=
  ∀ header_end, search blankLine s = some header_end →
    ∀ r, Loses '\x00' 4095 (s.take (header_end + 4)) r → EndsHeader r

theorem blankLine_eq : blankLine = ['\r', '\n', '\r', '\n'] := String.toList_ofList

theorem blankLine_length : blankLine.length = 4 := congrArg List.length blankLine_eq

theorem nul_notMem_blankLine : '\x00' ∉ blankLine := by
  rw [blankLine_eq]
  decide

theorem eq_append_of_search {s : Text} {i : Nat} (h : search blankLine s = some i) :
    s = s.take i ++ (blankLine ++ s.drop (i + 4)) := by
  obtain ⟨t, ht⟩ := (search_sound h).2.1
  have hdrop : s.drop (i + 4) = t := by
    rw [← List.drop_drop, ← ht, ← blankLine_length, List.drop_left]
  rw [hdrop, ht, List.take_append_drop]

theorem take_eq_of_search {s : Text} {i : Nat} (h : search blankLine s = some i) :
    s.take (i + 4) = s.take i ++ blankLine := by
  have hwhole : s.take i ++ blankLine ++ s.drop (i + 4) = s.take (i + 4) ++ s.drop (i + 4) := by
    rw [List.append_assoc, ← eq_append_of_search h, List.take_append_drop]
  exact (List.append_cancel_right hwhole).symm

theorem header_eq_snoc {s : Text} {i : Nat} (h : search blankLine s = some i) :
    s.take (i + 4) = s.take i ++ ['\r', '\n', '\r'] ++ ['\n'] := by
  rw [take_eq_of_search h, blankLine_eq, List.append_assoc]
  rfl

theorem replyBody_of_search {s : Text} {i : Nat} (h : search blankLine s = some i) :
    replyBody s = s.drop (i + 4) := by
  rw [replyBody, h]

theorem replyBody_of_none {s : Text} (h : search blankLine s = none) : replyBody s = s := by
  rw [replyBody, h]

theorem mem_of_mem_replyBody {s : Text} {c : Char} (h : c ∈ replyBody s) : c ∈ s := by
  rw [replyBody] at h
  split at h
  · exact List.mem_of_mem_drop h
  · exact h

theorem EndsHeader.replyBody_append {r : Text} (h : EndsHeader r) (body : Text) :
    replyBody (r ++ body) = body := by
  obtain ⟨header, rfl, hfirst⟩ := h
  have hsearch := search_take hfirst body
  rw [List.take_left, ← List.append_assoc] at hsearch
  have hlength : header.length + 4 = (header ++ blankLine).length := by
    rw [List.length_append, blankLine_length]
  rw [replyBody, hsearch]
  show (header ++ blankLine ++ body).drop (header.length + 4) = body
  rw [hlength, List.drop_left]

theorem endsHeader_append {header : Text} (h : '\r' ∉ header) : EndsHeader (header ++ blankLine) := by
  have hfirst := search_first h ['\n', '\r', '\n'] []
  rw [List.append_nil, ← blankLine_eq] at hfirst
  exact ⟨header, rfl, hfirst⟩

theorem endsHeader_take {s : Text} {i : Nat} (h : search blankLine s = some i) :
    EndsHeader (s.take (i + 4)) := by
  have hlength := (search_sound h).1
  have hfirst := search_take h []
  rw [List.append_nil, ← take_eq_of_search h] at hfirst
  refine ⟨s.take i, take_eq_of_search h, ?_⟩
  rw [hfirst, List.length_take, Nat.min_eq_left (Nat.le_of_add_right_le hlength)]

theorem endsHeader_of_replyBody {r body : Text} (h : replyBody (r ++ body) = body) :
    r = [] ∨ EndsHeader r := by
  cases hi : search blankLine (r ++ body) with
  | none =>
    rw [replyBody_of_none hi] at h
    exact .inl (List.append_left_eq_self.mp h)
  | some i =>
    rw [replyBody_of_search hi] at h
    have hwhole := List.take_append_drop (i + 4) (r ++ body)
    rw [h] at hwhole
    exact .inr (List.append_cancel_right hwhole ▸ endsHeader_take hi)

theorem not_endsHeader_snoc {r : Text} (h : EndsHeader r) : ¬EndsHeader (r ++ ['\n']) := by
  obtain ⟨header, rfl, -⟩ := h
  rintro ⟨header', heq, -⟩
  rw [blankLine_eq] at heq
  have htwo : header ++ ['\r', '\n', '\r'] ++ ['\n', '\n'] = header' ++ ['\r', '\n'] ++ ['\r', '\n'] := by
    simpa using heq
  exact absurd (List.append_inj' htwo rfl).2 (by decide)

theorem headerSafe_of_loses {s : Text}
    (h : ∀ r, Loses '\x00' 4095 s r → replyBody r = replyBody s) (hbody : '\x00' ∉ replyBody s) :
    HeaderSafe s := by
  intro i hi r hr
  rw [replyBody_of_search hi] at h hbody
  have hends : ∀ r, Loses '\x00' 4095 (s.take (i + 4)) r → r = [] ∨ EndsHeader r := by
    intro r hr
    have hwhole := hr.append (.of_notMem (k := 4095) hbody)
    rw [List.take_append_drop] at hwhole
    exact endsHeader_of_replyBody (h _ hwhole)
  apply (hends r hr).resolve_left
  rintro rfl
  -- if all of the header may be lost, all but its last character may be lost as well
  rw [header_eq_snoc hi] at hends hr
  have hall : Loses '\x00' 4095 (s.take i ++ ['\r', '\n', '\r']) [] := hr.nil_of_snoc (by decide)
  rcases hends ['\n'] (hall.snoc (by decide)) with hnil | ⟨header, heq, -⟩
  · cases hnil
  · have hlength := congrArg List.length heq
    rw [List.length_append, blankLine_length, List.length_singleton] at hlength
    omega

theorem loses_of_headerSafe {s r : Text} (hbody : '\x00' ∉ replyBody s) (hsafe : HeaderSafe s)
    (h : Loses '\x00' 4095 s r) : replyBody r = replyBody s := by
  cases hi : search blankLine s with
  | none =>
    rw [replyBody_of_none hi] at hbody
    rw [h.eq_of_notMem hbody]
  | some i =>
    rw [replyBody_of_search hi] at hbody ⊢
    have hlast := header_eq_snoc hi
    have hsplit : s = s.take i ++ ['\r', '\n', '\r'] ++ '\n' :: s.drop (i + 4) := by
      rw [List.append_cons, ← hlast, List.take_append_drop]
    have hends := hsafe i hi
    rw [hsplit] at h
    rw [hlast] at hends
    obtain ⟨n, r', rfl, hloses⟩ :=
      h.split (List.not_mem_cons_of_ne_of_not_mem (by decide) hbody)
    have hfront := hloses 0 (Nat.zero_le n)
    rw [List.take_zero, List.append_nil] at hfront
    have hkept := hends _ (hfront.snoc (by decide))
    cases n with
    | zero =>
      rw [List.drop_zero, List.append_cons]
      exact hkept.replyBody_append _
    | succ n =>
      -- a run over the end of the header could stop before its last character or behind it
      have hover := hends r' (hloses 1 (Nat.succ_le_succ (Nat.zero_le n)))
      exact absurd hkept (not_endsHeader_snoc hover)

theorem forall_loses_iff (s : Text) :
    (∀ r, Loses '\x00' 4095 s r → replyBody r = replyBody s) ↔
      '\x00' ∉ replyBody s ∧ HeaderSafe s := by
  constructor
  · intro h
    obtain ⟨r, hr⟩ := exists_loses '\x00' (k := 4095) (by decide) s
    have hbody : '\x00' ∉ replyBody s :=
      h r hr ▸ fun hmem => hr.notMem (mem_of_mem_replyBody hmem)
    exact ⟨hbody, headerSafe_of_loses h hbody⟩
  · rintro ⟨hbody, hsafe⟩ r hr
    exact loses_of_headerSafe hbody hsafe hr

/-- The result does not depend on the chunks for the streams without NUL in the body whose
header is safe, and for no others. -/
theorem httpGet_split_iff (s : Text) :
    SplitInvariant s ↔ '\x00' ∉ replyBody s ∧ HeaderSafe s :=
  (splitInvariant_iff_loses s).trans (forall_loses_iff s)

theorem nul_in_body_cut :
    ¬SplitInvariant ("HTTP/1.1 200 OK".toList ++ (blankLine ++ "a\x00b".toList)) := by
  rw [splitInvariant_iff_loses]
  intro h
  have hends : EndsHeader ("HTTP/1.1 200 OK".toList ++ blankLine) :=
    endsHeader_append (Sql.of_ofList (P := fun t => '\r' ∉ t) (by decide))
  have hheader : '\x00' ∉ "HTTP/1.1 200 OK".toList ++ blankLine := by
    rw [List.mem_append, not_or]
    exact ⟨Sql.of_ofList (P := fun t => '\x00' ∉ t) (by decide), nul_notMem_blankLine⟩
  have hbody : Loses '\x00' 4095 "a\x00b".toList ['a'] := by
    have hcut : Loses '\x00' 4095 ['a', '\x00', 'b'] ['a'] := .keep (by decide) (.run (by decide))
    exact hcut
  have hsame := h _ ((Loses.of_notMem hheader).append hbody)
  rw [← List.append_assoc, hends.replyBody_append, hends.replyBody_append] at hsame
  exact absurd (congrArg List.length hsame) (by decide)

theorem headerSafe_of_notMem {s : Text} (h : '\x00' ∉ s) : HeaderSafe s := by
  intro i hi r hr
  rw [hr.eq_of_notMem fun hmem => h (List.mem_of_mem_take hmem)]
  exact endsHeader_take hi

theorem notMem_of_headerSafe {s : Text} {i : Nat} (hsafe : HeaderSafe s)
    (hi : search blankLine s = some i) (hshort : i ≤ 4093) : '\x00' ∉ s.take i := by
  intro hmem
  obtain ⟨a, w, hheader, ha⟩ := List.eq_append_cons_of_mem hmem
  have hlength : w.length + 1 ≤ i := by
    have htake := congrArg List.length hheader
    rw [List.length_take, List.length_append, List.length_cons] at htake
    omega
  have hends := hsafe i hi
  rw [take_eq_of_search hi, blankLine_eq, hheader] at hends
  -- one run stops inside the header's end, another one a character later
  have hcut : ∀ lost kept : Text, lost ++ kept = ['\r', '\n', '\r', '\n'] → lost.length ≤ 2 →
      '\x00' ∉ kept → EndsHeader (a ++ kept) := by
    intro lost kept heq hlost hkept
    have hrun : (w ++ lost).length < 4095 := by
      rw [List.length_append]
      omega
    have hloses := (Loses.of_notMem ha).append ((Loses.run hrun).append (.of_notMem hkept))
    rw [List.nil_append, ← List.cons_append, List.append_assoc, heq, ← List.append_assoc] at hloses
    exact hends _ hloses
  obtain ⟨h₁, heq₁, -⟩ := hcut ['\r'] ['\n', '\r', '\n'] rfl (by decide) (by decide)
  obtain ⟨h₂, heq₂, -⟩ := hcut ['\r', '\n'] ['\r', '\n'] rfl (by decide) (by decide)
  rw [blankLine_eq] at heq₁ heq₂
  have hcr : a = h₁ ++ ['\r'] := List.append_cancel_right (heq₁.trans (List.append_cons ..))
  have hlf : a = h₂ ++ ['\r'] ++ ['\n'] :=
    List.append_cancel_right ((heq₂.trans (List.append_cons ..)).trans (List.append_cons ..))
  exact absurd (List.append_inj' (hcr.symm.trans hlf) rfl).2 (by decide)

/-- For replies with a header of at most 4093 bytes, or without any, NULs decide. -/
theorem splitInvariant_iff_notMem {s : Text}
    (hshort : ∀ i, search blankLine s = some i → i ≤ 4093) : SplitInvariant s ↔ '\x00' ∉ s := by
  rw [splitInvariant_iff_loses, forall_loses_iff]
  constructor
  · rintro ⟨hbody, hsafe⟩ hmem
    cases hi : search blankLine s with
    | none =>
      rw [replyBody_of_none hi] at hbody
      exact hbody hmem
    | some i =>
      rw [replyBody_of_search hi] at hbody
      rw [eq_append_of_search hi, List.mem_append, List.mem_append] at hmem
      rcases hmem with hheader | hend | hrest
      · exact notMem_of_headerSafe hsafe hi (hshort i hi) hheader
      · exact nul_notMem_blankLine hend
      · exact hbody hrest
  · intro h
    exact ⟨fun hmem => h (mem_of_mem_replyBody hmem), headerSafe_of_notMem h⟩

theorem httpGet_isSome (net : Network) (host : Text) (port : Int) (path : Text) :
    ∃ response, S3Client.httpGet net host port path = some response := by
  by_cases hsocket : net.socket < 0
  · exact ⟨[], if_pos hsocket⟩
  · cases hhost : net.gethostbyname (Sql.cStr host) with
    | none =>
      rw [S3Client.httpGet, if_neg hsocket, hhost]
      exact ⟨[], rfl⟩
    | some s_addr =>
      by_cases hconnect : net.connect s_addr (.ofInt 16 port) < 0
      · rw [S3Client.httpGet, if_neg hsocket, hhost]
        exact ⟨[], if_pos hconnect⟩
      · exact ⟨_, httpGet_received (not_lt.mp hsocket) hhost (not_lt.mp hconnect)⟩

def Network.over (net : Network) (e : Env) : Env :=
  { e with httpGet := fun host port path => (S3Client.httpGet net host port path).getD [] }

theorem assignedFid_over {s3 : S3Client} {net : Network} {s : Text} (hs : SplitInvariant s)
    (hanswers : net.Answers s3.master_.host s3.master_.port s3.assignPath s) (e : Env) :
    s3.assignedFid (net.over e) = S3Client.fidOf (replyBody s) := by
  have hget := (hs _ _ _ net net hanswers hanswers).2
  rw [S3Client.assignedFid, Network.over]
  dsimp only
  rw [hget, Option.getD_some]

end LetsChat
