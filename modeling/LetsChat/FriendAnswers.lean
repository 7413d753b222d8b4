import LetsChat.LogicService

/-! Any number of answers to friend requests at once, one statement at a time. -/

namespace LetsChat
open Lib Prog Machine LogicServiceImpl PooledDbClient

structure SteadyEnv where
  env : Env
  stmt : ∀ site, env.stmt site = .done

abbrev Answering := Conf Op.Ret RespondFriendReq SteadyEnv World RespondFriendRes

def answering : Machine Answering (Sched RespondFriendReq SteadyEnv) (Option (Event Op.Ret)) :=
  interleaving respondFriendRequest fun e => e.env.exec

def statusOf (w : World) (req_id : Int) : Option Int :=
  (w.tables.t_friend_request.find req_id).map (·.status)

def SawPending (req_id : Int) (past : List (Event Op.Ret)) : Prop :=
  ∃ site, ∃ res : PGresult, ⟨Op.pqExec site (.selectPendingRequest req_id), res⟩ ∈ past ∧
    res.ntuples ≠ 0

def Marked (req_id : Int) (past : List (Event Op.Ret)) : Prop :=
  ∃ site, ∃ res : PGresult, ⟨Op.pqExec site (.acceptRequest req_id), res⟩ ∈ past

def Inserted (past : List (Event Op.Ret)) : Prop :=
  ∃ site uid friend_uid now, ∃ res : PGresult,
    ⟨Op.pqExec site (.insertFriend uid friend_uid now), res⟩ ∈ past ∧ 0 < res.cmdTuples

def Asks (req : RespondFriendReq) (past : List (Event Op.Ret)) : Op → Prop
  | .acquire _ => True
  | .time _ => True
  | .pqExec _ (.selectPendingRequest r) => req.accept = true ∧ r = req.req_id
  | .pqExec _ (.insertFriend _ _ _) => req.accept = true ∧ SawPending req.req_id past
  | .pqExec _ (.acceptRequest r) => r = req.req_id ∧ SawPending r past
  | .pqExec _ (.rejectRequest r) => req.accept = false ∧ r = req.req_id
  | _ => False

theorem SawPending.append {req_id : Int} {past : List (Event Op.Ret)} (h : SawPending req_id past)
    (more : List (Event Op.Ret)) : SawPending req_id (past ++ more) := by
  obtain ⟨site, res, hmem, hne⟩ := h
  exact ⟨site, res, List.mem_append_left _ hmem, hne⟩

theorem disciplined_accept (req : RespondFriendReq) (haccept : req.accept = true) :
    (PooledDbClient.acceptFriendRequest req.req_id).Disciplined (Asks req) [] := by
  simp [PooledDbClient.acceptFriendRequest, Asks, haccept]
  intro res _ hres from_uid _ to_uid _ now
  have hsaw : ∀ more, SawPending req.req_id (⟨Op.acquire .acceptFriendRequest, true⟩ ::
      ⟨Op.pqExec .acceptFriendRequest (.selectPendingRequest req.req_id), res⟩ :: more) :=
    fun more => ⟨_, res, List.mem_cons_of_mem _ List.mem_cons_self, hres⟩
  exact ⟨hsaw _, fun r1 => ⟨hsaw _, fun r2 _ _ => hsaw _⟩⟩

theorem disciplined_execute (req : RespondFriendReq) (haccept : req.accept = false) :
    (PooledDbClient.execute (.rejectRequest req.req_id)).Disciplined (Asks req) [] := by
  simp [PooledDbClient.execute, Asks, haccept]

theorem disciplined_respond (req : RespondFriendReq) :
    (respondFriendRequest req).Disciplined (Asks req) [] := by
  unfold respondFriendRequest
  split
  · next haccept =>
    exact disciplined_bind (disciplined_accept req haccept) fun accepted past =>
      disciplined_ite.mpr ⟨fun _ => trivial, fun _ => trivial⟩
  · next haccept =>
    exact disciplined_bind (disciplined_execute req (Bool.eq_false_iff.mpr haccept))
      fun _ _ => trivial

theorem exec_pqExec (e : SteadyEnv) (site : Site) {q : Query} (hq : q.strings = []) (w : World) :
    e.env.exec (.pqExec site q) w =
      ((q.exec w.tables).1, { w with tables := (q.exec w.tables).2 }) := by
  rw [Env.exec, e.env.pqExec_done (e.stmt site), e.env.serve_plain hq]

theorem statusOf_updateStatus (w : World) (req_id status r : Int) :
    statusOf { w with tables := (Query.updateStatus req_id status w.tables).2 } r =
      if r = req_id then (statusOf w r).map fun _ => status else statusOf w r := by
  have hupdate := SerialTable.find_update w.tables.t_friend_request (fun row => row.id = req_id)
    (Query.setStatus status) (fun _ => rfl) r
  simp only [statusOf, Query.updateStatus]
  rw [hupdate]
  cases hfind : w.tables.t_friend_request.find r with
  | none => simp
  | some row =>
    have hid : row.id = r := ((SerialTable.find_eq_some_iff _).mp hfind).2
    by_cases hr : r = req_id
    · simp [hid, hr, Query.setStatus]
    · simp [hid, hr]

theorem status_of_pending {w : World} {req_id : Int}
    (h : (Query.exec (.selectPendingRequest req_id) w.tables).1.ntuples ≠ 0) :
    statusOf w req_id = some 0 := by
  simp only [Query.exec, PGresult.ntuples_tuples, List.length_map] at h
  obtain ⟨row, hrow⟩ := List.exists_mem_of_length_pos (Nat.pos_of_ne_zero h)
  obtain ⟨hmem, hid, hstatus⟩ : row ∈ w.tables.t_friend_request.rows ∧ row.id = req_id ∧
      row.status = 0 := by simpa using hrow
  rw [statusOf, (SerialTable.find_eq_some_iff _).mpr ⟨hmem, hid⟩, Option.map_some, hstatus]

theorem asks_cases (e : SteadyEnv) (w : World) {req : RespondFriendReq}
    {past : List (Event Op.Ret)} {o : Op} (h : Asks req past o) :
    (∃ site, o = .pqExec site (.acceptRequest req.req_id) ∧ SawPending req.req_id past) ∨
    (∃ site, o = .pqExec site (.rejectRequest req.req_id)) ∨
    ((∀ r, statusOf (e.env.exec o w).2 r = statusOf w r) ∧
      ∀ site r, o ≠ .pqExec site (.acceptRequest r)) := by
  cases o with
  | pqExec site q =>
    cases q with
    | acceptRequest r =>
      obtain ⟨rfl, hsaw⟩ := h
      exact .inl ⟨site, rfl, hsaw⟩
    | rejectRequest r =>
      obtain ⟨-, rfl⟩ := h
      exact .inr (.inl ⟨site, rfl⟩)
    | selectPendingRequest r =>
      refine .inr (.inr ⟨fun r => ?_, fun site r heq => by cases heq⟩)
      rw [exec_pqExec e site rfl]
      rfl
    | insertFriend a b now =>
      refine .inr (.inr ⟨fun r => ?_, fun site r heq => by cases heq⟩)
      rw [exec_pqExec e site rfl, Query.exec]
      split <;> rfl
    | _ => exact h.elim
  | acquire site => exact .inr (.inr ⟨fun _ => rfl, fun _ _ heq => by cases heq⟩)
  | time site => exact .inr (.inr ⟨fun _ => rfl, fun _ _ heq => by cases heq⟩)
  | _ => exact h.elim

def InFlight (req_id : Int) (past : List (Event Op.Ret)) : Prop :=
  SawPending req_id past ∧ ¬Marked req_id past

/-- The update of a rejection runs when the request is not accepted and no acceptance of it
is in flight. -/
def RejectsAlone : History (Sched RespondFriendReq SteadyEnv) (Option (Event Op.Ret)) → Answering →
    Sched RespondFriendReq SteadyEnv → Option (Event Op.Ret) → Answering → Prop :=
  fun _ c i _ _ => ∀ k req e past site r next, i = .pick k →
    c.threads[k]? = some ⟨req, e, past, .op (.pqExec site (.rejectRequest r)) next⟩ →
      statusOf c.shared r ≠ some 1 ∧ ∀ t ∈ c.threads, ¬InFlight r t.past

def AnswerKept : History (Sched RespondFriendReq SteadyEnv) (Option (Event Op.Ret)) → Answering →
    Sched RespondFriendReq SteadyEnv → Option (Event Op.Ret) → Answering → Prop :=
  fun _ c _ _ c' => ∀ r s, s = 1 ∨ s = 2 → statusOf c.shared r = some s →
    statusOf c'.shared r = some s

def RejectedUnfriended (_ : History (Sched RespondFriendReq SteadyEnv) (Option (Event Op.Ret)))
    (c : Answering) : Prop :=
  ∀ r, statusOf c.shared r = some 2 → ∀ t ∈ c.threads, t.call = ⟨r, true⟩ → ¬Inserted t.past

theorem rejectsAlone_call (h : History (Sched RespondFriendReq SteadyEnv) (Option (Event Op.Ret)))
    (c c' : Answering) (out : Option (Event Op.Ret)) (req : RespondFriendReq) (e : SteadyEnv) :
    RejectsAlone h c (.call req e) out c' := by
  rintro k _ _ _ _ _ _ ⟨⟩

theorem rejectsAlone_of_ne {h : History (Sched RespondFriendReq SteadyEnv) (Option (Event Op.Ret))}
    {c c' : Answering} {out : Option (Event Op.Ret)} {k : Nat} {req : RespondFriendReq}
    {e : SteadyEnv} {past : List (Event Op.Ret)} {o : Op}
    {next : o.Ret → Prog Op.Ret RespondFriendRes}
    (hk : c.threads[k]? = some ⟨req, e, past, .op o next⟩)
    (ho : ∀ site r, o ≠ .pqExec site (.rejectRequest r)) : RejectsAlone h c (.pick k) out c' := by
  rintro _ req' e' past' site r next' ⟨⟩ hthread
  rw [hk] at hthread
  cases hthread
  exact absurd rfl (ho site r)

theorem rejectsAlone_reject
    {h : History (Sched RespondFriendReq SteadyEnv) (Option (Event Op.Ret))}
    {c c' : Answering} {out : Option (Event Op.Ret)} {k : Nat} {req : RespondFriendReq}
    {e : SteadyEnv} {past : List (Event Op.Ret)} {site : Site} {r : Int}
    {next : PGresult → Prog Op.Ret RespondFriendRes}
    (hk : c.threads[k]? = some ⟨req, e, past, .op (.pqExec site (.rejectRequest r)) next⟩)
    (halone : statusOf c.shared r ≠ some 1 ∧ ∀ t ∈ c.threads, ¬InFlight r t.past) :
    RejectsAlone h c (.pick k) out c' := by
  rintro _ req' e' past' site' r' next' ⟨⟩ hthread
  rw [hk] at hthread
  cases hthread
  exact halone

theorem within_accept (req_id : Int) : (respondFriendRequest ⟨req_id, true⟩).Within
    (Statements fun q => ∀ r, q ≠ .rejectRequest r) := by
  have haccept : (acceptFriendRequest req_id).Within
      (Statements fun q => ∀ r, q ≠ .rejectRequest r) :=
    within_acceptFriendRequest nofun (fun _ _ _ => nofun) nofun
  exact within_bind haccept fun accepted => within_ite.mpr ⟨fun _ => trivial, fun _ => trivial⟩

theorem rejectsAlone_of_within {is : List (Sched RespondFriendReq SteadyEnv)}
    (hpicks : ∀ i ∈ is, ∃ k, i = .pick k)
    {h : History (Sched RespondFriendReq SteadyEnv) (Option (Event Op.Ret))} {c : Answering}
    (hc : ∀ t ∈ c.threads, t.rest.Within (Statements fun q => ∀ r, q ≠ .rejectRequest r)) :
    answering.EveryStep RejectsAlone h c is := by
  induction is generalizing h c with
  | nil => trivial
  | cons i is ih =>
    obtain ⟨k, rfl⟩ := hpicks i List.mem_cons_self
    refine fun out c' hs => ⟨?_, ih (fun j hj => hpicks j (List.mem_cons_of_mem _ hj)) ?_⟩
    · intro k' req e past site r next _ hthread
      exact absurd rfl ((hc _ (List.mem_of_getElem? hthread)).1.2 site _ rfl r)
    · rcases interleaving_step hs with
        ⟨req, e, ⟨⟩, rfl⟩ | ⟨k, req, e, past, o, next, ⟨⟩, hk, rfl⟩
      intro t ht
      rcases List.mem_or_eq_of_mem_set ht with ht | rfl
      · exact hc t ht
      · exact (hc _ (List.mem_of_getElem? hk)).2 _

structure AnswerInv (c : Answering) : Prop where
  traced : WellTraced respondFriendRequest c
  seen : ∀ t ∈ c.threads, ∀ r, SawPending r t.past →
    statusOf c.shared r = some 0 ∨ statusOf c.shared r = some 1
  marked : ∀ t ∈ c.threads, ∀ r, Marked r t.past → statusOf c.shared r = some 1

theorem AnswerInv.asks {c : Answering} (h : AnswerInv c) {req : RespondFriendReq} {e : SteadyEnv}
    {past : List (Event Op.Ret)} {o : Op} {next : o.Ret → Prog Op.Ret RespondFriendRes}
    (ht : ⟨req, e, past, .op o next⟩ ∈ c.threads) : Asks req past o :=
  (disciplined_respond req).asks (h.traced _ ht)

theorem Inserted.sawPending {req : RespondFriendReq} {past : List (Event Op.Ret)}
    {rest : Prog Op.Ret RespondFriendRes} (htr : Trace (respondFriendRequest req) past rest)
    (h : Inserted past) : SawPending req.req_id past := by
  obtain ⟨site, a, b, now, res, hmem, -⟩ := h
  obtain ⟨tr₁, tr₂, k, rfl, hpre⟩ := htr.split hmem
  have hasks := (disciplined_respond req).asks hpre
  exact hasks.2.append _

theorem sawPending_snoc {r : Int} {past : List (Event Op.Ret)} {ev : Event Op.Ret}
    (h : SawPending r (past ++ [ev])) : SawPending r past ∨
      ∃ site, ∃ res : PGresult, ev = ⟨Op.pqExec site (.selectPendingRequest r), res⟩ ∧
        res.ntuples ≠ 0 := by
  obtain ⟨site, res, hmem, hne⟩ := h
  rcases List.mem_append.mp hmem with hmem | hmem
  · exact .inl ⟨site, res, hmem, hne⟩
  · exact .inr ⟨site, res, (List.mem_singleton.mp hmem).symm, hne⟩

theorem marked_snoc {r : Int} {past : List (Event Op.Ret)} {ev : Event Op.Ret}
    (h : Marked r (past ++ [ev])) : Marked r past ∨
      ∃ site, ∃ res : PGresult, ev = ⟨Op.pqExec site (.acceptRequest r), res⟩ := by
  obtain ⟨site, res, hmem⟩ := h
  rcases List.mem_append.mp hmem with hmem | hmem
  · exact .inl ⟨site, res, hmem⟩
  · exact .inr ⟨site, res, (List.mem_singleton.mp hmem).symm⟩

theorem AnswerInv.unseen {c : Answering} (hinv : AnswerInv c) {r : Int}
    (hne : statusOf c.shared r ≠ some 1) (halone : ∀ t ∈ c.threads, ¬InFlight r t.past)
    {t : Thread Op.Ret RespondFriendReq SteadyEnv RespondFriendRes} (ht : t ∈ c.threads) :
    ¬SawPending r t.past := by
  intro hsaw
  by_cases hmarked : Marked r t.past
  · exact hne (hinv.marked t ht r hmarked)
  · exact halone t ht ⟨hsaw, hmarked⟩

theorem AnswerInv.status_after {c : Answering} (hinv : AnswerInv c) {req : RespondFriendReq}
    {e : SteadyEnv} {past : List (Event Op.Ret)} {o : Op}
    {next : o.Ret → Prog Op.Ret RespondFriendRes} (ht : ⟨req, e, past, .op o next⟩ ∈ c.threads)
    (r : Int) :
    (∃ site, o = .pqExec site (.acceptRequest r)) ∧
      (statusOf c.shared r = some 0 ∨ statusOf c.shared r = some 1) ∧
      statusOf (e.env.exec o c.shared).2 r = some 1 ∨
    (∃ site, o = .pqExec site (.rejectRequest r)) ∧
      statusOf (e.env.exec o c.shared).2 r = (statusOf c.shared r).map (fun _ => 2) ∨
    (∀ site, o ≠ .pqExec site (.acceptRequest r)) ∧
      statusOf (e.env.exec o c.shared).2 r = statusOf c.shared r := by
  rcases asks_cases e c.shared (hinv.asks ht) with ⟨site, rfl, hsaw⟩ | ⟨site, rfl⟩ | ⟨hsame, hnot⟩
  -- the update of an acceptance, which has read its request as pending
  · have hafter := statusOf_updateStatus c.shared req.req_id 1 r
    rw [exec_pqExec e site rfl]
    by_cases hr : r = req.req_id
    · subst hr
      have hseen := hinv.seen _ ht _ hsaw
      refine .inl ⟨⟨site, rfl⟩, hseen, hafter.trans ?_⟩
      rcases hseen with h | h <;> rw [if_pos rfl, h, Option.map_some]
    · rw [if_neg hr] at hafter
      refine .inr (.inr ⟨fun site' h => hr ?_, hafter⟩)
      cases h
      rfl
  -- the update of a rejection, which has read nothing
  · have hafter := statusOf_updateStatus c.shared req.req_id 2 r
    rw [exec_pqExec e site rfl]
    by_cases hr : r = req.req_id
    · subst hr
      rw [if_pos rfl] at hafter
      exact .inr (.inl ⟨⟨site, rfl⟩, hafter⟩)
    · rw [if_neg hr] at hafter
      exact .inr (.inr ⟨nofun, hafter⟩)
  · exact .inr (.inr ⟨fun site => hnot site r, hsame r⟩)

section Move
variable {c : Answering} {k : Nat} {req : RespondFriendReq} {e : SteadyEnv}
    {past : List (Event Op.Ret)} {o : Op} {next : o.Ret → Prog Op.Ret RespondFriendRes}
    {rest : Prog Op.Ret RespondFriendRes} (hthread : ⟨req, e, past, .op o next⟩ ∈ c.threads)
    {t : Thread Op.Ret RespondFriendReq SteadyEnv RespondFriendRes}
    (ht : t ∈ c.threads.set k ⟨req, e, past ++ [⟨o, (e.env.exec o c.shared).1⟩], rest⟩) {r : Int}
include hthread ht

theorem seen_after (hsaw : SawPending r t.past) :
    (∃ t ∈ c.threads, SawPending r t.past) ∨
      (∃ site, o = .pqExec site (.selectPendingRequest r)) ∧ statusOf c.shared r = some 0 := by
  rcases List.mem_or_eq_of_mem_set ht with ht | rfl
  · exact .inl ⟨t, ht, hsaw⟩
  · rcases sawPending_snoc hsaw with hsaw | ⟨site, res, hev, hne⟩
    · exact .inl ⟨_, hthread, hsaw⟩
    · obtain ⟨rfl, hres⟩ := Sigma.mk.inj_iff.mp hev
      rw [exec_pqExec e site rfl, heq_iff_eq] at hres
      exact .inr ⟨⟨site, rfl⟩, status_of_pending (hres ▸ hne)⟩

theorem marked_after (hmarked : Marked r t.past) :
    (∃ t ∈ c.threads, Marked r t.past) ∨ ∃ site, o = .pqExec site (.acceptRequest r) := by
  rcases List.mem_or_eq_of_mem_set ht with ht | rfl
  · exact .inl ⟨t, ht, hmarked⟩
  · rcases marked_snoc hmarked with hmarked | ⟨site, res, hev⟩
    · exact .inl ⟨_, hthread, hmarked⟩
    · obtain ⟨rfl, -⟩ := Sigma.mk.inj_iff.mp hev
      exact .inr ⟨site, rfl⟩

end Move

theorem answerInv_step {h : History (Sched RespondFriendReq SteadyEnv) (Option (Event Op.Ret))}
    {c c' : Answering} {i : Sched RespondFriendReq SteadyEnv} {out : Option (Event Op.Ret)}
    (hinv : AnswerInv c) (halone : RejectsAlone h c i out c')
    (hs : answering.step c i = some (out, c')) : AnswerInv c' := by
  have htraced : WellTraced respondFriendRequest c' := wellTraced_step hinv.traced hs
  rcases interleaving_step hs with
    ⟨req, e, rfl, rfl⟩ | ⟨k, req, e, past, o, next, rfl, hk, rfl⟩
  · -- a call that has just arrived has done nothing
    refine ⟨htraced, fun t ht r hsaw => ?_, fun t ht r hmarked => ?_⟩
    · rcases List.mem_append.mp ht with ht | ht
      · exact hinv.seen t ht r hsaw
      · obtain rfl := List.mem_singleton.mp ht
        obtain ⟨_, _, hmem, -⟩ := hsaw
        exact absurd hmem List.not_mem_nil
    · rcases List.mem_append.mp ht with ht | ht
      · exact hinv.marked t ht r hmarked
      · obtain rfl := List.mem_singleton.mp ht
        obtain ⟨_, _, hmem⟩ := hmarked
        exact absurd hmem List.not_mem_nil
  · have hthread : ⟨req, e, past, .op o next⟩ ∈ c.threads := List.mem_of_getElem? hk
    refine ⟨htraced, fun t ht r hsaw => ?_, fun t ht r hmark => ?_⟩
    · rcases hinv.status_after hthread r with ⟨-, -, hone⟩ | ⟨⟨site, rfl⟩, -⟩ | ⟨-, hsame⟩
      · exact .inr hone
      · obtain ⟨hne, hflight⟩ := halone k req e past site r next rfl hk
        rcases seen_after hthread ht hsaw with ⟨t, ht, hsaw⟩ | ⟨⟨_, ho⟩, -⟩
        · exact absurd hsaw (hinv.unseen hne hflight ht)
        · cases ho
      · rw [hsame]
        rcases seen_after hthread ht hsaw with ⟨t, ht, hsaw⟩ | ⟨-, h0⟩
        · exact hinv.seen t ht r hsaw
        · exact .inl h0
    · rcases hinv.status_after hthread r with ⟨-, -, hone⟩ | ⟨⟨site, rfl⟩, -⟩ | ⟨hnot, hsame⟩
      · exact hone
      · obtain ⟨hne, -⟩ := halone k req e past site r next rfl hk
        rcases marked_after hthread ht hmark with ⟨t, ht, hmark⟩ | ⟨_, ho⟩
        · exact absurd (hinv.marked t ht r hmark) hne
        · cases ho
      · rw [hsame]
        rcases marked_after hthread ht hmark with ⟨t, ht, hmark⟩ | ⟨site, ho⟩
        · exact hinv.marked t ht r hmark
        · exact absurd ho (hnot site)

theorem answerKept_step {h : History (Sched RespondFriendReq SteadyEnv) (Option (Event Op.Ret))}
    {c c' : Answering} {i : Sched RespondFriendReq SteadyEnv} {out : Option (Event Op.Ret)}
    (hinv : AnswerInv c) (halone : RejectsAlone h c i out c')
    (hs : answering.step c i = some (out, c')) : AnswerKept h c i out c' := by
  intro r s hanswered hstatus
  rcases interleaving_step hs with
    ⟨req, e, rfl, rfl⟩ | ⟨k, req, e, past, o, next, rfl, hk, rfl⟩
  · exact hstatus
  · rcases hinv.status_after (List.mem_of_getElem? hk) r with
      ⟨-, hbefore, hone⟩ | ⟨⟨site, rfl⟩, htwo⟩ | ⟨-, hsame⟩
    · rw [hstatus, Option.some.injEq, Option.some.injEq] at hbefore
      obtain rfl : s = 1 := by omega
      exact hone
    · have hne := (halone k req e past site r next rfl hk).1
      rw [hstatus, ne_eq, Option.some.injEq] at hne
      obtain rfl : s = 2 := hanswered.resolve_left hne
      rw [htwo, hstatus, Option.map_some]
    · rw [hsame, hstatus]

theorem AnswerInv.rejectedUnfriended {c : Answering} (hinv : AnswerInv c)
    (h : History (Sched RespondFriendReq SteadyEnv) (Option (Event Op.Ret))) :
    RejectedUnfriended h c := by
  intro r hstatus t ht hcall hins
  have hsaw := hins.sawPending (hinv.traced t ht)
  rw [hcall] at hsaw
  rcases hinv.seen t ht r hsaw with h0 | h1
  · rw [h0] at hstatus
    cases hstatus
  · rw [h1] at hstatus
    cases hstatus

/-- In a run whose rejections run alone, a request is answered at most once. -/
theorem answered_at_most_once (w : World) (is : List (Sched RespondFriendReq SteadyEnv))
    (halone : answering.EveryStep RejectsAlone [] ⟨w, []⟩ is) :
    answering.EveryStep AnswerKept [] ⟨w, []⟩ is ∧
      answering.EveryState RejectedUnfriended [] ⟨w, []⟩ is := by
  have hinit : AnswerInv ⟨w, []⟩ :=
    ⟨fun t ht => absurd ht List.not_mem_nil, fun t ht => absurd ht List.not_mem_nil,
      fun t ht => absurd ht List.not_mem_nil⟩
  have hstep : ∀ h c i out c', AnswerInv c → RejectsAlone h c i out c' →
      answering.step c i = some (out, c') → AnswerInv c' :=
    fun _ _ _ _ _ hinv ha hs => answerInv_step hinv ha hs
  refine ⟨everyStep_of_guarded (I := fun _ c => AnswerInv c) hstep ?_ hinit halone, ?_⟩
  · exact fun _ _ _ _ _ hinv ha hs => answerKept_step hinv ha hs
  · exact (everyState_of_guarded (I := fun _ c => AnswerInv c) hstep hinit halone).mono
      fun h _ hinv => hinv.rejectedUnfriended h

def steady : SteadyEnv := ⟨Env.fair, fun _ => rfl⟩

def oneRequest (status : Int) : World :=
  { World.empty with
    tables := { Tables.empty with
      t_friend_request := SerialTable.empty.insert
        (fun id => ⟨id, 1, 2, [], 0, status⟩) fun _ => rfl } }

def twoRequests : World :=
  { World.empty with
    tables := (Query.exec (.insertFriendRequest 3 2 [] 0) (oneRequest 0).tables).2 }

/-- While the first request is being accepted the second one is rejected, and accepted then. -/
def answeredAtOnce : List (Sched RespondFriendReq SteadyEnv) :=
  [.call ⟨1, true⟩ steady, .call ⟨2, false⟩ steady, .call ⟨2, true⟩ steady, .pick 0, .pick 0,
    .pick 1, .pick 1, .pick 0, .pick 2, .pick 0, .pick 2, .pick 0, .pick 0]

theorem answered_at_most_once_atOnce :
    answering.EveryStep AnswerKept [] ⟨twoRequests, []⟩ answeredAtOnce ∧
      answering.EveryState RejectedUnfriended [] ⟨twoRequests, []⟩ answeredAtOnce := by
  apply answered_at_most_once twoRequests answeredAtOnce
  refine (everyStep_cons (interleaving_call ..)).mpr ⟨rejectsAlone_call _ _ _ _ _ _, ?_⟩
  refine (everyStep_cons (interleaving_call ..)).mpr ⟨rejectsAlone_call _ _ _ _ _ _, ?_⟩
  refine (everyStep_cons (interleaving_call ..)).mpr ⟨rejectsAlone_call _ _ _ _ _ _, ?_⟩
  refine (everyStep_cons (interleaving_pick _ _ rfl)).mpr ⟨rejectsAlone_of_ne rfl nofun, ?_⟩
  refine (everyStep_cons (interleaving_pick _ _ rfl)).mpr ⟨rejectsAlone_of_ne rfl nofun, ?_⟩
  rw [exec_pqExec steady _ rfl]
  refine (everyStep_cons (interleaving_pick _ _ rfl)).mpr ⟨rejectsAlone_of_ne rfl nofun, ?_⟩
  refine (everyStep_cons (interleaving_pick _ _ rfl)).mpr ⟨rejectsAlone_reject rfl ⟨?_, ?_⟩, ?_⟩
  · decide
  · -- only the first request has been read
    rintro t ht ⟨⟨site', res, hmem, -⟩, -⟩
    rcases List.mem_cons.mp ht with rfl | ht
    · rcases List.mem_cons.mp hmem with heq | hmem
      · cases heq
      · cases List.mem_singleton.mp hmem
    rcases List.mem_cons.mp ht with rfl | ht
    · cases List.mem_singleton.mp hmem
    · obtain rfl := List.mem_singleton.mp ht
      cases hmem
  rw [exec_pqExec steady .execute (q := .rejectRequest 2) rfl]
  refine rejectsAlone_of_within ?_ ?_
  · simp
  · intro t ht
    rcases List.mem_cons.mp ht with rfl | ht
    · exact ((within_accept 1).2 true).2 _
    rcases List.mem_cons.mp ht with rfl | ht
    · trivial
    · obtain rfl := List.mem_singleton.mp ht
      exact within_accept 2
def oneRejection : List (Sched RespondFriendReq SteadyEnv) :=
  [.call ⟨1, false⟩ steady, .pick 0, .pick 0]

theorem accepted_then_rejected :
    ¬answering.EveryStep AnswerKept [] ⟨oneRequest 1, []⟩ oneRejection := by
  intro h
  have hacquired := (h _ _ rfl).2 _ _ (interleaving_pick _ _ rfl)
  have hkept := (hacquired.2 _ _ (interleaving_pick _ _ rfl)).1 1 1 (.inl rfl) (by decide)
  have hafter : statusOf (steady.env.exec (.pqExec .execute (.rejectRequest 1)) (oneRequest 1)).2 1 =
      some 2 := by
    rw [exec_pqExec steady .execute rfl]
    exact (statusOf_updateStatus (oneRequest 1) 1 2 1).trans (by decide)
  exact absurd (hafter.symm.trans hkept) (by decide)

end LetsChat
