import LetsChat.FriendsOnly
import LetsChat.Lib.Serial
import LetsChat.OneStatement

/-! The statements of all calls in one order. Every call but an acceptance might have made its
statements all at once. -/

namespace LetsChat
open Lib Prog Machine PooledDbClient LogicServiceImpl Entry

structure Statement where
  call : Request
  env : Env
  site : Site
  query : Query

def Statement.exec (s : Statement) (t : Tables) : PGresult × Tables := s.env.pqExec s.site s.query t

def Request.accepts : Request → Bool
  | .respondFriendRequest r => r.accept
  | _ => false

def Statement.whole (s : Statement) : Bool := !s.call.accepts

abbrev LogEntry := Entry Nat Statement PGresult

def logEntry (k : Nat) (call : Request) (e : Env) : Event Op.Ret → Option LogEntry
  | ⟨.pqExec site q, res⟩ => some ⟨k, ⟨call, e, site, q⟩, res⟩
  | _ => none

def madeBy (k : Nat) (t : Thread Op.Ret Request IntendedEnv Reply) : List LogEntry :=
  t.past.filterMap (logEntry k t.call t.env.env)

def logged (c : Serving) : Sched Request IntendedEnv × Option (Event Op.Ret) → Option LogEntry
  | (.pick k, some ev) => c.threads[k]?.bind fun t => logEntry k t.call t.env.env ev
  | _ => none

def statementLog (h : History (Sched Request IntendedEnv) (Option (Event Op.Ret))) (c : Serving) :
    List LogEntry :=
  h.filterMap (logged c)

def Passed (ev : Event Op.Ret) : Prop :=
  ∃ site a b, ∃ res : PGresult, ev = ⟨.pqExec site (.selectFriend a b), res⟩ ∧
    res.status = .PGRES_TUPLES_OK ∧ res.ntuples ≠ 0

def OnlyPassed (past : List (Event Op.Ret)) : Prop :=
  ∀ ev ∈ past, isStatement ev.1 = true → Passed ev

def Settled (req : Request) (past : List (Event Op.Ret)) (o : Op) : Prop :=
  isStatement o = true → req.accepts = false → OnlyPassed past

section Settled
variable {req : Request} {past : List (Event Op.Ret)} {α β : Type} {p : Prog Op.Ret α}

theorem OnlyPassed.snoc (h : OnlyPassed past) {ev : Event Op.Ret} (hev : Plain ev.1) :
    OnlyPassed (past ++ [ev]) := by
  intro ev' hmem hstatement
  rcases List.mem_append.mp hmem with hmem | hmem
  · exact h ev' hmem hstatement
  · rw [List.mem_singleton.mp hmem, hev] at hstatement
    cases hstatement

theorem settled_plain (hp : p.Within Plain) : p.Disciplined (Settled req) past :=
  hp.disciplined fun more o ho hstatement => by
    rw [ho] at hstatement
    cases hstatement

theorem AtMostOne.settled (hp : AtMostOne p) (hpast : OnlyPassed past) :
    p.Disciplined (Settled req) past := by
  induction p generalizing past with
  | ret a => trivial
  | throw => trivial
  | op o k ih =>
    refine ⟨fun _ _ => hpast, fun r => ?_⟩
    by_cases ho : isStatement o = true
    · exact settled_plain (hp.1 ho r)
    · have hplain : Plain o := Bool.eq_false_iff.mpr ho
      exact ih r (hp.2 hplain r) (hpast.snoc hplain)

theorem onlyPassed_nil : OnlyPassed [] := fun _ hev => absurd hev List.not_mem_nil

theorem plain_set (key value : Text) : (PooledRedisClient.set key value).Within Plain :=
  within_set rfl rfl

theorem atMostOne_deliver (impl : LogicServiceImpl) (msg : ChatMsg) :
    AtMostOne (impl.deliver msg) := by
  rw [deliver, systemClock_bind]
  refine ⟨nofun, fun _ msg_id => ?_⟩
  apply atMostOne_bind (oneStatement_saveMessage _ _ _ _).atMostOne
  intro saved
  apply within_bind (within_get (P := Plain) rfl rfl)
  intro addr
  refine within_bind ?_ fun _ => ⟨rfl, fun _ => trivial⟩
  cases addr with
  | none => trivial
  | some addr => exact ⟨rfl, fun _ => trivial⟩

theorem settled_sendMsg (impl : LogicServiceImpl) (r : MsgSendReq) :
    (impl.sendMsg r).Disciplined (Settled req) [] := by
  have hpassed : (areFriends r.msg.from_uid r.msg.to_uid).Concludes
      (fun past friends => friends = true → OnlyPassed past) [] := by
    intro g
    cases g with
    | false => exact nofun
    | true =>
      intro res hfriends ev hev hstatement
      obtain ⟨hstatus, hpos⟩ := of_decide_eq_true hfriends
      rcases List.mem_append.mp hev with hev | hev
      · rw [List.mem_singleton.mp hev] at hstatement
        cases hstatement
      · exact ⟨_, _, _, res, List.mem_singleton.mp hev, hstatus, Nat.ne_of_gt hpos⟩
  rw [sendMsg_eq]
  refine (hpassed.mono fun past friends h => ?_).disciplined_bind
    ((oneStatement_areFriends _ _).atMostOne.settled onlyPassed_nil)
  cases friends with
  | false => trivial
  | true => exact (atMostOne_deliver impl r.msg).settled (h rfl)

theorem settled_handle (impl : LogicServiceImpl) (req : Request) :
    (handle impl req).Disciplined (Settled req) [] := by
  have hone : ∀ {α : Type} {p : Prog Op.Ret α} {req : Request}, AtMostOne p →
      p.Disciplined (Settled req) [] := fun hp => hp.settled onlyPassed_nil
  cases req with
  | login r =>
    refine disciplined_map _ (hone (atMostOne_bind (oneStatement_getUserPassword _).atMostOne ?_))
    exact fun pw => within_ite.mpr ⟨fun _ => within_bind (plain_set _ _) fun _ => trivial,
      fun _ => trivial⟩
  | sendMsg r => exact disciplined_map _ (settled_sendMsg impl r)
  | syncMsg r =>
    exact disciplined_map _ (hone (atMostOne_bind (oneStatement_getofflineMsgs _ _).atMostOne
      fun _ => trivial))
  | registerUser r =>
    exact disciplined_map _ (hone (atMostOne_bind (oneStatement_createUser _ _ _).atMostOne
      fun _ => within_ite.mpr ⟨fun _ => trivial, fun _ => trivial⟩))
  | httpLogin r =>
    refine disciplined_map _ (hone (atMostOne_bind
      (oneStatement_checkUserByEmail _ _ _).atMostOne fun answer => ?_))
    exact within_ite.mpr ⟨fun _ => within_bind (plain_set _ _) fun _ => trivial,
      fun _ => trivial⟩
  | getUploadUrl r =>
    exact disciplined_map _ (settled_plain (within_uploads impl (P := Plain) rfl
      (fun _ _ _ => rfl) (fun _ _ => rfl) (fun _ => rfl) r))
  | sendFriendRequest r =>
    refine disciplined_map _ (hone (atMostOne_bind
      (oneStatement_createFriendRequest _ _ _).atMostOne fun id => ?_))
    cases id with
    | none => trivial
    | some req_id => trivial
  | respondFriendRequest r =>
    refine disciplined_map _ (disciplined_ite.mpr ⟨fun haccept => ?_, fun _ => ?_⟩)
    · refine (within_of_forall (P := fun _ => True) (fun _ => trivial) _).disciplined ?_
      intro more o _ _ hnot
      rw [Request.accepts, haccept] at hnot
      cases hnot
    · exact hone (atMostOne_bind (oneStatement_execute _).atMostOne fun _ => trivial)
  | listFriends r =>
    exact disciplined_map _ (hone (atMostOne_bind (oneStatement_listFriends _).atMostOne
      fun _ => trivial))
  | getFriendRequests r =>
    exact disciplined_map _ (hone (atMostOne_bind
      (oneStatement_getFriendRequestsForUser _).atMostOne fun _ => trivial))

end Settled
theorem selectFriend_befriended {t : Tables} {a b : Int} (h : Befriended t a b) :
    ((Query.selectFriend a b).exec t).1 = .tuples [["1".toList]] := by
  obtain ⟨row, hmem, hpair⟩ := h
  have hrow : row ∈ t.t_friend.filter fun r => r.uid = a ∧ r.friend_uid = b :=
    List.mem_filter.mpr ⟨hmem, decide_eq_true hpair⟩
  obtain ⟨first, rest, hrows⟩ := List.exists_cons_of_ne_nil (List.ne_nil_of_mem hrow)
  rw [Query.exec, hrows]
  rfl

theorem selectFriend_quiet (e : IntendedEnv) (site : Site) (a b : Int) (t : Tables) :
    (e.env.pqExec site (.selectFriend a b) t).2 = t :=
  congrArg World.tables (inert_selectFriend site a b e { World.empty with tables := t })

theorem selectFriend_again (e : IntendedEnv) {w w' : World} {site : Site} {a b : Int}
    (hstay : Befriended w.tables a b → Befriended w'.tables a b)
    (hstatus : (e.env.pqExec site (.selectFriend a b) w.tables).1.status = .PGRES_TUPLES_OK)
    (hne : (e.env.pqExec site (.selectFriend a b) w.tables).1.ntuples ≠ 0) :
    (e.env.pqExec site (.selectFriend a b) w'.tables).1 =
      (e.env.pqExec site (.selectFriend a b) w.tables).1 := by
  have hfriends := befriended_of_selectFriend e w hstatus hne
  rw [Env.pqExec_fst, Env.pqExec_fst, serve_intended, serve_intended,
    selectFriend_befriended hfriends, selectFriend_befriended (hstay hfriends)]

def ChecksStay (past : List (Event Op.Ret)) (e : Env) (t : Tables) : Prop :=
  ∀ site a b, ∀ res : PGresult, ⟨.pqExec site (.selectFriend a b), res⟩ ∈ past →
    res.status = .PGRES_TUPLES_OK → res.ntuples ≠ 0 →
      (e.pqExec site (.selectFriend a b) t).1 = res

section ChecksStay
variable {past : List (Event Op.Ret)} {e : IntendedEnv} {w w' : World}

theorem ChecksStay.later (h : ChecksStay past e.env w.tables)
    (hstay : ∀ a b, Befriended w.tables a b → Befriended w'.tables a b) :
    ChecksStay past e.env w'.tables := by
  intro site a b res hmem hstatus hne
  have hres := h site a b res hmem hstatus hne
  rw [← hres] at hstatus hne
  rw [selectFriend_again e (hstay a b) hstatus hne, hres]

theorem ChecksStay.snoc (h : ChecksStay past e.env w.tables) (o : Op) :
    ChecksStay (past ++ [⟨o, (e.env.exec o w).1⟩]) e.env (e.env.exec o w).2.tables := by
  have hstay : ∀ a b, Befriended w.tables a b → Befriended (e.env.exec o w).2.tables a b :=
    fun a b hab => befriended_op e w hab o
  intro site a b res hmem hstatus hne
  rcases List.mem_append.mp hmem with hmem | hmem
  · exact h.later hstay site a b res hmem hstatus hne
  · -- the call has just read it
    obtain ⟨rfl, hres⟩ := Sigma.mk.inj_iff.mp (List.mem_singleton.mp hmem).symm
    rw [heq_iff_eq] at hres
    have hread : (e.env.pqExec site (.selectFriend a b) w.tables).1 = res := hres
    rw [← hread] at hstatus hne ⊢
    exact selectFriend_again e (hstay a b) hstatus hne

end ChecksStay

section Log
variable {impl : LogicServiceImpl} {c c' : Serving} {i : Sched Request IntendedEnv}
variable {out : Option (Event Op.Ret)}
variable {h : History (Sched Request IntendedEnv) (Option (Event Op.Ret))}

theorem caller_logEntry {k : Nat} {call : Request} {e : Env} {ev : Event Op.Ret} {x : LogEntry}
    (hx : logEntry k call e ev = some x) : x.caller = k := by
  obtain ⟨o, r⟩ := ev
  cases o with
  | pqExec site q =>
    cases hx
    rfl
  | _ => cases hx

theorem caller_lt {x : LogEntry} (hx : x ∈ statementLog h c) : x.caller < c.threads.length := by
  obtain ⟨⟨i, out⟩, -, hx⟩ := List.mem_filterMap.mp hx
  cases i with
  | call req e => cases hx
  | pick k =>
    cases out with
    | none => cases hx
    | some ev =>
      obtain ⟨t, ht, hx⟩ := Option.bind_eq_some_iff.mp hx
      rw [caller_logEntry hx]
      exact (List.getElem?_eq_some_iff.mp ht).1

theorem thread_stays (hstep : (intendedService impl).step c i = some (out, c')) {k : Nat}
    {t : Thread Op.Ret Request IntendedEnv Reply} (hk : c.threads[k]? = some t) :
    ∃ t', c'.threads[k]? = some t' ∧ t'.call = t.call ∧ t'.env = t.env := by
  have hlt := (List.getElem?_eq_some_iff.mp hk).1
  rcases interleaving_step hstep with
    ⟨req, e, rfl, rfl⟩ | ⟨j, req, e, past, o, next, rfl, hj, rfl⟩
  · exact ⟨t, (List.getElem?_append_left hlt).trans hk, rfl, rfl⟩
  · by_cases hjk : j = k
    · subst hjk
      obtain rfl := Option.some.inj (hk.symm.trans hj)
      exact ⟨_, List.getElem?_set_self hlt, rfl, rfl⟩
    · exact ⟨t, (List.getElem?_set_ne hjk).trans hk, rfl, rfl⟩

theorem logged_step (hstep : (intendedService impl).step c i = some (out, c'))
    {io : Sched Request IntendedEnv × Option (Event Op.Ret)}
    (hpicked : ∀ k, io.1 = .pick k → k < c.threads.length) : logged c' io = logged c io := by
  obtain ⟨j, out⟩ := io
  cases j with
  | call req e => rfl
  | pick k =>
    cases out with
    | none => rfl
    | some ev =>
      have hk := List.getElem?_eq_getElem (hpicked k rfl)
      obtain ⟨t', hk', hcall, henv⟩ := thread_stays hstep hk
      rw [logged, logged, hk, hk', Option.bind_some, Option.bind_some, hcall, henv]

theorem statementLog_step (hstep : (intendedService impl).step c i = some (out, c'))
    (hpicked : ∀ io ∈ h, ∀ k, io.1 = .pick k → k < c.threads.length) :
    statementLog (h ++ [(i, out)]) c' = statementLog h c ++ (logged c' (i, out)).toList := by
  have hsame : h.filterMap (logged c') = h.filterMap (logged c) :=
    List.filterMap_congr fun io hio => logged_step hstep (hpicked io hio)
  rw [statementLog, List.filterMap_append, hsame]
  congr 1

end Log

section Steps
variable {k j : Nat} {call : Request} {e : IntendedEnv} {past : List (Event Op.Ret)}
variable {rest : Prog Op.Ret Reply}

theorem own_logEntry (ev : Event Op.Ret) :
    own k (logEntry k call e.env ev).toList = (logEntry k call e.env ev).toList :=
  own_eq_self fun _ hx => caller_logEntry (Option.mem_toList.mp hx)

theorem own_logEntry_of_ne (hne : k ≠ j) (ev : Event Op.Ret) :
    own j (logEntry k call e.env ev).toList = [] := by
  refine own_eq_nil_iff.mpr fun x hx heq => hne ?_
  rw [← heq, caller_logEntry (Option.mem_toList.mp hx)]

theorem madeBy_snoc (ev : Event Op.Ret) (rest' : Prog Op.Ret Reply) :
    madeBy k ⟨call, e, past ++ [ev], rest'⟩ =
      madeBy k ⟨call, e, past, rest⟩ ++ (logEntry k call e.env ev).toList := by
  rw [madeBy, List.filterMap_append]
  congr 1

theorem idle_madeBy {w : World} (hpassed : OnlyPassed past)
    (hstay : ChecksStay past e.env w.tables) :
    ∀ y ∈ madeBy k ⟨call, e, past, rest⟩, Idle Statement.exec y w.tables := by
  intro y hy
  obtain ⟨⟨o, res⟩, hev, hentry⟩ := List.mem_filterMap.mp hy
  cases o with
  | pqExec site q =>
    cases hentry
    obtain ⟨_, a, b, _, hcheck, hstatus, hne⟩ := hpassed _ hev rfl
    cases hcheck
    exact ⟨selectFriend_quiet e _ a b, hstay _ a b _ hev hstatus hne⟩
  | _ => cases hentry

end Steps

/-- The log is that of the calls, and its statements, with those of each call but an acceptance
brought together, lead to the tables. -/
structure Ordered (impl : LogicServiceImpl) (w : World)
    (h : History (Sched Request IntendedEnv) (Option (Event Op.Ret))) (c : Serving) : Prop where
  traced : WellTraced (handle impl) c
  picked : ∀ io ∈ h, ∀ k, io.1 = .pick k → k < c.threads.length
  own : ∀ k t, c.threads[k]? = some t → own k (statementLog h c) = madeBy k t
  stay : ∀ t ∈ c.threads, ChecksStay t.past t.env.env c.shared.tables
  replays : Replays Statement.exec (gather Statement.whole (statementLog h c)) w.tables
    c.shared.tables

section Ordered
variable {impl : LogicServiceImpl} {w : World} {c c' : Serving}
variable {h : History (Sched Request IntendedEnv) (Option (Event Op.Ret))}
variable {i : Sched Request IntendedEnv} {out : Option (Event Op.Ret)}

theorem ordered_start (impl : LogicServiceImpl) (w : World) : Ordered impl w [] ⟨w, []⟩ where
  traced _ ht := absurd ht List.not_mem_nil
  picked _ hio := absurd hio List.not_mem_nil
  own _ _ hk := absurd (List.mem_of_getElem? hk) List.not_mem_nil
  stay _ ht := absurd ht List.not_mem_nil
  replays := rfl

theorem picked_step (hc : Ordered impl w h c)
    (hstep : (intendedService impl).step c i = some (out, c')) :
    ∀ io ∈ h ++ [(i, out)], ∀ k, io.1 = .pick k → k < c'.threads.length := by
  intro io hio k hpick
  have hlt : k < c.threads.length := by
    rcases List.mem_append.mp hio with hio | hio
    · exact hc.picked io hio k hpick
    · obtain rfl := List.mem_singleton.mp hio
      obtain rfl : i = .pick k := hpick
      rcases interleaving_step hstep with ⟨_, _, heq, -⟩ | ⟨_, _, _, _, _, _, heq, hk, -⟩
      · cases heq
      · cases heq
        exact (List.getElem?_eq_some_iff.mp hk).1
  obtain ⟨t', hk', -⟩ := thread_stays hstep (List.getElem?_eq_getElem hlt)
  exact (List.getElem?_eq_some_iff.mp hk').1

theorem ordered_call (hc : Ordered impl w h c) (req : Request) (e : IntendedEnv) :
    Ordered impl w (h ++ [(.call req e, none)])
      ⟨c.shared, c.threads ++ [⟨req, e, [], handle impl req⟩]⟩ := by
  have hstep : (intendedService impl).step c (.call req e) = some (none, _) := rfl
  have hlog := (statementLog_step hstep hc.picked).trans (List.append_nil _)
  refine ⟨wellTraced_step hc.traced hstep, picked_step hc hstep, ?_, ?_, ?_⟩
  · intro k t hk
    rw [hlog]
    rcases Nat.lt_or_ge k c.threads.length with hlt | hge
    · exact hc.own k t ((List.getElem?_append_left hlt).symm.trans hk)
    · -- the call has made no statement, and none before has its number
      rw [List.getElem?_append_right hge] at hk
      obtain rfl := List.mem_singleton.mp (List.mem_of_getElem? hk)
      exact own_eq_nil_iff.mpr fun x hx heq => absurd (caller_lt hx) (heq ▸ Nat.not_lt.mpr hge)
  · intro t ht
    rcases List.mem_append.mp ht with ht | ht
    · exact hc.stay t ht
    · obtain rfl := List.mem_singleton.mp ht
      exact fun _ _ _ _ hmem => absurd hmem List.not_mem_nil
  · rw [hlog]
    exact hc.replays

theorem replays_pick (hc : Ordered impl w h c) {k : Nat} {req : Request} {e : IntendedEnv}
    {past : List (Event Op.Ret)} {o : Op} {next : o.Ret → Prog Op.Ret Reply}
    (hk : c.threads[k]? = some ⟨req, e, past, .op o next⟩) :
    Replays Statement.exec (gather Statement.whole (statementLog h c ++
      (logEntry k req e.env ⟨o, (e.env.exec o c.shared).1⟩).toList)) w.tables
      (e.env.exec o c.shared).2.tables := by
  have hthread := List.mem_of_getElem? hk
  cases o with
  | pqExec site q =>
    have hexec : (Statement.mk req e.env site q).exec c.shared.tables =
        ((e.env.exec (.pqExec site q) c.shared).1,
          (e.env.exec (.pqExec site q) c.shared).2.tables) := rfl
    apply replays_gather_snoc hc.replays hexec
    intro hwhole
    have hasks := (settled_handle impl req).asks (hc.traced _ hthread)
    rw [hc.own k _ hk]
    exact idle_madeBy (hasks rfl (Bool.not_eq_true' _ ▸ hwhole)) (hc.stay _ hthread)
  | _ =>
    show Replays _ (gather _ (statementLog h c ++ [])) _ _
    rw [List.append_nil]
    exact hc.replays

theorem ordered_pick (hc : Ordered impl w h c) {k : Nat} {req : Request} {e : IntendedEnv}
    {past : List (Event Op.Ret)} {o : Op} {next : o.Ret → Prog Op.Ret Reply}
    (hk : c.threads[k]? = some ⟨req, e, past, .op o next⟩) :
    Ordered impl w (h ++ [(.pick k, some ⟨o, (e.env.exec o c.shared).1⟩)])
      ⟨(e.env.exec o c.shared).2, c.threads.set k ⟨req, e,
        past ++ [⟨o, (e.env.exec o c.shared).1⟩], next (e.env.exec o c.shared).1⟩⟩ := by
  have hstep := interleaving_pick (handle impl) (fun e : IntendedEnv => e.env.exec) hk
  have hlt := (List.getElem?_eq_some_iff.mp hk).1
  have hlog := statementLog_step hstep hc.picked
  rw [logged, List.getElem?_set_self hlt, Option.bind_some] at hlog
  refine ⟨wellTraced_step hc.traced hstep, picked_step hc hstep, ?_, ?_, ?_⟩
  · intro j t hj
    rw [hlog, own_append]
    by_cases hkj : k = j
    · subst hkj
      rw [List.getElem?_set_self hlt] at hj
      obtain rfl := Option.some.inj hj
      rw [hc.own k _ hk, own_logEntry, madeBy_snoc]
    · rw [List.getElem?_set_ne hkj] at hj
      rw [hc.own j t hj, own_logEntry_of_ne hkj, List.append_nil]
  · intro t ht
    rcases List.mem_or_eq_of_mem_set ht with ht | rfl
    · exact (hc.stay t ht).later fun a b hab => befriended_op e c.shared hab o
    · exact (hc.stay _ (List.mem_of_getElem? hk)).snoc o
  · rw [hlog]
    exact replays_pick hc hk

theorem ordered_step (hc : Ordered impl w h c)
    (hstep : (intendedService impl).step c i = some (out, c')) :
    Ordered impl w (h ++ [(i, out)]) c' := by
  rcases interleaving_step hstep with
    ⟨req, e, rfl, rfl⟩ | ⟨k, req, e, past, o, next, rfl, hk, rfl⟩
  · obtain ⟨rfl, -⟩ := Prod.mk.inj (Option.some.inj hstep)
    exact ordered_call hc req e
  · have hpick := interleaving_pick (handle impl) (fun e : IntendedEnv => e.env.exec) hk
    obtain ⟨rfl, -⟩ := Prod.mk.inj (Option.some.inj (hpick.symm.trans hstep))
    exact ordered_pick hc hk

end Ordered

/-- Over any interleaving and with any failures, the calls but acceptances might have made their
statements each in one go, in an order that keeps a call that has ended before one that has not
begun: every statement gives what it gave, and the tables come out the same. -/
theorem calls_serializable (impl : LogicServiceImpl) (w : World)
    (is : List (Sched Request IntendedEnv)) :
    (intendedService impl).EveryState
      (fun h c => (∀ k t, c.threads[k]? = some t → own k (statementLog h c) = madeBy k t) ∧
        ∃ serial, Serializes Statement.whole (statementLog h c) serial ∧
          Replays Statement.exec serial w.tables c.shared.tables) [] ⟨w, []⟩ is := by
  have hordered : (intendedService impl).EveryState (Ordered impl w) [] ⟨w, []⟩ is :=
    everyState_of_invariant (fun _ _ _ _ _ hc hstep => ordered_step hc hstep) (ordered_start impl w)
  exact hordered.mono fun h c hc => ⟨hc.own, _, serializes_gather _ _, hc.replays⟩

end LetsChat
