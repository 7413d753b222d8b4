import LetsChat.EndToEnd.Trust

/-! The two results on any interleaving: nobody's name is used without the password, and
nobody gets the messages of another user. -/

namespace LetsChat.EndToEnd
open Lib Prog Machine PooledDbClient

variable {τ : Type}

theorem fetched_rows (e : LetsChat.Env) (site : Site) (uid last_msg_id : Int) (t : Tables)
    {msgs : List ChatMsg}
    (h : (List.range (e.pqExec site (.selectOfflineMsgs uid last_msg_id) t).1.ntuples).mapM
      (offlineMsg (e.pqExec site (.selectOfflineMsgs uid last_msg_id) t).1) = some msgs) :
    ∃ rows : List ChatMsgRow, msgs = rows.map ofRow ∧ (∀ r ∈ rows, r.to_uid = uid) ∧
      rows ⊆ t.t_chat_msg.rows := by
  rw [Env.pqExec_fst, e.serve_plain rfl] at h
  by_cases hdone : e.stmt site = .done
  · have hexec : (Query.exec (.selectOfflineMsgs uid last_msg_id) t).1 =
        .tuples ((offlineRows t uid last_msg_id).map Query.chatMsgCells) := rfl
    rw [if_pos hdone, hexec, PGresult.ntuples_tuples, List.length_map, offlineMsg_tuples,
      Option.some.injEq] at h
    have hfilter : ∀ r ∈ offlineRows t uid last_msg_id, r ∈ t.t_chat_msg.rows ∧ r.to_uid = uid := by
      intro r hr
      obtain ⟨hmem, hcond⟩ := List.mem_filter.mp (List.mem_of_mem_take hr)
      exact ⟨hmem, (of_decide_eq_true hcond).1⟩
    exact ⟨_, h.symm, fun r hr => (hfilter r hr).2, fun r hr => (hfilter r hr).1⟩
  · rw [if_neg hdone] at h
    obtain rfl := Option.some.inj h
    exact ⟨[], rfl, fun r hr => absurd hr List.not_mem_nil, List.nil_subset _⟩

section Steps
variable {gw : Gateway.Params} {json : Gateway.Nlohmann} {impl : LogicServiceImpl} {w : World}
variable {c c' : Running τ} {i : Input τ} {out : Output τ}

theorem Trusted.mayGet (hc : Trusted gw json impl w c) {call : Call τ} {e : Env} {past : Events τ}
    {rest : Prog (Op.Ret (τ := τ)) Answer} (ht : ⟨call, e, past, rest⟩ ∈ c.threads)
    {uid : Int} (h : MaySpeak call past uid) : Speaks c call uid := by
  rcases h with hrpc | ⟨ws, hsocket, hread, hne⟩
  · exact .inl hrpc
  · exact .inr ⟨ws, hsocket, hne, (hc.reads _ ht ws uid hread).resolve_left hne⟩

theorem Trusted.fetched (hc : Trusted gw json impl w c) {call : Call τ} {e : Env} {past : Events τ}
    {rest : Prog (Op.Ret (τ := τ)) Answer} (ht : ⟨call, e, past, rest⟩ ∈ c.threads)
    {uid : Int} {msgs : List ChatMsg} (h : Fetched uid msgs (logicEvents past)) :
    FromMailbox c uid msgs := by
  rcases h with rfl | ⟨site, last_msg_id, res, hmem, hmsgs⟩
  · exact ⟨[], rfl, fun r hr => absurd hr List.not_mem_nil, fun _ => List.nil_subset _⟩
  · exact hc.mail _ ht site uid last_msg_id res (mem_logicEvents.mp hmem) msgs hmsgs

theorem trusted_start (gw : Gateway.Params) (json : Gateway.Nlohmann) (impl : LogicServiceImpl)
    (w : World) :
    Trusted gw json impl w (⟨.start w, []⟩ : Running τ) where
  traced _ ht := absurd ht List.not_mem_nil
  uids _ _ hsocket := by cases hsocket
  sessions _ _ hentry := by cases hentry
  reads _ ht := absurd ht List.not_mem_nil
  mail _ ht := absurd ht List.not_mem_nil
  sent _ hp := absurd hp List.not_mem_nil
  stored _ _ hrow := .inl hrow

variable [DecidableEq τ]

theorem trusted_call (hc : Trusted gw json impl w c) (call : Call τ) (e : Env) :
    Trusted gw json impl w
      { c with threads := c.threads ++ [⟨call, e, [], body gw json impl call⟩] } := by
  have hstep : (interleaving (body gw json impl) (Env.exec gw)).step c (.call call e) = some _ := rfl
  have hgrows := grows_step hstep
  refine
    { traced := wellTraced_step hc.traced hstep
      uids := fun ws data hsocket => (hc.uids ws data hsocket).imp_right hgrows.proven
      sessions := fun uid ws hentry => hgrows.proven (hc.sessions uid ws hentry)
      reads := ?_
      mail := ?_
      sent := fun p hp => (hc.sent p hp).grows hgrows
      stored := fun hintended row hrow =>
        (hc.stored (hgrows.intended hintended) row hrow).imp_right (exists_speaks_grows hgrows) }
  · intro t ht ws uid hread
    rcases List.mem_append.mp ht with ht | ht
    · exact (hc.reads t ht ws uid hread).imp_right hgrows.proven
    · obtain rfl := List.mem_singleton.mp ht
      exact absurd hread List.not_mem_nil
  · intro t ht site uid last_msg_id res hmem msgs hmsgs
    rcases List.mem_append.mp ht with ht | ht
    · exact (hc.mail t ht site uid last_msg_id res hmem msgs hmsgs).grows hgrows
    · obtain rfl := List.mem_singleton.mp ht
      exact absurd hmem List.not_mem_nil

theorem trusted_pick (hc : Trusted gw json impl w c) {k : Nat} {call : Call τ} {e : Env}
    {past : Events τ} {o : Op τ} {next : o.Ret → Prog (Op.Ret (τ := τ)) Answer}
    (hk : c.threads[k]? = some ⟨call, e, past, .op o next⟩)
    (hc' : c' = ⟨(e.exec gw o c.shared).2, c.threads.set k
      ⟨call, e, past ++ [⟨o, (e.exec gw o c.shared).1⟩], next (e.exec gw o c.shared).1⟩⟩) :
    Trusted gw json impl w c' := by
  have hstep := interleaving_pick (body gw json impl) (Env.exec gw) hk
  rw [← hc'] at hstep
  have hgrows := grows_step hstep
  have hthread := List.mem_of_getElem? hk
  have hasks : Asks gw impl call past o := (disciplined_body json call).asks (hc.traced _ hthread)
  have hself : ⟨call, e, past ++ [⟨o, (e.exec gw o c.shared).1⟩], next (e.exec gw o c.shared).1⟩ ∈
      c'.threads := by
    rw [hc']
    exact mem_set_self hk _
  -- the call has given the password of the user whose session it enters
  have hentered : ∀ ws uid, o = .gateway ws (.setUid uid) ∨ o = .gateway ws (.addSession uid) →
      Proven c' ws uid := by
    intro ws uid ho
    obtain ⟨hsocket, hlogged⟩ := asks_enter hasks ho
    exact ⟨_, hself, hsocket, hlogged.more _⟩
  refine
    { traced := wellTraced_step hc.traced hstep
      uids := ?_
      sessions := ?_
      reads := ?_
      mail := ?_
      sent := ?_
      stored := ?_ } <;> subst hc'
  · intro ws data hsocket
    rcases sockets_exec gw e c.shared o hsocket with hold | hzero | ho
    · exact (hc.uids ws data hold).imp_right hgrows.proven
    · exact .inl hzero
    · exact .inr (hentered ws data.uid (.inl ho))
  · intro uid ws hentry
    rcases sessions_exec gw e c.shared o hentry with hold | ho
    · exact hgrows.proven (hc.sessions uid ws hold)
    · exact hentered ws uid (.inr ho)
  · intro t ht ws uid hread
    rcases List.mem_or_eq_of_mem_set ht with ht | rfl
    · exact (hc.reads t ht ws uid hread).imp_right hgrows.proven
    · rcases List.mem_append.mp hread with hread | hread
      · exact (hc.reads _ hthread ws uid hread).imp_right hgrows.proven
      · -- the uid is that of the socket
        obtain ⟨rfl, hres⟩ := Sigma.mk.inj_iff.mp (List.mem_singleton.mp hread)
        rw [heq_iff_eq] at hres
        have huid : uid = c.shared.gateway.uidOf ws := hres
        cases hsocket : c.shared.gateway.sockets ws with
        | opened data =>
          rw [Gateway.uidOf_opened hsocket] at huid
          rw [huid]
          exact (hc.uids ws data hsocket).imp_right hgrows.proven
        | unopened =>
          rw [Gateway.State.uidOf, hsocket] at huid
          exact .inl huid
        | closed =>
          rw [Gateway.State.uidOf, hsocket] at huid
          exact .inl huid
  · intro t ht site uid last_msg_id res hmem msgs hmsgs
    rcases List.mem_or_eq_of_mem_set ht with ht | rfl
    · exact (hc.mail t ht site uid last_msg_id res hmem msgs hmsgs).grows hgrows
    · rcases List.mem_append.mp hmem with hmem | hmem
      · exact (hc.mail _ hthread site uid last_msg_id res hmem msgs hmsgs).grows hgrows
      · obtain ⟨rfl, hres⟩ := Sigma.mk.inj_iff.mp (List.mem_singleton.mp hmem)
        rw [heq_iff_eq] at hres
        subst hres
        obtain ⟨rows, hrows, huid, hsub⟩ := fetched_rows e.logic site uid last_msg_id _ hmsgs
        exact ⟨rows, hrows, huid, fun hintended => List.Subset.trans hsub (hgrows.rows hintended)⟩
  · intro p hp
    rcases sent_exec gw e c.shared o hp with hold | ho | ⟨request, ho, hentry, hdata⟩
    · exact (hc.sent p hold).grows hgrows
    · subst ho
      obtain ⟨opCode, message, hcall, hearned⟩ := asks_send hasks
      have hframe : ∀ header cmd_id, Requests gw opCode message header cmd_id →
          Requested gw c p.1 header cmd_id :=
        fun _ _ hreq => ⟨opCode, message, ⟨_, hthread, hcall⟩, hreq⟩
      apply Delivered.grows hgrows
      generalize p.2 = data at hearned
      cases hearned with
      | login header res hreq => exact .login header res (hframe _ _ hreq)
      | sendMsg header res hreq => exact .sendMsg header res (hframe _ _ hreq)
      | mail header uid res hreq huid hfetched =>
        exact .mail header uid res (hframe _ _ hreq) (hc.reads _ hthread _ uid huid)
          (hc.fetched hthread hfetched)
      | getUploadUrl header res hreq => exact .getUploadUrl header res (hframe _ _ hreq)
    · rw [hdata]
      apply Delivered.grows hgrows
      have hproven := hc.sessions _ _ hentry
      rcases asks_push hasks ho with hcall | ⟨msg, rfl, hspeaks⟩
      · exact .outside request hproven ⟨_, hthread, hcall⟩
      · exact .push msg hproven ⟨_, hthread, hc.mayGet hthread hspeaks⟩
  · intro hintended row hrow
    have henv : e.logic.unquoted = Query.exec := hintended _ hself
    rcases rows_new_exec gw e c.shared o henv hrow with hold | ⟨site, now, rfl⟩
    · exact (hc.stored (hgrows.intended hintended) row hold).imp_right (exists_speaks_grows hgrows)
    · exact .inr ⟨_, hself, (hc.mayGet hthread (asks_insert hasks)).grows hgrows⟩

theorem trusted_step (hc : Trusted gw json impl w c)
    (h : (system gw json impl).step c i = some (out, c')) : Trusted gw json impl w c' := by
  rcases interleaving_step (restrict_step h).2 with
    ⟨call, e, rfl, rfl⟩ | ⟨k, call, e, past, o, next, rfl, hk, hc'⟩
  · exact trusted_call hc call e
  · exact trusted_pick hc hk hc'

theorem everyState_trusted (gw : Gateway.Params) (json : Gateway.Nlohmann)
    (impl : LogicServiceImpl) (w : World) (is : List (Input τ)) :
    (system gw json impl).EveryState (fun _ => Trusted gw json impl w) [] ⟨.start w, []⟩ is :=
  everyState_of_invariant (I := fun _ => Trusted gw json impl w) (fun _ _ _ _ _ => trusted_step)
    (trusted_start gw json impl w)

end Steps

def StoresOwn (c : Running τ) : Prop :=
  ∀ t ∈ c.threads, ∀ site msg_id from_uid to_uid content now, ∀ res : PGresult,
    ⟨.logic (.pqExec site (.insertChatMsg msg_id from_uid to_uid content now)), res⟩ ∈ t.past →
      Speaks c t.call from_uid

def RowsSpokenFor (w : World) (c : Running τ) : Prop :=
  Intended c → ∀ row ∈ chatRows c, row ∈ w.tables.t_chat_msg.rows ∨
    ∃ t ∈ c.threads, Speaks c t.call row.from_uid

theorem Trusted.storesOwn {gw : Gateway.Params} {json : Gateway.Nlohmann}
    {impl : LogicServiceImpl} {w : World}
    {c : Running τ} (hc : Trusted gw json impl w c) : StoresOwn c := by
  intro t ht site msg_id from_uid to_uid content now res hmem
  -- what the call has asked for, it has asked for at a point where it might
  obtain ⟨before, after, k, hpast, htrace⟩ := (hc.traced t ht).split hmem
  have hspeaks : MaySpeak t.call before from_uid :=
    asks_insert ((disciplined_body json t.call).asks htrace)
  rcases hspeaks with hrpc | ⟨ws, hsocket, hread, hne⟩
  · exact .inl hrpc
  · have hread' : ⟨.gateway ws .getUid, from_uid⟩ ∈ t.past := by
      rw [hpast]
      exact List.mem_append_left _ hread
    exact .inr ⟨ws, hsocket, hne, (hc.reads t ht ws from_uid hread').resolve_left hne⟩

/-- Over any interleaving of any calls, from any content of the database, no message is stored
in the name of a user whose password was not given on the socket that it comes from. -/
theorem names_are_proven [DecidableEq τ] (gw : Gateway.Params) (json : Gateway.Nlohmann)
    (impl : LogicServiceImpl) (w : World) (is : List (Input τ)) :
    (system gw json impl).EveryState (fun _ c => StoresOwn c ∧ RowsSpokenFor w c) [] ⟨.start w, []⟩
      is :=
  (everyState_trusted gw json impl w is).mono fun _ _ hc => ⟨hc.storesOwn, hc.stored⟩

def SameAccounts (t t' : Tables) : Prop := t' = { t with t_chat_msg := t'.t_chat_msg }

theorem sameAccounts_exec {q : Query} (hq : ChatStatement q) (t : Tables) :
    SameAccounts t (q.exec t).2 := by
  cases q with
  | selectUserPassword | selectFriend | insertChatMsg | selectOfflineMsgs => rfl
  | _ => exact hq.elim

theorem SameAccounts.trans {t t' t'' : Tables} (h : SameAccounts t t') (h' : SameAccounts t' t'') :
    SameAccounts t t'' :=
  Eq.trans h' (congrArg (fun s : Tables => { s with t_chat_msg := t''.t_chat_msg }) h)

def Call.chats : Call τ → Prop
  | .post _ _ => False
  | .rpc request => ofGateway request
  | _ => True

def OnlyChats (c : Running τ) : Prop := ∀ call, (∃ t ∈ c.threads, t.call = call) → call.chats

section Accounts
variable {gw : Gateway.Params} {impl : LogicServiceImpl}

theorem chatStatement_asked {call : Call τ} {past : Events τ} {site : Site} {q : Query}
    (hcall : call.chats) (h : Asks gw impl call past (.logic (.pqExec site q))) : ChatStatement q := by
  cases call with
  | onMessage => exact h.1
  | post => exact hcall.elim
  | rpc request => exact chatStatement_of_statement hcall h
  | _ => cases h

/-- Frames whose statements have their intended effect change neither users nor friends, whoever
sends them and in whatever order. -/
theorem frames_keep_accounts [DecidableEq τ] (gw : Gateway.Params) (json : Gateway.Nlohmann)
    (impl : LogicServiceImpl) (w : World) (is : List (Input τ)) :
    (system gw json impl).EveryState
      (fun _ c => Intended c → OnlyChats c → SameAccounts w.tables c.shared.world.tables) []
      ⟨.start w, []⟩ is := by
  refine EveryState.mono (fun _ _ hc => hc.2) (everyState_of_invariant
    (I := fun _ c => Trusted gw json impl w c ∧
      (Intended c → OnlyChats c → SameAccounts w.tables c.shared.world.tables))
    ?_ ⟨trusted_start gw json impl w, fun _ _ => rfl⟩)
  rintro h c i o c' ⟨hc, hsame⟩ hs
  refine ⟨trusted_step hc hs, fun hintended hfrom => ?_⟩
  have hgrows := grows_step (restrict_step hs).2
  have hold := hsame (hgrows.intended hintended) fun call hcall => hfrom call (hgrows.calls hcall)
  rcases interleaving_step (restrict_step hs).2 with
    ⟨call, e, rfl, rfl⟩ | ⟨k, call, e, past, op, next, rfl, hk, rfl⟩
  · exact hold
  · have hasks : Asks gw impl call past op :=
      (disciplined_body json call).asks (hc.traced _ (List.mem_of_getElem? hk))
    apply hold.trans
    rcases tables_exec gw e c.shared op with hkept | ⟨op, rfl, hop⟩
    · rw [hkept]
      rfl
    have henv : e.logic.unquoted = Query.exec := hintended _ (mem_set_self hk _)
    rw [hop]
    rcases exec_tables ⟨e.logic, henv⟩ c.shared.world op with hkept | ⟨site, q, rfl, hq⟩
    · rw [hkept]
      rfl
    · rw [hq]
      exact sameAccounts_exec (chatStatement_asked (hfrom call ⟨_, mem_set_self hk _, rfl⟩) hasks) _

end Accounts
end LetsChat.EndToEnd
