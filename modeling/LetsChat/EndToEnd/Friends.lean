import LetsChat.EndToEnd.Safety

/-! Messages are between friends, whatever is interleaved: the rows that are stored, the mail
that a synchronisation brings and the packets that are pushed. -/

namespace LetsChat.EndToEnd
open Lib Prog Machine PooledDbClient

variable {τ : Type}

theorem sawFriends_mono {a b : Int} {past past' : List (Event LetsChat.Op.Ret)}
    (h : SawFriends a b past) (hsub : past ⊆ past') : SawFriends a b past' := by
  obtain ⟨site, res, hmem, hres⟩ := h
  exact ⟨site, res, hsub hmem, hres⟩

def Careful (impl : LogicServiceImpl) (call : Call τ) (past : Events τ) : Op τ → Prop
  | .logic (.pqExec _ (.insertChatMsg _ from_uid to_uid _ _)) =>
    SawFriends from_uid to_uid (logicEvents past)
  | .logic (.pushMsg _ push_req) => ∃ msg : ChatMsg,
    push_req = ⟨msg.to_uid, packPushMsg impl.host impl.protobuf msg⟩ ∧
      SawFriends msg.from_uid msg.to_uid (logicEvents past)
  | .pushMsg request => call = .pushMsg request
  | _ => True

section Careful
variable {impl : LogicServiceImpl} {call : Call τ}

theorem careful_of_cautious {req : Request} {inner : List (Event LetsChat.Op.Ret)}
    {past : Events τ} (hsub : inner ⊆ logicEvents past) {o : LetsChat.Op}
    (h : Cautious req inner o ∧ Packs impl req o) : Careful impl call past (.logic o) := by
  obtain ⟨hcautious, hpacks⟩ := h
  cases o with
  | pqExec site q =>
    cases q with
    | insertChatMsg =>
      have hsaw : SawFriends _ _ inner := hcautious
      exact sawFriends_mono hsaw hsub
    | _ => trivial
  | pushMsg addr push_req =>
    obtain ⟨r, hreq, hpush⟩ := hpacks
    obtain ⟨r', hreq', hsaw⟩ := hcautious
    obtain rfl : r = r' := Request.sendMsg.inj (hreq.symm.trans hreq')
    exact ⟨r.msg, hpush, sawFriends_mono hsaw hsub⟩
  | _ => trivial

variable {α : Type} {p : Prog LetsChat.Op.Ret α}

theorem careful_served (req : Request) (hp : p.Disciplined (Cautious req) [])
    (hpacks : p.Within (Packs impl req)) (past : Events τ) :
    (p.interpret served).Disciplined (Careful impl call) past := by
  refine (hp.within hpacks).interpret (renders_served past) ?_ (List.append_nil past).symm
  rintro o _ inner rfl ho
  refine ⟨careful_of_cautious ?_ ho, fun _ => trivial⟩
  rw [logicEvents_append, logicEvents_ofLogic]
  exact List.subset_append_right _ _

theorem careful_remote (req : Request) (hp : p.Disciplined (Cautious req) [])
    (hpacks : p.Within (Packs impl req)) (past : Events τ) :
    (remote p).Disciplined (Careful impl call) past := by
  have hserved : ∀ past : Events τ,
      (p.interpret served).attempt.Disciplined (Careful impl call) past := fun past =>
    disciplined_attempt (careful_served req hp hpacks past)
  unfold remote
  rw [perform_bind]
  refine ⟨trivial, fun link => ?_⟩
  cases link with
  | failed => trivial
  | done => exact hserved _
  | lost => exact disciplined_bind (hserved _) fun _ _ => trivial

theorem careful_body (gw : Gateway.Params) (json : Gateway.Nlohmann) (impl : LogicServiceImpl)
    (call : Call τ) : (body gw json impl call).Disciplined (Careful impl call) [] := by
  have hremote : ∀ {α : Type} {p : Prog LetsChat.Op.Ret α} (make : α → Reply) (req : Request),
      handle impl req = make <$> p → ∀ past : Events τ,
        (remote p).Disciplined (Careful impl call) past := by
    intro α p make req heq past
    have hcautious := disciplined_handle impl req
    have hpacks := within_packs impl req
    rw [heq] at hcautious hpacks
    exact careful_remote req (disciplined_of_map hcautious) (within_of_map hpacks) past
  cases call with
  | onOpen | onClose => exact ⟨trivial, fun _ => trivial⟩
  | onMessage ws opCode message =>
    refine disciplined_bind (Within.disciplined_interpret (P := fun _ => True) (fun o _ past => ?_)
      (within_of_forall (fun _ => trivial) _) []) fun _ _ => trivial
    cases o with
    | login req => exact hremote .login (.login req) rfl past
    | sendMsg req => exact hremote .sendMsg (.sendMsg req) rfl past
    | syncMsg req => exact hremote .syncMsg (.syncMsg req) rfl past
    | getUploadUrl req => exact hremote .getUploadUrl (.getUploadUrl req) rfl past
    | _ => exact ⟨trivial, fun _ => trivial⟩
  | post api buffer =>
    refine disciplined_map _ (Within.disciplined_interpret (P := fun _ => True)
      (fun o _ past => ?_) (within_of_forall (fun _ => trivial) _) [])
    cases o with
    | registerUser rpc_req => exact hremote .registerUser (.registerUser rpc_req) rfl past
    | httpLogin rpc_req => exact hremote .httpLogin (.httpLogin rpc_req) rfl past
  | rpc request =>
    exact disciplined_map _
      (careful_served request (disciplined_handle impl request) (within_packs impl request) [])
  | pushMsg request => exact ⟨rfl, fun _ => trivial⟩

end Careful

def tables (c : Running τ) : Tables := c.shared.world.tables

/-- What a socket is given holds no message but between friends. Only a client of the gateway's
own service may send anything else. -/
inductive BetweenFriends (gw : Gateway.Params) (impl : LogicServiceImpl) (c : Running τ) :
    Bytes → Prop
  | login (header : PacketHeader) (res : LoginRes) :
    BetweenFriends gw impl c
      (Gateway.replyFrame gw.host header 0x1002 (gw.protobuf.serializeLoginRes res))
  | sendMsg (header : PacketHeader) (res : MsgSendRes) :
    BetweenFriends gw impl c
      (Gateway.replyFrame gw.host header 0x1004 (gw.protobuf.serializeMsgSendRes res))
  | mail (header : PacketHeader) (res : SyncMsgRes) :
    (∀ msg ∈ res.msgs, Befriended (tables c) msg.from_uid msg.to_uid) →
    BetweenFriends gw impl c
      (Gateway.replyFrame gw.host header 0x1007 (gw.protobuf.serializeSyncMsgRes res))
  | getUploadUrl (header : PacketHeader) (res : GetUploadUrlRes) :
    BetweenFriends gw impl c
      (Gateway.replyFrame gw.host header 0x1009 (gw.protobuf.serializeGetUploadUrlRes res))
  | push (msg : ChatMsg) :
    Befriended (tables c) msg.from_uid msg.to_uid →
    BetweenFriends gw impl c (packPushMsg impl.host impl.protobuf msg)
  | outside (request : PushMsgReq) :
    (∃ t ∈ c.threads, t.call = .pushMsg request) → BetweenFriends gw impl c request.content

structure Friendly (gw : Gateway.Params) (impl : LogicServiceImpl) (c : Running τ) : Prop where
  seen : ∀ t ∈ c.threads, ∀ a b, SawFriends a b (logicEvents t.past) → Befriended (tables c) a b
  rows : StoredForFriends c.shared.world
  sent : ∀ p ∈ c.shared.sent, BetweenFriends gw impl c p.2

section Grows
variable {c c' : Running τ}

theorem BetweenFriends.grows {gw : Gateway.Params} {impl : LogicServiceImpl} {data : Bytes}
    (h : BetweenFriends gw impl c data)
    (hstay : ∀ a b, Befriended (tables c) a b → Befriended (tables c') a b)
    (hcalls : ∀ {call}, (∃ t ∈ c.threads, t.call = call) → ∃ t ∈ c'.threads, t.call = call) :
    BetweenFriends gw impl c' data := by
  cases h with
  | login header res => exact .login header res
  | sendMsg header res => exact .sendMsg header res
  | mail header res hmsgs => exact .mail header res fun msg hmsg => hstay _ _ (hmsgs msg hmsg)
  | getUploadUrl header res => exact .getUploadUrl header res
  | push msg hfriends => exact .push msg (hstay _ _ hfriends)
  | outside request hcall => exact .outside request (hcalls hcall)

end Grows

section Steps
variable {gw : Gateway.Params} {json : Gateway.Nlohmann} {impl : LogicServiceImpl} {w : World}
variable {c c' : Running τ}

theorem Friendly.mailbox (hc : Friendly gw impl c) (hintended : Intended c) {uid : Int}
    {msgs : List ChatMsg} (h : FromMailbox c uid msgs) :
    ∀ msg ∈ msgs, Befriended (tables c) msg.from_uid msg.to_uid := by
  obtain ⟨rows, rfl, -, hrows⟩ := h
  intro msg hmsg
  obtain ⟨row, hrow, rfl⟩ := List.mem_map.mp hmsg
  exact hc.rows row (hrows hintended hrow)

theorem friendly_call (hc : Friendly gw impl c) (call : Call τ) (e : Env)
    (rest : Prog (Op.Ret (τ := τ)) Answer) :
    Friendly gw impl { c with threads := c.threads ++ [⟨call, e, [], rest⟩] } where
  seen t ht a b hsaw := by
    rcases List.mem_append.mp ht with ht | ht
    · exact hc.seen t ht a b hsaw
    · obtain rfl := List.mem_singleton.mp ht
      obtain ⟨_, _, hmem, -⟩ := hsaw
      exact absurd hmem List.not_mem_nil
  rows := hc.rows
  sent p hp := (hc.sent p hp).grows (fun _ _ h => h) fun ⟨t, ht, hcall⟩ =>
    ⟨t, List.mem_append_left _ ht, hcall⟩

variable [DecidableEq τ]

theorem befriended_op_exec {e : Env} (hintended : e.logic.unquoted = Query.exec) (o : Op τ)
    {s : State τ} {a b : Int} (h : Befriended s.world.tables a b) :
    Befriended (e.exec gw o s).2.world.tables a b := by
  rcases tables_exec gw e s o with hsame | ⟨op, rfl, hop⟩
  · rwa [hsame]
  · rw [hop]
    exact befriended_op ⟨e.logic, hintended⟩ s.world h op

theorem friendly_pick (htrusted : Trusted gw json impl w c) (hc : Friendly gw impl c)
    {k : Nat} {call : Call τ} {e : Env} {past : Events τ} {o : Op τ}
    {next : o.Ret → Prog (Op.Ret (τ := τ)) Answer}
    (hk : c.threads[k]? = some ⟨call, e, past, .op o next⟩)
    (hc' : c' = ⟨(e.exec gw o c.shared).2, c.threads.set k
      ⟨call, e, past ++ [⟨o, (e.exec gw o c.shared).1⟩], next (e.exec gw o c.shared).1⟩⟩)
    (hintended : Intended c') : Friendly gw impl c' := by
  have hstep := interleaving_pick (body gw json impl) (Env.exec gw) hk
  rw [← hc'] at hstep
  have hgrows := grows_step hstep
  have hthread := List.mem_of_getElem? hk
  have hcareful := (careful_body gw json impl call).asks (htrusted.traced _ hthread)
  have henv : e.logic.unquoted = Query.exec := by
    subst hc'
    exact hintended _ (mem_set_self hk _)
  have hstay : ∀ a b, Befriended (tables c) a b → Befriended (tables c') a b := by
    subst hc'
    exact fun a b => befriended_op_exec henv o
  have hkept : ∀ {data}, BetweenFriends gw impl c data → BetweenFriends gw impl c' data :=
    fun h => h.grows hstay hgrows.calls
  refine { seen := ?_, rows := ?_, sent := ?_ }
  · intro t ht a b hsaw
    rw [hc'] at ht
    rcases List.mem_or_eq_of_mem_set ht with ht | rfl
    · exact hstay a b (hc.seen t ht a b hsaw)
    · obtain ⟨site, res, hmem, hstatus, hne⟩ := hsaw
      rcases List.mem_append.mp (mem_logicEvents.mp hmem) with hmem | hmem
      · exact hstay a b (hc.seen _ hthread a b ⟨site, res, mem_logicEvents.mpr hmem, hstatus, hne⟩)
      · -- the call has just read it
        obtain ⟨rfl, hres⟩ := Sigma.mk.inj_iff.mp (List.mem_singleton.mp hmem).symm
        rw [heq_iff_eq] at hres
        have hread : (e.logic.pqExec site (.selectFriend a b) c.shared.world.tables).1 = res := hres
        rw [← hread] at hstatus hne
        exact hstay a b (befriended_of_selectFriend ⟨e.logic, henv⟩ c.shared.world hstatus hne)
  · intro row hrow
    have hnew : row ∈ c.shared.world.tables.t_chat_msg.rows ∨ ∃ site now, o =
        .logic (.pqExec site (.insertChatMsg row.msg_id row.from_uid row.to_uid row.content now)) := by
      subst hc'
      exact rows_new_exec gw e c.shared o henv hrow
    rcases hnew with hold | ⟨site, now, rfl⟩
    · exact hstay _ _ (hc.rows row hold)
    · exact hstay _ _ (hc.seen _ hthread _ _ hcareful)
  · intro p hp
    have hsent := hp
    rw [hc'] at hsent
    rcases sent_exec gw e c.shared o hsent with hold | rfl | ⟨request, ho, -, hdata⟩
    · exact hkept (hc.sent p hold)
    · apply hkept
      obtain ⟨_, _, -, hearned⟩ :=
        asks_send ((disciplined_body json call).asks (htrusted.traced _ hthread))
      generalize p.2 = data at hearned
      cases hearned with
      | login header res => exact .login header res
      | sendMsg header res => exact .sendMsg header res
      | mail header uid res _ _ hfetched =>
        exact .mail header res (hc.mailbox (hgrows.intended hintended)
          (htrusted.fetched hthread hfetched))
      | getUploadUrl header res => exact .getUploadUrl header res
    · rw [hdata]
      apply hkept
      cases o with
      | logic op =>
        cases op with
        | pushMsg addr push_req =>
          obtain rfl : push_req = request := ho
          obtain ⟨msg, rfl, hsaw⟩ := hcareful
          exact .push msg (hc.seen _ hthread _ _ hsaw)
        | _ => exact ho.elim
      | pushMsg req =>
        obtain rfl : req = request := ho
        exact .outside req ⟨_, hthread, hcareful⟩
      | _ => exact ho.elim

end Steps

def Befitting (w : World) (c : Running τ) : Prop := StoredForFriends w ∧ Intended c

theorem everyState_friendly [DecidableEq τ] (gw : Gateway.Params) (json : Gateway.Nlohmann)
    (impl : LogicServiceImpl) (w : World) (is : List (Input τ)) :
    (system gw json impl).EveryState
      (fun _ c => Trusted gw json impl w c ∧ (Befitting w c → Friendly gw impl c)) []
      ⟨.start w, []⟩ is := by
  refine everyState_of_invariant
    (I := fun _ c => Trusted gw json impl w c ∧ (Befitting w c → Friendly gw impl c)) ?_
    ⟨trusted_start gw json impl w, fun hw => ?_⟩
  · rintro h c i out c' ⟨htrusted, hc⟩ hs
    refine ⟨trusted_step htrusted hs, fun hw => ?_⟩
    have hstep := (restrict_step hs).2
    have hfriendly := hc ⟨hw.1, (grows_step hstep).intended hw.2⟩
    rcases interleaving_step hstep with
      ⟨call, e, rfl, rfl⟩ | ⟨k, call, e, past, o, next, rfl, hk, hc'⟩
    · exact friendly_call hfriendly call e _
    · exact friendly_pick htrusted hfriendly hk hc' hw.2
  · exact ⟨fun t ht => absurd ht List.not_mem_nil, hw.1, fun p hp => absurd hp List.not_mem_nil⟩

/-- Over any interleaving each message that is stored, synchronised or pushed is between
friends. -/
theorem mail_comes_from_friends [DecidableEq τ] (gw : Gateway.Params) (json : Gateway.Nlohmann)
    (impl : LogicServiceImpl) (w : World) (is : List (Input τ)) :
    (system gw json impl).EveryState
      (fun _ c => Befitting w c → StoredForFriends c.shared.world ∧
        ∀ p ∈ c.shared.sent, BetweenFriends gw impl c p.2) [] ⟨.start w, []⟩ is :=
  (everyState_friendly gw json impl w is).mono fun _ _ hc hw =>
    ⟨(hc.2 hw).rows, (hc.2 hw).sent⟩

end LetsChat.EndToEnd
