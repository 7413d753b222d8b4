import LetsChat.EndToEnd.Calls

/-! What each call may ask for, given what it has done: a handler of the gateway speaks for a
socket only as the user it has read there, enters a session only after the password was found
right, and sends only what an RPC has answered. -/

namespace LetsChat.EndToEnd
open Lib Prog PooledDbClient

structure Requests (gw : Gateway.Params) (opCode : Gateway.OpCode) (message : Bytes)
    (header : PacketHeader) (cmd_id : BitVec 16) : Prop where
  binary : opCode = .BINARY
  whole : HEADER_LEN ≤ message.length
  decoded : header = decodeHeader gw.host message
  asked : header.cmd_id = cmd_id

inductive Answered (gw : Gateway.Params) (opCode : Gateway.OpCode) (message : Bytes)
    (past : List (Event Gateway.Op.Ret)) : Bytes → Prop
  | login (header : PacketHeader) (req : LoginReq) (res : LoginRes) :
    Requests gw opCode message header 0x1001 → ⟨.login req, some res⟩ ∈ past →
    Answered gw opCode message past
      (Gateway.replyFrame gw.host header 0x1002 (gw.protobuf.serializeLoginRes res))
  | sendMsg (header : PacketHeader) (req : MsgSendReq) (res : MsgSendRes) :
    Requests gw opCode message header 0x1003 → ⟨.sendMsg req, some res⟩ ∈ past →
    Answered gw opCode message past
      (Gateway.replyFrame gw.host header 0x1004 (gw.protobuf.serializeMsgSendRes res))
  | syncMsg (header : PacketHeader) (req : SyncMsgReq) (res : SyncMsgRes) :
    Requests gw opCode message header 0x1006 →
    ⟨.getUid, req.uid⟩ ∈ past → ⟨.syncMsg req, some res⟩ ∈ past →
    Answered gw opCode message past
      (Gateway.replyFrame gw.host header 0x1007 (gw.protobuf.serializeSyncMsgRes res))
  | getUploadUrl (header : PacketHeader) (req : GetUploadUrlReq) (res : GetUploadUrlRes) :
    Requests gw opCode message header 0x1008 → ⟨.getUploadUrl req, some res⟩ ∈ past →
    Answered gw opCode message past
      (Gateway.replyFrame gw.host header 0x1009 (gw.protobuf.serializeGetUploadUrlRes res))

def Polite (gw : Gateway.Params) (opCode : Gateway.OpCode) (message : Bytes)
    (past : List (Event Gateway.Op.Ret)) : Gateway.Op → Prop
  | .sendMsg req => ⟨.getUid, req.msg.from_uid⟩ ∈ past ∧ req.msg.from_uid ≠ 0
  | .setUid uid | .addSession uid => ∃ buffer n req res,
    ⟨.parseLoginReq buffer n, some req⟩ ∈ past ∧ ⟨.login req, some res⟩ ∈ past ∧
      res.err_code = .ERR_SUCCESS ∧ req.uid = uid
  | .send data => Answered gw opCode message past data
  | _ => True

section Gateway
variable {gw : Gateway.Params} {opCode : Gateway.OpCode} {header : PacketHeader} {message : Bytes}

theorem polite_onLogin (hreq : Requests gw opCode message header 0x1001) :
    (Gateway.onLogin gw header message).Disciplined (Polite gw opCode message) [] := by
  unfold Gateway.onLogin
  simp only [perform_bind]
  refine ⟨trivial, fun req => ?_⟩
  cases req with
  | none => trivial
  | some req =>
    refine ⟨trivial, fun res => ?_⟩
    cases res with
    | none => trivial
    | some res =>
      by_cases hok : res.err_code = .ERR_SUCCESS
      · simp only [Gateway.enter, hok, ne_eq, not_true_eq_false, if_false, perform_bind, op_bind]
        refine ⟨⟨message, _, req, res, .head _, by simp, hok, rfl⟩, fun _ => ?_⟩
        refine ⟨⟨message, _, req, res, .head _, by simp, hok, rfl⟩, fun _ => ?_⟩
        exact ⟨.login header req res hreq (by simp), fun _ => trivial⟩
      · simp only [Gateway.enter, hok, ne_eq, not_false_eq_true, if_true, pure_eq, ret_bind]
        exact ⟨.login header req res hreq (by simp), fun _ => trivial⟩

theorem polite_onSendMsg (hreq : Requests gw opCode message header 0x1003) :
    (Gateway.onSendMsg gw header message).Disciplined (Polite gw opCode message) [] := by
  refine disciplined_ite.mpr ⟨fun _ => trivial, fun _ => ⟨trivial, fun req => ?_⟩⟩
  cases req with
  | none => trivial
  | some req =>
    refine ⟨trivial, fun current_id => disciplined_ite.mpr ⟨fun _ => trivial, fun hlogged => ?_⟩⟩
    refine ⟨⟨by simp, hlogged⟩, fun res => ?_⟩
    cases res with
    | none => trivial
    | some res =>
      refine ⟨.sendMsg header { msg := { req.msg with from_uid := current_id } } res hreq ?_,
        fun _ => trivial⟩
      exact List.mem_append_right _ (List.mem_singleton.mpr rfl)

theorem polite_onSyncMsg (hreq : Requests gw opCode message header 0x1006) :
    (Gateway.onSyncMsg gw header message).Disciplined (Polite gw opCode message) [] := by
  refine disciplined_ite.mpr ⟨fun _ => trivial, fun _ => ⟨trivial, fun req => ?_⟩⟩
  cases req with
  | none => trivial
  | some req =>
    refine ⟨trivial, fun uid => ⟨trivial, fun res => ?_⟩⟩
    cases res with
    | none => trivial
    | some res =>
      exact ⟨.syncMsg header { req with uid } res hreq (by simp) (by simp), fun _ => trivial⟩

theorem polite_onGetUploadUrl (hreq : Requests gw opCode message header 0x1008) :
    (Gateway.onGetUploadUrl gw header message).Disciplined (Polite gw opCode message) [] := by
  refine disciplined_ite.mpr ⟨fun _ => trivial, fun _ => ⟨trivial, fun req => ?_⟩⟩
  cases req with
  | none => trivial
  | some req =>
    refine ⟨trivial, fun uid => ⟨trivial, fun res => ?_⟩⟩
    cases res with
    | none => trivial
    | some res =>
      exact ⟨.getUploadUrl header { req with uid } res hreq (by simp), fun _ => trivial⟩

theorem polite_onMessage (gw : Gateway.Params) (opCode : Gateway.OpCode) (message : Bytes) :
    (Gateway.onMessage gw opCode message).Disciplined (Polite gw opCode message) [] := by
  refine disciplined_ite.mpr ⟨fun _ => trivial, fun hbinary => ?_⟩
  refine disciplined_ite.mpr ⟨fun _ => trivial, fun hwhole => ?_⟩
  have hreq : ∀ cmd_id, (decodeHeader gw.host message).cmd_id = cmd_id →
      Requests gw opCode message (decodeHeader gw.host message) cmd_id :=
    fun _ hcmd => ⟨not_not.mp hbinary, Nat.le_of_not_lt hwhole, rfl, hcmd⟩
  refine disciplined_ite.mpr ⟨fun hcmd => polite_onLogin (hreq _ hcmd), fun _ => ?_⟩
  refine disciplined_ite.mpr ⟨fun hcmd => polite_onSendMsg (hreq _ hcmd), fun _ => ?_⟩
  refine disciplined_ite.mpr ⟨fun hcmd => polite_onSyncMsg (hreq _ hcmd), fun _ => ?_⟩
  exact disciplined_ite.mpr ⟨fun hcmd => polite_onGetUploadUrl (hreq _ hcmd), fun _ => trivial⟩

end Gateway

def RightToken (uid : Int) (token : Text) (past : List (Event LetsChat.Op.Ret)) : Prop :=
  ∃ site, ∃ res : PGresult, ⟨.pqExec site (.selectUserPassword uid), res⟩ ∈ past ∧
    res.status = .PGRES_TUPLES_OK ∧ 0 < res.ntuples ∧ res.getvalue 0 0 = token ∧ token ≠ []

def Fetched (uid : Int) (msgs : List ChatMsg) (past : List (Event LetsChat.Op.Ret)) : Prop :=
  msgs = [] ∨ ∃ site last_msg_id, ∃ res : PGresult,
    ⟨.pqExec site (.selectOfflineMsgs uid last_msg_id), res⟩ ∈ past ∧
      (List.range res.ntuples).mapM (offlineMsg res) = some msgs

theorem concludes_getUserPassword (uid : Int) :
    (getUserPassword uid).Concludes (fun past pw => pw ≠ [] → RightToken uid pw past) [] := by
  intro g
  cases g with
  | false => exact fun hne => absurd rfl hne
  | true =>
    intro res
    refine concludes_ite.mpr ⟨fun _ hne => absurd rfl hne, fun hstatus => ?_⟩
    refine concludes_ite.mpr ⟨fun hrows hne => ?_, fun _ hne => absurd rfl hne⟩
    exact ⟨_, res, List.mem_append_right _ (List.mem_singleton.mpr rfl), not_not.mp hstatus, hrows,
      rfl, hne⟩

theorem concludes_login (request : LoginReq) :
    (LogicServiceImpl.login request).Concludes
      (fun past res => res.err_code = .ERR_SUCCESS → RightToken request.uid request.token past) [] := by
  refine concludes_bind (Concludes.mono (fun past pw hread => ?_) (concludes_getUserPassword _))
  refine concludes_ite.mpr ⟨fun haccept => ?_, fun _ hok => by cases hok⟩
  have hright : RightToken request.uid request.token past := haccept.2 ▸ hread haccept.1
  refine concludes_bind (Concludes.mono (fun past _ h _ => h) (concludes_of_stable ?_ hright _))
  rintro past ev ⟨site, res, hmem, hres⟩
  exact ⟨site, res, List.mem_append_left _ hmem, hres⟩

theorem concludes_syncMsg (request : SyncMsgReq) :
    (LogicServiceImpl.syncMsg request).Concludes
      (fun past res => Fetched request.uid res.msgs past) [] := by
  apply concludes_bind
  intro g
  cases g with
  | false => exact .inl rfl
  | true =>
    intro res
    refine concludes_ite.mpr ⟨fun _ => .inl rfl, fun _ => ?_⟩
    cases hmsgs : (List.range res.ntuples).mapM (offlineMsg res) with
    | none => trivial
    | some msgs =>
      exact .inr ⟨_, _, res, List.mem_append_right _ (List.mem_singleton.mpr rfl), hmsgs⟩

def Packs (impl : LogicServiceImpl) (req : Request) : LetsChat.Op → Prop
  | .pushMsg _ push_req => ∃ r, req = .sendMsg r ∧
    push_req = ⟨r.msg.to_uid, packPushMsg impl.host impl.protobuf r.msg⟩
  | o => req.touches o

theorem packs_of_touches {impl : LogicServiceImpl} {req : Request} {o : LetsChat.Op}
    (hreq : ∀ r, req ≠ .sendMsg r) (h : req.touches o) : Packs impl req o := by
  cases o with
  | pushMsg addr push_req =>
    obtain ⟨r, heq, -⟩ := h
    exact absurd heq (hreq r)
  | _ => exact h

theorem within_packs (impl : LogicServiceImpl) (req : Request) :
    (handle impl req).Within (Packs impl req) := by
  cases req with
  | sendMsg r =>
    have hdb : ∀ {α : Type} {p : Prog LetsChat.Op.Ret α},
        p.Within (Statements (Request.sendMsg r).statement) →
          p.Within (Packs impl (.sendMsg r)) := by
      refine fun hp => hp.mono fun o ho => ?_
      have htouches := (Request.sendMsg r).touches_of_statements ho
      cases o with
      | pushMsg => exact ho.1.elim
      | _ => exact htouches
    rw [handle, LogicServiceImpl.sendMsg_eq]
    refine within_map _ (within_bind (hdb (within_areFriends (.inl rfl))) fun friends => ?_)
    refine within_ite.mpr ⟨fun _ => trivial, fun _ => ?_⟩
    refine within_bind ⟨trivial, fun _ => trivial⟩ fun msg_id => ?_
    refine within_bind (hdb (within_saveMessage fun now => .inr ⟨_, _, rfl⟩)) fun saved => ?_
    apply within_bind (within_get trivial trivial)
    intro addr
    refine within_bind ?_ fun _ => ⟨trivial, fun _ => trivial⟩
    cases addr with
    | none => trivial
    | some addr => exact ⟨⟨r, rfl, rfl⟩, fun _ => trivial⟩
  | _ =>
    refine (LogicServiceImpl.within_handle impl _).mono fun o => packs_of_touches ?_
    intro r heq
    cases heq

section Both
variable {τ : Type}

abbrev Events (τ : Type) := List (Event (Op.Ret (τ := τ)))

def ofLogic (ev : Event LetsChat.Op.Ret) : Event (Op.Ret (τ := τ)) := ⟨.logic ev.1, ev.2⟩

def toLogic : Event (Op.Ret (τ := τ)) → Option (Event LetsChat.Op.Ret)
  | ⟨.logic o, r⟩ => some ⟨o, r⟩
  | _ => none

def logicEvents (past : Events τ) : List (Event LetsChat.Op.Ret) := past.filterMap toLogic

theorem mem_logicEvents {past : Events τ} {ev : Event LetsChat.Op.Ret} :
    ev ∈ logicEvents past ↔ ofLogic ev ∈ past := by
  rw [logicEvents, List.mem_filterMap]
  constructor
  · rintro ⟨⟨o, r⟩, hmem, hev⟩
    cases o with
    | logic o =>
      cases hev
      exact hmem
    | _ => cases hev
  · exact fun hmem => ⟨_, hmem, rfl⟩

theorem logicEvents_append (past more : Events τ) :
    logicEvents (past ++ more) = logicEvents past ++ logicEvents more :=
  List.filterMap_append

theorem logicEvents_ofLogic (inner : List (Event LetsChat.Op.Ret)) :
    logicEvents (inner.map ofLogic : Events τ) = inner := by
  rw [logicEvents, List.filterMap_map]
  exact List.filterMap_some

theorem logicEvents_append_subset (past more : Events τ) :
    logicEvents past ⊆ logicEvents (past ++ more) := by
  rw [logicEvents_append]
  exact List.subset_append_left _ _

theorem RightToken.mono {uid : Int} {token : Text} {past past' : List (Event LetsChat.Op.Ret)}
    (h : RightToken uid token past) (hsub : past ⊆ past') : RightToken uid token past' := by
  obtain ⟨site, res, hmem, hres⟩ := h
  exact ⟨site, res, hsub hmem, hres⟩

theorem Fetched.mono {uid : Int} {msgs : List ChatMsg} {past past' : List (Event LetsChat.Op.Ret)}
    (h : Fetched uid msgs past) (hsub : past ⊆ past') : Fetched uid msgs past' := by
  rcases h with hnil | ⟨site, last_msg_id, res, hmem, hmsgs⟩
  · exact .inl hnil
  · exact .inr ⟨site, last_msg_id, res, hsub hmem, hmsgs⟩

theorem renders_served (past : Events τ) :
    Renders (served (τ := τ)) fun fine coarse => fine = past ++ coarse.map ofLogic :=
  renders_map fun _ _ _ => rfl

theorem concludes_served {α : Type} {Q : List (Event LetsChat.Op.Ret) → α → Prop}
    {p : Prog LetsChat.Op.Ret α} (hp : p.Concludes Q []) (past : Events τ) :
    (p.interpret served).Concludes
      (fun fine a => ∃ inner, inner <:+ logicEvents fine ∧ Q inner a) past := by
  apply (hp.interpret (renders_served past) (List.append_nil past).symm).mono
  intro fine a h
  obtain ⟨inner, rfl, hq⟩ := h
  refine ⟨inner, ?_, hq⟩
  rw [logicEvents_append, logicEvents_ofLogic]
  exact List.suffix_append _ _

theorem concludes_remote {α : Type} {Q : List (Event LetsChat.Op.Ret) → α → Prop}
    {p : Prog LetsChat.Op.Ret α} (hp : p.Concludes Q []) (past : Events τ) :
    (remote p).Concludes
      (fun fine res => ∀ a, res = some a → ∃ inner, inner <:+ logicEvents fine ∧ Q inner a) past := by
  unfold remote
  rw [perform_bind]
  intro link
  cases link with
  | failed => exact fun a ha => by cases ha
  | done => exact concludes_attempt (concludes_served hp _)
  | lost =>
    refine concludes_bind (concludes_of_forall (fun _ _ => ?_) _)
    exact fun a ha => by cases ha

theorem within_remote {α : Type} {P : LetsChat.Op → Prop} {P' : Op τ → Prop}
    {p : Prog LetsChat.Op.Ret α} (hp : p.Within P) (hlink : P' .link)
    (hop : ∀ o, P o → P' (.logic o)) : (remote p).Within P' := by
  have hserved : (p.interpret served).attempt.Within P' :=
    within_attempt (hp.interpret fun o ho => (within_perform _).mpr (hop o ho))
  unfold remote
  rw [perform_bind]
  refine ⟨hlink, fun link => ?_⟩
  cases link with
  | failed => trivial
  | done => exact hserved
  | lost => exact within_bind hserved fun _ => trivial

/-- What the events of a handler say about the operations that it has been given. -/
structure Carried (ws : τ) (fine : Events τ) (coarse : List (Event Gateway.Op.Ret)) : Prop where
  own : ∀ o r, ⟨o, r⟩ ∈ coarse → Gateway.isRpc o = false → ⟨.gateway ws o, r⟩ ∈ fine
  login : ∀ req res, ⟨.login req, some res⟩ ∈ coarse → res.err_code = .ERR_SUCCESS →
    RightToken req.uid req.token (logicEvents fine)
  syncMsg : ∀ req res, ⟨.syncMsg req, some res⟩ ∈ coarse →
    Fetched req.uid res.msgs (logicEvents fine)

theorem Carried.more {ws : τ} {fine : Events τ} {coarse : List (Event Gateway.Op.Ret)}
    (h : Carried ws fine coarse) (more : Events τ) : Carried ws (fine ++ more) coarse where
  own o r hmem hown := List.mem_append_left _ (h.own o r hmem hown)
  login req res hmem hok := (h.login req res hmem hok).mono (logicEvents_append_subset fine more)
  syncMsg req res hmem := (h.syncMsg req res hmem).mono (logicEvents_append_subset fine more)

theorem Carried.snoc {ws : τ} {fine : Events τ} {coarse : List (Event Gateway.Op.Ret)}
    (h : Carried ws fine coarse) {ev : Event Gateway.Op.Ret}
    (hown : Gateway.isRpc ev.1 = false → ⟨.gateway ws ev.1, ev.2⟩ ∈ fine)
    (hlogin : ∀ req res, ev = ⟨.login req, some res⟩ → res.err_code = .ERR_SUCCESS →
      RightToken req.uid req.token (logicEvents fine))
    (hsync : ∀ req res, ev = ⟨.syncMsg req, some res⟩ →
      Fetched req.uid res.msgs (logicEvents fine)) : Carried ws fine (coarse ++ [ev]) where
  own o r hmem hrpc := by
    rcases List.mem_append.mp hmem with hmem | hmem
    · exact h.own o r hmem hrpc
    · obtain rfl := List.mem_singleton.mp hmem
      exact hown hrpc
  login req res hmem hok := by
    rcases List.mem_append.mp hmem with hmem | hmem
    · exact h.login req res hmem hok
    · exact hlogin req res (List.mem_singleton.mp hmem).symm hok
  syncMsg req res hmem := by
    rcases List.mem_append.mp hmem with hmem | hmem
    · exact h.syncMsg req res hmem
    · exact hsync req res (List.mem_singleton.mp hmem).symm

theorem renders_carriedOut (impl : LogicServiceImpl) (ws : τ) :
    Renders (carriedOut impl ws) (Carried ws) := by
  intro o fine coarse h
  have hstable : (carriedOut impl ws o).Concludes (fun fine _ => Carried ws fine coarse) fine :=
    concludes_of_stable (S := fun fine => Carried ws fine coarse) (fun past ev h => h.more [ev]) h _
  cases o with
  | login req =>
    apply (hstable.and (concludes_remote (concludes_login req) fine)).mono
    intro fine res h
    refine h.1.snoc (fun hrpc => by cases hrpc) ?_ (fun _ _ heq => by cases heq)
    rintro _ res ⟨⟩ hok
    obtain ⟨inner, hsub, hright⟩ := h.2 res rfl
    exact (hright hok).mono hsub.subset
  | syncMsg req =>
    apply (hstable.and (concludes_remote (concludes_syncMsg req) fine)).mono
    intro fine res h
    refine h.1.snoc (fun hrpc => by cases hrpc) (fun _ _ heq => by cases heq) ?_
    rintro _ res ⟨⟩
    obtain ⟨inner, hsub, hfetched⟩ := h.2 res rfl
    exact hfetched.mono hsub.subset
  | sendMsg | getUploadUrl =>
    apply hstable.mono
    intro fine res h
    exact h.snoc (fun hrpc => by cases hrpc) (fun _ _ heq => by cases heq)
      (fun _ _ heq => by cases heq)
  | _ =>
    intro r
    refine (h.more _).snoc (fun _ => List.mem_append_right _ (List.mem_singleton.mpr rfl)) ?_ ?_
    · exact fun _ _ heq => by cases heq
    · exact fun _ _ heq => by cases heq

def Spoken (ws : τ) (uid : Int) (past : Events τ) : Prop :=
  ⟨.gateway ws .getUid, uid⟩ ∈ past ∧ uid ≠ 0

def LoggedIn (ws : τ) (uid : Int) (past : Events τ) : Prop :=
  ∃ buffer n req, ⟨.gateway ws (.parseLoginReq buffer n), some req⟩ ∈ past ∧ req.uid = uid ∧
    RightToken uid req.token (logicEvents past)

/-- A frame for the socket. Only the reply to a synchronisation carries messages. -/
inductive Earned (gw : Gateway.Params) (opCode : Gateway.OpCode) (message : Bytes) (ws : τ)
    (past : Events τ) : Bytes → Prop
  | login (header : PacketHeader) (res : LoginRes) :
    Requests gw opCode message header 0x1001 → Earned gw opCode message ws past
      (Gateway.replyFrame gw.host header 0x1002 (gw.protobuf.serializeLoginRes res))
  | sendMsg (header : PacketHeader) (res : MsgSendRes) :
    Requests gw opCode message header 0x1003 → Earned gw opCode message ws past
      (Gateway.replyFrame gw.host header 0x1004 (gw.protobuf.serializeMsgSendRes res))
  | mail (header : PacketHeader) (uid : Int) (res : SyncMsgRes) :
    Requests gw opCode message header 0x1006 → ⟨.gateway ws .getUid, uid⟩ ∈ past →
    Fetched uid res.msgs (logicEvents past) → Earned gw opCode message ws past
      (Gateway.replyFrame gw.host header 0x1007 (gw.protobuf.serializeSyncMsgRes res))
  | getUploadUrl (header : PacketHeader) (res : GetUploadUrlRes) :
    Requests gw opCode message header 0x1008 → Earned gw opCode message ws past
      (Gateway.replyFrame gw.host header 0x1009 (gw.protobuf.serializeGetUploadUrlRes res))

def ChatStatement : Query → Prop
  | .selectUserPassword _ | .selectFriend _ _ | .insertChatMsg _ _ _ _ _
  | .selectOfflineMsgs _ _ => True
  | _ => False

variable (gw : Gateway.Params) (impl : LogicServiceImpl)

def MessageAsks (ws : τ) (opCode : Gateway.OpCode) (message : Bytes) (past : Events τ) :
    Op τ → Prop
  | .link => True
  | .gateway w (.setUid uid) | .gateway w (.addSession uid) => w = ws ∧ LoggedIn ws uid past
  | .gateway w (.send data) => w = ws ∧ Earned gw opCode message ws past data
  | .gateway w _ => w = ws
  | .logic (.pqExec _ q) => ChatStatement q ∧ ∀ msg_id from_uid to_uid content now,
    q = .insertChatMsg msg_id from_uid to_uid content now → Spoken ws from_uid past
  | .logic (.pushMsg _ push_req) => ∃ msg : ChatMsg,
    push_req = ⟨msg.to_uid, packPushMsg impl.host impl.protobuf msg⟩ ∧ Spoken ws msg.from_uid past
  | .logic _ => True
  | _ => False

def viaHttp : Request → Prop
  | .registerUser _ | .httpLogin _ => True
  | _ => False

def Asks : Call τ → Events τ → Op τ → Prop
  | .onOpen ws, _, o => o = .onOpen ws
  | .onMessage ws opCode message, past, o => MessageAsks gw impl ws opCode message past o
  | .onClose ws, _, o => o = .onClose ws
  | .post _ _, _, .link => True
  | .post _ _, _, .logic o => ∃ request, viaHttp request ∧ Packs impl request o
  | .post _ _, _, _ => False
  | .rpc request, _, .logic o => Packs impl request o
  | .rpc _, _, _ => False
  | .pushMsg request, _, o => o = .pushMsg request

def ofGateway : Request → Prop
  | .login _ | .sendMsg _ | .syncMsg _ | .getUploadUrl _ => True
  | _ => False

theorem chatStatement_of_statement {req : Request} (hreq : ofGateway req) {q : Query}
    (h : req.statement q) : ChatStatement q := by
  cases req with
  | login r =>
    cases h
    trivial
  | sendMsg r =>
    obtain rfl | ⟨_, _, rfl⟩ := h
    · trivial
    · trivial
  | syncMsg r =>
    cases h
    trivial
  | getUploadUrl r => exact h.elim
  | _ => exact hreq.elim

variable {gw impl} {opCode : Gateway.OpCode} {message : Bytes}

theorem messageAsks_of_packs {ws : τ} {past : Events τ} {req : Request} (hreq : ofGateway req)
    (hspoken : ∀ r, req = .sendMsg r → Spoken ws r.msg.from_uid past) {o : LetsChat.Op}
    (h : Packs impl req o) : MessageAsks gw impl ws opCode message past (.logic o) := by
  cases o with
  | pqExec site q =>
    have hstatement : req.statement q := h
    refine ⟨chatStatement_of_statement hreq hstatement, ?_⟩
    rintro msg_id from_uid to_uid content now rfl
    obtain ⟨r, heq, rfl, -⟩ := Request.sendMsg_of_statement hstatement
    exact hspoken r heq
  | pushMsg addr push_req =>
    obtain ⟨r, heq, rfl⟩ := h
    exact ⟨r.msg, rfl, hspoken r heq⟩
  | _ => trivial

theorem Spoken.more {ws : τ} {uid : Int} {past : Events τ} (h : Spoken ws uid past)
    (more : Events τ) : Spoken ws uid (past ++ more) :=
  ⟨List.mem_append_left _ h.1, h.2⟩

theorem disciplined_remote {ws : τ} {past : Events τ} {α : Type} {p : Prog LetsChat.Op.Ret α}
    (req : Request) (hreq : ofGateway req) (hp : p.Within (Packs impl req))
    (hspoken : ∀ r, req = .sendMsg r → Spoken ws r.msg.from_uid past) :
    (remote p).Disciplined (MessageAsks gw impl ws opCode message) past := by
  have hasks : (remote p).Within fun o => ∀ more, MessageAsks gw impl ws opCode message (past ++ more) o :=
    within_remote hp (fun _ => trivial) fun o ho more =>
      messageAsks_of_packs hreq (fun r hr => (hspoken r hr).more more) ho
  exact hasks.disciplined fun more o ho => ho more

theorem disciplined_carriedOut (ws : τ) (o : Gateway.Op) (fine : Events τ)
    (coarse : List (Event Gateway.Op.Ret)) (h : Carried ws fine coarse)
    (hpolite : Polite gw opCode message coarse o) :
    (carriedOut impl ws o).Disciplined (MessageAsks gw impl ws opCode message) fine := by
  have hrpc : ∀ req, (handle impl req).Within (Packs impl req) := within_packs impl
  have hentered : ∀ uid, Polite gw opCode message coarse (.setUid uid) → LoggedIn ws uid fine := by
    rintro _ ⟨buffer, n, req, res, hparsed, hlogin, hok, rfl⟩
    exact ⟨buffer, n, req, h.own _ _ hparsed rfl, rfl, h.login req res hlogin hok⟩
  cases o with
  | login req => exact disciplined_remote (.login req) trivial (within_of_map (hrpc _)) nofun
  | sendMsg req =>
    apply disciplined_remote (.sendMsg req) trivial (within_of_map (hrpc _))
    rintro _ ⟨⟩
    exact ⟨h.own _ _ hpolite.1 rfl, hpolite.2⟩
  | syncMsg req => exact disciplined_remote (.syncMsg req) trivial (within_of_map (hrpc _)) nofun
  | getUploadUrl req =>
    exact disciplined_remote (.getUploadUrl req) trivial (within_of_map (hrpc _)) nofun
  | setUid uid => exact ⟨⟨rfl, hentered uid hpolite⟩, fun _ => trivial⟩
  | addSession uid => exact ⟨⟨rfl, hentered uid hpolite⟩, fun _ => trivial⟩
  | send data =>
    refine ⟨⟨rfl, ?_⟩, fun _ => trivial⟩
    cases hpolite with
    | login header req res hreq => exact .login header res hreq
    | sendMsg header req res hreq => exact .sendMsg header res hreq
    | syncMsg header req res hreq huid hres =>
      exact .mail header req.uid res hreq (h.own _ _ huid rfl) (h.syncMsg req res hres)
    | getUploadUrl header req res hreq => exact .getUploadUrl header res hreq
  | _ => exact ⟨rfl, fun _ => trivial⟩

theorem carried_nil (ws : τ) : Carried ws ([] : Events τ) [] where
  own _ _ hmem := absurd hmem List.not_mem_nil
  login _ _ hmem := absurd hmem List.not_mem_nil
  syncMsg _ _ hmem := absurd hmem List.not_mem_nil

theorem disciplined_body (json : Gateway.Nlohmann) (call : Call τ) :
    (body gw json impl call).Disciplined (Asks gw impl call) [] := by
  cases call with
  | onOpen ws => exact ⟨rfl, fun _ => trivial⟩
  | onMessage ws opCode message =>
    refine disciplined_bind ?_ fun _ _ => trivial
    exact (polite_onMessage gw opCode message).interpret (renders_carriedOut impl ws)
      (disciplined_carriedOut ws) (carried_nil ws)
  | onClose ws => exact ⟨rfl, fun _ => trivial⟩
  | post api buffer =>
    have hasks : ∀ o, (requested (τ := τ) o).Within fun o =>
        ∀ past, Asks gw impl (.post api buffer) past o := by
      intro o
      cases o with
      | registerUser rpc_req =>
        exact within_remote (within_of_map (within_packs impl (.registerUser rpc_req)))
          (fun _ => trivial) fun o ho _ => ⟨.registerUser rpc_req, trivial, ho⟩
      | httpLogin rpc_req =>
        exact within_remote (within_of_map (within_packs impl (.httpLogin rpc_req)))
          (fun _ => trivial) fun o ho _ => ⟨.httpLogin rpc_req, trivial, ho⟩
    have hbody : ((Gateway.onBody json api buffer).interpret (requested (τ := τ))).Within fun o =>
        ∀ past, Asks gw impl (.post api buffer) past o :=
      Within.interpret (P := fun _ => True) (fun o _ => hasks o)
        (within_of_forall (fun _ => trivial) _)
    exact disciplined_map _ (hbody.disciplined fun more o ho => ho _)
  | rpc request =>
    have hasks : ((handle impl request).interpret (served (τ := τ))).Within fun o =>
        ∀ past, Asks gw impl (.rpc request) past o := by
      refine Within.interpret (P := Packs impl request) (fun o ho => ?_) (within_packs impl request)
      exact (within_perform _).mpr fun _ => ho
    exact disciplined_map _ (hasks.disciplined fun more o ho => ho _)
  | pushMsg request => exact ⟨rfl, fun _ => trivial⟩

end Both
end LetsChat.EndToEnd
