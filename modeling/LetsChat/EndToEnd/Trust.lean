import LetsChat.EndToEnd.Asks
import LetsChat.FriendsOnly
import LetsChat.Gateway.SessionMap

/-! Who speaks and who listens, over any interleaving of frames, RPCs and pushes: a user's name
stands only where the password of the user was given, and messages go only to sockets of the
user that they are addressed to. -/

namespace LetsChat.EndToEnd
open Lib Prog Machine PooledDbClient

variable {τ : Type}

def Proven (c : Running τ) (ws : τ) (uid : Int) : Prop :=
  ∃ t ∈ c.threads, t.call.socket = some ws ∧ LoggedIn ws uid t.past

def PushesReq (request : PushMsgReq) : Op τ → Prop
  | .logic (.pushMsg _ push_req) => push_req = request
  | .pushMsg req => req = request
  | _ => False

theorem mem_sent_pushMsg {s : State τ} {request : PushMsgReq} {p : τ × Bytes}
    (h : p ∈ (s.pushMsg request).2.sent) :
    p ∈ s.sent ∨ s.gateway.sessions_ request.to_uid = some p.1 ∧ p.2 = request.content := by
  rcases List.mem_append.mp h with h | h
  · exact .inl h
  · rw [Gateway.pushMsg_sent, Option.mem_toList] at h
    obtain ⟨ws, hentry, rfl⟩ := Option.map_eq_some_iff.mp h
    exact .inr ⟨hentry, rfl⟩

section Operations
variable [DecidableEq τ] (gw : Gateway.Params) (e : Env) (s : State τ) (o : Op τ)

theorem sockets_exec {ws : τ} {data : Gateway.PerSocketData}
    (h : (e.exec gw o s).2.gateway.sockets ws = .opened data) :
    s.gateway.sockets ws = .opened data ∨ data.uid = 0 ∨ o = .gateway ws (.setUid data.uid) := by
  cases o with
  | onOpen w =>
    simp only [Env.exec, Gateway.sockets_setSocket] at h
    split at h
    · cases h
      exact .inr (.inl rfl)
    · exact .inl h
  | gateway w o =>
    cases o with
    | setUid uid =>
      simp only [Env.exec, Gateway.exec, Gateway.sockets_setSocket] at h
      split at h
      · next hws =>
        cases h
        exact .inr (.inr (by rw [hws]))
      · exact .inl h
    | _ => exact .inl h
  | onClose w =>
    simp only [Env.exec, State.close, Gateway.sockets_setSocket, Gateway.sockets_removeSession] at h
    split at h
    · cases h
    · exact .inl h
  | logic o =>
    cases o with
    | pushMsg addr req =>
      refine .inl (h ▸ ?_)
      simp only [Env.exec, Env.execPush]
      cases e.push <;> rfl
    | _ => exact .inl h
  | _ => exact .inl h

theorem sessions_exec {uid : Int} {ws : τ}
    (h : (e.exec gw o s).2.gateway.sessions_ uid = some ws) :
    s.gateway.sessions_ uid = some ws ∨ o = .gateway ws (.addSession uid) := by
  cases o with
  | gateway w o =>
    cases o with
    | addSession u =>
      have hupdate : Function.update s.gateway.sessions_ u (some w) uid = some ws := h
      by_cases hu : uid = u
      · subst hu
        rw [Function.update_self, Option.some.injEq] at hupdate
        exact .inr (by rw [hupdate])
      · rw [Function.update_of_ne hu] at hupdate
        exact .inl hupdate
    | _ => exact .inl h
  | onClose w =>
    simp only [Env.exec, State.close, Gateway.sessions_setSocket,
      Gateway.sessions_removeSession] at h
    split at h
    · cases h
    · exact .inl h
  | logic o =>
    cases o with
    | pushMsg addr req =>
      refine .inl (h ▸ ?_)
      simp only [Env.exec, Env.execPush]
      cases e.push <;> rfl
    | _ => exact .inl h
  | _ => exact .inl h

theorem sent_exec {p : τ × Bytes} (h : p ∈ (e.exec gw o s).2.sent) :
    p ∈ s.sent ∨ o = .gateway p.1 (.send p.2) ∨ ∃ request, PushesReq request o ∧
      s.gateway.sessions_ request.to_uid = some p.1 ∧ p.2 = request.content := by
  cases o with
  | gateway w o =>
    cases o with
    | send data =>
      rcases List.mem_append.mp h with h | h
      · exact .inl h
      · obtain rfl := List.mem_singleton.mp h
        exact .inr (.inl rfl)
    | _ => exact .inl h
  | logic o =>
    cases o with
    | pushMsg addr req =>
      simp only [Env.exec, Env.execPush] at h
      cases hpush : e.push with
      | here =>
        rw [hpush] at h
        exact (mem_sent_pushMsg h).imp_right fun hsent => .inr ⟨req, rfl, hsent⟩
      | lost =>
        rw [hpush] at h
        exact (mem_sent_pushMsg h).imp_right fun hsent => .inr ⟨req, rfl, hsent⟩
      | elsewhere ok =>
        rw [hpush] at h
        exact .inl h
    | _ => exact .inl h
  | pushMsg req => exact (mem_sent_pushMsg h).imp_right fun hsent => .inr ⟨req, rfl, hsent⟩
  | _ => exact .inl h

theorem tables_exec : (e.exec gw o s).2.world.tables = s.world.tables ∨
    ∃ op, o = .logic op ∧ (e.exec gw o s).2.world.tables = (e.logic.exec op s.world).2.tables := by
  cases o with
  | gateway w o => cases o <;> exact .inl rfl
  | logic o =>
    cases o with
    | pushMsg addr req =>
      simp only [Env.exec, Env.execPush]
      cases e.push <;> exact .inl rfl
    | _ => exact .inr ⟨_, rfl, rfl⟩
  | _ => exact .inl rfl

section Intended
variable (hintended : e.logic.unquoted = Query.exec)
include hintended

theorem rows_kept_exec : s.world.tables.t_chat_msg.rows ⊆
    (e.exec gw o s).2.world.tables.t_chat_msg.rows := by
  rcases tables_exec gw e s o with hsame | ⟨op, rfl, hop⟩
  · rw [hsame]
    exact List.Subset.refl _
  rw [hop]
  rcases exec_tables ⟨e.logic, hintended⟩ s.world op with hsame | ⟨site, q, rfl, hq⟩
  · rw [hsame]
    exact List.Subset.refl _
  · rw [hq, Query.rows_exec]
    exact List.subset_append_left _ _

theorem rows_new_exec {row : ChatMsgRow}
    (h : row ∈ (e.exec gw o s).2.world.tables.t_chat_msg.rows) :
    row ∈ s.world.tables.t_chat_msg.rows ∨ ∃ site now, o =
      .logic (.pqExec site (.insertChatMsg row.msg_id row.from_uid row.to_uid row.content now)) := by
  rcases tables_exec gw e s o with hsame | ⟨op, rfl, hop⟩
  · rw [hsame] at h
    exact .inl h
  rw [hop] at h
  rcases exec_tables ⟨e.logic, hintended⟩ s.world op with hsame | ⟨site, q, rfl, hq⟩
  · rw [hsame] at h
    exact .inl h
  · rw [hq] at h
    rcases chatMsg_exec h with h | ⟨now, rfl⟩
    · exact .inl h
    · exact .inr ⟨site, now, rfl⟩

end Intended
end Operations

def Intended (c : Running τ) : Prop := ∀ t ∈ c.threads, t.env.logic.unquoted = Query.exec

def chatRows (c : Running τ) : List ChatMsgRow := c.shared.world.tables.t_chat_msg.rows

structure Grows (c c' : Running τ) : Prop where
  proven : ∀ {ws uid}, Proven c ws uid → Proven c' ws uid
  calls : ∀ {call}, (∃ t ∈ c.threads, t.call = call) → ∃ t ∈ c'.threads, t.call = call
  intended : Intended c' → Intended c
  rows : Intended c' → chatRows c ⊆ chatRows c'

theorem LoggedIn.more {ws : τ} {uid : Int} {past : Events τ} (h : LoggedIn ws uid past)
    (more : Events τ) : LoggedIn ws uid (past ++ more) := by
  obtain ⟨buffer, n, req, hparsed, huid, hright⟩ := h
  exact ⟨buffer, n, req, List.mem_append_left _ hparsed, huid,
    hright.mono (logicEvents_append_subset past more)⟩

section Steps
variable [DecidableEq τ] {gw : Gateway.Params} {impl : LogicServiceImpl} {c c' : Running τ}
variable {i : Input τ} {out : Output τ}
variable (h : (interleaving (body gw json impl) (Env.exec gw)).step c i = some (out, c'))
include h

theorem env_stays {t : Thread (Op.Ret (τ := τ)) (Call τ) Env Answer} (ht : t ∈ c.threads) :
    ∃ t' ∈ c'.threads, t'.env = t.env := by
  have henvs := calls_step (fun _ e => e) h
  have hmem : t.env ∈ c'.threads.map fun t => t.env := by
    rw [henvs]
    exact List.mem_append_left _ (List.mem_map_of_mem ht)
  obtain ⟨t', ht', henv⟩ := List.mem_map.mp hmem
  exact ⟨t', ht', henv⟩

theorem grows_step : Grows c c' where
  proven := by
    intro ws uid hproven
    refine exists_thread_step
      (P := fun (call : Call τ) past => call.socket = some ws ∧ LoggedIn ws uid past)
      (fun call past ev => ?_) h hproven
    exact And.imp_right fun hlogged => hlogged.more [ev]
  calls := by
    intro call hcall
    exact exists_thread_step (P := fun req _ => req = call) (fun _ _ _ hp => hp) h hcall
  intended hintended t ht := by
    obtain ⟨t', ht', henv⟩ := env_stays h ht
    rw [← henv]
    exact hintended t' ht'
  rows hintended := by
    rcases interleaving_step h with
      ⟨req, e, rfl, rfl⟩ | ⟨k, req, e, past, o, next, rfl, hk, rfl⟩
    · exact List.Subset.refl _
    · exact rows_kept_exec gw e c.shared o (hintended _ (mem_set_self hk _))

end Steps

/-- The call speaks for the user: it comes from a client of the logic server that says so, or
from a socket on which the password of the user was given. -/
def Speaks (c : Running τ) (call : Call τ) (uid : Int) : Prop :=
  (∃ r, call = .rpc (.sendMsg r) ∧ r.msg.from_uid = uid) ∨
    ∃ ws, call.socket = some ws ∧ uid ≠ 0 ∧ Proven c ws uid

def FromMailbox (c : Running τ) (uid : Int) (msgs : List ChatMsg) : Prop :=
  ∃ rows : List ChatMsgRow, msgs = rows.map ofRow ∧ (∀ r ∈ rows, r.to_uid = uid) ∧
    (Intended c → rows ⊆ chatRows c)

def Requested (gw : Gateway.Params) (c : Running τ) (ws : τ) (header : PacketHeader)
    (cmd_id : BitVec 16) : Prop :=
  ∃ opCode message, (∃ t ∈ c.threads, t.call = .onMessage ws opCode message) ∧
    Requests gw opCode message header cmd_id

/-- What a socket may be given: the reply to a frame of its own, with the messages for a user
that has proven itself there, or for the uid 0 of a socket without a login, and pushes to such
a user. -/
inductive Delivered (gw : Gateway.Params) (impl : LogicServiceImpl) (c : Running τ) (ws : τ) :
    Bytes → Prop
  | login (header : PacketHeader) (res : LoginRes) :
    Requested gw c ws header 0x1001 → Delivered gw impl c ws
      (Gateway.replyFrame gw.host header 0x1002 (gw.protobuf.serializeLoginRes res))
  | sendMsg (header : PacketHeader) (res : MsgSendRes) :
    Requested gw c ws header 0x1003 → Delivered gw impl c ws
      (Gateway.replyFrame gw.host header 0x1004 (gw.protobuf.serializeMsgSendRes res))
  | mail (header : PacketHeader) (uid : Int) (res : SyncMsgRes) :
    Requested gw c ws header 0x1006 → uid = 0 ∨ Proven c ws uid → FromMailbox c uid res.msgs →
    Delivered gw impl c ws
      (Gateway.replyFrame gw.host header 0x1007 (gw.protobuf.serializeSyncMsgRes res))
  | getUploadUrl (header : PacketHeader) (res : GetUploadUrlRes) :
    Requested gw c ws header 0x1008 → Delivered gw impl c ws
      (Gateway.replyFrame gw.host header 0x1009 (gw.protobuf.serializeGetUploadUrlRes res))
  | push (msg : ChatMsg) :
    Proven c ws msg.to_uid → (∃ t ∈ c.threads, Speaks c t.call msg.from_uid) →
    Delivered gw impl c ws (packPushMsg impl.host impl.protobuf msg)
  | outside (request : PushMsgReq) :
    Proven c ws request.to_uid → (∃ t ∈ c.threads, t.call = .pushMsg request) →
    Delivered gw impl c ws request.content

structure Trusted (gw : Gateway.Params) (json : Gateway.Nlohmann) (impl : LogicServiceImpl)
    (w : World) (c : Running τ) : Prop where
  traced : WellTraced (body gw json impl) c
  uids : ∀ ws data, c.shared.gateway.sockets ws = .opened data →
    data.uid = 0 ∨ Proven c ws data.uid
  sessions : ∀ uid ws, c.shared.gateway.sessions_ uid = some ws → Proven c ws uid
  reads : ∀ t ∈ c.threads, ∀ ws (uid : Int), ⟨.gateway ws .getUid, uid⟩ ∈ t.past →
    uid = 0 ∨ Proven c ws uid
  mail : ∀ t ∈ c.threads, ∀ site uid last_msg_id, ∀ res : PGresult,
    ⟨.logic (.pqExec site (.selectOfflineMsgs uid last_msg_id)), res⟩ ∈ t.past →
    ∀ msgs, (List.range res.ntuples).mapM (offlineMsg res) = some msgs → FromMailbox c uid msgs
  sent : ∀ p ∈ c.shared.sent, Delivered gw impl c p.1 p.2
  stored : Intended c → ∀ row ∈ chatRows c, row ∈ w.tables.t_chat_msg.rows ∨
    ∃ t ∈ c.threads, Speaks c t.call row.from_uid

section Grows
variable {c c' : Running τ} (hgrows : Grows c c')
include hgrows

theorem Speaks.grows {call : Call τ} {uid : Int} (h : Speaks c call uid) : Speaks c' call uid := by
  rcases h with hrpc | ⟨ws, hsocket, hne, hproven⟩
  · exact .inl hrpc
  · exact .inr ⟨ws, hsocket, hne, hgrows.proven hproven⟩

theorem exists_speaks_grows {uid : Int} (h : ∃ t ∈ c.threads, Speaks c t.call uid) :
    ∃ t ∈ c'.threads, Speaks c' t.call uid := by
  obtain ⟨t, ht, hspeaks⟩ := h
  obtain ⟨t', ht', hcall⟩ := hgrows.calls ⟨t, ht, rfl⟩
  exact ⟨t', ht', hcall ▸ hspeaks.grows hgrows⟩

theorem FromMailbox.grows {uid : Int} {msgs : List ChatMsg} (h : FromMailbox c uid msgs) :
    FromMailbox c' uid msgs := by
  obtain ⟨rows, hmsgs, huid, hrows⟩ := h
  exact ⟨rows, hmsgs, huid, fun hintended =>
    List.Subset.trans (hrows (hgrows.intended hintended)) (hgrows.rows hintended)⟩

theorem Requested.grows {gw : Gateway.Params} {ws : τ} {header : PacketHeader} {cmd_id : BitVec 16}
    (h : Requested gw c ws header cmd_id) : Requested gw c' ws header cmd_id := by
  obtain ⟨opCode, message, hcall, hreq⟩ := h
  exact ⟨opCode, message, hgrows.calls hcall, hreq⟩

theorem Delivered.grows {gw : Gateway.Params} {impl : LogicServiceImpl} {ws : τ} {data : Bytes}
    (h : Delivered gw impl c ws data) : Delivered gw impl c' ws data := by
  cases h with
  | login header res hreq => exact .login header res (hreq.grows hgrows)
  | sendMsg header res hreq => exact .sendMsg header res (hreq.grows hgrows)
  | mail header uid res hreq huid hmail =>
    exact .mail header uid res (hreq.grows hgrows) (huid.imp_right hgrows.proven) (hmail.grows hgrows)
  | getUploadUrl header res hreq => exact .getUploadUrl header res (hreq.grows hgrows)
  | push msg hproven hspeaks =>
    exact .push msg (hgrows.proven hproven) (exists_speaks_grows hgrows hspeaks)
  | outside request hproven hcall =>
    obtain ⟨t, ht, hcall⟩ := hcall
    exact .outside request (hgrows.proven hproven) (hgrows.calls ⟨t, ht, hcall⟩)

end Grows

section Asks
variable {gw : Gateway.Params} {impl : LogicServiceImpl} {call : Call τ} {past : Events τ}
variable {o : Op τ}

theorem asks_enter {ws : τ} {uid : Int} (h : Asks gw impl call past o)
    (ho : o = .gateway ws (.setUid uid) ∨ o = .gateway ws (.addSession uid)) :
    call.socket = some ws ∧ LoggedIn ws uid past := by
  cases call with
  | onMessage w opCode message =>
    rcases ho with rfl | rfl
    · obtain ⟨rfl, hlogged⟩ := h
      exact ⟨rfl, hlogged⟩
    · obtain ⟨rfl, hlogged⟩ := h
      exact ⟨rfl, hlogged⟩
  | rpc => rcases ho with rfl | rfl <;> exact h.elim
  | _ => rcases ho with rfl | rfl <;> cases h

theorem asks_send {ws : τ} {data : Bytes} (h : Asks gw impl call past (.gateway ws (.send data))) :
    ∃ opCode message, call = .onMessage ws opCode message ∧
      Earned gw opCode message ws past data := by
  cases call with
  | onMessage w opCode message =>
    obtain ⟨rfl, hearned⟩ := h
    exact ⟨opCode, message, rfl, hearned⟩
  | rpc => exact h.elim
  | _ => cases h

def MaySpeak (call : Call τ) (past : Events τ) (uid : Int) : Prop :=
  (∃ r, call = .rpc (.sendMsg r) ∧ r.msg.from_uid = uid) ∨
    ∃ ws, call.socket = some ws ∧ Spoken ws uid past

theorem asks_insert {site : Site} {msg_id content : Text} {from_uid to_uid now : Int}
    (h : Asks gw impl call past
      (.logic (.pqExec site (.insertChatMsg msg_id from_uid to_uid content now)))) :
    MaySpeak call past from_uid := by
  cases call with
  | onMessage w opCode message => exact .inr ⟨w, rfl, h.2 _ _ _ _ _ rfl⟩
  | post api buffer =>
    obtain ⟨request, hvia, htouches⟩ := h
    obtain ⟨r, rfl, -⟩ := Request.sendMsg_of_statement htouches
    exact hvia.elim
  | rpc request =>
    have htouches : request.statement (.insertChatMsg msg_id from_uid to_uid content now) := h
    obtain ⟨r, rfl, rfl, -⟩ := Request.sendMsg_of_statement htouches
    exact .inl ⟨r, rfl, rfl⟩
  | _ => cases h

theorem asks_push {request : PushMsgReq} (h : Asks gw impl call past o)
    (ho : PushesReq request o) :
    call = .pushMsg request ∨ ∃ msg : ChatMsg,
      request = ⟨msg.to_uid, packPushMsg impl.host impl.protobuf msg⟩ ∧
        MaySpeak call past msg.from_uid := by
  cases o with
  | logic op =>
    cases op with
    | pushMsg addr push_req =>
      obtain rfl : push_req = request := ho
      cases call with
      | onMessage w opCode message =>
        obtain ⟨msg, hreq, hspoken⟩ := h
        exact .inr ⟨msg, hreq, .inr ⟨w, rfl, hspoken⟩⟩
      | post api buffer =>
        obtain ⟨request, hvia, r, rfl, -⟩ := h
        exact hvia.elim
      | rpc request =>
        obtain ⟨r, rfl, hreq⟩ := h
        exact .inr ⟨r.msg, hreq, .inl ⟨r, rfl, rfl⟩⟩
      | _ => cases h
    | _ => exact ho.elim
  | pushMsg req =>
    obtain rfl : req = request := ho
    cases call with
    | pushMsg request =>
      cases h
      exact .inl rfl
    | onMessage | rpc => exact h.elim
    | _ => cases h
  | _ => exact ho.elim

end Asks
end LetsChat.EndToEnd
