import LetsChat.Lib.Machine
import LetsChat.Packet
import LetsChat.S3Client

/-! `LogicServiceImpl`: the handlers, and the service that answers one request
after the other. -/

namespace LetsChat
open Lib Prog

/-- The parameters of the service: the object store, the byte order of the host and the
generated serialiser. -/
structure LogicServiceImpl where
  s3_ : S3Client
  host : ByteOrder
  protobuf : Protobuf

namespace LogicServiceImpl
open PooledDbClient

/-- The key that `Login` writes. -/
def loginKey (uid : Int) : Text := "IM:USER:SESS".toList ++ to_string uid

/-- The key that `SendMsg` reads. -/
def sendKey (to_uid : Int) : Text := "IM:USER:SESS:".toList ++ to_string to_uid

/-- The key that `HttpLogin` writes. -/
def tokenKey (uid : Int) : Text := "IM:USER:TOKEN".toList ++ to_string uid

def bare : LogicServiceImpl where
  s3_ := ⟨⟨[], [], 0⟩, ⟨[], [], 0⟩, [], [], []⟩
  host := .little
  protobuf := ⟨fun _ => none, fun _ => none, fun _ => none, fun _ => none, fun _ => [],
    fun _ => [], fun _ => [], fun _ => [], fun _ => []⟩

def gateway_addr : Text := "0.0.0.0:50052".toList

def login (request : LoginReq) : Prog Op.Ret LoginRes := do
  let db_password ← getUserPassword request.uid
  if db_password ≠ [] ∧ db_password = request.token then
    let _stored ← PooledRedisClient.set (loginKey request.uid) gateway_addr
    return { err_code := .ERR_SUCCESS, session_id := "sess_".toList ++ to_string request.uid }
  else
    return { err_code := .ERR_AUTH_FAIL, err_msg := "Invalid token".toList }

/-- The part of `SendMsg` that follows the route lookup. -/
def forward (impl : LogicServiceImpl) (msg : ChatMsg) : Option Text → Prog Op.Ret Unit
  | none => return ()
  | some gateway_addr => do
    let raw_packet := packPushMsg impl.host impl.protobuf msg
    let _ok ← pushMsg gateway_addr { to_uid := msg.to_uid, content := raw_packet }
    return ()

def sendMsg (impl : LogicServiceImpl) (request : MsgSendReq) : Prog Op.Ret MsgSendRes := do
  let msg := request.msg
  if !(← areFriends msg.from_uid msg.to_uid) then
    return { err_code := .ERR_NOT_FRIEND, err_msg := "You must be friend to send message".toList }
  let msg_id ← systemClock
  -- whether the message was saved is only logged
  let _saved ← saveMessage (to_string msg_id) msg.from_uid msg.to_uid msg.content
  let gateway_addr_opt ← PooledRedisClient.get (sendKey msg.to_uid)
  impl.forward msg gateway_addr_opt
  let create_time ← time .sendMsg
  return { err_code := .ERR_SUCCESS, msg_id, create_time }

def syncMsg (request : SyncMsgReq) : Prog Op.Ret SyncMsgRes := do
  let history_msgs ← getofflineMsgs request.uid request.last_msg_id
  return { err_code := ErrorCode.ERR_SUCCESS.toInt, msgs := history_msgs }

def registerUser (request : RegisterReq) : Prog Op.Ret RegisterRes := do
  let uid ← createUser request.nickname request.password request.email
  if uid > 0 then return { err_code := 0, uid }
  else return { err_code := 1, err_msg := "create user failed".toList }

def httpLogin (request : HttpLoginReq) : Prog Op.Ret HttpLoginRes := do
  let (found, reply) ← checkUserByEmail request.email request.password {}
  if found then
    -- the reply does not depend on whether the token was stored
    let _stored ← PooledRedisClient.set (tokenKey reply.uid) request.password
    return { reply with err_code := 0 }
  else
    return { reply with err_code := 1, err_msg := "Invaild email or passwrod".toList }

def getUploadUrl (impl : LogicServiceImpl) (request : GetUploadUrlReq) :
    Prog Op.Ret GetUploadUrlRes := do
  let now ← systemClock
  let object_key := to_string request.uid ++ "/".toList ++ to_string now ++ "_".toList
    ++ request.file_name
  let upload_url ← impl.s3_.getPresignedPutUrl object_key
  let download_url ← impl.s3_.getDownloadUrl object_key
  if upload_url = [] ∨ download_url = [] then
    return { err_code := ErrorCode.ERR_SYS_ERROR.toInt, err_msg := "SeaweedFS unavailable".toList }
  return { err_code := ErrorCode.ERR_SUCCESS.toInt, upload_url, download_url }

def sendFriendRequest (req : SendFriendReq) : Prog Op.Ret SendFriendRes := do
  match ← createFriendRequest req.from_uid req.to_uid req.reason with
  | some req_id => return { err_code := .ERR_SUCCESS, req_id }
  | none =>
    return { err_code := .ERR_SYS_ERROR, err_msg := "Failed to create friend request".toList }

def respondFriendRequest (req : RespondFriendReq) : Prog Op.Ret RespondFriendRes := do
  if req.accept then
    if ← acceptFriendRequest req.req_id then return { err_code := .ERR_SUCCESS }
    else return { err_code := .ERR_SYS_ERROR, err_msg := "Failed to accept friend request".toList }
  else
    let _ok ← execute (.rejectRequest req.req_id)
    return { err_code := .ERR_SUCCESS }

def listFriends (request : FriendListReq) : Prog Op.Ret FriendListRes := do
  let list ← PooledDbClient.listFriends request.uid
  return { err_code := .ERR_SUCCESS, friend_uids := list }

def getFriendRequests (request : GetFriendReqsReq) : Prog Op.Ret GetFriendReqsRes := do
  let reqs ← getFriendRequestsForUser request.uid
  return { err_code := .ERR_SUCCESS, requests := reqs }

def TokenAccepted (e : Env) (t : Tables) (r : LoginReq) : Prop :=
  passwordOf e t r.uid ≠ [] ∧ passwordOf e t r.uid = r.token

instance (e : Env) (t : Tables) (r : LoginReq) : Decidable (TokenAccepted e t r) :=
  inferInstanceAs (Decidable (_ ∧ _))

theorem run_login (e : Env) (w : World) (r : LoginReq) :
    (login r).run e.exec w =
      if TokenAccepted e w.tables r then
        (some { err_code := .ERR_SUCCESS, session_id := "sess_".toList ++ to_string r.uid },
          { w with
            redis :=
              if PooledRedisClient.Reaches e then
                Function.update w.redis (Sql.cStr (loginKey r.uid)) (some (Sql.cStr gateway_addr))
              else w.redis })
      else (some { err_code := .ERR_AUTH_FAIL, err_msg := "Invalid token".toList }, w) := by
  unfold login
  rw [run_bind_of _ (run_getUserPassword e w _)]
  by_cases haccept : TokenAccepted e w.tables r
  · have hcond : passwordOf e w.tables r.uid ≠ [] ∧ passwordOf e w.tables r.uid = r.token := haccept
    rw [if_pos haccept, if_pos hcond, run_bind_of _ (PooledRedisClient.run_set e w _ _)]
    rfl
  · have hcond : ¬(passwordOf e w.tables r.uid ≠ [] ∧ passwordOf e w.tables r.uid = r.token) := haccept
    rw [if_neg haccept, if_neg hcond]
    rfl

theorem run_syncMsg (e : Env) (w : World) (r : SyncMsgReq) :
    (syncMsg r).run e.exec w =
      (some { msgs := if e.Returns .getofflineMsgs then
          (offlineRows w.tables r.uid r.last_msg_id).map ofRow else [] }, w) := by
  unfold syncMsg
  rw [run_bind_of _ (run_getofflineMsgs e w _ _)]
  rfl

def pushes (impl : LogicServiceImpl) (msg : ChatMsg) : Option Text → List (Text × PushMsgReq)
  | none => []
  | some gateway_addr =>
    [(gateway_addr, { to_uid := msg.to_uid, content := packPushMsg impl.host impl.protobuf msg })]

def route (e : Env) (w : World) (to_uid : Int) : Option Text :=
  if PooledRedisClient.Returns e then w.redis (Sql.cStr (sendKey to_uid)) else none

def saveQuery (e : Env) (msg : ChatMsg) : Query :=
  .insertChatMsg (to_string e.systemClock) msg.from_uid msg.to_uid msg.content (e.time .saveMessage)

theorem run_forward (impl : LogicServiceImpl) (e : Env) (w : World) (msg : ChatMsg)
    (addr : Option Text) :
    (impl.forward msg addr).run e.exec w =
      (some (), { w with pushed := w.pushed ++ impl.pushes msg addr }) := by
  cases addr with
  | none => simp [forward, pushes]
  | some addr => simp [forward, pushes, Env.exec]

theorem run_sendMsg (impl : LogicServiceImpl) (e : Env) (w : World) (r : MsgSendReq) :
    (impl.sendMsg r).run e.exec w =
      if FriendsSeen e w.tables r.msg.from_uid r.msg.to_uid then
        (some { err_code := .ERR_SUCCESS, msg_id := e.systemClock, create_time := e.time .sendMsg },
          { w with
            tables := e.effect .saveMessage (saveQuery e r.msg) w.tables
            pushed := w.pushed ++ impl.pushes r.msg (route e w r.msg.to_uid) })
      else
        (some { err_code := .ERR_NOT_FRIEND, err_msg := "You must be friend to send message".toList },
          w) := by
  unfold sendMsg
  rw [run_bind_of _ (run_areFriends e w _ _)]
  by_cases hseen : FriendsSeen e w.tables r.msg.from_uid r.msg.to_uid
  · simp only [hseen, decide_true, Bool.not_true, Bool.false_eq_true, if_false, if_true]
    rw [run_bind_of _ (run_systemClock e w), run_bind_of _ (run_saveMessage e w _ _ _ _),
      run_bind_of _ (PooledRedisClient.run_get e _ _), run_bind_of _ (run_forward impl e _ _ _),
      run_bind_of _ (run_time e _ _)]
    rfl
  · simp only [hseen, decide_false, Bool.not_false, if_true, if_false, pure_eq, run_ret]

end LogicServiceImpl

inductive Request
  | login (r : LoginReq)
  | sendMsg (r : MsgSendReq)
  | syncMsg (r : SyncMsgReq)
  | registerUser (r : RegisterReq)
  | httpLogin (r : HttpLoginReq)
  | getUploadUrl (r : GetUploadUrlReq)
  | sendFriendRequest (r : SendFriendReq)
  | respondFriendRequest (r : RespondFriendReq)
  | listFriends (r : FriendListReq)
  | getFriendRequests (r : GetFriendReqsReq)
  deriving DecidableEq

inductive Reply
  | login (r : LoginRes)
  | sendMsg (r : MsgSendRes)
  | syncMsg (r : SyncMsgRes)
  | registerUser (r : RegisterRes)
  | httpLogin (r : HttpLoginRes)
  | getUploadUrl (r : GetUploadUrlRes)
  | sendFriendRequest (r : SendFriendRes)
  | respondFriendRequest (r : RespondFriendRes)
  | listFriends (r : FriendListRes)
  | getFriendRequests (r : GetFriendReqsRes)
  deriving DecidableEq

open LogicServiceImpl in
def handle (impl : LogicServiceImpl) : Request → Prog Op.Ret Reply
  | .login r => Reply.login <$> login r
  | .sendMsg r => Reply.sendMsg <$> impl.sendMsg r
  | .syncMsg r => Reply.syncMsg <$> syncMsg r
  | .registerUser r => Reply.registerUser <$> registerUser r
  | .httpLogin r => Reply.httpLogin <$> httpLogin r
  | .getUploadUrl r => Reply.getUploadUrl <$> impl.getUploadUrl r
  | .sendFriendRequest r => Reply.sendFriendRequest <$> sendFriendRequest r
  | .respondFriendRequest r => Reply.respondFriendRequest <$> respondFriendRequest r
  | .listFriends r => Reply.listFriends <$> listFriends r
  | .getFriendRequests r => Reply.getFriendRequests <$> getFriendRequests r

/-- One request after the other. A call that ends in an exception has no reply. -/
def service (impl : LogicServiceImpl) : Machine World (Request × Env) (Option Reply) where
  step w i := some ((handle impl i.1).run i.2.exec w)

theorem service_step {impl : LogicServiceImpl} {w w' : World} {i : Request × Env} {o : Option Reply}
    (h : (service impl).step w i = some (o, w')) : (handle impl i.1).run i.2.exec w = (o, w') :=
  Option.some.inj h

open LogicServiceImpl in
theorem service_login {impl : LogicServiceImpl} {e : Env} {w w' : World} {r : LoginReq}
    {o : Option Reply} (h : (service impl).step w (.login r, e) = some (o, w')) :
    (TokenAccepted e w.tables r ∧
      o = some (.login
        { err_code := .ERR_SUCCESS, session_id := "sess_".toList ++ to_string r.uid }) ∧
      w' = { w with
        redis :=
          if PooledRedisClient.Reaches e then
            Function.update w.redis (Sql.cStr (loginKey r.uid)) (some (Sql.cStr gateway_addr))
          else w.redis }) ∨
    (¬TokenAccepted e w.tables r ∧
      o = some (.login { err_code := .ERR_AUTH_FAIL, err_msg := "Invalid token".toList }) ∧
      w' = w) := by
  have hrun := service_step h
  simp only [handle, run_map, run_login] at hrun
  by_cases haccept : TokenAccepted e w.tables r
  · rw [if_pos haccept, Prod.mk.injEq] at hrun
    exact .inl ⟨haccept, hrun.1.symm, hrun.2.symm⟩
  · rw [if_neg haccept, Prod.mk.injEq] at hrun
    exact .inr ⟨haccept, hrun.1.symm, hrun.2.symm⟩

open LogicServiceImpl PooledDbClient in
theorem service_sendMsg {impl : LogicServiceImpl} {e : Env} {w w' : World} {r : MsgSendReq}
    {o : Option Reply} (h : (service impl).step w (.sendMsg r, e) = some (o, w')) :
    (FriendsSeen e w.tables r.msg.from_uid r.msg.to_uid ∧
      o = some (.sendMsg
        { err_code := .ERR_SUCCESS, msg_id := e.systemClock, create_time := e.time .sendMsg }) ∧
      w' = { w with
        tables := e.effect .saveMessage (saveQuery e r.msg) w.tables
        pushed := w.pushed ++ impl.pushes r.msg (route e w r.msg.to_uid) }) ∨
    (¬FriendsSeen e w.tables r.msg.from_uid r.msg.to_uid ∧
      o = some (.sendMsg
        { err_code := .ERR_NOT_FRIEND, err_msg := "You must be friend to send message".toList }) ∧
      w' = w) := by
  have hrun := service_step h
  simp only [handle, run_map, run_sendMsg] at hrun
  by_cases hseen : FriendsSeen e w.tables r.msg.from_uid r.msg.to_uid
  · rw [if_pos hseen, Prod.mk.injEq] at hrun
    exact .inl ⟨hseen, hrun.1.symm, hrun.2.symm⟩
  · rw [if_neg hseen, Prod.mk.injEq] at hrun
    exact .inr ⟨hseen, hrun.1.symm, hrun.2.symm⟩

def concurrentService (impl : LogicServiceImpl) :
    Machine (Conf Op.Ret Request Env World Reply) (Sched Request Env)
      (Option (Prog.Event Op.Ret)) :=
  interleaving (handle impl) Env.exec

end LetsChat
