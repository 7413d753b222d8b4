import LetsChat.Lib.Guarded
import LetsChat.LogicService

/-! The handlers as callers of the two clients. A call of a client function is one operation
here, and `CallOp.body` is what the function does. -/

namespace LetsChat.LogicServer
open Lib Prog LogicServiceImpl

inductive ClientCall
  | execute (sql : Query)
  | getUserPassword (uid : Int)
  | saveMessage (msg_id : Text) (from_uid to_uid : Int) (content : Text)
  | getofflineMsgs (uid last_msg_id : Int)
  | createUser (username password email : Text)
  | checkUserByEmail (email password : Text) (user_info : HttpLoginRes)
  | createFriendRequest (from_uid to_uid : Int) (reason : Text)
  | getFriendRequestsForUser (uid : Int)
  | acceptFriendRequest (req_id : Int)
  | areFriends (uid1 uid2 : Int)
  | listFriends (uid : Int)
  | set (key value : Text)
  | get (key : Text)

namespace ClientCall

@[reducible] def Ret : ClientCall → Type
  | execute _ => Bool
  | getUserPassword _ => Text
  | saveMessage _ _ _ _ => Bool
  | getofflineMsgs _ _ => List ChatMsg
  | createUser _ _ _ => Int
  | checkUserByEmail _ _ _ => Bool × HttpLoginRes
  | createFriendRequest _ _ _ => Option Int
  | getFriendRequestsForUser _ => List FriendRequest
  | acceptFriendRequest _ => Bool
  | areFriends _ _ => Bool
  | listFriends _ => List Int
  | set _ _ => Bool
  | get _ => Option Text

def body : (c : ClientCall) → Prog Op.Ret c.Ret
  | execute sql => PooledDbClient.execute sql
  | getUserPassword uid => PooledDbClient.getUserPassword uid
  | saveMessage msg_id from_uid to_uid content =>
    PooledDbClient.saveMessage msg_id from_uid to_uid content
  | getofflineMsgs uid last_msg_id => PooledDbClient.getofflineMsgs uid last_msg_id
  | createUser username password email => PooledDbClient.createUser username password email
  | checkUserByEmail email password user_info =>
    PooledDbClient.checkUserByEmail email password user_info
  | createFriendRequest from_uid to_uid reason =>
    PooledDbClient.createFriendRequest from_uid to_uid reason
  | getFriendRequestsForUser uid => PooledDbClient.getFriendRequestsForUser uid
  | acceptFriendRequest req_id => PooledDbClient.acceptFriendRequest req_id
  | areFriends uid1 uid2 => PooledDbClient.areFriends uid1 uid2
  | listFriends uid => PooledDbClient.listFriends uid
  | set key value => PooledRedisClient.set key value
  | get key => PooledRedisClient.get key

end ClientCall

inductive CallOp
  | client (c : ClientCall)
  | own (o : Op)

@[reducible] def CallOp.Ret : CallOp → Type
  | client c => c.Ret
  | own o => o.Ret

def CallOp.body : (o : CallOp) → Prog Op.Ret o.Ret
  | client c => c.body
  | own o => perform o

/-- `g` of a client function is destroyed when the function returns. -/
def CallOp.guarded : (o : CallOp) → Prog (Guarded.Ret Op.Ret) o.Ret
  | client c => c.body.guarded
  | own o => unguarded o

theorem CallOp.erase_guarded (o : CallOp) : o.guarded.erase = o.body := by
  cases o with
  | client c => exact Prog.erase_guarded c.body
  | own o => rfl

def client (c : ClientCall) : Prog CallOp.Ret c.Ret := perform (CallOp.client c)

def own {α : Type} (p : Prog Op.Ret α) : Prog CallOp.Ret α :=
  p.interpret fun o => perform (CallOp.own o)

def calls (impl : LogicServiceImpl) : Request → Prog CallOp.Ret Reply
  | .login r => Reply.login <$> do
    let db_password ← client (.getUserPassword r.uid)
    if db_password ≠ [] ∧ db_password = r.token then
      let _stored ← client (.set (loginKey r.uid) gateway_addr)
      return { err_code := .ERR_SUCCESS, session_id := "sess_".toList ++ to_string r.uid }
    else
      return { err_code := .ERR_AUTH_FAIL, err_msg := "Invalid token".toList }
  | .sendMsg r => Reply.sendMsg <$> do
    if !(← client (.areFriends r.msg.from_uid r.msg.to_uid)) then
      return { err_code := .ERR_NOT_FRIEND, err_msg := "You must be friend to send message".toList }
    let msg_id ← own systemClock
    let _saved ← client (.saveMessage (to_string msg_id) r.msg.from_uid r.msg.to_uid r.msg.content)
    let gateway_addr_opt ← client (.get (sendKey r.msg.to_uid))
    own (impl.forward r.msg gateway_addr_opt)
    let create_time ← own (time .sendMsg)
    return { err_code := .ERR_SUCCESS, msg_id, create_time }
  | .syncMsg r => Reply.syncMsg <$> do
    let history_msgs ← client (.getofflineMsgs r.uid r.last_msg_id)
    return { err_code := ErrorCode.ERR_SUCCESS.toInt, msgs := history_msgs }
  | .registerUser r => Reply.registerUser <$> do
    let uid ← client (.createUser r.nickname r.password r.email)
    if uid > 0 then return { err_code := 0, uid }
    else return { err_code := 1, err_msg := "create user failed".toList }
  | .httpLogin r => Reply.httpLogin <$> do
    let answer ← client (.checkUserByEmail r.email r.password {})
    if answer.1 then
      let _stored ← client (.set (tokenKey answer.2.uid) r.password)
      return { answer.2 with err_code := 0 }
    else
      return { answer.2 with err_code := 1, err_msg := "Invaild email or passwrod".toList }
  | .getUploadUrl r => Reply.getUploadUrl <$> own (impl.getUploadUrl r)
  | .sendFriendRequest r => Reply.sendFriendRequest <$> do
    match ← client (.createFriendRequest r.from_uid r.to_uid r.reason) with
    | some req_id => return { err_code := .ERR_SUCCESS, req_id }
    | none =>
      return { err_code := .ERR_SYS_ERROR, err_msg := "Failed to create friend request".toList }
  | .respondFriendRequest r => Reply.respondFriendRequest <$> do
    if r.accept then
      if ← client (.acceptFriendRequest r.req_id) then return { err_code := .ERR_SUCCESS }
      else
        return { err_code := .ERR_SYS_ERROR, err_msg := "Failed to accept friend request".toList }
    else
      let _ok ← client (.execute (.rejectRequest r.req_id))
      return { err_code := .ERR_SUCCESS }
  | .listFriends r => Reply.listFriends <$> do
    let list ← client (.listFriends r.uid)
    return { err_code := .ERR_SUCCESS, friend_uids := list }
  | .getFriendRequests r => Reply.getFriendRequests <$> do
    let reqs ← client (.getFriendRequestsForUser r.uid)
    return { err_code := .ERR_SUCCESS, requests := reqs }

theorem interpret_own {α : Type} (p : Prog Op.Ret α) : (own p).interpret CallOp.body = p := by
  induction p with
  | ret a => rfl
  | throw => rfl
  | op o k ih => exact congrArg (op o) (funext ih)

theorem interpret_client {α : Type} {c : ClientCall} {f : c.Ret → Prog CallOp.Ret α}
    {g : c.Ret → Prog Op.Ret α} (hfg : ∀ r, (f r).interpret CallOp.body = g r) :
    (client c >>= f).interpret CallOp.body = c.body >>= g :=
  congrArg (c.body >>= ·) (funext hfg)

theorem interpret_own_bind {α β : Type} {p : Prog Op.Ret α} {f : α → Prog CallOp.Ret β}
    {g : α → Prog Op.Ret β} (hfg : ∀ a, (f a).interpret CallOp.body = g a) :
    (own p >>= f).interpret CallOp.body = p >>= g := by
  rw [interpret_bind, interpret_own, funext hfg]

theorem interpret_calls (impl : LogicServiceImpl) (req : Request) :
    (calls impl req).interpret CallOp.body = handle impl req := by
  cases req with
  | login r =>
    refine interpret_map.trans (congrArg _ (interpret_client fun db_password => ?_))
    rw [interpret_ite]
    rfl
  | sendMsg r =>
    refine interpret_map.trans (congrArg _ (interpret_client fun friends => ?_))
    rw [interpret_ite]
    refine congrArg (ite _ _) (interpret_own_bind fun msg_id => interpret_client fun _ =>
      interpret_client fun addr => interpret_own_bind fun _ => interpret_own_bind fun _ => rfl)
  | syncMsg r => exact interpret_map.trans (congrArg _ (interpret_client fun _ => rfl))
  | registerUser r =>
    refine interpret_map.trans (congrArg _ (interpret_client fun uid => ?_))
    rw [interpret_ite]
    rfl
  | httpLogin r =>
    refine interpret_map.trans (congrArg _ (interpret_client fun answer => ?_))
    rw [interpret_ite]
    rfl
  | getUploadUrl r => exact interpret_map.trans (congrArg _ (interpret_own _))
  | sendFriendRequest r =>
    refine interpret_map.trans (congrArg _ (interpret_client fun id => ?_))
    cases id <;> rfl
  | respondFriendRequest r =>
    refine interpret_map.trans (congrArg _ ?_)
    rw [interpret_ite]
    refine ite_congr rfl (fun _ => interpret_client fun accepted => ?_)
      fun _ => interpret_client fun _ => rfl
    rw [interpret_ite]
    rfl
  | listFriends r => exact interpret_map.trans (congrArg _ (interpret_client fun _ => rfl))
  | getFriendRequests r => exact interpret_map.trans (congrArg _ (interpret_client fun _ => rfl))

end LetsChat.LogicServer
