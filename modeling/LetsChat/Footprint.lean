import LetsChat.LogicService

/-! What each request may ask of its surroundings, whatever they answer. -/

namespace LetsChat
open Lib Prog PooledDbClient LogicServiceImpl

namespace Request

def statement : Request → Query → Prop
  | .login r, q => q = .selectUserPassword r.uid
  | .sendMsg r, q => q = .selectFriend r.msg.from_uid r.msg.to_uid ∨
      ∃ msg_id now, q = .insertChatMsg msg_id r.msg.from_uid r.msg.to_uid r.msg.content now
  | .syncMsg r, q => q = .selectOfflineMsgs r.uid r.last_msg_id
  | .registerUser r, q => q = .insertUser r.nickname r.password r.email
  | .httpLogin r, q => q = .selectUserByEmail r.email
  | .getUploadUrl _, _ => False
  | .sendFriendRequest r, q => ∃ now, q = .insertFriendRequest r.from_uid r.to_uid r.reason now
  | .respondFriendRequest r, q => q = .selectPendingRequest r.req_id ∨
      (∃ a b now, q = .insertFriend a b now) ∨ q = .acceptRequest r.req_id ∨
      q = .rejectRequest r.req_id
  | .listFriends r, q => q = .selectFriends r.uid
  | .getFriendRequests r, q => q = .selectFriendRequests r.uid

theorem sendMsg_of_statement {req : Request} {msg_id content : Text} {from_uid to_uid now : Int}
    (h : req.statement (.insertChatMsg msg_id from_uid to_uid content now)) :
    ∃ r, req = .sendMsg r ∧ from_uid = r.msg.from_uid ∧ to_uid = r.msg.to_uid := by
  cases req with
  | sendMsg r =>
    obtain heq | ⟨_, _, heq⟩ := h
    · cases heq
    · cases heq
      exact ⟨r, rfl, rfl, rfl⟩
  | getUploadUrl r => exact h.elim
  | sendFriendRequest r =>
    obtain ⟨_, heq⟩ := h
    cases heq
  | respondFriendRequest r => obtain heq | ⟨_, _, _, heq⟩ | heq | heq := h <;> cases heq
  | _ => cases h

def writes : Request → Text → Prop
  | .login r, key => key = loginKey r.uid
  | .httpLogin _, key => ∃ uid, key = tokenKey uid
  | _, _ => False

def touches (req : Request) : Op → Prop
  | .acquire _ | .time _ | .systemClock | .redisAcquire | .redisGet _ => True
  | .pqExec _ q => req.statement q
  | .redisSet key _ => req.writes key
  | .pushMsg _ push_req => ∃ r, req = .sendMsg r ∧ push_req.to_uid = r.msg.to_uid
  | .httpGet _ _ _ | .fidStore _ _ | .fidFind _ => ∃ r, req = .getUploadUrl r

theorem touches_of_statements (req : Request) {o : Op} (h : Statements req.statement o) :
    req.touches o := by
  obtain ⟨hdb, hstatement⟩ := h
  cases o with
  | acquire | time => trivial
  | pqExec site q => exact hstatement site q rfl
  | _ => exact hdb.elim

end Request

theorem within_set {P : Op → Prop} {key value : Text} (hacquire : P .redisAcquire)
    (hset : P (.redisSet key value)) : (PooledRedisClient.set key value).Within P := by
  simp only [PooledRedisClient.set, redisAcquire_bind, redisSet_bind, within_op, within_ite]
  refine ⟨hacquire, fun g => ⟨fun _ => trivial, fun _ => ⟨hset, fun res => ?_⟩⟩⟩
  split <;> trivial

theorem within_get {P : Op → Prop} {key : Text} (hacquire : P .redisAcquire)
    (hget : P (.redisGet key)) : (PooledRedisClient.get key).Within P := by
  simp only [PooledRedisClient.get, redisAcquire_bind, redisGet_bind, within_op, within_ite]
  refine ⟨hacquire, fun g => ⟨fun _ => trivial, fun _ => ⟨hget, fun res => ?_⟩⟩⟩
  split <;> trivial

namespace LogicServiceImpl
variable (impl : LogicServiceImpl)

/-- The part of `SendMsg` that follows the friend check. -/
def deliver (msg : ChatMsg) : Prog Op.Ret MsgSendRes := do
  let msg_id ← systemClock
  let _saved ← saveMessage (to_string msg_id) msg.from_uid msg.to_uid msg.content
  let gateway_addr_opt ← PooledRedisClient.get (sendKey msg.to_uid)
  impl.forward msg gateway_addr_opt
  let create_time ← time .sendMsg
  return { err_code := .ERR_SUCCESS, msg_id, create_time }

theorem sendMsg_eq (r : MsgSendReq) :
    impl.sendMsg r = areFriends r.msg.from_uid r.msg.to_uid >>= fun friends =>
      if (!friends) = true then
        ret { err_code := .ERR_NOT_FRIEND, err_msg := "You must be friend to send message".toList }
      else impl.deliver r.msg := rfl

theorem within_deliver (r : MsgSendReq) :
    (impl.deliver r.msg).Within (Request.sendMsg r).touches := by
  refine within_bind ⟨trivial, fun _ => trivial⟩ fun msg_id => ?_
  refine within_bind ?_ fun saved => within_bind (within_get trivial trivial) fun addr => ?_
  · refine (within_saveMessage (S := (Request.sendMsg r).statement) fun now => ?_).mono
      fun o => (Request.sendMsg r).touches_of_statements
    exact .inr ⟨_, _, rfl⟩
  · refine within_bind ?_ fun _ => ⟨trivial, fun _ => trivial⟩
    cases addr with
    | none => trivial
    | some addr => exact ⟨⟨r, rfl, rfl⟩, fun _ => trivial⟩

theorem within_uploads {P : Op → Prop} (hclock : P .systemClock)
    (hget : ∀ host port path, P (.httpGet host port path))
    (hstore : ∀ name fid, P (.fidStore name fid)) (hfind : ∀ name, P (.fidFind name))
    (r : GetUploadUrlReq) : (impl.getUploadUrl r).Within P := by
  refine within_bind ⟨hclock, fun _ => trivial⟩ fun now => within_bind ?_ fun upload_url =>
    within_bind ?_ fun download_url => ?_
  · refine within_bind ⟨hget _ _ _, fun _ => trivial⟩ fun response => within_ite.mpr
      ⟨fun _ => trivial, fun _ => within_bind (within_ofOption _) fun fid => within_ite.mpr
        ⟨fun _ => trivial, fun _ => ⟨hstore _ _, fun _ => trivial⟩⟩⟩
  · exact within_bind ⟨hfind _, fun _ => trivial⟩ fun fid =>
      within_ite.mpr ⟨fun _ => trivial, fun _ => trivial⟩
  · exact within_ite.mpr ⟨fun _ => trivial, fun _ => trivial⟩

theorem within_getUploadUrl (r : GetUploadUrlReq) :
    (impl.getUploadUrl r).Within (Request.getUploadUrl r).touches :=
  within_uploads impl trivial (fun _ _ _ => ⟨r, rfl⟩) (fun _ _ => ⟨r, rfl⟩) (fun _ => ⟨r, rfl⟩) r

theorem within_handle (req : Request) : (handle impl req).Within req.touches := by
  have hdb : ∀ {α : Type} {p : Prog Op.Ret α}, p.Within (Statements req.statement) →
      p.Within req.touches := fun hp => hp.mono fun o => req.touches_of_statements
  cases req with
  | login r =>
    refine within_map _ (within_bind (hdb (within_getUserPassword rfl)) fun password => ?_)
    exact within_ite.mpr ⟨fun _ => within_bind (within_set trivial rfl) fun _ => trivial,
      fun _ => trivial⟩
  | sendMsg r =>
    rw [handle, sendMsg_eq]
    refine within_map _ (within_bind (hdb (within_areFriends (.inl rfl))) fun friends => ?_)
    exact within_ite.mpr ⟨fun _ => trivial, fun _ => within_deliver impl r⟩
  | syncMsg r => exact within_map _ (within_bind (hdb (within_getofflineMsgs rfl)) fun _ => trivial)
  | registerUser r =>
    exact within_map _ (within_bind (hdb (within_createUser rfl)) fun uid =>
      within_ite.mpr ⟨fun _ => trivial, fun _ => trivial⟩)
  | httpLogin r =>
    refine within_map _ (within_bind (hdb ?_) fun answer => ?_)
    · exact within_checkUserByEmail (S := (Request.httpLogin r).statement) rfl _ _
    exact within_ite.mpr ⟨fun _ => within_bind (within_set trivial ⟨_, rfl⟩) fun _ => trivial,
      fun _ => trivial⟩
  | getUploadUrl r => exact within_map _ (within_getUploadUrl impl r)
  | sendFriendRequest r =>
    refine within_map _ (within_bind (hdb (within_createFriendRequest fun now => ⟨now, rfl⟩))
      fun id => ?_)
    cases id <;> trivial
  | respondFriendRequest r =>
    refine within_map _ (within_ite.mpr ⟨fun _ => ?_, fun _ => ?_⟩)
    · refine within_bind (hdb (within_acceptFriendRequest (.inl rfl) ?_ ?_)) fun accepted =>
        within_ite.mpr ⟨fun _ => trivial, fun _ => trivial⟩
      · exact fun a b now => .inr (.inl ⟨a, b, now, rfl⟩)
      · exact .inr (.inr (.inl rfl))
    · exact within_bind (hdb (within_execute (.inr (.inr (.inr rfl))))) fun _ => trivial
  | listFriends r =>
    exact within_map _ (within_bind (hdb (PooledDbClient.within_listFriends rfl)) fun _ => trivial)
  | getFriendRequests r =>
    exact within_map _ (within_bind (hdb (within_getFriendRequestsForUser rfl)) fun _ => trivial)

end LogicServiceImpl

theorem redis_kept {impl : LogicServiceImpl} {w w' : World} {i : Request × Env} {o : Option Reply}
    (h : (service impl).step w i = some (o, w')) {key : Text}
    (hkey : ∀ k, i.1.writes k → Sql.cStr k ≠ key) : w'.redis key = w.redis key := by
  have hop : ∀ op w, i.1.touches op → (i.2.exec op w).2.redis key = w.redis key := by
    intro op w hop
    cases op with
    | redisSet k value =>
      have hother : ∀ v, Function.update w.redis (Sql.cStr k) v key = w.redis key :=
        fun v => Function.update_of_ne (hkey k hop).symm v w.redis
      simp only [Env.exec, Env.redisSet]
      cases i.2.redis with
      | done => exact hother _
      | failed => rfl
      | lost => exact hother _
    | _ => rfl
  have hkeep := run_keeps (fun w : World => w.redis key) hop (within_handle impl i.1) w
  rw [service_step h] at hkeep
  exact hkeep

end LetsChat
