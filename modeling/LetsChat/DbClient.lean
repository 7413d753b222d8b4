import LetsChat.Operations

/-! The pooled clients: the queries of `PooledDbClient` and the two commands of
`PooledRedisClient`. -/

namespace LetsChat
open Lib Prog

def acquire (site : Site) : Prog Op.Ret Bool := perform (Op.acquire site)
def pqExec (site : Site) (q : Query) : Prog Op.Ret PGresult := perform (Op.pqExec site q)
def time (site : Site) : Prog Op.Ret Int := perform (Op.time site)
def systemClock : Prog Op.Ret Int := perform Op.systemClock
def redisAcquire : Prog Op.Ret Bool := perform Op.redisAcquire
def redisSet (key value : Text) : Prog Op.Ret (Option RedisReply) :=
  perform (Op.redisSet key value)
def redisGet (key : Text) : Prog Op.Ret (Option RedisReply) := perform (Op.redisGet key)
def pushMsg (gateway_addr : Text) (push_req : PushMsgReq) : Prog Op.Ret Bool :=
  perform (Op.pushMsg gateway_addr push_req)
def httpGet (host : Text) (port : Int) (path : Text) : Prog Op.Ret Text :=
  perform (Op.httpGet host port path)
def fidStore (object_name fid : Text) : Prog Op.Ret Unit := perform (Op.fidStore object_name fid)
def fidFind (object_name : Text) : Prog Op.Ret (Option Text) := perform (Op.fidFind object_name)

section Bind
variable {α : Type}

@[simp] theorem acquire_bind (site : Site) (f : Bool → Prog Op.Ret α) :
    (acquire site >>= f) = op (Op.acquire site) f := rfl

@[simp] theorem pqExec_bind (site : Site) (q : Query) (f : PGresult → Prog Op.Ret α) :
    (pqExec site q >>= f) = op (Op.pqExec site q) f := rfl

@[simp] theorem time_bind (site : Site) (f : Int → Prog Op.Ret α) :
    (time site >>= f) = op (Op.time site) f := rfl

@[simp] theorem systemClock_bind (f : Int → Prog Op.Ret α) :
    (systemClock >>= f) = op Op.systemClock f := rfl

@[simp] theorem redisAcquire_bind (f : Bool → Prog Op.Ret α) :
    (redisAcquire >>= f) = op Op.redisAcquire f := rfl

@[simp] theorem redisSet_bind (key value : Text) (f : Option RedisReply → Prog Op.Ret α) :
    (redisSet key value >>= f) = op (Op.redisSet key value) f := rfl

@[simp] theorem redisGet_bind (key : Text) (f : Option RedisReply → Prog Op.Ret α) :
    (redisGet key >>= f) = op (Op.redisGet key) f := rfl

@[simp] theorem pushMsg_bind (addr : Text) (req : PushMsgReq) (f : Bool → Prog Op.Ret α) :
    (pushMsg addr req >>= f) = op (Op.pushMsg addr req) f := rfl

@[simp] theorem httpGet_bind (host : Text) (port : Int) (path : Text) (f : Text → Prog Op.Ret α) :
    (httpGet host port path >>= f) = op (Op.httpGet host port path) f := rfl

@[simp] theorem fidStore_bind (name fid : Text) (f : Unit → Prog Op.Ret α) :
    (fidStore name fid >>= f) = op (Op.fidStore name fid) f := rfl

@[simp] theorem fidFind_bind (name : Text) (f : Option Text → Prog Op.Ret α) :
    (fidFind name >>= f) = op (Op.fidFind name) f := rfl

end Bind

/-- `std::stoi` of a `status` cell, which holds a small number. -/
def stoi (cell : Text) : Option Int := stoll cell

namespace PooledDbClient

def execute (sql : Query) : Prog Op.Ret Bool := do
  if !(← acquire .execute) then return false
  let res ← pqExec .execute sql
  if res.status ≠ .PGRES_COMMAND_OK then return false
  return true

def getUserPassword (uid : Int) : Prog Op.Ret Text := do
  if !(← acquire .getUserPassword) then return []
  let res ← pqExec .getUserPassword (.selectUserPassword uid)
  if res.status ≠ .PGRES_TUPLES_OK then return []
  if res.ntuples > 0 then return res.getvalue 0 0
  return []

def saveMessage (msg_id : Text) (from_uid to_uid : Int) (content : Text) : Prog Op.Ret Bool := do
  if !(← acquire .saveMessage) then return false
  let now ← time .saveMessage
  let res ← pqExec .saveMessage (.insertChatMsg msg_id from_uid to_uid content now)
  if res.status ≠ .PGRES_COMMAND_OK then return false
  return true

def offlineMsg (res : PGresult) (i : Nat) : Option ChatMsg := do
  -- column 0, the message id, is selected but not read
  let from_uid ← stoll (res.getvalue i 1)
  let to_uid ← stoll (res.getvalue i 2)
  let create_time ← stoll (res.getvalue i 4)
  return { from_uid, to_uid, content := res.getvalue i 3, create_time }

def getofflineMsgs (uid last_msg_id : Int) : Prog Op.Ret (List ChatMsg) := do
  if !(← acquire .getofflineMsgs) then return []
  let res ← pqExec .getofflineMsgs (.selectOfflineMsgs uid last_msg_id)
  if res.status ≠ .PGRES_TUPLES_OK then return []
  ofOption ((List.range res.ntuples).mapM (offlineMsg res))

def createUser (username password email : Text) : Prog Op.Ret Int := do
  if !(← acquire .createUser) then return -1
  let res ← pqExec .createUser (.insertUser username password email)
  if res.status ≠ .PGRES_TUPLES_OK then return -1
  ofOption (stoll (res.getvalue 0 0))

/-- The answer and what it leaves in `user_info`. -/
def checkUserByEmail (email password : Text) (user_info : HttpLoginRes) :
    Prog Op.Ret (Bool × HttpLoginRes) := do
  if !(← acquire .checkUserByEmail) then return (false, user_info)
  let res ← pqExec .checkUserByEmail (.selectUserByEmail email)
  if res.status ≠ .PGRES_TUPLES_OK ∨ res.ntuples = 0 then return (false, user_info)
  let db_pass := res.getvalue 0 2
  if db_pass ≠ password then return (false, user_info)
  let uid ← ofOption (stoll (res.getvalue 0 0))
  return (true, { user_info with uid, nickname := res.getvalue 0 1, token := db_pass })

/-- The new id, or `none` for `false`. -/
def createFriendRequest (from_uid to_uid : Int) (reason : Text) : Prog Op.Ret (Option Int) := do
  if !(← acquire .createFriendRequest) then return none
  let now ← time .createFriendRequest
  let res ← pqExec .createFriendRequest (.insertFriendRequest from_uid to_uid reason now)
  if res.status ≠ .PGRES_TUPLES_OK then return none
  let out_req_id ← ofOption (stoll (res.getvalue 0 0))
  return some out_req_id

def friendRequest (res : PGresult) (i : Nat) : Option FriendRequest := do
  let req_id ← stoll (res.getvalue i 0)
  let from_uid ← stoll (res.getvalue i 1)
  let to_uid ← stoll (res.getvalue i 2)
  let create_time ← stoll (res.getvalue i 4)
  let status ← stoi (res.getvalue i 5)
  return { req_id, from_uid, to_uid, reason := res.getvalue i 3, create_time, status }

def getFriendRequestsForUser (uid : Int) : Prog Op.Ret (List FriendRequest) := do
  if !(← acquire .getFriendRequestsForUser) then return []
  let res ← pqExec .getFriendRequestsForUser (.selectFriendRequests uid)
  if res.status ≠ .PGRES_TUPLES_OK then return []
  ofOption ((List.range res.ntuples).mapM (friendRequest res))

def acceptFriendRequest (req_id : Int) : Prog Op.Ret Bool := do
  if !(← acquire .acceptFriendRequest) then return false
  let res ← pqExec .acceptFriendRequest (.selectPendingRequest req_id)
  if res.status ≠ .PGRES_TUPLES_OK ∨ res.ntuples = 0 then return false
  let from_uid ← ofOption (stoll (res.getvalue 0 0))
  let to_uid ← ofOption (stoll (res.getvalue 0 1))
  let now ← time .acceptFriendRequest
  let r1 ← pqExec .acceptIns1 (.insertFriend from_uid to_uid now)
  let r2 ← pqExec .acceptIns2 (.insertFriend to_uid from_uid now)
  if r1.status ≠ .PGRES_COMMAND_OK ∨ r2.status ≠ .PGRES_COMMAND_OK then return false
  -- the result of the update is not looked at
  let _ur ← pqExec .acceptUpd (.acceptRequest req_id)
  return true

def areFriends (uid1 uid2 : Int) : Prog Op.Ret Bool := do
  if !(← acquire .areFriends) then return false
  let res ← pqExec .areFriends (.selectFriend uid1 uid2)
  return decide (res.status = .PGRES_TUPLES_OK ∧ res.ntuples > 0)

def listFriends (uid : Int) : Prog Op.Ret (List Int) := do
  if !(← acquire .listFriends) then return []
  let res ← pqExec .listFriends (.selectFriends uid)
  if res.status ≠ .PGRES_TUPLES_OK then return []
  ofOption ((List.range res.ntuples).mapM fun i => stoll (res.getvalue i 0))

def saveGroupMessage (msg_id : Text) (group_id from_uid : Int) (content : Text) :
    Prog Op.Ret Bool := do
  if !(← acquire .saveGroupMessage) then return false
  let now ← time .saveGroupMessage
  let res ← pqExec .saveGroupMessage (.insertGroupMsg msg_id group_id from_uid content now)
  if res.status ≠ .PGRES_COMMAND_OK then return false
  return true

/-- Row `i` of the group query; the group id stands in `to_uid`. -/
def groupMsg (res : PGresult) (i : Nat) : Option ChatMsg := do
  let from_uid ← stoll (res.getvalue i 2)
  let to_uid ← stoll (res.getvalue i 1)
  let create_time ← stoll (res.getvalue i 4)
  return { from_uid, to_uid, content := res.getvalue i 3, create_time }

def getGroupMsgs (group_id last_msg_id : Int) : Prog Op.Ret (List ChatMsg) := do
  if !(← acquire .getGroupMsgs) then return []
  let res ← pqExec .getGroupMsgs (.selectGroupMsgs group_id last_msg_id)
  if res.status ≠ .PGRES_TUPLES_OK then return []
  ofOption ((List.range res.ntuples).mapM (groupMsg res))

end PooledDbClient

namespace PooledRedisClient

def set (key value : Text) : Prog Op.Ret Bool := do
  if !(← redisAcquire) then return false
  match ← redisSet key value with
  | none => return false
  | some .error => return false
  | some _ => return true

def get (key : Text) : Prog Op.Ret (Option Text) := do
  if !(← redisAcquire) then return none
  match ← redisGet key with
  | some (.string str) => return some str
  | _ => return none

end PooledRedisClient

section Run
variable (e : Env) (w : World)

@[simp] theorem run_acquire (site : Site) :
    (acquire site).run e.exec w = (some (e.acquire site), w) := rfl

@[simp] theorem run_pqExec (site : Site) (q : Query) :
    (pqExec site q).run e.exec w =
      (some (e.pqExec site q w.tables).1, { w with tables := (e.pqExec site q w.tables).2 }) := rfl

@[simp] theorem run_time (site : Site) :
    (time site).run e.exec w = (some (e.time site), w) := rfl

@[simp] theorem run_systemClock : systemClock.run e.exec w = (some e.systemClock, w) := rfl

@[simp] theorem run_redisAcquire : redisAcquire.run e.exec w = (some e.redisAcquire, w) := rfl

@[simp] theorem run_redisSet (key value : Text) :
    (redisSet key value).run e.exec w =
      (some (e.redisSet key value w.redis).1,
        { w with redis := (e.redisSet key value w.redis).2 }) := rfl

@[simp] theorem run_redisGet (key : Text) :
    (redisGet key).run e.exec w = (some (e.redisGet key w.redis), w) := rfl

@[simp] theorem run_pushMsg (addr : Text) (req : PushMsgReq) :
    (pushMsg addr req).run e.exec w =
      (some e.push, { w with pushed := w.pushed ++ [(addr, req)] }) := rfl

end Run

namespace Env

def answer (e : Env) (site : Site) (q : Query) (t : Tables) : PGresult :=
  if e.acquire site then (e.pqExec site q t).1 else .fatal

def effect (e : Env) (site : Site) (q : Query) (t : Tables) : Tables :=
  if e.acquire site then (e.pqExec site q t).2 else t

def Reaches (e : Env) (site : Site) : Prop := e.acquire site = true ∧ e.stmt site ≠ .failed

def Returns (e : Env) (site : Site) : Prop := e.acquire site = true ∧ e.stmt site = .done

instance (e : Env) (site : Site) : Decidable (e.Reaches site) := inferInstanceAs (Decidable (_ ∧ _))
instance (e : Env) (site : Site) : Decidable (e.Returns site) := inferInstanceAs (Decidable (_ ∧ _))

theorem answer_eq (e : Env) (site : Site) (q : Query) (t : Tables) :
    e.answer site q t = if e.Returns site then (e.serve q t).1 else .fatal := by
  by_cases hg : e.acquire site = true
  · simp only [answer, Returns, hg, if_true, pqExec_fst, true_and]
  · simp only [answer, Returns, hg, Bool.false_eq_true, if_false, false_and]

theorem effect_eq (e : Env) (site : Site) (q : Query) (t : Tables) :
    e.effect site q t = if e.Reaches site then (e.serve q t).2 else t := by
  by_cases hg : e.acquire site = true
  · simp only [effect, Reaches, hg, if_true, pqExec_snd, true_and, ne_eq, ite_not]
  · simp only [effect, Reaches, hg, Bool.false_eq_true, if_false, false_and]

theorem Returns.reaches {e : Env} {site : Site} (h : e.Returns site) : e.Reaches site :=
  ⟨h.1, by rw [h.2]; decide⟩

theorem Serves.returns {e : Env} (h : e.Serves) (site : Site) : e.Returns site :=
  ⟨h.acquire site, h.stmt site⟩

theorem Serves.serve {e : Env} (h : e.Serves) (q : Query) (t : Tables) : e.serve q t = q.exec t := by
  rw [Env.serve, h.unquoted, ite_self]

theorem Serves.answer {e : Env} (h : e.Serves) (site : Site) (q : Query) (t : Tables) :
    e.answer site q t = (q.exec t).1 := by
  rw [answer_eq, if_pos (h.returns site), h.serve]

theorem Serves.effect {e : Env} (h : e.Serves) (site : Site) (q : Query) (t : Tables) :
    e.effect site q t = (q.exec t).2 := by
  rw [effect_eq, if_pos (h.returns site).reaches, h.serve]

theorem effect_read (e : Env) (site : Site) {q : Query} {t : Tables} (h : (e.serve q t).2 = t) :
    e.effect site q t = t := by
  rw [effect_eq, h, ite_self]

end Env

/-- A function that returns on a missing connection what it returns on an error
is its statement followed by what it does with the result. -/
theorem run_connected {α : Type} (e : Env) (w : World) (site : Site) (q : Query) (fallback : α)
    {k : PGresult → Prog Op.Ret α} (hk : ∀ w, (k .fatal).run e.exec w = (some fallback, w)) :
    (acquire site >>= fun g => if (!g) = true then ret fallback
      else pqExec site q >>= k).run e.exec w =
    (k (e.answer site q w.tables)).run e.exec { w with tables := e.effect site q w.tables } := by
  rw [run_bind_of _ (run_acquire e w site)]
  cases hg : e.acquire site with
  | false => simp [Env.answer, Env.effect, hg, hk]
  | true => simp [Env.answer, Env.effect, hg, Env.exec]

theorem run_query {α : Type} (e : Env) (w : World) (site : Site) {q : Query} (hplain : q.strings = [])
    (hread : (q.exec w.tables).2 = w.tables) (fallback : α) {k : PGresult → Prog Op.Ret α}
    (hk : ∀ w, (k .fatal).run e.exec w = (some fallback, w)) :
    (acquire site >>= fun g => if (!g) = true then ret fallback
      else pqExec site q >>= k).run e.exec w =
    if e.Returns site then (k (q.exec w.tables).1).run e.exec w else (some fallback, w) := by
  have hserve : e.serve q w.tables = q.exec w.tables := e.serve_plain hplain w.tables
  have heffect : e.effect site q w.tables = w.tables := by
    apply e.effect_read
    rw [hserve, hread]
  rw [run_connected e w site q fallback hk, heffect, Env.answer_eq, hserve]
  by_cases hret : e.Returns site
  · rw [if_pos hret, if_pos hret]
  · rw [if_neg hret, if_neg hret, hk]

theorem run_connected_time {α : Type} (e : Env) (w : World) (site : Site) (q : Int → Query)
    (fallback : α) {k : PGresult → Prog Op.Ret α}
    (hk : ∀ w, (k .fatal).run e.exec w = (some fallback, w)) :
    (acquire site >>= fun g => if (!g) = true then ret fallback
      else time site >>= fun now => pqExec site (q now) >>= k).run e.exec w =
    (k (e.answer site (q (e.time site)) w.tables)).run e.exec
      { w with tables := e.effect site (q (e.time site)) w.tables } := by
  rw [run_bind_of _ (run_acquire e w site)]
  cases hg : e.acquire site with
  | false => simp [Env.answer, Env.effect, hg, hk]
  | true => simp [Env.answer, Env.effect, hg, Env.exec]

theorem run_served {α : Type} {e : Env} (he : e.Serves) (w : World) (site : Site) (q : Query)
    (fallback : α) {k : PGresult → Prog Op.Ret α}
    (hk : ∀ w, (k .fatal).run e.exec w = (some fallback, w)) :
    (acquire site >>= fun g => if (!g) = true then ret fallback
      else pqExec site q >>= k).run e.exec w =
    (k (q.exec w.tables).1).run e.exec { w with tables := (q.exec w.tables).2 } := by
  rw [run_connected e w site q fallback hk, he.answer, he.effect]

theorem run_served_time {α : Type} {e : Env} (he : e.Serves) (w : World) (site : Site)
    (q : Int → Query) (fallback : α) {k : PGresult → Prog Op.Ret α}
    (hk : ∀ w, (k .fatal).run e.exec w = (some fallback, w)) :
    (acquire site >>= fun g => if (!g) = true then ret fallback
      else time site >>= fun now => pqExec site (q now) >>= k).run e.exec w =
    (k ((q (e.time site)).exec w.tables).1).run e.exec
      { w with tables := ((q (e.time site)).exec w.tables).2 } := by
  rw [run_connected_time e w site q fallback hk, he.answer, he.effect]

theorem mapM_rows {α β : Type} (f : Nat → Option β) (g : α → β) (rows : List α)
    (h : ∀ i r, rows[i]? = some r → f i = some (g r)) :
    (List.range rows.length).mapM f = some (rows.map g) := by
  induction rows generalizing f with
  | nil => rfl
  | cons r rows ih =>
    have hfirst : f 0 = some (g r) := h 0 r rfl
    have hrest : (List.range rows.length).mapM (f ∘ Nat.succ) = some (rows.map g) :=
      ih (f ∘ Nat.succ) fun i r hr => h (i + 1) r hr
    rw [List.length_cons, List.range_succ_eq_map, List.mapM_cons, hfirst, List.mapM_map, hrest]
    rfl

namespace PooledDbClient

def FriendsSeen (e : Env) (t : Tables) (uid1 uid2 : Int) : Prop :=
  e.Returns .areFriends ∧ ∃ r ∈ t.t_friend, r.uid = uid1 ∧ r.friend_uid = uid2

instance (e : Env) (t : Tables) (uid1 uid2 : Int) : Decidable (FriendsSeen e t uid1 uid2) :=
  inferInstanceAs (Decidable (_ ∧ _))

theorem run_areFriends (e : Env) (w : World) (uid1 uid2 : Int) :
    (areFriends uid1 uid2).run e.exec w =
      (some (decide (FriendsSeen e w.tables uid1 uid2)), w) := by
  refine (run_query e w _ rfl rfl false fun w => by simp).trans ?_
  by_cases hret : e.Returns .areFriends
  · simp [hret, FriendsSeen, Query.exec]
  · simp [hret, FriendsSeen]

def passwordOf (e : Env) (t : Tables) (uid : Int) : Text :=
  if e.Returns .getUserPassword then ((t.t_user.find uid).map (·.password)).getD [] else []

theorem run_getUserPassword (e : Env) (w : World) (uid : Int) :
    (getUserPassword uid).run e.exec w = (some (passwordOf e w.tables uid), w) := by
  refine (run_query e w _ rfl rfl [] fun w => by simp).trans ?_
  rw [passwordOf, SerialTable.find, ← List.head?_filter]
  by_cases hret : e.Returns .getUserPassword
  · cases hrows : w.tables.t_user.rows.filter fun r => decide (r.id = uid) <;>
      simp [hret, Query.exec, hrows, PGresult.getvalue, PGresult.tuples, PGresult.ntuples]
  · simp [hret]

theorem run_saveMessage (e : Env) (w : World) (msg_id : Text) (from_uid to_uid : Int)
    (content : Text) :
    let q := Query.insertChatMsg msg_id from_uid to_uid content (e.time .saveMessage)
    (saveMessage msg_id from_uid to_uid content).run e.exec w =
      (some (decide ((e.answer .saveMessage q w.tables).status = .PGRES_COMMAND_OK)),
        { w with tables := e.effect .saveMessage q w.tables }) := by
  intro q
  refine (run_connected_time e w _ (Query.insertChatMsg msg_id from_uid to_uid content)
    false fun w => by simp).trans ?_
  split <;> simp_all [q]

def ofRow (r : ChatMsgRow) : ChatMsg :=
  { from_uid := r.from_uid, to_uid := r.to_uid, content := r.content, create_time := r.create_time }

theorem offlineMsg_tuples (rows : List ChatMsgRow) :
    (List.range rows.length).mapM (offlineMsg (.tuples (rows.map Query.chatMsgCells))) =
      some (rows.map ofRow) := by
  apply mapM_rows _ ofRow rows
  intro i r hr
  simp [offlineMsg, PGresult.getvalue, PGresult.tuples, hr, Query.chatMsgCells, ofRow]

def offlineRows (t : Tables) (uid last_msg_id : Int) : List ChatMsgRow :=
  (t.t_chat_msg.rows.filter fun r => r.to_uid = uid ∧ last_msg_id < r.id).take 100

theorem run_getofflineMsgs (e : Env) (w : World) (uid last_msg_id : Int) :
    (getofflineMsgs uid last_msg_id).run e.exec w =
      (some (if e.Returns .getofflineMsgs then (offlineRows w.tables uid last_msg_id).map ofRow
        else []), w) := by
  have hexec : Query.exec (.selectOfflineMsgs uid last_msg_id) w.tables =
      (.tuples ((offlineRows w.tables uid last_msg_id).map Query.chatMsgCells), w.tables) := rfl
  refine (run_query e w _ rfl rfl [] fun w => by simp).trans ?_
  by_cases hret : e.Returns .getofflineMsgs
  · rw [if_pos hret, if_pos hret, hexec]
    simp [-List.map_take, offlineMsg_tuples]
  · rw [if_neg hret, if_neg hret]

def Database : Op → Prop
  | .acquire _ | .pqExec _ _ | .time _ => True
  | _ => False

def Statements (S : Query → Prop) (o : Op) : Prop :=
  Database o ∧ ∀ site q, o = .pqExec site q → S q

section Within
variable {S : Query → Prop}

theorem within_execute {sql : Query} (hsql : S sql) : (execute sql).Within (Statements S) := by
  simp [execute, Statements, Database, hsql]

theorem within_getUserPassword {uid : Int} (hselect : S (.selectUserPassword uid)) :
    (getUserPassword uid).Within (Statements S) := by
  simp [getUserPassword, Statements, Database, hselect]

theorem within_saveMessage {msg_id : Text} {from_uid to_uid : Int} {content : Text}
    (hinsert : ∀ now, S (.insertChatMsg msg_id from_uid to_uid content now)) :
    (saveMessage msg_id from_uid to_uid content).Within (Statements S) := by
  simp [saveMessage, Statements, Database, hinsert]

theorem within_getofflineMsgs {uid last_msg_id : Int}
    (hselect : S (.selectOfflineMsgs uid last_msg_id)) :
    (getofflineMsgs uid last_msg_id).Within (Statements S) := by
  simp [getofflineMsgs, Statements, Database, hselect]

theorem within_createUser {username password email : Text}
    (hinsert : S (.insertUser username password email)) :
    (createUser username password email).Within (Statements S) := by
  simp [createUser, Statements, Database, hinsert]

theorem within_checkUserByEmail {email : Text} (hselect : S (.selectUserByEmail email))
    (password : Text) (user_info : HttpLoginRes) :
    (checkUserByEmail email password user_info).Within (Statements S) := by
  simp [checkUserByEmail, Statements, Database, hselect]

theorem within_createFriendRequest {from_uid to_uid : Int} {reason : Text}
    (hinsert : ∀ now, S (.insertFriendRequest from_uid to_uid reason now)) :
    (createFriendRequest from_uid to_uid reason).Within (Statements S) := by
  simp [createFriendRequest, Statements, Database, hinsert]

theorem within_getFriendRequestsForUser {uid : Int} (hselect : S (.selectFriendRequests uid)) :
    (getFriendRequestsForUser uid).Within (Statements S) := by
  simp [getFriendRequestsForUser, Statements, Database, hselect]

theorem within_acceptFriendRequest {req_id : Int} (hselect : S (.selectPendingRequest req_id))
    (hinsert : ∀ a b now, S (.insertFriend a b now)) (hupdate : S (.acceptRequest req_id)) :
    (acceptFriendRequest req_id).Within (Statements S) := by
  simp [acceptFriendRequest, Statements, Database, hselect, hinsert, hupdate]

theorem within_areFriends {uid1 uid2 : Int} (hselect : S (.selectFriend uid1 uid2)) :
    (areFriends uid1 uid2).Within (Statements S) := by
  simp [areFriends, Statements, Database, hselect]

theorem within_listFriends {uid : Int} (hselect : S (.selectFriends uid)) :
    (PooledDbClient.listFriends uid).Within (Statements S) := by
  simp [PooledDbClient.listFriends, Statements, Database, hselect]

end Within
end PooledDbClient

namespace PooledRedisClient

def Reaches (e : Env) : Prop := e.redisAcquire = true ∧ e.redis ≠ .failed

def Returns (e : Env) : Prop := e.redisAcquire = true ∧ e.redis = .done

instance (e : Env) : Decidable (Reaches e) := inferInstanceAs (Decidable (_ ∧ _))
instance (e : Env) : Decidable (Returns e) := inferInstanceAs (Decidable (_ ∧ _))

theorem run_set (e : Env) (w : World) (key value : Text) :
    (set key value).run e.exec w =
      (some (decide (Returns e)),
        { w with
          redis := if Reaches e then Function.update w.redis (Sql.cStr key) (some (Sql.cStr value))
            else w.redis }) := by
  unfold set
  rw [run_bind_of _ (run_redisAcquire e w)]
  cases hg : e.redisAcquire with
  | false => simp [Reaches, Returns, hg]
  | true => cases hr : e.redis <;> simp [Reaches, Returns, hg, hr, Env.exec, Env.redisSet]

theorem run_get (e : Env) (w : World) (key : Text) :
    (get key).run e.exec w =
      (some (if Returns e then w.redis (Sql.cStr key) else none), w) := by
  unfold get
  rw [run_bind_of _ (run_redisAcquire e w)]
  cases hg : e.redisAcquire with
  | false => simp [Returns, hg]
  | true =>
    cases hr : e.redis with
    | done =>
      cases hv : w.redis (Sql.cStr key) <;> simp [Returns, hg, hr, hv, Env.exec, Env.redisGet]
    | failed => simp [Returns, hg, hr, Env.exec, Env.redisGet]
    | lost => simp [Returns, hg, hr, Env.exec, Env.redisGet]

end PooledRedisClient
end LetsChat
