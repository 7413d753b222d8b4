import LetsChat.Lib.Program
import LetsChat.Quoting

/-! The operations that the logic server asks of its surroundings, and what they
do to the world. An environment decides which of them succeed. -/

namespace LetsChat
open Lib

inductive Site
  | execute
  | getUserPassword
  | saveMessage
  | getofflineMsgs
  | createUser
  | checkUserByEmail
  | createFriendRequest
  | getFriendRequestsForUser
  | acceptFriendRequest
  | acceptIns1
  | acceptIns2
  | acceptUpd
  | areFriends
  | listFriends
  | saveGroupMessage
  | getGroupMsgs
  | sendMsg
  deriving DecidableEq

/-- What hiredis answers; a null pointer is `none` of it. -/
inductive RedisReply
  | status
  | string (str : Text)
  | nil
  | error

inductive Op
  | acquire (site : Site)
  | pqExec (site : Site) (q : Query)
  | time (site : Site)
  | systemClock
  | redisAcquire
  | redisSet (key value : Text)
  | redisGet (key : Text)
  | pushMsg (gateway_addr : Text) (push_req : PushMsgReq)
  | httpGet (host : Text) (port : Int) (path : Text)
  | fidStore (object_name fid : Text)
  | fidFind (object_name : Text)

/-- `acquire` tells whether a connection came, `pushMsg` whether the push succeeded. -/
@[reducible] def Op.Ret : Op → Type
  | acquire _ => Bool
  | pqExec _ _ => PGresult
  | time _ => Int
  | systemClock => Int
  | redisAcquire => Bool
  | redisSet _ _ => Option RedisReply
  | redisGet _ => Option RedisReply
  | pushMsg _ _ => Bool
  | httpGet _ _ _ => Text
  | fidStore _ _ => Unit
  | fidFind _ => Option Text

/-- A statement or command is carried out, or fails without effect, or is carried
out and its reply is lost. -/
inductive Outcome
  | done
  | failed
  | lost
  deriving DecidableEq

/-- The environment of one call. `unquoted` is what the server does with a text that does
not lex as the statement it was meant to be. -/
structure Env where
  acquire : Site → Bool
  stmt : Site → Outcome
  unquoted : Query → Tables → PGresult × Tables
  time : Site → Int
  systemClock : Int
  redisAcquire : Bool
  redis : Outcome
  push : Bool
  httpGet : Text → Int → Text → Text

structure World where
  tables : Tables
  redis : Text → Option Text
  pushed : List (Text × PushMsgReq)
  object_fid_map_ : Text → Option Text

def World.empty : World := ⟨.empty, fun _ => none, [], fun _ => none⟩

namespace Env

def serve (e : Env) (q : Query) (t : Tables) : PGresult × Tables :=
  if q.LexesAsIntended then q.exec t else e.unquoted q t

def pqExec (e : Env) (site : Site) (q : Query) (t : Tables) : PGresult × Tables :=
  match e.stmt site with
  | .done => e.serve q t
  | .failed => (.fatal, t)
  | .lost => (.fatal, (e.serve q t).2)

def redisSet (e : Env) (key value : Text) (redis : Text → Option Text) :
    Option RedisReply × (Text → Option Text) :=
  match e.redis with
  | .done => (some .status, Function.update redis (Sql.cStr key) (some (Sql.cStr value)))
  | .failed => (some .error, redis)
  | .lost => (none, Function.update redis (Sql.cStr key) (some (Sql.cStr value)))

def redisGet (e : Env) (key : Text) (redis : Text → Option Text) : Option RedisReply :=
  match e.redis with
  | .done => some ((redis (Sql.cStr key)).elim .nil .string)
  | .failed => some .error
  | .lost => none

def exec (e : Env) : (o : Op) → World → o.Ret × World
  | .acquire site, w => (e.acquire site, w)
  | .pqExec site q, w =>
    ((e.pqExec site q w.tables).1, { w with tables := (e.pqExec site q w.tables).2 })
  | .time site, w => (e.time site, w)
  | .systemClock, w => (e.systemClock, w)
  | .redisAcquire, w => (e.redisAcquire, w)
  | .redisSet key value, w =>
    ((e.redisSet key value w.redis).1, { w with redis := (e.redisSet key value w.redis).2 })
  | .redisGet key, w => (e.redisGet key w.redis, w)
  | .pushMsg addr req, w => (e.push, { w with pushed := w.pushed ++ [(addr, req)] })
  | .httpGet host port path, w => (e.httpGet host port path, w)
  | .fidStore name fid, w =>
    ((), { w with object_fid_map_ := Function.update w.object_fid_map_ name (some fid) })
  | .fidFind name, w => (w.object_fid_map_ name, w)

structure Serves (e : Env) : Prop where
  acquire : ∀ site, e.acquire site = true
  stmt : ∀ site, e.stmt site = .done
  redisAcquire : e.redisAcquire = true
  redis : e.redis = .done
  unquoted : e.unquoted = Query.exec

def fair : Env where
  acquire _ := true
  stmt _ := .done
  unquoted := Query.exec
  time _ := 0
  systemClock := 0
  redisAcquire := true
  redis := .done
  push := true
  httpGet _ _ _ := []

theorem fair_serves : fair.Serves := ⟨fun _ => rfl, fun _ => rfl, rfl, rfl, rfl⟩

theorem serve_plain (e : Env) {q : Query} (hq : q.strings = []) (t : Tables) :
    e.serve q t = q.exec t := by
  have hlex : q.LexesAsIntended := by
    rw [Query.lexesAsIntended_iff, hq]
    exact fun s hs => absurd hs List.not_mem_nil
  rw [serve, if_pos hlex]

theorem pqExec_done (e : Env) {site : Site} (h : e.stmt site = .done) (q : Query) (t : Tables) :
    e.pqExec site q t = e.serve q t := by
  rw [pqExec, h]

theorem pqExec_fst (e : Env) (site : Site) (q : Query) (t : Tables) :
    (e.pqExec site q t).1 = if e.stmt site = .done then (e.serve q t).1 else .fatal := by
  cases h : e.stmt site <;> simp [pqExec, h]

theorem pqExec_snd (e : Env) (site : Site) (q : Query) (t : Tables) :
    (e.pqExec site q t).2 = if e.stmt site = .failed then t else (e.serve q t).2 := by
  cases h : e.stmt site <;> simp [pqExec, h]

end Env

structure ServingEnv where
  env : Env
  serves : env.Serves

end LetsChat
