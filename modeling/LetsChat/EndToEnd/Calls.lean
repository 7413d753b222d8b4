import LetsChat.Footprint
import LetsChat.Gateway.Exchange
import LetsChat.Gateway.HttpApi
import LetsChat.Lib.Interpret

/-! The gateway and the logic server together. The gateway carries out an RPC by the handler
of the logic server, whose pushes come back to the gateway. -/

namespace LetsChat.EndToEnd
open Lib Prog

/-- Where a push goes: to this gateway, with or without its answer coming back, or elsewhere. -/
inductive Push
  | here
  | lost
  | elsewhere (ok : Bool)
  deriving DecidableEq

/-- What the surroundings do while one call is handled. `link` is what becomes of an RPC of
the gateway. -/
structure Env where
  memory : Int → Bytes
  link : Outcome
  push : Push
  logic : LetsChat.Env

structure State (τ : Type) where
  gateway : Gateway.State τ
  world : World
  sent : List (τ × Bytes)

inductive Op (τ : Type)
  | onOpen (ws : τ)
  | gateway (ws : τ) (o : Gateway.Op)
  | onClose (ws : τ)
  | link
  | logic (o : LetsChat.Op)
  | pushMsg (request : PushMsgReq)

@[reducible] def Op.Ret {τ : Type} : Op τ → Type
  | onOpen _ => Unit
  | gateway _ o => o.Ret
  | onClose _ => Unit
  | link => Outcome
  | logic o => o.Ret
  | pushMsg _ => PushMsgRes

section Exec
variable {τ : Type} [DecidableEq τ]

namespace State

def start (w : World) : State τ := ⟨.start, w, []⟩

def pushMsg (s : State τ) (request : PushMsgReq) : PushMsgRes × State τ :=
  ((s.gateway.pushMsg request).1,
    { s with sent := s.sent ++ (s.gateway.pushMsg request).2.toList })

def close (s : State τ) (ws : τ) : State τ :=
  { s with gateway := (s.gateway.removeSession (s.gateway.uidOf ws)).setSocket ws .closed }

end State

def Env.own (e : Env) : Gateway.Env :=
  ⟨e.memory, fun _ => none, fun _ => none, fun _ => none, fun _ => none⟩

/-- The push succeeds when the RPC is OK and its reply has the error code 0. -/
def Env.execPush (e : Env) (gateway_addr : Text) (push_req : PushMsgReq) (s : State τ) :
    Bool × State τ :=
  let s' := { s with world := (e.logic.exec (.pushMsg gateway_addr push_req) s.world).2 }
  match e.push with
  | .here => (decide ((s'.pushMsg push_req).1.err_code = 0), (s'.pushMsg push_req).2)
  | .lost => (false, (s'.pushMsg push_req).2)
  | .elsewhere ok => (ok, s')

variable (gw : Gateway.Params)

def Env.exec (e : Env) : (o : Op τ) → State τ → o.Ret × State τ
  | .onOpen ws, s => ((), { s with gateway := s.gateway.setSocket ws (.opened {}) })
  | .gateway ws (.send data), s => ((), { s with sent := s.sent ++ [(ws, data)] })
  | .gateway ws o, s =>
    ((Gateway.exec gw e.own ws o s.gateway).1,
      { s with gateway := (Gateway.exec gw e.own ws o s.gateway).2 })
  | .onClose ws, s => ((), s.close ws)
  | .link, s => (e.link, s)
  | .logic (.pushMsg gateway_addr push_req), s => e.execPush gateway_addr push_req s
  | .logic o, s => ((e.logic.exec o s.world).1, { s with world := (e.logic.exec o s.world).2 })
  | .pushMsg request, s => s.pushMsg request

end Exec

/-- The event loop of the gateway makes the first four calls. A `post` is an HTTP request whose
last piece has come. Other clients of the logic server and of the gateway's own service call by
`rpc` and `pushMsg`. -/
inductive Call (τ : Type)
  | onOpen (ws : τ)
  | onMessage (ws : τ) (opCode : Gateway.OpCode) (message : Bytes)
  | onClose (ws : τ)
  | post (api : Gateway.Api) (buffer : Bytes)
  | rpc (request : Request)
  | pushMsg (request : PushMsgReq)

namespace Call
variable {τ : Type}

def onLoop : Call τ → Bool
  | rpc _ | pushMsg _ => false
  | _ => true

def ofSocket : Call τ → Bool
  | onOpen _ | onMessage _ _ _ | onClose _ => true
  | _ => false

def socket : Call τ → Option τ
  | onMessage ws _ _ => some ws
  | _ => none

end Call

inductive Answer
  | none
  | reply (r : Reply)
  | http (resp_json : Gateway.Json)

section Body
variable {τ : Type}

def served (o : LetsChat.Op) : Prog (Op.Ret (τ := τ)) o.Ret := perform (Op.logic o)

/-- A call of the logic server. Its status is not OK when it does not get there, when the
handler ends in an exception, and when the reply is lost. -/
def remote {α : Type} (p : Prog LetsChat.Op.Ret α) : Prog (Op.Ret (τ := τ)) (Option α) := do
  match ← perform Op.link with
  | .failed => return none
  | .done => (p.interpret served).attempt
  | .lost =>
    let _res ← (p.interpret served).attempt
    return none

variable (gw : Gateway.Params) (json : Gateway.Nlohmann) (impl : LogicServiceImpl)

def carriedOut (ws : τ) : (o : Gateway.Op) → Prog (Op.Ret (τ := τ)) o.Ret
  | .login req => remote (LogicServiceImpl.login req)
  | .sendMsg req => remote (impl.sendMsg req)
  | .syncMsg req => remote (LogicServiceImpl.syncMsg req)
  | .getUploadUrl req => remote (impl.getUploadUrl req)
  | o => perform (Op.gateway ws o)

def onMessage (ws : τ) (opCode : Gateway.OpCode) (message : Bytes) : Prog (Op.Ret (τ := τ)) Unit :=
  (Gateway.onMessage gw opCode message).interpret (carriedOut impl ws)

def requested : (o : Gateway.HttpOp) → Prog (Op.Ret (τ := τ)) o.Ret
  | .registerUser rpc_req => remote (LogicServiceImpl.registerUser rpc_req)
  | .httpLogin rpc_req => remote (LogicServiceImpl.httpLogin rpc_req)

def body : Call τ → Prog (Op.Ret (τ := τ)) Answer
  | .onOpen ws => perform (Op.onOpen ws) >>= fun _ => ret .none
  | .onMessage ws opCode message => onMessage gw impl ws opCode message >>= fun _ => ret .none
  | .onClose ws => perform (Op.onClose ws) >>= fun _ => ret .none
  | .post api buffer => .http <$> (Gateway.onBody json api buffer).interpret requested
  | .rpc request => .reply <$> (handle impl request).interpret served
  | .pushMsg request => perform (Op.pushMsg request) >>= fun _ => ret .none

end Body

section System
variable {τ : Type}

abbrev Running (τ : Type) := Conf (Op.Ret (τ := τ)) (Call τ) Env (State τ) Answer

abbrev Input (τ : Type) := Sched (Call τ) Env

abbrev Output (τ : Type) := Option (Event (Op.Ret (τ := τ)))

def LoopIdle (c : Running τ) : Prop :=
  ∀ t ∈ c.threads, t.call.onLoop = true → t.rest.finished = true

instance (c : Running τ) : Decidable (LoopIdle c) :=
  inferInstanceAs (Decidable (∀ t ∈ c.threads, _))

def isOpen : Gateway.SocketState → Bool
  | .opened _ => true
  | _ => false

def begins : Call τ → Gateway.State τ → Prop
  | .onOpen ws, s => s.sockets ws = .unopened
  | .onMessage ws _ _, s | .onClose ws, s => isOpen (s.sockets ws) = true
  | .post _ _, _ | .rpc _, _ | .pushMsg _, _ => True

instance (s : Gateway.State τ) : (call : Call τ) → Decidable (begins call s)
  | .onOpen ws => inferInstanceAs (Decidable (s.sockets ws = .unopened))
  | .onMessage ws _ _ | .onClose ws => inferInstanceAs (Decidable (isOpen (s.sockets ws) = true))
  | .post _ _ | .rpc _ | .pushMsg _ => inferInstanceAs (Decidable True)

def Admits (c : Running τ) : Input τ → Prop
  | .call call _ => call.onLoop = true → LoopIdle c ∧ begins call c.shared.gateway
  | .pick _ => True

instance (c : Running τ) : (i : Input τ) → Decidable (Admits c i)
  | .call _ _ => inferInstanceAs (Decidable (_ → _ ∧ _))
  | .pick _ => inferInstanceAs (Decidable True)

def system [DecidableEq τ] (gw : Gateway.Params) (json : Gateway.Nlohmann)
    (impl : LogicServiceImpl) : Machine (Running τ) (Input τ) (Output τ) :=
  (interleaving (body gw json impl) (Env.exec gw)).restrict Admits

end System
end LetsChat.EndToEnd
