import LetsChat.Gateway.Handler
import LetsChat.Lib.Machine

/-! The session map of the gateway and the uid of each socket: two copies of one
relation, updated when a login succeeds and when a socket closes. -/

namespace LetsChat.Gateway
open Lib Prog Machine

@[ext] structure PerSocketData where
  uid : Int := 0
  deriving DecidableEq

inductive SocketState
  | unopened
  | opened (data : PerSocketData)
  | closed
  deriving DecidableEq

structure State (τ : Type) where
  sockets : τ → SocketState
  sessions_ : Int → Option τ

/-- What the surroundings answer while one message is handled. `memory` is what a parser finds
where it reads bytes that are not of the message. -/
structure Env where
  memory : Int → Bytes
  login : LoginReq → Option LoginRes
  sendMsg : MsgSendReq → Option MsgSendRes
  syncMsg : SyncMsgReq → Option SyncMsgRes
  getUploadUrl : GetUploadUrlReq → Option GetUploadUrlRes

def Env.bytesRead (e : Env) (buffer : Bytes) (n : Int) : Bytes :=
  if 0 ≤ n ∧ HEADER_LEN + n ≤ buffer.length then (buffer.drop HEADER_LEN).take n.toNat
  else e.memory n

section Machine
variable {τ : Type} [DecidableEq τ]

namespace State

def start : State τ := ⟨fun _ => .unopened, fun _ => none⟩

def addSession (s : State τ) (uid : Int) (ws : τ) : State τ :=
  { s with sessions_ := Function.update s.sessions_ uid (some ws) }

def removeSession (s : State τ) (uid : Int) : State τ :=
  { s with sessions_ := Function.update s.sessions_ uid none }

def pushToUser (s : State τ) (uid : Int) (data : Bytes) : Bool × Option (τ × Bytes) :=
  match s.sessions_ uid with
  | some ws => (true, some (ws, data))
  | none => (false, none)

def pushMsg (s : State τ) (request : PushMsgReq) : PushMsgRes × Option (τ × Bytes) :=
  let success := s.pushToUser request.to_uid request.content
  if success.1 then ({ err_code := 0 }, success.2)
  else ({ err_code := -1, err_msg := "User not found locally".toList }, success.2)

def setSocket (s : State τ) (ws : τ) (state : SocketState) : State τ :=
  { s with sockets := Function.update s.sockets ws state }

def uidOf (s : State τ) (ws : τ) : Int :=
  match s.sockets ws with
  | .opened data => data.uid
  | _ => 0

end State

variable (gw : Params)

def exec (e : Env) (ws : τ) : (o : Op) → State τ → o.Ret × State τ
  | .parseLoginReq buffer n, s => (gw.protobuf.parseLoginReq (e.bytesRead buffer n), s)
  | .parseMsgSendReq buffer n, s => (gw.protobuf.parseMsgSendReq (e.bytesRead buffer n), s)
  | .parseSyncMsgReq buffer n, s => (gw.protobuf.parseSyncMsgReq (e.bytesRead buffer n), s)
  | .parseGetUploadUrlReq buffer n, s =>
    (gw.protobuf.parseGetUploadUrlReq (e.bytesRead buffer n), s)
  | .login req, s => (e.login req, s)
  | .sendMsg req, s => (e.sendMsg req, s)
  | .syncMsg req, s => (e.syncMsg req, s)
  | .getUploadUrl req, s => (e.getUploadUrl req, s)
  | .getUid, s => (s.uidOf ws, s)
  | .setUid uid, s => ((), s.setSocket ws (.opened { uid }))
  | .addSession uid, s => ((), s.addSession uid ws)
  | .send _, s => ((), s)

inductive Input (τ : Type)
  | onOpen (ws : τ)
  | onMessage (ws : τ) (opCode : OpCode) (message : Bytes) (e : Env)
  | onClose (ws : τ)
  | pushMsg (request : PushMsgReq)

inductive Output (τ : Type)
  | done
  | handled (events : List (Event Op.Ret))
  | pushed (reply : PushMsgRes) (sent : Option (τ × Bytes))

def gateway : Machine (State τ) (Input τ) (Output τ) where
  step s
    | .onOpen ws =>
      if s.sockets ws = .unopened then some (.done, s.setSocket ws (.opened {})) else none
    | .onMessage ws opCode message e =>
      match s.sockets ws with
      | .opened _ =>
        some (.handled ((onMessage gw opCode message).events (exec gw e ws) s),
          ((onMessage gw opCode message).run (exec gw e ws) s).2)
      | _ => none
    | .onClose ws =>
      match s.sockets ws with
      -- the entry goes by its uid, whichever socket it refers to
      | .opened data => some (.done, (s.removeSession data.uid).setSocket ws .closed)
      | _ => none
    | .pushMsg request => some (.pushed (s.pushMsg request).1 (s.pushMsg request).2, s)

end Machine

section Logins
variable {τ : Type} (gw : Params)

def logsIn (opCode : OpCode) (message : Bytes) (e : Env) : Option Int :=
  let header := decodeHeader gw.host message
  if opCode = .BINARY ∧ HEADER_LEN ≤ message.length ∧ header.cmd_id = 0x1001 then do
    let n := toInt (sizeSub header.length.toNat HEADER_LEN)
    let req ← gw.protobuf.parseLoginReq (e.bytesRead message n)
    let res ← e.login req
    if res.err_code = .ERR_SUCCESS then some req.uid else none
  else none

def loginOf : Input τ → Option (τ × Int)
  | .onMessage ws opCode message e => (logsIn gw opCode message e).map fun uid => (ws, uid)
  | _ => none

@[simp] theorem loginOf_onOpen (ws : τ) : loginOf gw (.onOpen ws) = none := rfl

@[simp] theorem loginOf_onClose (ws : τ) : loginOf gw (.onClose ws) = none := rfl

@[simp] theorem loginOf_onMessage (ws : τ) (opCode : OpCode) (message : Bytes) (e : Env) :
    loginOf gw (.onMessage ws opCode message e) =
      (logsIn gw opCode message e).map fun uid => (ws, uid) := rfl

end Logins

section Steps
variable {τ : Type} [DecidableEq τ] (gw : Params)

def State.entered (s : State τ) (ws : τ) (uid : Int) : State τ :=
  (s.setSocket ws (.opened { uid })).addSession uid ws

def Quiet : Op → Prop
  | .setUid _ | .addSession _ => False
  | _ => True

theorem exec_quiet (e : Env) (ws : τ) {o : Op} (h : Quiet o) (s : State τ) :
    (exec gw e ws o s).2 = s := by
  cases o with
  | setUid | addSession => exact h.elim
  | _ => rfl

theorem run_onMessage (opCode : OpCode) (message : Bytes) (e : Env) (ws : τ) (s : State τ) :
    ((onMessage gw opCode message).run (exec gw e ws) s).2 =
      (logsIn gw opCode message e).elim s (s.entered ws) := by
  -- only the login branch asks for the two operations that are not quiet
  by_cases hlogin : opCode = .BINARY ∧ HEADER_LEN ≤ message.length ∧
      (decodeHeader gw.host message).cmd_id = 0x1001
  · obtain ⟨rfl, hheader, hcmd⟩ := hlogin
    simp only [onMessage_login gw hheader hcmd, logsIn, hheader, hcmd, and_self, if_true, onLogin,
      perform_bind, run_op, exec]
    cases gw.protobuf.parseLoginReq _ with
    | none => rfl
    | some req =>
      simp only [run_op, exec]
      cases hres : e.login req with
      | none => simp [hres]
      | some res =>
        by_cases hok : res.err_code = .ERR_SUCCESS
        · simp [hres, hok, enter, perform, exec, State.entered]
        · simp [hres, hok, enter, perform, exec]
  · have hquiet : (onMessage gw opCode message).Within Quiet := by
      refine within_onMessage_of_ne gw message (fun o ho => ?_)
        (fun hbinary hheader hcmd => hlogin ⟨hbinary, hheader, hcmd⟩)
        (fun _ => trivial) (fun _ => trivial) fun _ => trivial
      cases o <;> trivial
    have hkeep := run_keeps id (fun o s ho => exec_quiet gw e ws ho s) hquiet s
    rw [id, id] at hkeep
    rw [hkeep, logsIn, if_neg hlogin]
    rfl

variable {gw}

theorem gateway_message {s : State τ} {ws : τ} (data : PerSocketData)
    (hopen : s.sockets ws = .opened data) (opCode : OpCode) (message : Bytes) (e : Env) :
    (gateway gw).step s (.onMessage ws opCode message e) =
      some (.handled ((onMessage gw opCode message).events (exec gw e ws) s),
        (logsIn gw opCode message e).elim s (s.entered ws)) := by
  simp only [gateway, hopen, run_onMessage]

theorem gateway_step {s s' : State τ} {i : Input τ} {o : Output τ}
    (h : (gateway gw).step s i = some (o, s')) :
    (∃ ws, i = .onOpen ws ∧ s.sockets ws = .unopened ∧ s' = s.setSocket ws (.opened {})) ∨
    (∃ ws uid data, loginOf gw i = some (ws, uid) ∧ (∀ w, i ≠ .onClose w) ∧
      s.sockets ws = .opened data ∧ s' = s.entered ws uid) ∨
    (∃ ws data, i = .onClose ws ∧ s.sockets ws = .opened data ∧
      s' = (s.removeSession data.uid).setSocket ws .closed) ∨
    (loginOf gw i = none ∧ (∀ w, i ≠ .onClose w) ∧ s' = s) := by
  cases i with
  | onOpen ws =>
    simp only [gateway] at h
    split at h
    · next hunopened => exact .inl ⟨ws, rfl, hunopened, (Prod.mk.inj (Option.some.inj h)).2.symm⟩
    · cases h
  | onMessage ws opCode message e =>
    cases hopen : s.sockets ws with
    | opened data =>
      rw [gateway_message data hopen] at h
      have hs := (Prod.mk.inj (Option.some.inj h)).2.symm
      cases hlogs : logsIn gw opCode message e with
      | none =>
        rw [hlogs] at hs
        exact .inr (.inr (.inr ⟨by rw [loginOf_onMessage, hlogs, Option.map_none], nofun, hs⟩))
      | some uid =>
        rw [hlogs] at hs
        exact .inr (.inl ⟨ws, uid, data, by rw [loginOf_onMessage, hlogs, Option.map_some], nofun, hopen, hs⟩)
    | unopened => simp [gateway, hopen] at h
    | closed => simp [gateway, hopen] at h
  | onClose ws =>
    cases hopen : s.sockets ws with
    | opened data =>
      simp only [gateway, hopen, Option.some.injEq, Prod.mk.injEq] at h
      exact .inr (.inr (.inl ⟨ws, data, rfl, hopen, h.2.symm⟩))
    | unopened => simp [gateway, hopen] at h
    | closed => simp [gateway, hopen] at h
  | pushMsg request =>
    simp only [gateway, Option.some.injEq, Prod.mk.injEq] at h
    exact .inr (.inr (.inr ⟨rfl, nofun, h.2.symm⟩))

end Steps
end LetsChat.Gateway
