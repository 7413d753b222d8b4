import LetsChat.Lib.Program
import LetsChat.Packet

/-! The message handler of the gateway: what it does with one WebSocket message. -/

namespace LetsChat.Gateway
open Lib Prog

inductive OpCode
  | TEXT
  | BINARY
  deriving DecidableEq

def sizeSub (a b : Nat) : Nat := (a + (2 ^ 64 - b)) % 2 ^ 64

def sizeAdd (a b : Nat) : Nat := (a + b) % 2 ^ 64

/-- The conversion of a `size_t` to an `int` parameter. -/
def toInt (n : Nat) : Int := Int.bmod n (2 ^ 32)

/-- The parsers get the message and the length that the handler passes on; they read from
behind the header. An RPC that is not OK has no result. -/
inductive Op
  | parseLoginReq (buffer : Bytes) (n : Int)
  | parseMsgSendReq (buffer : Bytes) (n : Int)
  | parseSyncMsgReq (buffer : Bytes) (n : Int)
  | parseGetUploadUrlReq (buffer : Bytes) (n : Int)
  | login (req : LoginReq)
  | sendMsg (req : MsgSendReq)
  | syncMsg (req : SyncMsgReq)
  | getUploadUrl (req : GetUploadUrlReq)
  | getUid
  | setUid (uid : Int)
  | addSession (uid : Int)
  | send (data : Bytes)

@[reducible] def Op.Ret : Op → Type
  | parseLoginReq _ _ => Option LoginReq
  | parseMsgSendReq _ _ => Option MsgSendReq
  | parseSyncMsgReq _ _ => Option SyncMsgReq
  | parseGetUploadUrlReq _ _ => Option GetUploadUrlReq
  | login _ => Option LoginRes
  | sendMsg _ => Option MsgSendRes
  | syncMsg _ => Option SyncMsgRes
  | getUploadUrl _ => Option GetUploadUrlRes
  | getUid => Int
  | setUid _ => Unit
  | addSession _ => Unit
  | send _ => Unit

structure Params where
  host : ByteOrder
  protobuf : Protobuf

def replyFrame (host : ByteOrder) (header : PacketHeader) (cmd_id : BitVec 16) (res_body : Bytes) :
    Bytes :=
  encodeHeader host
    { length := BitVec.ofNat 32 (HEADER_LEN + res_body.length)
      version := header.version
      cmd_id
      seq_id := header.seq_id } ++ res_body

@[irreducible] def lengthOk (header : PacketHeader) (message : Bytes) : Bool :=
  sizeAdd HEADER_LEN (sizeSub header.length.toNat HEADER_LEN) ≤ message.length

/-- The sum and the difference in the guard cancel out. -/
theorem lengthOk_iff (header : PacketHeader) (message : Bytes) :
    lengthOk header message = true ↔ header.length.toNat ≤ message.length := by
  have hlt := header.length.isLt
  have hcancel : sizeAdd HEADER_LEN (sizeSub header.length.toNat HEADER_LEN) = header.length.toNat := by
    unfold sizeAdd sizeSub HEADER_LEN
    omega
  unfold lengthOk
  rw [hcancel, decide_eq_true_iff]

def enter (req : LoginReq) (res : LoginRes) : Prog Op.Ret Unit := do
  if res.err_code ≠ .ERR_SUCCESS then return ()
  perform (Op.setUid req.uid)
  perform (Op.addSession req.uid)

section Branches
variable (gw : Params) (header : PacketHeader) (message : Bytes)

def onLogin : Prog Op.Ret Unit := do
  -- the length is the header's, which nobody has compared with the message
  match ← perform (Op.parseLoginReq message (toInt (sizeSub header.length.toNat HEADER_LEN))) with
  | none => return ()
  | some req =>
    match ← perform (Op.login req) with
    | none => return ()
    | some res =>
      enter req res
      perform (Op.send (replyFrame gw.host header 0x1002 (gw.protobuf.serializeLoginRes res)))

def onSendMsg : Prog Op.Ret Unit := do
  if !lengthOk header message then return ()
  match ← perform (Op.parseMsgSendReq message (toInt (sizeSub message.length HEADER_LEN))) with
  | none => return ()
  | some req =>
    let current_id ← perform Op.getUid
    -- the socket has not logged in
    if current_id = 0 then return ()
    let req := { req with msg := { req.msg with from_uid := current_id } }
    match ← perform (Op.sendMsg req) with
    | none => return ()
    | some res =>
      perform (Op.send (replyFrame gw.host header 0x1004 (gw.protobuf.serializeMsgSendRes res)))

def onSyncMsg : Prog Op.Ret Unit := do
  if !lengthOk header message then return ()
  match ← perform (Op.parseSyncMsgReq message (toInt (sizeSub message.length HEADER_LEN))) with
  | none => return ()
  | some req =>
    -- the uid goes in as it is, 0 before a login
    let uid ← perform Op.getUid
    match ← perform (Op.syncMsg { req with uid }) with
    | none => return ()
    | some res =>
      perform (Op.send (replyFrame gw.host header 0x1007 (gw.protobuf.serializeSyncMsgRes res)))

def onGetUploadUrl : Prog Op.Ret Unit := do
  if !lengthOk header message then return ()
  match ← perform (Op.parseGetUploadUrlReq message (toInt (sizeSub message.length HEADER_LEN))) with
  | none => return ()
  | some req =>
    let uid ← perform Op.getUid
    match ← perform (Op.getUploadUrl { req with uid }) with
    | none => return ()
    | some res =>
      perform (Op.send
        (replyFrame gw.host header 0x1009 (gw.protobuf.serializeGetUploadUrlRes res)))

end Branches

def onMessage (gw : Params) (opCode : OpCode) (message : Bytes) : Prog Op.Ret Unit :=
  if opCode ≠ .BINARY then return ()
  else if message.length < HEADER_LEN then return ()
  else
    let header := decodeHeader gw.host message
    if header.cmd_id = 0x1001 then onLogin gw header message
    else if header.cmd_id = 0x1003 then onSendMsg gw header message
    else if header.cmd_id = 0x1006 then onSyncMsg gw header message
    else if header.cmd_id = 0x1008 then onGetUploadUrl gw header message
    else return ()

def Answers : Op → Prop
  | .login _ | .sendMsg _ | .syncMsg _ | .getUploadUrl _ | .getUid | .send _ => True
  | _ => False

section Branches
variable {P : Op → Prop} (gw : Params) (header : PacketHeader) (message : Bytes)
variable (hanswers : ∀ o, Answers o → P o)
include hanswers

theorem within_answer {o : Op} (ho : Answers o) : (perform o : Prog Op.Ret o.Ret).Within P :=
  (within_perform o).mpr (hanswers o ho)

theorem within_onLogin_of
    (hparse : P (.parseLoginReq message (toInt (sizeSub header.length.toNat HEADER_LEN))))
    (huid : ∀ uid, P (.setUid uid)) (hsession : ∀ uid, P (.addSession uid)) :
    (onLogin gw header message).Within P := by
  refine within_optional ((within_perform _).mpr hparse) trivial fun req => ?_
  refine within_optional (within_answer hanswers trivial) trivial fun res => ?_
  refine within_bind ?_ fun _ => within_answer hanswers trivial
  refine within_ite.mpr ⟨fun _ => trivial, fun _ => ?_⟩
  exact within_bind ((within_perform _).mpr (huid _)) fun _ => (within_perform _).mpr (hsession _)

theorem within_onSendMsg
    (hparse : P (.parseMsgSendReq message (toInt (sizeSub message.length HEADER_LEN)))) :
    (onSendMsg gw header message).Within P := by
  refine within_ite.mpr ⟨fun _ => trivial, fun _ => ?_⟩
  refine within_optional ((within_perform _).mpr hparse) trivial fun req => ?_
  refine within_bind (within_answer hanswers trivial) fun current_id => ?_
  refine within_ite.mpr ⟨fun _ => trivial, fun _ => ?_⟩
  exact within_optional (within_answer hanswers trivial) trivial fun res => within_answer hanswers trivial

theorem within_onSyncMsg
    (hparse : P (.parseSyncMsgReq message (toInt (sizeSub message.length HEADER_LEN)))) :
    (onSyncMsg gw header message).Within P := by
  refine within_ite.mpr ⟨fun _ => trivial, fun _ => ?_⟩
  refine within_optional ((within_perform _).mpr hparse) trivial fun req => ?_
  refine within_bind (within_answer hanswers trivial) fun uid => ?_
  exact within_optional (within_answer hanswers trivial) trivial fun res => within_answer hanswers trivial

theorem within_onGetUploadUrl
    (hparse : P (.parseGetUploadUrlReq message (toInt (sizeSub message.length HEADER_LEN)))) :
    (onGetUploadUrl gw header message).Within P := by
  refine within_ite.mpr ⟨fun _ => trivial, fun _ => ?_⟩
  refine within_optional ((within_perform _).mpr hparse) trivial fun req => ?_
  refine within_bind (within_answer hanswers trivial) fun uid => ?_
  exact within_optional (within_answer hanswers trivial) trivial fun res => within_answer hanswers trivial

theorem within_onMessage_of_ne {opCode : OpCode} (hne : opCode = .BINARY →
      HEADER_LEN ≤ message.length → (decodeHeader gw.host message).cmd_id ≠ 0x1001)
    (hsend : HEADER_LEN ≤ message.length →
      P (.parseMsgSendReq message (toInt (sizeSub message.length HEADER_LEN))))
    (hsync : HEADER_LEN ≤ message.length →
      P (.parseSyncMsgReq message (toInt (sizeSub message.length HEADER_LEN))))
    (hurl : HEADER_LEN ≤ message.length →
      P (.parseGetUploadUrlReq message (toInt (sizeSub message.length HEADER_LEN)))) :
    (onMessage gw opCode message).Within P := by
  refine within_ite.mpr ⟨fun _ => trivial, fun hbinary => ?_⟩
  refine within_ite.mpr ⟨fun _ => trivial, fun hshort => ?_⟩
  have hheader := Nat.le_of_not_lt hshort
  refine within_ite.mpr ⟨fun hlogin => absurd hlogin (hne (not_not.mp hbinary) hheader), fun _ => ?_⟩
  refine within_ite.mpr ⟨fun _ => within_onSendMsg gw _ message hanswers (hsend hheader), fun _ => ?_⟩
  refine within_ite.mpr ⟨fun _ => within_onSyncMsg gw _ message hanswers (hsync hheader), fun _ => ?_⟩
  exact within_ite.mpr
    ⟨fun _ => within_onGetUploadUrl gw _ message hanswers (hurl hheader), fun _ => trivial⟩

end Branches

theorem onMessage_login (gw : Params) {message : Bytes} (hheader : HEADER_LEN ≤ message.length)
    (hlogin : (decodeHeader gw.host message).cmd_id = 0x1001) :
    onMessage gw .BINARY message = onLogin gw (decodeHeader gw.host message) message := by
  rw [onMessage, if_neg (by decide), if_neg (Nat.not_lt_of_le hheader)]
  exact if_pos hlogin

end LetsChat.Gateway
