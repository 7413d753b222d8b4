import LetsChat.Gateway.Handler

/-! Which bytes the handler hands to the parsers. -/

namespace LetsChat.Gateway
open Lib Prog

def maxPayloadLength : Nat := 16 * 1024

def InBounds (message : Bytes) : Op → Prop
  | .parseLoginReq _ n | .parseMsgSendReq _ n | .parseSyncMsgReq _ n
  | .parseGetUploadUrlReq _ n => 0 ≤ n ∧ HEADER_LEN + n ≤ message.length
  | _ => True

theorem login_inBounds_iff {length : Nat} (hlength : length < 2 ^ 32) {len : Nat}
    (hlen : len ≤ maxPayloadLength) :
    (0 ≤ toInt (sizeSub length HEADER_LEN) ∧
        HEADER_LEN + toInt (sizeSub length HEADER_LEN) ≤ len) ↔
      HEADER_LEN ≤ length ∧ length ≤ len := by
  rw [maxPayloadLength] at hlen
  unfold toInt sizeSub HEADER_LEN
  rw [Int.bmod_def]
  split <;> omega

theorem rest_inBounds {len : Nat} (hheader : HEADER_LEN ≤ len) (hlen : len ≤ maxPayloadLength) :
    0 ≤ toInt (sizeSub len HEADER_LEN) ∧ HEADER_LEN + toInt (sizeSub len HEADER_LEN) ≤ len := by
  rw [maxPayloadLength] at hlen
  unfold HEADER_LEN at hheader
  unfold toInt sizeSub HEADER_LEN
  rw [Int.bmod_def]
  split <;> omega

theorem inBounds_of_answers (message : Bytes) (o : Op) (h : Answers o) : InBounds message o := by
  cases o with
  | parseLoginReq | parseMsgSendReq | parseSyncMsgReq | parseGetUploadUrlReq => exact h.elim
  | _ => trivial

theorem within_onLogin (gw : Params) (header : PacketHeader) (message : Bytes) :
    (onLogin gw header message).Within (InBounds message) ↔
      0 ≤ toInt (sizeSub header.length.toNat HEADER_LEN) ∧
        HEADER_LEN + toInt (sizeSub header.length.toNat HEADER_LEN) ≤ message.length := by
  constructor
  · intro h
    rw [onLogin, perform_bind, within_op] at h
    exact h.1
  · intro hbounds
    exact within_onLogin_of gw header message (inBounds_of_answers message) hbounds
      (fun _ => trivial) fun _ => trivial

/-- The condition under which the handler parses only what it received: a login frame tells a
length between that of the header and that of the message. -/
def LoginLengthTrue (header : PacketHeader) (message : Bytes) : Prop :=
  header.cmd_id = 0x1001 →
    HEADER_LEN ≤ header.length.toNat ∧ header.length.toNat ≤ message.length

instance (header : PacketHeader) (message : Bytes) : Decidable (LoginLengthTrue header message) :=
  inferInstanceAs (Decidable (_ → _))

theorem parses_received_iff (gw : Params) (message : Bytes)
    (hlen : message.length ≤ maxPayloadLength) :
    (onMessage gw .BINARY message).Within (InBounds message) ↔
      (HEADER_LEN ≤ message.length → LoginLengthTrue (decodeHeader gw.host message) message) := by
  by_cases hlogin : HEADER_LEN ≤ message.length ∧ (decodeHeader gw.host message).cmd_id = 0x1001
  · obtain ⟨hheader, hcmd⟩ := hlogin
    have hlt := (decodeHeader gw.host message).length.isLt
    rw [onMessage_login gw hheader hcmd, within_onLogin, login_inBounds_iff hlt hlen]
    exact ⟨fun h _ _ => h, fun h => h hheader hcmd⟩
  · refine iff_of_true ?_ fun hheader hcmd => absurd ⟨hheader, hcmd⟩ hlogin
    exact within_onMessage_of_ne gw message (inBounds_of_answers message)
      (fun _ hheader hcmd => hlogin ⟨hheader, hcmd⟩) (fun hheader => rest_inBounds hheader hlen)
      (fun hheader => rest_inBounds hheader hlen) fun hheader => rest_inBounds hheader hlen

def refusing : Params where
  host := .little
  protobuf := ⟨fun _ => none, fun _ => none, fun _ => none, fun _ => none, fun _ => [],
    fun _ => [], fun _ => [], fun _ => [], fun _ => []⟩

def loginFrame (length : BitVec 32) : Bytes := encodeHeader .little ⟨length, 1, 0x1001, 0⟩

theorem parses_received_iff_loginFrame :
    (onMessage refusing .BINARY (loginFrame 12)).Within (InBounds (loginFrame 12)) ↔
      (HEADER_LEN ≤ (loginFrame 12).length →
        LoginLengthTrue (decodeHeader .little (loginFrame 12)) (loginFrame 12)) :=
  parses_received_iff refusing (loginFrame 12) (by decide)

theorem login_reads_behind_message :
    ¬(onMessage refusing .BINARY (loginFrame 1000)).Within (InBounds (loginFrame 1000)) := by
  have hlogin : (decodeHeader refusing.host (loginFrame 1000)).cmd_id = 0x1001 := by decide
  rw [onMessage_login refusing (by decide) hlogin, within_onLogin]
  intro h
  exact absurd h (by decide)

end LetsChat.Gateway
