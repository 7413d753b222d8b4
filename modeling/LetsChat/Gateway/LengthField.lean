import LetsChat.Gateway.Exchange
import LetsChat.Gateway.SessionMap

/-! When the gateway acts on a frame whose `Length` field is not the size of the frame. -/

namespace LetsChat.Gateway
open Lib Prog

def parsedBytes (e : Env) : Op → Option Bytes
  | .parseLoginReq buffer n | .parseMsgSendReq buffer n | .parseSyncMsgReq buffer n
  | .parseGetUploadUrlReq buffer n => some (e.bytesRead buffer n)
  | _ => none

/-- An RPC is issued only when the header tells the size of the message, and for the body
between the header and that length. -/
def ActsOnTrueLength (e : Env) (header : PacketHeader) (message : Bytes)
    (events : List (Event Op.Ret)) : Prop :=
  (∃ ev ∈ events, isRpc ev.1 = true) →
    header.length.toNat = message.length ∧
      ∀ ev ∈ events, ∀ body, parsedBytes e ev.1 = some body →
        body = (message.take header.length.toNat).drop HEADER_LEN

/-- A frame with a false length gets no further than its parser: a login frame with any other
length than its size, another frame with a smaller one. -/
def FalseLengthRefused (gw : Params) (e : Env) (uid : Int) (header : PacketHeader)
    (message : Bytes) : Prop :=
  (header.length.toNat ≠ message.length → header.cmd_id = 0x1001 →
    gw.protobuf.parseLoginReq (loginBody e header message) = none) ∧
  (header.length.toNat < message.length →
    (header.cmd_id = 0x1003 → uid ≠ 0 →
      gw.protobuf.parseMsgSendReq (message.drop HEADER_LEN) = none) ∧
    (header.cmd_id = 0x1006 → gw.protobuf.parseSyncMsgReq (message.drop HEADER_LEN) = none) ∧
    (header.cmd_id = 0x1008 → gw.protobuf.parseGetUploadUrlReq (message.drop HEADER_LEN) = none))

section Bodies
variable {message : Bytes} (hheader : HEADER_LEN ≤ message.length)
variable (hlen : message.length ≤ maxPayloadLength)
include hheader hlen

theorem restBody_eq (e : Env) : restBody e message = message.drop HEADER_LEN := by
  have hbounds := rest_inBounds hheader hlen
  unfold restBody Env.bytesRead
  rw [if_pos hbounds]
  apply List.take_of_length_le
  rw [List.length_drop]
  have hsub : toInt (sizeSub message.length HEADER_LEN) = message.length - HEADER_LEN := by
    rw [maxPayloadLength] at hlen
    unfold HEADER_LEN at hheader ⊢
    unfold toInt sizeSub
    rw [Int.bmod_def]
    split <;> omega
  omega

theorem loginBody_eq (e : Env) {header : PacketHeader} (hlength : header.length.toNat = message.length) :
    loginBody e header message = message.drop HEADER_LEN := by
  have hsame : loginBody e header message = restBody e message := by
    unfold loginBody restBody
    rw [hlength]
  rw [hsame, restBody_eq hheader hlen e]

end Bodies

section Frames
variable (gw : Params) (e : Env) {message : Bytes} (hlen : message.length ≤ maxPayloadLength)
include hlen

/-- The guard of the three other branches turns a false length into a smaller one. -/
theorem request_eq_none_iff (uid : Int) (hheader : HEADER_LEN ≤ message.length)
    (header : PacketHeader) :
    (header.length.toNat ≠ message.length → request gw e uid header message = none) ↔
      FalseLengthRefused gw e uid header message := by
  have hlt : ∀ p : Prop, (header.length.toNat ≠ message.length →
      header.length.toNat ≤ message.length → p) ↔ (header.length.toNat < message.length → p) :=
    fun p => ⟨fun h hlt => h (Nat.ne_of_lt hlt) (Nat.le_of_lt hlt),
      fun h hne hle => h (Nat.lt_of_le_of_ne hle hne)⟩
  unfold request FalseLengthRefused
  by_cases hlogin : header.cmd_id = 0x1001
  · simp [hlogin, loginRequest]
  by_cases hsend : header.cmd_id = 0x1003
  · simp [hsend, sendRequest, lengthOk_iff, restBody_eq hheader hlen, ← hlt]
  by_cases hsync : header.cmd_id = 0x1006
  · simp [hsync, syncRequest, lengthOk_iff, restBody_eq hheader hlen, ← hlt]
  by_cases hupload : header.cmd_id = 0x1008
  · simp [hupload, uploadRequest, lengthOk_iff, restBody_eq hheader hlen, ← hlt]
  · rw [if_neg hlogin, if_neg hsend, if_neg hsync, if_neg hupload]
    refine iff_of_true (fun _ => rfl) ⟨fun _ h => absurd h hlogin, fun _ => ⟨?_, ?_, ?_⟩⟩
    · exact fun h => absurd h hsend
    · exact fun h => absurd h hsync
    · exact fun h => absurd h hupload

theorem within_parsedBytes (hheader : HEADER_LEN ≤ message.length)
    (hlength : (decodeHeader gw.host message).length.toNat = message.length) :
    (onMessage gw .BINARY message).Within fun o =>
      ∀ body, parsedBytes e o = some body → body = message.drop HEADER_LEN := by
  have hrest : ∀ body, some (restBody e message) = some body → body = message.drop HEADER_LEN :=
    fun body h => (Option.some.inj h).symm.trans (restBody_eq hheader hlen e)
  have hanswers : ∀ o, Answers o → ∀ body, parsedBytes e o = some body →
      body = message.drop HEADER_LEN := by
    intro o ho body hbody
    cases o <;> first | exact ho.elim | cases hbody
  by_cases hlogin : (decodeHeader gw.host message).cmd_id = 0x1001
  · rw [onMessage_login gw hheader hlogin]
    refine within_onLogin_of gw _ message hanswers (fun body hbody => ?_) ?_ ?_
    · exact (Option.some.inj hbody).symm.trans (loginBody_eq hheader hlen e hlength)
    · intro uid body hbody
      cases hbody
    · intro uid body hbody
      cases hbody
  · exact within_onMessage_of_ne gw message hanswers (fun _ _ => hlogin) (fun _ => hrest)
      (fun _ => hrest) fun _ => hrest

variable {τ : Type} [DecidableEq τ] (ws : τ) (s : State τ)

theorem acts_on_true_length_iff :
    ActsOnTrueLength e (decodeHeader gw.host message) message
        ((onMessage gw .BINARY message).events (exec gw e ws) s) ↔
      (HEADER_LEN ≤ message.length →
        FalseLengthRefused gw e (s.uidOf ws) (decodeHeader gw.host message) message) := by
  constructor
  · intro hacts hheader
    rw [← request_eq_none_iff gw e hlen _ hheader]
    intro hne
    cases hreq : request gw e (s.uidOf ws) (decodeHeader gw.host message) message with
    | none => rfl
    | some o =>
      obtain ⟨ev, hev, rfl, hrpc⟩ := request_performed gw e ws s message hheader hreq
      exact absurd (hacts ⟨ev, hev, hrpc⟩).1 hne
  · rintro hrefused ⟨ev, hev, hrpc⟩
    obtain ⟨-, hheader, hreq⟩ := rpc_onMessage gw e ws s message hev hrpc
    have hlength : (decodeHeader gw.host message).length.toNat = message.length := by
      by_contra hne
      have hnone := (request_eq_none_iff gw e hlen _ hheader _).mpr (hrefused hheader) hne
      rw [hreq] at hnone
      cases hnone
    refine ⟨hlength, fun ev hev body hbody => ?_⟩
    rw [hlength, List.take_length]
    exact (within_parsedBytes gw e hlen hheader hlength).events (exec gw e ws) s ev hev body hbody

end Frames

theorem acts_on_true_length_iff_loginAs :
    ActsOnTrueLength welcoming (decodeHeader .little (loginAs 1)) (loginAs 1)
        ((onMessage small .BINARY (loginAs 1)).events (exec small welcoming 0)
          (State.start : State Nat)) ↔
      (HEADER_LEN ≤ (loginAs 1).length →
        FalseLengthRefused small welcoming 0 (decodeHeader .little (loginAs 1)) (loginAs 1)) :=
  acts_on_true_length_iff small welcoming (by decide) 0 State.start

def overlongLogin : Bytes := loginFrame 12 ++ [0x08, 1]

theorem acts_on_false_length :
    ¬ActsOnTrueLength welcoming (decodeHeader .little overlongLogin) overlongLogin
      ((onMessage small .BINARY overlongLogin).events (exec small welcoming 0)
        ((State.start : State Nat).setSocket 0 (.opened {}))) := by
  intro h
  have hcmd : (decodeHeader .little overlongLogin).cmd_id = 0x1001 := by decide
  have hreq : request small welcoming 0 (decodeHeader .little overlongLogin) overlongLogin =
      some (.login {}) := by
    unfold request
    rw [if_pos hcmd]
    rfl
  obtain ⟨ev, hev, -, hrpc⟩ := request_performed small welcoming 0
    ((State.start : State Nat).setSocket 0 (.opened {})) overlongLogin (by decide) hreq
  exact absurd (h ⟨ev, hev, hrpc⟩).1 (by decide)

end LetsChat.Gateway
