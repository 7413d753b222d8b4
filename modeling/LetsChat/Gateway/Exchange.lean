import LetsChat.Gateway.FrameBounds
import LetsChat.Gateway.Sessions

/-! The exchange that one binary message leads to: the body that is parsed, the RPC that
goes out for it and the frame that comes back. -/

namespace LetsChat.Gateway
open Lib Prog

def isRpc : Op → Bool
  | .login _ | .sendMsg _ | .syncMsg _ | .getUploadUrl _ => true
  | _ => false

def sentFrame : Op → Option Bytes
  | .send data => some data
  | _ => none

def rpcs (events : List (Event Op.Ret)) : List Op := (events.map (·.1)).filter isRpc

def frames (events : List (Event Op.Ret)) : List Bytes := events.filterMap fun ev => sentFrame ev.1

def Unparsed : Event Op.Ret → Prop
  | ⟨.parseLoginReq _ _, req⟩ => req = none
  | ⟨.parseMsgSendReq _ _, req⟩ => req = none
  | ⟨.parseSyncMsgReq _ _, req⟩ => req = none
  | ⟨.parseGetUploadUrlReq _ _, req⟩ => req = none
  | _ => False

section Requests
variable (gw : Params) (e : Env) (uid : Int) (header : PacketHeader) (message : Bytes)

def loginBody : Bytes := e.bytesRead message (toInt (sizeSub header.length.toNat HEADER_LEN))

def restBody : Bytes := e.bytesRead message (toInt (sizeSub message.length HEADER_LEN))

def loginRequest : Option Op := (gw.protobuf.parseLoginReq (loginBody e header message)).map .login

def sendRequest : Option Op :=
  if lengthOk header message ∧ uid ≠ 0 then
    (gw.protobuf.parseMsgSendReq (restBody e message)).map fun req =>
      .sendMsg { req with msg := { req.msg with from_uid := uid } }
  else none

def syncRequest : Option Op :=
  if lengthOk header message then
    (gw.protobuf.parseSyncMsgReq (restBody e message)).map fun req => .syncMsg { req with uid }
  else none

def uploadRequest : Option Op :=
  if lengthOk header message then
    (gw.protobuf.parseGetUploadUrlReq (restBody e message)).map fun req =>
      .getUploadUrl { req with uid }
  else none

def request : Option Op :=
  if header.cmd_id = 0x1001 then loginRequest gw e header message
  else if header.cmd_id = 0x1003 then sendRequest gw e uid header message
  else if header.cmd_id = 0x1006 then syncRequest gw e uid header message
  else if header.cmd_id = 0x1008 then uploadRequest gw e uid header message
  else none

def answer : Op → Option Bytes
  | .login req => (e.login req).map gw.protobuf.serializeLoginRes
  | .sendMsg req => (e.sendMsg req).map gw.protobuf.serializeMsgSendRes
  | .syncMsg req => (e.syncMsg req).map gw.protobuf.serializeSyncMsgRes
  | .getUploadUrl req => (e.getUploadUrl req).map gw.protobuf.serializeGetUploadUrlRes
  | _ => none

structure Exchange (events : List (Event Op.Ret)) (request : Option Op) : Prop where
  rpcs : rpcs events = request.toList
  frames : frames events =
    ((request.bind (answer gw e)).map (replyFrame gw.host header (header.cmd_id + 1))).toList
  unparsed : (∃ ev ∈ events, Unparsed ev) → request = none

end Requests

section Exchange
variable {gw : Params} {e : Env} {header : PacketHeader}

theorem Exchange.nil : Exchange gw e header [] none :=
  ⟨rfl, rfl, fun ⟨_, hev, _⟩ => absurd hev List.not_mem_nil⟩

theorem Exchange.before {o : Op} {r : o.Ret} {evs : List (Event Op.Ret)} {req : Option Op}
    (h : Exchange gw e header evs req) (hrpc : isRpc o = false) (hsent : sentFrame o = none)
    (hparsed : Unparsed ⟨o, r⟩ → req = none) : Exchange gw e header (⟨o, r⟩ :: evs) req where
  rpcs := by
    have hskip : Gateway.rpcs (⟨o, r⟩ :: evs) = Gateway.rpcs evs := by
      simp only [Gateway.rpcs, List.map_cons, List.filter_cons, hrpc, Bool.false_eq_true, if_false]
    rw [hskip, h.rpcs]
  frames := by
    have hskip : Gateway.frames (⟨o, r⟩ :: evs) = Gateway.frames evs := by
      simp only [Gateway.frames, List.filterMap_cons, hsent]
    rw [hskip, h.frames]
  unparsed := by
    rintro ⟨ev, hev, hun⟩
    rcases List.mem_cons.mp hev with rfl | hev
    · exact hparsed hun
    · exact h.unparsed ⟨ev, hev, hun⟩

theorem Exchange.rpc {o : Op} {r : o.Ret} {evs : List (Event Op.Ret)} (hrpc : isRpc o = true)
    (hrpcs : Gateway.rpcs evs = [])
    (hframes : Gateway.frames evs =
      ((answer gw e o).map (replyFrame gw.host header (header.cmd_id + 1))).toList)
    (hparsed : ∀ ev ∈ evs, ¬Unparsed ev) : Exchange gw e header (⟨o, r⟩ :: evs) (some o) where
  rpcs := by
    have hskip : Gateway.rpcs (⟨o, r⟩ :: evs) = o :: Gateway.rpcs evs := by
      simp only [Gateway.rpcs, List.map_cons, List.filter_cons, hrpc, if_true]
    rw [hskip, hrpcs, Option.toList_some]
  frames := by
    have hsent : sentFrame o = none := by cases o <;> first | rfl | cases hrpc
    have hskip : Gateway.frames (⟨o, r⟩ :: evs) = Gateway.frames evs := by
      simp only [Gateway.frames, List.filterMap_cons, hsent]
    rw [hskip, hframes, Option.bind_some]
  unparsed := by
    rintro ⟨ev, hev, hun⟩
    rcases List.mem_cons.mp hev with rfl | hev
    · cases o <;> first | exact hun.elim | cases hrpc
    · exact absurd hun (hparsed ev hev)

theorem Exchange.answered {o : Op} {r : o.Ret} {cmd_id : BitVec 16} {body : Bytes}
    (hrpc : isRpc o = true) (hcmd : cmd_id = header.cmd_id + 1) (hbody : answer gw e o = some body) :
    Exchange gw e header [⟨o, r⟩, ⟨.send (replyFrame gw.host header cmd_id body), ()⟩] (some o) := by
  refine .rpc hrpc rfl ?_ ?_
  · rw [hbody, hcmd]
    rfl
  · intro ev hev
    obtain rfl := List.mem_singleton.mp hev
    exact id

theorem Exchange.failed {o : Op} {r : o.Ret} (hrpc : isRpc o = true) (hbody : answer gw e o = none) :
    Exchange gw e header [⟨o, r⟩] (some o) := by
  refine .rpc hrpc rfl ?_ fun ev hev => absurd hev List.not_mem_nil
  rw [hbody]
  rfl

end Exchange

section Branches
variable {τ : Type} [DecidableEq τ] (gw : Params) (e : Env) (ws : τ) (s : State τ)
variable {header : PacketHeader} (message : Bytes)

theorem exchange_onLogin (hcmd : header.cmd_id = 0x1001) :
    Exchange gw e header ((onLogin gw header message).events (exec gw e ws) s)
      (loginRequest gw e header message) := by
  have hreply : (0x1002 : BitVec 16) = header.cmd_id + 1 := by rw [hcmd]; rfl
  unfold onLogin loginRequest loginBody
  simp only [perform_bind, events, exec]
  cases gw.protobuf.parseLoginReq _ with
  | none => exact Exchange.nil.before rfl rfl fun _ => rfl
  | some req =>
    refine .before ?_ rfl rfl (fun h => by cases h)
    simp only [events, exec, Option.map_some]
    cases hres : e.login req with
    | none =>
      refine .failed rfl ?_
      rw [answer, hres, Option.map_none]
    | some res =>
      have hbody : answer gw e (.login req) = some (gw.protobuf.serializeLoginRes res) := by
        rw [answer, hres, Option.map_some]
      unfold enter
      by_cases hok : res.err_code = .ERR_SUCCESS
      -- the session is entered between the RPC and its reply
      · simp only [ne_eq, hok, not_true_eq_false, if_false, perform_bind, op_bind]
        refine .rpc rfl rfl ?_ ?_
        · rw [hbody, ← hreply]
          rfl
        · intro ev hev
          simp only [perform, events, List.mem_cons, List.not_mem_nil, or_false] at hev
          rcases hev with rfl | rfl | rfl <;> exact id
      · simp only [ne_eq, hok, not_false_eq_true, if_true, pure_eq, ret_bind]
        exact .answered rfl hreply hbody

theorem exchange_onSendMsg (hcmd : header.cmd_id = 0x1003) :
    Exchange gw e header ((onSendMsg gw header message).events (exec gw e ws) s)
      (sendRequest gw e (s.uidOf ws) header message) := by
  have hreply : (0x1004 : BitVec 16) = header.cmd_id + 1 := by rw [hcmd]; rfl
  unfold onSendMsg sendRequest restBody
  by_cases hlength : lengthOk header message = true
  · simp only [hlength, Bool.not_true, Bool.false_eq_true, if_false, perform_bind, events, exec,
      true_and]
    cases gw.protobuf.parseMsgSendReq _ with
    | none =>
      rw [Option.map_none, ite_self]
      exact Exchange.nil.before rfl rfl fun _ => rfl
    | some req =>
      by_cases huid : s.uidOf ws = 0
      · rw [if_neg (not_not.mpr huid)]
        simp only [events, exec, huid, if_true]
        exact (Exchange.nil.before rfl rfl False.elim).before rfl rfl (fun h => by cases h)
      · rw [if_pos huid]
        simp only [events, exec, huid, if_false]
        refine .before (.before ?_ rfl rfl False.elim) rfl rfl (fun h => by cases h)
        cases hres : e.sendMsg { req with msg := { req.msg with from_uid := s.uidOf ws } } with
        | none =>
          refine .failed rfl ?_
          rw [answer, hres, Option.map_none]
        | some res =>
          refine .answered rfl hreply ?_
          rw [answer, hres, Option.map_some]
  · simp only [hlength, Bool.not_false, if_true, Bool.false_eq_true, false_and, if_false]
    exact .nil

theorem exchange_onSyncMsg (hcmd : header.cmd_id = 0x1006) :
    Exchange gw e header ((onSyncMsg gw header message).events (exec gw e ws) s)
      (syncRequest gw e (s.uidOf ws) header message) := by
  have hreply : (0x1007 : BitVec 16) = header.cmd_id + 1 := by rw [hcmd]; rfl
  unfold onSyncMsg syncRequest restBody
  by_cases hlength : lengthOk header message = true
  · simp only [hlength, Bool.not_true, Bool.false_eq_true, if_false, if_true, perform_bind, events,
      exec]
    cases gw.protobuf.parseSyncMsgReq _ with
    | none => exact Exchange.nil.before rfl rfl fun _ => rfl
    | some req =>
      refine .before (.before ?_ rfl rfl False.elim) rfl rfl (fun h => by cases h)
      simp only [events, exec]
      cases hres : e.syncMsg { req with uid := s.uidOf ws } with
      | none =>
        refine .failed rfl ?_
        rw [answer, hres, Option.map_none]
      | some res =>
        refine .answered rfl hreply ?_
        rw [answer, hres, Option.map_some]
  · simp only [hlength, Bool.not_false, if_true, Bool.false_eq_true, if_false]
    exact .nil

theorem exchange_onGetUploadUrl (hcmd : header.cmd_id = 0x1008) :
    Exchange gw e header ((onGetUploadUrl gw header message).events (exec gw e ws) s)
      (uploadRequest gw e (s.uidOf ws) header message) := by
  have hreply : (0x1009 : BitVec 16) = header.cmd_id + 1 := by rw [hcmd]; rfl
  unfold onGetUploadUrl uploadRequest restBody
  by_cases hlength : lengthOk header message = true
  · simp only [hlength, Bool.not_true, Bool.false_eq_true, if_false, if_true, perform_bind, events,
      exec]
    cases gw.protobuf.parseGetUploadUrlReq _ with
    | none => exact Exchange.nil.before rfl rfl fun _ => rfl
    | some req =>
      refine .before (.before ?_ rfl rfl False.elim) rfl rfl (fun h => by cases h)
      simp only [events, exec]
      cases hres : e.getUploadUrl { req with uid := s.uidOf ws } with
      | none =>
        refine .failed rfl ?_
        rw [answer, hres, Option.map_none]
      | some res =>
        refine .answered rfl hreply ?_
        rw [answer, hres, Option.map_some]
  · simp only [hlength, Bool.not_false, if_true, Bool.false_eq_true, if_false]
    exact .nil

theorem exchange_onMessage (hheader : HEADER_LEN ≤ message.length) :
    Exchange gw e (decodeHeader gw.host message)
      ((onMessage gw .BINARY message).events (exec gw e ws) s)
      (request gw e (s.uidOf ws) (decodeHeader gw.host message) message) := by
  unfold onMessage request
  rw [if_neg (by decide), if_neg (Nat.not_lt_of_le hheader)]
  dsimp only
  by_cases hlogin : (decodeHeader gw.host message).cmd_id = 0x1001
  · rw [if_pos hlogin, if_pos hlogin]
    exact exchange_onLogin gw e ws s message hlogin
  rw [if_neg hlogin, if_neg hlogin]
  by_cases hsend : (decodeHeader gw.host message).cmd_id = 0x1003
  · rw [if_pos hsend, if_pos hsend]
    exact exchange_onSendMsg gw e ws s message hsend
  rw [if_neg hsend, if_neg hsend]
  by_cases hsync : (decodeHeader gw.host message).cmd_id = 0x1006
  · rw [if_pos hsync, if_pos hsync]
    exact exchange_onSyncMsg gw e ws s message hsync
  rw [if_neg hsync, if_neg hsync]
  by_cases hupload : (decodeHeader gw.host message).cmd_id = 0x1008
  · rw [if_pos hupload, if_pos hupload]
    exact exchange_onGetUploadUrl gw e ws s message hupload
  rw [if_neg hupload, if_neg hupload]
  exact .nil

theorem events_ignored {opCode : OpCode} (h : opCode ≠ .BINARY ∨ message.length < HEADER_LEN) :
    (onMessage gw opCode message).events (exec gw e ws) s = [] := by
  unfold onMessage
  by_cases hbinary : opCode = .BINARY
  · rw [if_neg (not_not.mpr hbinary), if_pos (h.resolve_left (not_not.mpr hbinary))]
    rfl
  · rw [if_pos hbinary]
    rfl

theorem rpc_onMessage {opCode : OpCode} {ev : Event Op.Ret}
    (hev : ev ∈ (onMessage gw opCode message).events (exec gw e ws) s) (hrpc : isRpc ev.1 = true) :
    opCode = .BINARY ∧ HEADER_LEN ≤ message.length ∧
      request gw e (s.uidOf ws) (decodeHeader gw.host message) message = some ev.1 := by
  by_cases hbinary : opCode = .BINARY
  · by_cases hheader : HEADER_LEN ≤ message.length
    · subst hbinary
      have hmem : ev.1 ∈ rpcs ((onMessage gw .BINARY message).events (exec gw e ws) s) :=
        List.mem_filter.mpr ⟨List.mem_map_of_mem hev, hrpc⟩
      rw [(exchange_onMessage gw e ws s message hheader).rpcs, Option.mem_toList] at hmem
      exact ⟨rfl, hheader, hmem⟩
    · rw [events_ignored gw e ws s message (.inr (Nat.lt_of_not_le hheader))] at hev
      exact absurd hev List.not_mem_nil
  · rw [events_ignored gw e ws s message (.inl hbinary)] at hev
    exact absurd hev List.not_mem_nil

theorem request_performed {o : Op} (hheader : HEADER_LEN ≤ message.length)
    (h : request gw e (s.uidOf ws) (decodeHeader gw.host message) message = some o) :
    ∃ ev ∈ (onMessage gw .BINARY message).events (exec gw e ws) s, ev.1 = o ∧ isRpc ev.1 = true := by
  have hrpcs := (exchange_onMessage gw e ws s message hheader).rpcs
  rw [h, Option.toList_some] at hrpcs
  have hmem : o ∈ rpcs ((onMessage gw .BINARY message).events (exec gw e ws) s) := by
    rw [hrpcs]
    exact List.mem_singleton_self o
  obtain ⟨hmap, hrpc⟩ := List.mem_filter.mp hmem
  obtain ⟨ev, hev, rfl⟩ := List.mem_map.mp hmap
  exact ⟨ev, hev, rfl, hrpc⟩

end Branches
end LetsChat.Gateway
