import LetsChat.Gateway.Exchange
import LetsChat.Gateway.SessionMap

/-! The reply frames of the gateway. -/

namespace LetsChat.Gateway
open Lib Prog

structure RepliesTo (gw : Params) (header : PacketHeader) (body frame : Bytes) : Prop where
  length : (decodeHeader gw.host (frame.take HEADER_LEN)).length.toNat = frame.length
  version : (decodeHeader gw.host (frame.take HEADER_LEN)).version = header.version
  seq_id : (decodeHeader gw.host (frame.take HEADER_LEN)).seq_id = header.seq_id
  cmd_id : (decodeHeader gw.host (frame.take HEADER_LEN)).cmd_id = header.cmd_id + 1
  body : frame.drop HEADER_LEN = body

/-- At most one frame is sent, with the reply of the RPC, and none where there is no such reply. -/
structure WellReplied (gw : Params) (e : Env) (header : PacketHeader) (events : List (Event Op.Ret)) :
    Prop where
  one : (frames events).length ≤ 1
  reply : ∀ frame ∈ frames events, ∃ o ∈ rpcs events, ∃ body, answer gw e o = some body ∧
    RepliesTo gw header body frame
  failed : (∃ o ∈ rpcs events, answer gw e o = none) → frames events = []
  unparsed : (∃ ev ∈ events, Unparsed ev) → frames events = []
  unknown : header.cmd_id ∉ [0x1001, 0x1003, 0x1006, 0x1008] → frames events = []

theorem repliesTo_replyFrame (gw : Params) (header : PacketHeader) {body : Bytes}
    (hsize : body.length ≤ 2 ^ 31 - 1) :
    RepliesTo gw header body (replyFrame gw.host header (header.cmd_id + 1) body) := by
  have hlen : (replyFrame gw.host header (header.cmd_id + 1) body).length =
      HEADER_LEN + body.length := by
    rw [replyFrame, List.length_append, length_encodeHeader]
  have hhead : decodeHeader gw.host
      ((replyFrame gw.host header (header.cmd_id + 1) body).take HEADER_LEN) =
        ⟨BitVec.ofNat 32 (HEADER_LEN + body.length), header.version, header.cmd_id + 1,
          header.seq_id⟩ := by
    rw [replyFrame, List.take_left' (length_encodeHeader gw.host _), decodeHeader_encodeHeader]
  refine ⟨?_, ?_, ?_, ?_, ?_⟩
  · rw [hhead, hlen, BitVec.toNat_ofNat]
    apply Nat.mod_eq_of_lt
    unfold HEADER_LEN
    omega
  · rw [hhead]
  · rw [hhead]
  · rw [hhead]
  · rw [replyFrame]
    exact List.drop_left' (length_encodeHeader gw.host _)

theorem request_unknown (gw : Params) (e : Env) (uid : Int) {header : PacketHeader} (message : Bytes)
    (h : header.cmd_id ∉ [0x1001, 0x1003, 0x1006, 0x1008]) :
    request gw e uid header message = none := by
  simp only [List.mem_cons, List.not_mem_nil, or_false, not_or] at h
  unfold request
  rw [if_neg h.1, if_neg h.2.1, if_neg h.2.2.1, if_neg h.2.2.2]

section Frames
variable {gw : Params} {e : Env} {header : PacketHeader} {events : List (Event Op.Ret)}
variable {request : Option Op} (hexchange : Exchange gw e header events request)
include hexchange

theorem Exchange.frames_eq_nil (h : request = none) : Gateway.frames events = [] := by
  rw [hexchange.frames, h]
  rfl

theorem Exchange.wellReplied
    (hsize : ∀ o ∈ Gateway.rpcs events, ∀ body, answer gw e o = some body → body.length ≤ 2 ^ 31 - 1)
    (hunknown : header.cmd_id ∉ [0x1001, 0x1003, 0x1006, 0x1008] → request = none) :
    WellReplied gw e header events where
  one := by
    rw [hexchange.frames]
    cases (request.bind (answer gw e)).map (replyFrame gw.host header (header.cmd_id + 1)) with
    | none => exact Nat.zero_le 1
    | some frame => exact Nat.le_refl 1
  reply frame hframe := by
    rw [hexchange.frames, Option.mem_toList] at hframe
    obtain ⟨body, hbind, rfl⟩ := Option.map_eq_some_iff.mp hframe
    obtain ⟨o, hreq, hbody⟩ := Option.bind_eq_some_iff.mp hbind
    have ho : o ∈ Gateway.rpcs events := by
      rw [hexchange.rpcs, hreq]
      exact List.mem_singleton_self o
    exact ⟨o, ho, body, hbody, repliesTo_replyFrame gw header (hsize o ho body hbody)⟩
  failed := by
    rintro ⟨o, ho, hfailed⟩
    rw [hexchange.rpcs, Option.mem_toList] at ho
    rw [hexchange.frames, ho, Option.bind_some, hfailed]
    rfl
  unparsed h := hexchange.frames_eq_nil (hexchange.unparsed h)
  unknown h := hexchange.frames_eq_nil (hunknown h)

end Frames

theorem replies_wellFormed {τ : Type} [DecidableEq τ] (gw : Params) (e : Env) (ws : τ) (s : State τ)
    {message : Bytes} (hheader : HEADER_LEN ≤ message.length)
    (hsize : ∀ o ∈ rpcs ((onMessage gw .BINARY message).events (exec gw e ws) s), ∀ body,
      answer gw e o = some body → body.length ≤ 2 ^ 31 - 1) :
    WellReplied gw e (decodeHeader gw.host message)
      ((onMessage gw .BINARY message).events (exec gw e ws) s) :=
  (exchange_onMessage gw e ws s message hheader).wellReplied hsize
    fun hunknown => request_unknown gw e (s.uidOf ws) message hunknown

theorem replies_wellFormed_loginAs :
    WellReplied small welcoming (decodeHeader .little (loginAs 1))
      ((onMessage small .BINARY (loginAs 1)).events (exec small welcoming 0)
        (State.start : State Nat)) := by
  apply replies_wellFormed small welcoming 0 State.start (by decide)
  intro o _ body hbody
  -- this gateway serialises every reply to the empty body
  cases o with
  | login req =>
    cases hbody
    exact Nat.zero_le _
  | _ => cases hbody

end LetsChat.Gateway
