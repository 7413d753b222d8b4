import LetsChat.EndToEnd.GatewayRuns

/-! The replies to frames, over any interleaving: each frame has one at most, with its number,
and they go out in the order of the frames. -/

namespace LetsChat.EndToEnd
open Lib Prog Machine

variable {τ : Type}

def replied : Event (Op.Ret (τ := τ)) → List (τ × Bytes)
  | ⟨.gateway ws (.send data), _⟩ => [(ws, data)]
  | _ => []

def RepliesOnce (gw : Gateway.Params) (t : Thread (Op.Ret (τ := τ)) (Call τ) Env Answer) :
    Prop :=
  ∀ ws opCode message, t.call = .onMessage ws opCode message →
    t.past.flatMap replied = [] ∨ ∃ res_body, t.past.flatMap replied =
      [(ws, Gateway.replyFrame gw.host (decodeHeader gw.host message)
        ((decodeHeader gw.host message).cmd_id + 1) res_body)]

def InOrder (c : Running τ) : Prop :=
  List.Sublist (written replied Call.ofSocket c.threads) c.shared.sent

theorem replied_eq {ws : τ} {past : Events τ} (hpast : ∀ ev ∈ past, OfMessage ws ev.1)
    {coarse : List (Event Gateway.Op.Ret)} (h : past.filterMap toOwn = coarse.filterMap unlessRpc) :
    past.flatMap replied = (Gateway.frames coarse).map (Prod.mk ws) := by
  have hfine : past.flatMap replied =
      (Gateway.frames (past.filterMap toOwn)).map (Prod.mk ws) := by
    clear h
    induction past with
    | nil => rfl
    | cons ev past ih =>
      have hrest := ih fun ev hev => hpast ev (List.mem_cons_of_mem _ hev)
      have hws := hpast ev List.mem_cons_self
      rw [List.flatMap_cons, hrest]
      obtain ⟨o, r⟩ := ev
      cases o with
      | gateway w o =>
        obtain rfl : w = ws := hws
        cases o <;> rfl
      | _ => rfl
  have hcoarse : Gateway.frames (coarse.filterMap unlessRpc) = Gateway.frames coarse := by
    rw [Gateway.frames, Gateway.frames, List.filterMap_filterMap]
    congr 1
    funext ev
    obtain ⟨o, r⟩ := ev
    cases o <;> rfl
  rw [hfine, h, hcoarse]

section Replies
variable [DecidableEq τ] (gw : Gateway.Params) (json : Gateway.Nlohmann)
variable (impl : LogicServiceImpl)

theorem sent_grows (e : Env) (o : Op τ) (s : State τ) :
    List.Sublist (s.sent ++ replied ⟨o, (e.exec gw o s).1⟩) (e.exec gw o s).2.sent := by
  have hpushed : ∀ request (s : State τ), List.Sublist (s.sent ++ []) (s.pushMsg request).2.sent := by
    intro request s
    rw [List.append_nil]
    exact List.sublist_append_left _ _
  cases o with
  | gateway ws o =>
    cases o with
    | send data => exact List.Sublist.refl _
    | _ => exact (List.append_nil s.sent).symm ▸ List.Sublist.refl _
  | logic o =>
    cases o with
    | pushMsg addr req =>
      simp only [Env.exec, Env.execPush]
      cases e.push with
      | here => exact hpushed req _
      | lost => exact hpushed req _
      | elsewhere => exact (List.append_nil s.sent).symm ▸ List.Sublist.refl _
    | _ => exact (List.append_nil s.sent).symm ▸ List.Sublist.refl _
  | pushMsg request => exact hpushed request s
  | _ => exact (List.append_nil s.sent).symm ▸ List.Sublist.refl _

theorem Matches.repliesOnce {t : Thread (Op.Ret (τ := τ)) (Call τ) Env Answer}
    (htrace : Trace (body gw json impl t.call) t.past t.rest)
    {io : Gateway.Input τ × Gateway.Output τ} (h : Matches impl t io) {v v' : Gateway.State τ}
    (hstep : (Gateway.gateway gw).step v io.1 = some (io.2, v')) : RepliesOnce gw t := by
  intro ws opCode message hcall
  cases h with
  | onOpen w heq => exact absurd (hcall.symm.trans heq) nofun
  | onClose w heq => exact absurd (hcall.symm.trans heq) nofun
  | onMessage w op m e events heq hmemory hcarries =>
    obtain ⟨rfl, rfl, rfl⟩ := Call.onMessage.inj (hcall.symm.trans heq)
    have hevents : events = (Gateway.onMessage gw opCode message).events (Gateway.exec gw e ws) v := by
      simp only [Gateway.gateway] at hstep
      split at hstep
      · exact (Gateway.Output.handled.inj (Prod.mk.inj (Option.some.inj hstep)).1).symm
      · cases hstep
    rw [hcall] at htrace
    have hwithin := (within_onMessage gw json impl ws opCode message).traced htrace
    rw [replied_eq hwithin hcarries.own, hevents]
    by_cases hbinary : opCode = .BINARY ∧ HEADER_LEN ≤ message.length
    · obtain ⟨rfl, hheader⟩ := hbinary
      rw [(Gateway.exchange_onMessage gw e ws v message hheader).frames]
      cases (Gateway.request gw e (v.uidOf ws) (decodeHeader gw.host message) message).bind
          (Gateway.answer gw e) with
      | none => exact .inl rfl
      | some res_body => exact .inr ⟨res_body, rfl⟩
    · refine .inl ?_
      rw [Gateway.events_ignored gw e ws v message
        ((not_and_or.mp hbinary).imp_right Nat.lt_of_not_le)]
      rfl

/-- Over any interleaving the replies that the sockets get to their frames come in the order of
the frames, and a frame that has been handled has had one reply at most, with its number. -/
theorem replies_in_order (w : World) (is : List (Input τ)) :
    (system gw json impl).EveryState (fun _ c => InOrder c ∧
      ∀ t ∈ c.threads, t.rest.finished = true → RepliesOnce gw t) [] ⟨.start w, []⟩ is := by
  have hordered : (system gw json impl).EveryState (fun _ c =>
      (WellTraced (body gw json impl) c ∧ TakesTurns gw c) ∧ InOrder c) [] ⟨.start w, []⟩ is := by
    refine everyState_of_invariant (I := fun _ c =>
      (WellTraced (body gw json impl) c ∧ TakesTurns gw c) ∧ InOrder c) ?_
      ⟨takesTurns_start gw json impl w, List.Sublist.refl _⟩
    rintro h c i o c' ⟨hc, horder⟩ hs
    refine ⟨takesTurns_step gw json impl hc hs, ?_⟩
    exact written_step hc.2.done (sent_grows gw) horder (restrict_step hs).2
  refine hordered.mono fun _ c hc => ⟨hc.2, fun t ht hdone => ?_⟩
  obtain ⟨⟨htraced, hturns⟩, -⟩ := hc
  by_cases hcall : t.call.ofSocket = true
  · obtain ⟨v, v', hturn⟩ := hturns.path.label (List.mem_filter.mpr ⟨ht, hcall⟩)
    obtain ⟨io, hstep, hmatches⟩ := step_of_turn gw json impl hcall (htraced t ht) hdone hturn
    exact hmatches.repliesOnce gw json impl (htraced t ht) hstep
  · intro ws opCode message heq
    rw [heq] at hcall
    exact absurd rfl hcall

end Replies
end LetsChat.EndToEnd
