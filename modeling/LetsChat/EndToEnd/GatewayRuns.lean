import LetsChat.EndToEnd.Safety
import LetsChat.Lib.Exclusive

/-! The gateway alone, which takes each message in one step, and the gateway among the calls of
the whole system. Whenever its event loop is idle, it is where a run of the first kind ends. -/

namespace LetsChat.EndToEnd
open Lib Prog Machine

variable {τ : Type}

/-- The handler has returned this result on operations that the call performed in a row. -/
def Backed {α : Type} (p : Prog LetsChat.Op.Ret α) (past : Events τ) (a : α) : Prop :=
  ∃ inner, inner <:+: logicEvents past ∧ Trace p inner (ret a)

def AnswerBacked (impl : LogicServiceImpl) (past : Events τ) : Event Gateway.Op.Ret → Prop
  | ⟨.login req, some res⟩ => Backed (LogicServiceImpl.login req) past res
  | ⟨.sendMsg req, some res⟩ => Backed (impl.sendMsg req) past res
  | ⟨.syncMsg req, some res⟩ => Backed (LogicServiceImpl.syncMsg req) past res
  | ⟨.getUploadUrl req, some res⟩ => Backed (impl.getUploadUrl req) past res
  | _ => True

def toOwn : Event (Op.Ret (τ := τ)) → Option (Event Gateway.Op.Ret)
  | ⟨.gateway _ o, r⟩ => some ⟨o, r⟩
  | _ => none

def unlessRpc (ev : Event Gateway.Op.Ret) : Option (Event Gateway.Op.Ret) :=
  if Gateway.isRpc ev.1 = true then none else some ev

structure CarriesOut (impl : LogicServiceImpl) (fine : Events τ)
    (coarse : List (Event Gateway.Op.Ret)) : Prop where
  own : fine.filterMap toOwn = coarse.filterMap unlessRpc
  backed : ∀ ev ∈ coarse, AnswerBacked impl fine ev

theorem AnswerBacked.more {impl : LogicServiceImpl} {past : Events τ} {ev : Event Gateway.Op.Ret}
    (h : AnswerBacked impl past ev) (more : Events τ) : AnswerBacked impl (past ++ more) ev := by
  have hmore : ∀ {α : Type} {p : Prog LetsChat.Op.Ret α} {a : α},
      Backed p past a → Backed p (past ++ more) a := by
    rintro α p a ⟨inner, hinfix, htrace⟩
    refine ⟨inner, hinfix.trans ?_, htrace⟩
    rw [logicEvents_append]
    exact (List.prefix_append _ _).isInfix
  obtain ⟨o, res⟩ := ev
  cases o with
  | login | sendMsg | syncMsg | getUploadUrl =>
    cases res with
    | none => trivial
    | some res => exact hmore h
  | _ => trivial

theorem CarriesOut.snoc {impl : LogicServiceImpl} {fine more : Events τ}
    {coarse : List (Event Gateway.Op.Ret)} {ev : Event Gateway.Op.Ret}
    (h : CarriesOut impl fine coarse) (hown : more.filterMap toOwn = (unlessRpc ev).toList)
    (hbacked : AnswerBacked impl (fine ++ more) ev) :
    CarriesOut impl (fine ++ more) (coarse ++ [ev]) where
  own := by
    have hone : [ev].filterMap unlessRpc = (unlessRpc ev).toList := by
      rw [List.filterMap_cons, List.filterMap_nil]
      cases unlessRpc ev <;> rfl
    rw [List.filterMap_append, List.filterMap_append, h.own, hown, hone]
  backed ev' hev' := by
    rcases List.mem_append.mp hev' with hev' | hev'
    · exact (h.backed ev' hev').more more
    · obtain rfl := List.mem_singleton.mp hev'
      exact hbacked

theorem renders_rpc {α : Type} (p : Prog LetsChat.Op.Ret α) (fine : Events τ) :
    (remote p).Concludes (fun fine' res => (∃ more, fine' = fine ++ more ∧
      more.filterMap toOwn = []) ∧ ∀ a, res = some a → Backed p fine' a) fine := by
  have hwithin : (remote p : Prog (Op.Ret (τ := τ)) _).Within fun o => ∀ r, toOwn ⟨o, r⟩ = none :=
    within_remote (within_of_forall (P := fun _ => True) (fun _ => trivial) p) (fun _ => rfl)
      fun _ _ _ => rfl
  have hown : (remote p).Concludes (fun fine' _ => ∃ more, fine' = fine ++ more ∧
      more.filterMap toOwn = []) fine := by
    refine hwithin.concludes_stable (S := fun fine' => ∃ more, fine' = fine ++ more ∧
      more.filterMap toOwn = []) ?_ ⟨[], (List.append_nil fine).symm, rfl⟩
    rintro _ ev hev ⟨more, rfl, hmore⟩
    refine ⟨more ++ [ev], List.append_assoc _ _ _, ?_⟩
    rw [List.filterMap_append, hmore, List.nil_append, List.filterMap_cons, hev ev.2]
    rfl
  apply (hown.and (concludes_remote (concludes_trace (.nil p)) fine)).mono
  intro fine' res h
  refine ⟨h.1, fun a ha => ?_⟩
  obtain ⟨inner, hsuffix, htrace⟩ := h.2 a ha
  exact ⟨inner, hsuffix.isInfix, htrace⟩

theorem renders_carriesOut (impl : LogicServiceImpl) (ws : τ) :
    Renders (carriedOut impl ws) (CarriesOut impl) := by
  intro o fine coarse h
  cases o with
  | login | sendMsg | syncMsg | getUploadUrl =>
    apply (renders_rpc _ fine).mono
    intro fine' res hres
    obtain ⟨⟨more, rfl, hmore⟩, hbacked⟩ := hres
    apply h.snoc hmore
    cases res with
    | none => trivial
    | some res => exact hbacked res rfl
  | _ => exact fun r => h.snoc rfl trivial

section OneRpc
variable [DecidableEq τ] (gw : Gateway.Params) (header : PacketHeader) (message : Bytes)

def askedRpcs (past : List (Event Gateway.Op.Ret)) : List (Event Gateway.Op.Ret) :=
  past.filter fun ev => Gateway.isRpc ev.1

theorem oneRpc_onMessage (opCode : Gateway.OpCode) :
    (Gateway.onMessage gw opCode message).Concludes (fun past _ => (askedRpcs past).length ≤ 1) [] := by
  refine concludes_ite.mpr ⟨fun _ => Nat.zero_le _, fun _ => ?_⟩
  refine concludes_ite.mpr ⟨fun _ => Nat.zero_le _, fun _ => ?_⟩
  refine concludes_ite.mpr ⟨fun _ => ?login, fun _ => ?_⟩
  case login =>
    unfold Gateway.onLogin
    simp only [perform_bind]
    rintro (_ | req)
    · exact Nat.zero_le _
    rintro (_ | res)
    · exact Nat.le_refl _
    by_cases hok : res.err_code = .ERR_SUCCESS
    · simp only [Gateway.enter, hok, ne_eq, not_true_eq_false, if_false, perform_bind, op_bind]
      exact fun _ _ _ => Nat.le_refl _
    · simp only [Gateway.enter, hok, ne_eq, not_false_eq_true, if_true, pure_eq, ret_bind]
      exact fun _ => Nat.le_refl _
  refine concludes_ite.mpr ⟨fun _ => ?send, fun _ => ?_⟩
  case send =>
    refine concludes_ite.mpr ⟨fun _ => Nat.zero_le _, fun _ => ?_⟩
    rintro (_ | req)
    · exact Nat.zero_le _
    refine fun uid => concludes_ite.mpr ⟨fun _ => Nat.zero_le _, fun _ => ?_⟩
    rintro (_ | res)
    · exact Nat.le_refl _
    · exact fun _ => Nat.le_refl _
  refine concludes_ite.mpr ⟨fun _ => ?sync, fun _ => ?_⟩
  case sync =>
    refine concludes_ite.mpr ⟨fun _ => Nat.zero_le _, fun _ => ?_⟩
    rintro (_ | req)
    · exact Nat.zero_le _
    rintro uid (_ | res)
    · exact Nat.le_refl _
    · exact fun _ => Nat.le_refl _
  refine concludes_ite.mpr ⟨fun _ => ?_, fun _ => Nat.zero_le _⟩
  refine concludes_ite.mpr ⟨fun _ => Nat.zero_le _, fun _ => ?_⟩
  rintro (_ | req)
  · exact Nat.zero_le _
  rintro uid (_ | res)
  · exact Nat.le_refl _
  · exact fun _ => Nat.le_refl _

def Answering (e : Gateway.Env) (memory : Int → Bytes) (coarse : List (Event Gateway.Op.Ret)) :
    Prop :=
  e.memory = memory ∧ ∀ ev ∈ coarse, Gateway.isRpc ev.1 = true →
    ∀ (ws : τ) (s : Gateway.State τ), Gateway.exec gw e ws ev.1 s = (ev.2, s)

theorem exists_answering (memory : Int → Bytes) {coarse : List (Event Gateway.Op.Ret)}
    (h : (askedRpcs coarse).length ≤ 1) : ∃ e, Answering (τ := τ) gw e memory coarse := by
  have hmem : ∀ ev ∈ coarse, Gateway.isRpc ev.1 = true → ev ∈ askedRpcs coarse :=
    fun ev hev hrpc => List.mem_filter.mpr ⟨hev, hrpc⟩
  cases hasked : askedRpcs coarse with
  | nil =>
    refine ⟨⟨memory, fun _ => none, fun _ => none, fun _ => none, fun _ => none⟩, rfl, ?_⟩
    intro ev hev hrpc
    have hasked' := hmem ev hev hrpc
    rw [hasked] at hasked'
    exact absurd hasked' List.not_mem_nil
  | cons ev rest =>
    rw [hasked, List.length_cons] at h
    obtain rfl := List.eq_nil_of_length_eq_zero (Nat.le_zero.mp (Nat.le_of_succ_le_succ h))
    have honly : ∀ ev' ∈ coarse, Gateway.isRpc ev'.1 = true → ev' = ev := by
      intro ev' hev' hrpc
      have hasked' := hmem ev' hev' hrpc
      rw [hasked] at hasked'
      exact List.mem_singleton.mp hasked'
    have hrpc : Gateway.isRpc ev.1 = true :=
      (List.mem_filter.mp (hasked ▸ List.mem_singleton_self ev : ev ∈ askedRpcs coarse)).2
    -- the other requests are not made, so any answer to them will do
    obtain ⟨o, r⟩ := ev
    cases o with
    | login req =>
      refine ⟨⟨memory, fun _ => r, fun _ => none, fun _ => none, fun _ => none⟩, rfl, ?_⟩
      intro ev' hev' hrpc'
      rw [honly ev' hev' hrpc']
      exact fun _ _ => rfl
    | sendMsg req =>
      refine ⟨⟨memory, fun _ => none, fun _ => r, fun _ => none, fun _ => none⟩, rfl, ?_⟩
      intro ev' hev' hrpc'
      rw [honly ev' hev' hrpc']
      exact fun _ _ => rfl
    | syncMsg req =>
      refine ⟨⟨memory, fun _ => none, fun _ => none, fun _ => r, fun _ => none⟩, rfl, ?_⟩
      intro ev' hev' hrpc'
      rw [honly ev' hev' hrpc']
      exact fun _ _ => rfl
    | getUploadUrl req =>
      refine ⟨⟨memory, fun _ => none, fun _ => none, fun _ => none, fun _ => r⟩, rfl, ?_⟩
      intro ev' hev' hrpc'
      rw [honly ev' hev' hrpc']
      exact fun _ _ => rfl
    | _ => exact absurd hrpc Bool.false_ne_true

end OneRpc

theorem throwless_remote {α : Type} (p : Prog LetsChat.Op.Ret α) :
    (remote p : Prog (Op.Ret (τ := τ)) _).Throwless := by
  unfold remote
  rw [perform_bind]
  intro link
  cases link with
  | failed => trivial
  | done => exact throwless_attempt _
  | lost => exact throwless_bind (throwless_attempt _) fun _ => trivial

theorem throwless_carriedOut (impl : LogicServiceImpl) (ws : τ) (o : Gateway.Op) :
    (carriedOut impl ws o).Throwless := by
  cases o with
  | login | sendMsg | syncMsg | getUploadUrl => exact throwless_remote _
  | _ => exact throwless_perform _

theorem throwless_onMessage (gw : Gateway.Params) (opCode : Gateway.OpCode) (message : Bytes) :
    (Gateway.onMessage gw opCode message).Throwless := by
  refine throwless_ite.mpr ⟨fun _ => trivial, fun _ => ?_⟩
  refine throwless_ite.mpr ⟨fun _ => trivial, fun _ => ?_⟩
  refine throwless_ite.mpr ⟨fun _ => ?login, fun _ => ?_⟩
  case login =>
    refine throwless_optional (throwless_perform _) trivial fun req => ?_
    refine throwless_optional (throwless_perform _) trivial fun res => ?_
    refine throwless_bind ?_ fun _ => throwless_perform _
    exact throwless_ite.mpr ⟨fun _ => trivial, fun _ _ _ => trivial⟩
  refine throwless_ite.mpr ⟨fun _ => ?send, fun _ => ?_⟩
  case send =>
    refine throwless_ite.mpr ⟨fun _ => trivial, fun _ => ?_⟩
    refine throwless_optional (throwless_perform _) trivial fun req => ?_
    apply throwless_bind (throwless_perform _)
    intro uid
    refine throwless_ite.mpr ⟨fun _ => trivial, fun _ => ?_⟩
    exact throwless_optional (throwless_perform _) trivial fun res => throwless_perform _
  refine throwless_ite.mpr ⟨fun _ => ?sync, fun _ => ?_⟩
  case sync =>
    refine throwless_ite.mpr ⟨fun _ => trivial, fun _ => ?_⟩
    refine throwless_optional (throwless_perform _) trivial fun req => ?_
    apply throwless_bind (throwless_perform _)
    intro uid
    exact throwless_optional (throwless_perform _) trivial fun res => throwless_perform _
  refine throwless_ite.mpr ⟨fun _ => ?_, fun _ => trivial⟩
  refine throwless_ite.mpr ⟨fun _ => trivial, fun _ => ?_⟩
  refine throwless_optional (throwless_perform _) trivial fun req => ?_
  apply throwless_bind (throwless_perform _)
  intro uid
  exact throwless_optional (throwless_perform _) trivial fun res => throwless_perform _

def OfMessage (ws : τ) : Op τ → Prop
  | .link | .logic _ => True
  | .gateway w _ => w = ws
  | _ => False

theorem within_carriedOut (impl : LogicServiceImpl) (ws : τ) (o : Gateway.Op) :
    (carriedOut impl ws o).Within (OfMessage ws) := by
  cases o with
  | login | sendMsg | syncMsg | getUploadUrl =>
    exact within_remote (within_of_forall (P := fun _ => True) (fun _ => trivial) _) trivial
      fun _ _ => trivial
  | _ => exact (within_perform _).mpr rfl

theorem within_onMessage (gw : Gateway.Params) (json : Gateway.Nlohmann) (impl : LogicServiceImpl)
    (ws : τ) (opCode : Gateway.OpCode) (message : Bytes) :
    (body gw json impl (.onMessage ws opCode message)).Within (OfMessage ws) := by
  refine within_bind ?_ fun _ => trivial
  exact Within.interpret (P := fun _ => True) (fun o _ => within_carriedOut impl ws o)
    (within_of_forall (fun _ => trivial) _)

theorem isOpen_iff {state : Gateway.SocketState} :
    isOpen state = true ↔ ∃ data, state = .opened data := by
  cases state with
  | opened data => exact ⟨fun _ => ⟨data, rfl⟩, fun _ => rfl⟩
  | _ => exact ⟨fun h => absurd h Bool.false_ne_true, fun ⟨_, h⟩ => by cases h⟩

section Turns
variable (gw : Gateway.Params) (json : Gateway.Nlohmann) (impl : LogicServiceImpl)

theorem concludes_onMessage (ws : τ) (opCode : Gateway.OpCode) (message : Bytes) :
    (body gw json impl (.onMessage ws opCode message)).Concludes (fun fine _ => ∃ coarse,
      CarriesOut impl fine coarse ∧ Trace (Gateway.onMessage gw opCode message) coarse (ret ()) ∧
        (askedRpcs coarse).length ≤ 1) [] := by
  have hcoarse := (concludes_trace (.nil (Gateway.onMessage gw opCode message))).and
    (oneRpc_onMessage gw message opCode)
  have hnil : CarriesOut impl ([] : Events τ) [] :=
    ⟨rfl, fun _ hev => absurd hev List.not_mem_nil⟩
  exact concludes_bind (hcoarse.interpret (renders_carriesOut impl ws) hnil)

theorem throwless_body (call : Call τ) (hcall : call.ofSocket = true) :
    (body gw json impl call).Throwless := by
  cases call with
  | onMessage ws opCode message =>
    refine throwless_bind ?_ fun _ => trivial
    exact (throwless_onMessage gw opCode message).interpret (throwless_carriedOut impl ws)
  | post | rpc | pushMsg => exact absurd hcall Bool.false_ne_true
  | _ => exact fun _ => trivial

theorem past_of_one {call : Call τ} {o : Op τ} {k : o.Ret → Prog (Op.Ret (τ := τ)) Answer}
    (hbody : body gw json impl call = .op o k) (hk : ∀ r, k r = ret .none) {past : Events τ}
    {rest : Prog (Op.Ret (τ := τ)) Answer} (htrace : Trace (body gw json impl call) past rest)
    (hdone : rest.finished = true) : ∃ r, past = [⟨o, r⟩] := by
  rw [hbody] at htrace
  cases htrace with
  | nil => exact absurd hdone Bool.false_ne_true
  | @cons _ _ r _ _ htrace =>
    rw [hk r] at htrace
    cases htrace with
    | nil => exact ⟨r, rfl⟩

variable [DecidableEq τ]

theorem gateway_exec_logic (e : Env) (o : LetsChat.Op) (s : State τ) :
    (e.exec gw (.logic o) s).2.gateway = s.gateway := by
  cases o with
  | pushMsg addr req =>
    simp only [Env.exec, Env.execPush]
    cases e.push <;> rfl
  | _ => rfl

theorem performs_own {e : Env} {ws : τ} {past : Events τ} {v v' : Gateway.State τ}
    (hpast : ∀ ev ∈ past, OfMessage ws ev.1)
    (h : Path (Sees (Env.exec gw) State.gateway e) past v v') :
    Performs (Gateway.exec gw e.own ws) (past.filterMap toOwn) v v' := by
  refine h.skip ?_ ?_
  · rintro ⟨o, r⟩ hmem own hown _ _ ⟨s, rfl, hres, rfl⟩
    obtain rfl : (e.exec gw o s).1 = r := hres
    have hws := hpast _ hmem
    cases o with
    | gateway w o =>
      obtain rfl : w = ws := hws
      obtain rfl := Option.some.inj hown
      cases o <;> rfl
    | _ => cases hown
  · rintro ⟨o, r⟩ hmem hown _ _ ⟨s, rfl, -, rfl⟩
    cases o with
    | gateway => cases hown
    | link => rfl
    | logic o => exact gateway_exec_logic gw e o s
    | _ => exact (hpast _ hmem).elim

theorem performs_all {e : Gateway.Env} {e' : Env} {ws : τ}
    {coarse : List (Event Gateway.Op.Ret)} {v v' : Gateway.State τ}
    (he : Answering (τ := τ) gw e e'.memory coarse)
    (h : Performs (Gateway.exec gw e'.own ws) (coarse.filterMap unlessRpc) v v') :
    Performs (Gateway.exec gw e ws) coarse v v' := by
  obtain ⟨hmemory, hrpcs⟩ := he
  have hread : ∀ buffer n, e.bytesRead buffer n = e'.own.bytesRead buffer n := by
    intro buffer n
    rw [Gateway.Env.bytesRead, Gateway.Env.bytesRead, hmemory]
    rfl
  refine h.fill ?_ ?_
  · intro ev hev ev' hsame v v' hstep
    obtain ⟨hrpc, heq⟩ := Option.ite_none_left_eq_some.mp hsame
    obtain rfl := Option.some.inj heq
    obtain ⟨o, r⟩ := ev
    rw [← hstep]
    cases o with
    | parseLoginReq | parseMsgSendReq | parseSyncMsgReq | parseGetUploadUrlReq =>
      simp only [Gateway.exec, hread]
    | login | sendMsg | syncMsg | getUploadUrl => exact absurd rfl hrpc
    | _ => rfl
  · intro ev hev hnone v
    have hrpc : Gateway.isRpc ev.1 = true := by
      by_contra hnot
      rw [unlessRpc, if_neg hnot] at hnone
      cases hnone
    exact hrpcs ev hev hrpc ws v

inductive Matches (t : Thread (Op.Ret (τ := τ)) (Call τ) Env Answer) :
    Gateway.Input τ × Gateway.Output τ → Prop
  | onOpen (ws : τ) : t.call = .onOpen ws → Matches t (.onOpen ws, .done)
  | onMessage (ws : τ) (opCode : Gateway.OpCode) (message : Bytes) (e : Gateway.Env)
    (events : List (Event Gateway.Op.Ret)) :
    t.call = .onMessage ws opCode message → e.memory = t.env.memory →
    CarriesOut impl t.past events →
    Matches t (.onMessage ws opCode message e, .handled events)
  | onClose (ws : τ) : t.call = .onClose ws → Matches t (.onClose ws, .done)

theorem step_of_turn {t : Thread (Op.Ret (τ := τ)) (Call τ) Env Answer}
    (hcall : t.call.ofSocket = true) (htrace : Trace (body gw json impl t.call) t.past t.rest)
    (hdone : t.rest.finished = true) {v v' : Gateway.State τ}
    (hturn : Turn (Env.exec gw) State.gateway begins t v v') :
    ∃ io, (Gateway.gateway gw).step v io.1 = some (io.2, v') ∧ Matches impl t io := by
  obtain ⟨hbegins, hpath⟩ := hturn
  obtain ⟨call, e, past, rest⟩ := t
  dsimp only at hcall htrace hdone hbegins hpath
  cases call with
  | onOpen ws =>
    obtain ⟨r, rfl⟩ := past_of_one gw json impl rfl (fun _ => rfl) htrace hdone
    obtain ⟨_, ⟨s, rfl, -, rfl⟩, rfl⟩ := hpath
    exact ⟨(.onOpen ws, .done), if_pos hbegins, .onOpen ws rfl⟩
  | onClose ws =>
    obtain ⟨r, rfl⟩ := past_of_one gw json impl rfl (fun _ => rfl) htrace hdone
    obtain ⟨_, ⟨s, rfl, -, rfl⟩, rfl⟩ := hpath
    obtain ⟨data, hopen⟩ := isOpen_iff.mp hbegins
    refine ⟨(.onClose ws, .done), ?_, .onClose ws rfl⟩
    simp only [Gateway.gateway, hopen, Env.exec, State.close, Gateway.uidOf_opened hopen]
  | onMessage ws opCode message =>
    obtain ⟨_, rfl⟩ := ((throwless_body gw json impl _ hcall).rest htrace).returned hdone
    have hreturns := (concludes_onMessage gw json impl ws opCode message).returns htrace
    rw [List.nil_append] at hreturns
    obtain ⟨coarse, hcarries, hcoarse, hone⟩ := hreturns
    obtain ⟨e', hanswering⟩ := exists_answering (τ := τ) gw e.memory hone
    have hown := performs_own gw ((within_onMessage gw json impl ws opCode message).traced htrace) hpath
    rw [hcarries.own] at hown
    obtain ⟨hrun, hevents⟩ := hcoarse.run_of_performs (performs_all gw hanswering hown)
    obtain ⟨data, hopen⟩ := isOpen_iff.mp hbegins
    refine ⟨(.onMessage ws opCode message e', .handled coarse), ?_,
      .onMessage ws opCode message e' coarse rfl hanswering.1 hcarries⟩
    simp only [Gateway.gateway, hopen, hrun, hevents]
  | post | rpc | pushMsg => exact absurd hcall Bool.false_ne_true

end Turns

theorem onLoop_of_ofSocket {call : Call τ} (h : call.ofSocket = true) : call.onLoop = true := by
  cases call with
  | onOpen | onMessage | onClose => rfl
  | post | rpc | pushMsg => exact absurd h Bool.false_ne_true

section Refinement
variable [DecidableEq τ] (gw : Gateway.Params) (json : Gateway.Nlohmann)
variable (impl : LogicServiceImpl)

theorem quiet_call {call : Call τ} {past : Events τ} {o : Op τ}
    (hasks : Asks gw impl call past o) (hcall : call.ofSocket = false) (e : Env) (s : State τ) :
    (e.exec gw o s).2.gateway = s.gateway := by
  cases call with
  | post =>
    cases o with
    | link => rfl
    | logic o => exact gateway_exec_logic gw e o s
    | _ => exact hasks.elim
  | rpc request =>
    cases o with
    | logic o => exact gateway_exec_logic gw e o s
    | _ => exact hasks.elim
  | pushMsg request =>
    cases hasks
    rfl
  | _ => exact absurd hcall.symm Bool.false_ne_true

abbrev TakesTurns (c : Running τ) : Prop :=
  Serial (Env.exec gw) State.gateway begins Call.ofSocket .start c

theorem takesTurns_start (w : World) : WellTraced (body gw json impl) (⟨.start w, []⟩ : Running τ) ∧
    TakesTurns gw (⟨.start w, []⟩ : Running τ) :=
  ⟨fun _ ht => absurd ht List.not_mem_nil, rfl, fun _ ht => absurd ht List.not_mem_nil⟩

theorem takesTurns_step {c c' : Running τ} {i : Input τ} {out : Output τ}
    (hc : WellTraced (body gw json impl) c ∧ TakesTurns gw c)
    (h : (system gw json impl).step c i = some (out, c')) :
    WellTraced (body gw json impl) c' ∧ TakesTurns gw c' := by
  obtain ⟨htraced, hturns⟩ := hc
  obtain ⟨hallowed, hstep⟩ := restrict_step h
  refine ⟨wellTraced_step htraced hstep, serial_step hturns ?_ ?_ hstep⟩
  · rintro call e rfl hcall
    obtain ⟨hidle, hbegins⟩ := hallowed (onLoop_of_ofSocket hcall)
    exact ⟨fun t ht hsocket => hidle t ht (onLoop_of_ofSocket hsocket), hbegins⟩
  · intro t ht hcall o next hrest
    have hasks : Asks gw impl t.call t.past o :=
      (disciplined_body json t.call).asks (hrest ▸ htraced t ht)
    exact quiet_call gw impl hasks hcall t.env c.shared

/-- Whenever the event loop is idle, the gateway is in a state that it reaches alone, by the
same opens, messages and closes in the same order. There the RPCs of a message have answers
that the handlers of the logic server gave, and everything else happens as it did here. -/
theorem gateway_refined (w : World) (is : List (Input τ)) :
    (system gw json impl).EveryState (fun _ c => LoopIdle c →
      ∃ h, (Gateway.gateway gw).Run h .start c.shared.gateway ∧
        List.Forall₂ (Matches impl) (turns Call.ofSocket c.threads) h) [] ⟨.start w, []⟩ is := by
  refine EveryState.mono ?_ (everyState_of_invariant
    (I := fun _ c => WellTraced (body gw json impl) c ∧ TakesTurns gw c)
    (fun _ _ _ _ _ => takesTurns_step gw json impl) (takesTurns_start gw json impl w))
  rintro _ c ⟨htraced, hturns⟩ hidle
  apply hturns.path.exchange
  intro t ht v v' hturn
  obtain ⟨hmem, hcall⟩ := List.mem_filter.mp ht
  exact step_of_turn gw json impl hcall (htraced t hmem) (hidle t hmem (onLoop_of_ofSocket hcall)) hturn

end Refinement
end LetsChat.EndToEnd
