import LetsChat.EndToEnd.Users

/-! Registrations and logins over any interleaving: what a client was told about a user stays
true, and the token that a login by HTTP gives out is what a login frame needs. -/

namespace LetsChat.EndToEnd
open Lib Prog Machine PooledDbClient

variable {τ : Type}

def RegisteredBy (r : RegisterReq) (uid : Int) (past : List (Event LetsChat.Op.Ret)) : Prop :=
  ∃ site, ∃ res : PGresult,
    ⟨.pqExec site (.insertUser r.nickname r.password r.email), res⟩ ∈ past ∧
      res.status = .PGRES_TUPLES_OK ∧ stoll (res.getvalue 0 0) = some uid

def FoundBy (r : HttpLoginReq) (uid : Int) (past : List (Event LetsChat.Op.Ret)) : Prop :=
  ∃ site, ∃ res : PGresult, ⟨.pqExec site (.selectUserByEmail r.email), res⟩ ∈ past ∧
    res.status = .PGRES_TUPLES_OK ∧ res.ntuples ≠ 0 ∧ res.getvalue 0 2 = r.password ∧
      stoll (res.getvalue 0 0) = some uid

theorem concludes_registerUser (r : RegisterReq) :
    (LogicServiceImpl.registerUser r).Concludes
      (fun past res => res.err_code = 0 → RegisteredBy r res.uid past) [] := by
  have hcreate : (createUser r.nickname r.password r.email).Concludes
      (fun past uid => 0 < uid → RegisteredBy r uid past) [] := by
    intro g
    cases g with
    | false => exact fun hpos => absurd hpos (by decide)
    | true =>
      intro res
      refine concludes_ite.mpr ⟨fun _ hpos => absurd hpos (by decide), fun hstatus => ?_⟩
      cases hread : stoll (PGresult.getvalue res 0 0) with
      | none => trivial
      | some uid =>
        exact fun _ => ⟨_, res, List.mem_append_right _ (List.mem_singleton.mpr rfl),
          not_not.mp hstatus, hread⟩
  refine concludes_bind (hcreate.mono fun past uid hnew => ?_)
  exact concludes_ite.mpr ⟨fun hpos _ => hnew hpos, fun _ hok => absurd hok Int.one_ne_zero⟩

theorem concludes_httpLogin (r : HttpLoginReq) :
    (LogicServiceImpl.httpLogin r).Concludes
      (fun past res => res.err_code = 0 → FoundBy r res.uid past ∧ res.token = r.password) [] := by
  have hcheck : (checkUserByEmail r.email r.password {}).Concludes
      (fun past res => res.1 = true → FoundBy r res.2.uid past ∧ res.2.token = r.password) [] := by
    intro g
    cases g with
    | false => exact fun hfound => by cases hfound
    | true =>
      intro res
      refine concludes_ite.mpr ⟨fun _ hfound => (by cases hfound), fun hrows => ?_⟩
      refine concludes_ite.mpr ⟨fun _ hfound => (by cases hfound), fun hpass => ?_⟩
      obtain ⟨hstatus, hne⟩ := not_or.mp hrows
      cases hread : stoll (PGresult.getvalue res 0 0) with
      | none => trivial
      | some uid =>
        exact fun _ => ⟨⟨_, res, List.mem_append_right _ (List.mem_singleton.mpr rfl),
          not_not.mp hstatus, hne, not_not.mp hpass, hread⟩, not_not.mp hpass⟩
  refine concludes_bind (hcheck.mono ?_)
  rintro past ⟨found, reply⟩ hfound
  refine concludes_ite.mpr ⟨fun htrue => ?_, fun _ hok => absurd hok Int.one_ne_zero⟩
  obtain ⟨hby, htoken⟩ := hfound htrue
  refine concludes_bind (Concludes.mono (fun past _ hby _ => ⟨hby, htoken⟩) ?_)
  refine concludes_of_stable (S := FoundBy r reply.uid) ?_ hby _
  rintro past ev ⟨site, res, hmem, hres⟩
  exact ⟨site, res, List.mem_append_left _ hmem, hres⟩

inductive Registers (json : Gateway.Nlohmann) : Call τ → Answer → RegisterReq → Int → Prop
  | post {buffer : Bytes} {resp_json : Gateway.Json} {r : RegisterReq} {uid : Int} :
    (json.parse buffer).bind Gateway.registerReq = some r →
    resp_json.index "code".toList = some (.number 200) →
    resp_json.index "uid".toList = some (.number uid) →
    Registers json (.post .register buffer) (.http resp_json) r uid
  | rpc {r : RegisterReq} {res : RegisterRes} : res.err_code = 0 →
    Registers json (.rpc (.registerUser r)) (.reply (.registerUser res)) r res.uid

inductive LogsIn (json : Gateway.Nlohmann) : Call τ → Answer → HttpLoginReq → Int → Text → Prop
  | post {buffer : Bytes} {resp_json : Gateway.Json} {r : HttpLoginReq} {uid : Int}
    {token : Text} :
    (json.parse buffer).bind Gateway.httpLoginReq = some r →
    resp_json.index "code".toList = some (.number 200) →
    (resp_json.index "userInfo".toList).bind (·.index "id".toList) = some (.number uid) →
    resp_json.index "token".toList = some (.string token) →
    LogsIn json (.post .login buffer) (.http resp_json) r uid token
  | rpc {r : HttpLoginReq} {res : HttpLoginRes} : res.err_code = 0 →
    LogsIn json (.rpc (.httpLogin r)) (.reply (.httpLogin res)) r res.uid res.token

section Replies
variable (gw : Gateway.Params) (json : Gateway.Nlohmann) (impl : LogicServiceImpl)

theorem concludes_posted {β : Type} {Q : List (Event LetsChat.Op.Ret) → β → Prop}
    {p : Prog LetsChat.Op.Ret β} (hp : p.Concludes Q []) (answer : Option β → Gateway.Json) :
    (Answer.http <$> answer <$> (remote p : Prog (Op.Ret (τ := τ)) (Option β))).Concludes
      (fun fine a => ∃ res, a = .http (answer res) ∧
        ∀ b, res = some b → ∃ inner, inner <:+ logicEvents fine ∧ Q inner b) [] :=
  concludes_map (concludes_map ((concludes_remote hp []).mono fun _ res h => ⟨res, rfl, h⟩))

theorem answerRegister_ok {res : Option RegisterRes}
    (hcode : (Gateway.answerRegister res).index "code".toList = some (.number 200)) :
    ∃ rpc_res, res = some rpc_res ∧ rpc_res.err_code = 0 ∧
      Gateway.answerRegister res = Gateway.registered rpc_res.uid := by
  cases res with
  | none => cases hcode
  | some rpc_res =>
    by_cases hok : rpc_res.err_code = 0
    · exact ⟨rpc_res, rfl, hok, if_pos hok⟩
    · have hanswer : Gateway.answerRegister (some rpc_res) = Gateway.refused rpc_res.err_msg :=
        if_neg hok
      rw [hanswer] at hcode
      cases hcode

theorem answerLogin_ok {email : Text} {res : Option HttpLoginRes}
    (hcode : (Gateway.answerLogin email res).index "code".toList = some (.number 200)) :
    ∃ rpc_res, res = some rpc_res ∧ rpc_res.err_code = 0 ∧
      Gateway.answerLogin email res = Gateway.loggedIn email rpc_res := by
  cases res with
  | none => cases hcode
  | some rpc_res =>
    by_cases hok : rpc_res.err_code = 0
    · exact ⟨rpc_res, rfl, hok, if_pos hok⟩
    · have hanswer : Gateway.answerLogin email (some rpc_res) = Gateway.refused rpc_res.err_msg :=
        if_neg hok
      rw [hanswer] at hcode
      cases hcode

theorem concludes_registers (call : Call τ) :
    (body gw json impl call).Concludes (fun fine a => ∀ r uid, Registers json call a r uid →
      RegisteredBy r uid (logicEvents fine)) [] := by
  have hmono : ∀ {r : RegisterReq} {uid : Int} {inner : List (Event LetsChat.Op.Ret)} {fine : Events τ},
      inner <:+ logicEvents fine → RegisteredBy r uid inner → RegisteredBy r uid (logicEvents fine) := by
    rintro r uid inner fine hsuffix ⟨site, res, hmem, hres⟩
    exact ⟨site, res, hsuffix.subset hmem, hres⟩
  cases call with
  | post api buffer =>
    cases api with
    | register =>
      simp only [body, Gateway.onBody]
      cases hreq : (json.parse buffer).bind Gateway.registerReq with
      | none =>
        rintro r uid ⟨-, hcode, -⟩
        cases hcode
      | some rpc_req =>
        apply (concludes_posted (concludes_registerUser rpc_req) Gateway.answerRegister).mono
        rintro fine _ ⟨res, rfl, hres⟩ r uid hregisters
        cases hregisters with
        | post hparsed hcode huid =>
          obtain rfl := Option.some.inj (hreq.symm.trans hparsed)
          obtain ⟨rpc_res, rfl, hok, hanswer⟩ := answerRegister_ok hcode
          obtain ⟨inner, hsuffix, hby⟩ := hres rpc_res rfl
          rw [hanswer] at huid
          cases huid
          exact hmono hsuffix (hby hok)
    | login => exact concludes_of_forall (fun _ _ _ _ h => by cases h) _
  | rpc request =>
    cases request with
    | registerUser r =>
      have hreply : (handle impl (.registerUser r)).Concludes (fun past reply => ∀ res,
          reply = .registerUser res → res.err_code = 0 → RegisteredBy r res.uid past) [] := by
        refine concludes_map ((concludes_registerUser r).mono ?_)
        rintro past res hby _ ⟨⟩
        exact hby
      refine concludes_map ((concludes_served hreply []).mono ?_)
      rintro fine reply ⟨inner, hsuffix, hby⟩ r' uid hregisters
      cases hregisters with
      | rpc hok => exact hmono hsuffix (hby _ rfl hok)
    | _ => exact concludes_of_forall (fun _ _ _ _ h => by cases h) _
  | _ => exact concludes_of_forall (fun _ _ _ _ h => by cases h) _

theorem concludes_logsIn (call : Call τ) :
    (body gw json impl call).Concludes (fun fine a => ∀ r uid token,
      LogsIn json call a r uid token →
        FoundBy r uid (logicEvents fine) ∧ token = r.password) [] := by
  have hmono : ∀ {r : HttpLoginReq} {uid : Int} {inner : List (Event LetsChat.Op.Ret)} {fine : Events τ},
      inner <:+ logicEvents fine → FoundBy r uid inner → FoundBy r uid (logicEvents fine) := by
    rintro r uid inner fine hsuffix ⟨site, res, hmem, hres⟩
    exact ⟨site, res, hsuffix.subset hmem, hres⟩
  cases call with
  | post api buffer =>
    cases api with
    | register => exact concludes_of_forall (fun _ _ _ _ _ h => by cases h) _
    | login =>
      simp only [body, Gateway.onBody]
      cases hreq : (json.parse buffer).bind Gateway.httpLoginReq with
      | none =>
        rintro r uid token ⟨-, hcode, -, -⟩
        cases hcode
      | some rpc_req =>
        refine (concludes_posted (concludes_httpLogin rpc_req)
          (Gateway.answerLogin rpc_req.email)).mono ?_
        rintro fine _ ⟨res, rfl, hres⟩ r uid token hlogsIn
        cases hlogsIn with
        | post hparsed hcode huid htoken =>
          obtain rfl := Option.some.inj (hreq.symm.trans hparsed)
          obtain ⟨rpc_res, rfl, hok, hanswer⟩ := answerLogin_ok hcode
          obtain ⟨inner, hsuffix, hby⟩ := hres rpc_res rfl
          rw [hanswer] at huid htoken
          cases huid
          cases htoken
          exact ⟨hmono hsuffix (hby hok).1, (hby hok).2⟩
  | rpc request =>
    cases request with
    | httpLogin r =>
      have hreply : (handle impl (.httpLogin r)).Concludes (fun past reply => ∀ res,
          reply = .httpLogin res → res.err_code = 0 →
            FoundBy r res.uid past ∧ res.token = r.password) [] := by
        refine concludes_map ((concludes_httpLogin r).mono ?_)
        rintro past res hby _ ⟨⟩
        exact hby
      refine concludes_map ((concludes_served hreply []).mono ?_)
      rintro fine reply ⟨inner, hsuffix, hby⟩ r' uid token hlogsIn
      cases hlogsIn with
      | rpc hok => exact ⟨hmono hsuffix (hby _ rfl hok).1, (hby _ rfl hok).2⟩
    | _ => exact concludes_of_forall (fun _ _ _ _ _ h => by cases h) _
  | _ => exact concludes_of_forall (fun _ _ _ _ _ h => by cases h) _

section Runs
variable (w : World)

structure RegistrationsHold (c : Running τ) : Prop where
  kept : w.tables.t_user.rows <+: (userTable c.shared).rows
  user : ∀ t ∈ c.threads, ∀ a r uid, t.rest = ret a → Registers json t.call a r uid →
    IsUser (userTable c.shared).rows r uid ∧ ∀ row ∈ w.tables.t_user.rows, row.id ≠ uid
  apart : ∀ (i j : Nat) t t' a a' r r' uid uid', c.threads[i]? = some t → c.threads[j]? = some t' →
    i ≠ j → t.rest = ret a → t'.rest = ret a' → Registers json t.call a r uid →
    Registers json t'.call a' r' uid' → uid ≠ uid'

def Succeeds (e : LetsChat.Env) (w : World) (req : LoginReq) : Prop :=
  ∃ res w', (LogicServiceImpl.login req).run e.exec w = (some res, w') ∧ res.err_code = .ERR_SUCCESS

def LoginsHold (c : Running τ) : Prop :=
  ∀ t ∈ c.threads, ∀ a r uid token, t.rest = ret a → LogsIn json t.call a r uid token →
    (∃ row ∈ (userTable c.shared).rows, row.id = uid ∧ row.email = r.email ∧
      row.password = r.password) ∧
    ∀ e : LetsChat.Env, e.Returns .getUserPassword → ∀ device_id last_msg_id,
      Succeeds e c.shared.world { uid, token, device_id, last_msg_id } ↔ r.password ≠ []

variable {json impl w} {gw}

theorem registered_drawn {c : Running τ} (htraced : WellTraced (body gw json impl) c)
    {t : Thread (Op.Ret (τ := τ)) (Call τ) Env Answer} (ht : t ∈ c.threads) {a : Answer}
    {r : RegisterReq} {uid : Int} (hdone : t.rest = ret a) (h : Registers json t.call a r uid) :
    ∃ ev ∈ t.past, drawnId ev = some uid ∧
      ∀ rows, Attests rows ev → IsUser rows r uid := by
  have htrace := htraced t ht
  rw [hdone] at htrace
  obtain ⟨site, res, hmem, hstatus, hread⟩ :=
    (concludes_registers gw json impl t.call).returns htrace r uid h
  refine ⟨_, mem_logicEvents.mp hmem, ?_, fun rows hattests => hattests hstatus uid hread⟩
  exact (if_pos hstatus).trans hread

theorem registrationsHold {c : Running τ} (htraced : WellTraced (body gw json impl) c)
    (hc : UsersKept w c) : RegistrationsHold json w c where
  kept := hc.kept
  user := by
    intro t ht a r uid hdone h
    obtain ⟨ev, hev, hdrawn, hattests⟩ := registered_drawn htraced ht hdone h
    refine ⟨hattests _ (hc.attests t ht ev hev), fun row hrow heq => ?_⟩
    have huid : uid ∈ drawn c :=
      List.mem_flatMap.mpr ⟨t, ht, List.mem_filterMap.mpr ⟨ev, hev, hdrawn⟩⟩
    have hold := w.tables.t_user.below row hrow
    exact absurd (hc.below uid huid).1 (Int.not_le.mpr (heq ▸ hold))
  apart := by
    rintro i j t t' a a' r r' uid _ hi hj hne hdone hdone' h h' rfl
    obtain ⟨ev, hev, hdrawn, -⟩ := registered_drawn htraced (List.mem_of_getElem? hi) hdone h
    obtain ⟨ev', hev', hdrawn', -⟩ := registered_drawn htraced (List.mem_of_getElem? hj) hdone' h'
    exact flatMap_apart hc.nodup hi hj hne (List.mem_filterMap.mpr ⟨ev, hev, hdrawn⟩)
      (List.mem_filterMap.mpr ⟨ev', hev', hdrawn'⟩)

theorem succeeds_iff {w : World} {row : UserRow} (hrow : row ∈ w.tables.t_user.rows)
    {e : LetsChat.Env} (hreturns : e.Returns .getUserPassword) (device_id : Text)
    (last_msg_id : Int) :
    Succeeds e w { uid := row.id, token := row.password, device_id, last_msg_id } ↔
      row.password ≠ [] := by
  have hfind : w.tables.t_user.find row.id = some row :=
    (SerialTable.find_eq_some_iff _).mpr ⟨hrow, rfl⟩
  have haccept : LogicServiceImpl.TokenAccepted e w.tables
      { uid := row.id, token := row.password, device_id, last_msg_id } ↔ row.password ≠ [] := by
    unfold LogicServiceImpl.TokenAccepted passwordOf
    rw [if_pos hreturns, hfind]
    exact and_iff_left rfl
  rw [← haccept, Succeeds, LogicServiceImpl.run_login]
  split
  · next h => exact iff_of_true ⟨_, _, rfl, rfl⟩ h
  · next h =>
    refine iff_of_false ?_ h
    rintro ⟨res, w', hrun, hok⟩
    cases hrun
    cases hok

theorem loginsHold {c : Running τ} (htraced : WellTraced (body gw json impl) c)
    (hc : UsersKept w c) : LoginsHold json c := by
  intro t ht a r uid token hdone h
  have htrace := htraced t ht
  rw [hdone] at htrace
  obtain ⟨⟨site, res, hmem, hstatus, hne, hpass, hread⟩, rfl⟩ :=
    (concludes_logsIn gw json impl t.call).returns htrace r uid token h
  rw [List.nil_append] at hmem
  have hattests := hc.attests t ht _ (mem_logicEvents.mp hmem)
  obtain ⟨row, hrow, hemail, hid, -, hpassword⟩ := hattests hstatus hne
  have hpass : row.password = r.password := hpassword.symm.trans hpass
  obtain rfl : row.id = uid := by
    rw [hid, stoll_to_string] at hread
    exact Option.some.inj hread
  refine ⟨⟨row, hrow, rfl, hemail, hpass⟩, fun e hreturns device_id last_msg_id => ?_⟩
  rw [← hpass]
  exact succeeds_iff hrow hreturns device_id last_msg_id

variable (gw json impl w) [DecidableEq τ] (is : List (Input τ))

/-- Over any interleaving in which the statements have their intended effect, what registrations
were told stays true: their users are new, keep what they were registered with, and no two
registrations share one. -/
theorem registrations_hold :
    (system gw json impl).EveryState (fun _ c => Intended c → RegistrationsHold json w c) []
      ⟨.start w, []⟩ is :=
  (everyState_usersKept gw json impl w is).mono fun _ _ hc hintended =>
    registrationsHold hc.1 (hc.2 hintended)

/-- Where the statements have their intended effect, the token that a login by HTTP gives out is
the key to the socket: login succeeds with it at any later time, exactly when the password is
not empty. -/
theorem logins_hold :
    (system gw json impl).EveryState (fun _ c => Intended c → LoginsHold json c) []
      ⟨.start w, []⟩ is :=
  (everyState_usersKept gw json impl w is).mono fun _ _ hc hintended =>
    loginsHold hc.1 (hc.2 hintended)

end Runs
end Replies
end LetsChat.EndToEnd
