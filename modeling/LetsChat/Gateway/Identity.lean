import LetsChat.Gateway.Exchange
import LetsChat.Gateway.SessionOwner
import LetsChat.LogicService

/-! Under which identity the gateway speaks to the logic server for a socket. -/

namespace LetsChat.Gateway
open Lib Prog Machine

def clientUid : Op → Option Int
  | .sendMsg req => some req.msg.from_uid
  | .syncMsg req => some req.uid
  | .getUploadUrl req => some req.uid
  | _ => none

section Requests
variable (gw : Params) (e : Env)

/-- A frame of one of the two branches that do not ask whether the socket has logged in, with
a length and a body that its branch accepts. -/
def Unguarded (message : Bytes) : Prop :=
  let header := decodeHeader gw.host message
  HEADER_LEN ≤ message.length ∧ lengthOk header message = true ∧
    (header.cmd_id = 0x1006 ∧ (gw.protobuf.parseSyncMsgReq (restBody e message)).isSome ∨
      header.cmd_id = 0x1008 ∧ (gw.protobuf.parseGetUploadUrlReq (restBody e message)).isSome)

variable {gw e} {uid u : Int} {message : Bytes} {o : Op}

theorem isRpc_of_clientUid (h : clientUid o = some u) : isRpc o = true := by
  cases o <;> first | rfl | cases h

theorem clientUid_request (hheader : HEADER_LEN ≤ message.length)
    (hreq : request gw e uid (decodeHeader gw.host message) message = some o)
    (hclient : clientUid o = some u) : u = uid ∧ (uid ≠ 0 ∨ Unguarded gw e message) := by
  unfold request at hreq
  split at hreq
  · obtain ⟨req, -, rfl⟩ := Option.map_eq_some_iff.mp hreq
    cases hclient
  split at hreq
  · unfold sendRequest at hreq
    split at hreq
    · next hguard =>
      obtain ⟨req, -, rfl⟩ := Option.map_eq_some_iff.mp hreq
      exact ⟨(Option.some.inj hclient).symm, .inl hguard.2⟩
    · cases hreq
  split at hreq
  · next hcmd =>
    unfold syncRequest at hreq
    split at hreq
    · next hlength =>
      obtain ⟨req, hparsed, rfl⟩ := Option.map_eq_some_iff.mp hreq
      have hsome : (gw.protobuf.parseSyncMsgReq (restBody e message)).isSome := by rw [hparsed]; rfl
      exact ⟨(Option.some.inj hclient).symm, .inr ⟨hheader, hlength, .inl ⟨hcmd, hsome⟩⟩⟩
    · cases hreq
  split at hreq
  · next hcmd =>
    unfold uploadRequest at hreq
    split at hreq
    · next hlength =>
      obtain ⟨req, hparsed, rfl⟩ := Option.map_eq_some_iff.mp hreq
      have hsome : (gw.protobuf.parseGetUploadUrlReq (restBody e message)).isSome := by
        rw [hparsed]
        rfl
      exact ⟨(Option.some.inj hclient).symm, .inr ⟨hheader, hlength, .inr ⟨hcmd, hsome⟩⟩⟩
    · cases hreq
  · cases hreq

theorem request_of_unguarded (h : Unguarded gw e message) (uid : Int) :
    ∃ o, request gw e uid (decodeHeader gw.host message) message = some o ∧
      clientUid o = some uid := by
  obtain ⟨-, hlength, ⟨hcmd, hsome⟩ | ⟨hcmd, hsome⟩⟩ := h
  · obtain ⟨req, hparsed⟩ := Option.isSome_iff_exists.mp hsome
    refine ⟨.syncMsg { req with uid }, ?_, rfl⟩
    simp [request, hcmd, syncRequest, hlength, hparsed]
  · obtain ⟨req, hparsed⟩ := Option.isSome_iff_exists.mp hsome
    refine ⟨.getUploadUrl { req with uid }, ?_, rfl⟩
    simp [request, hcmd, uploadRequest, hlength, hparsed]

end Requests

section Uids
variable {τ : Type} [DecidableEq τ] (gw : Params)

def lastUid (h : History (Input τ) (Output τ)) (ws : τ) : Int :=
  (((logins gw h).filter fun p => p.1 = ws).getLast?.map (·.2)).getD 0

def UidsKnown (h : History (Input τ) (Output τ)) (s : State τ) : Prop :=
  ∀ ws data, s.sockets ws = .opened data → data.uid = lastUid gw h ws

structure Recognised (h : History (Input τ) (Output τ)) (s : State τ) : Prop where
  sessions : SessionInv (logins gw h) s
  uids : UidsKnown gw h s

theorem lastUid_snoc_none {i : Input τ} (hlogin : loginOf gw i = none)
    (h : History (Input τ) (Output τ)) (o : Output τ) (ws : τ) :
    lastUid gw (h ++ [(i, o)]) ws = lastUid gw h ws := by
  rw [lastUid, lastUid, logins_snoc, hlogin, Option.toList_none, List.append_nil]

theorem lastUid_snoc_some {i : Input τ} {w : τ} {uid : Int} (hlogin : loginOf gw i = some (w, uid))
    (h : History (Input τ) (Output τ)) (o : Output τ) (ws : τ) :
    lastUid gw (h ++ [(i, o)]) ws = if ws = w then uid else lastUid gw h ws := by
  rw [lastUid, lastUid, logins_snoc, hlogin, Option.toList_some, List.filter_append]
  by_cases hw : ws = w
  · subst hw
    simp
  · have hne : ¬w = ws := fun heq => hw heq.symm
    simp [hw, hne]

theorem lastUid_of_none {h : History (Input τ) (Output τ)} {ws : τ}
    (hnone : ∀ u, (ws, u) ∉ logins gw h) : lastUid gw h ws = 0 := by
  have hfilter : (logins gw h).filter (fun p => p.1 = ws) = [] := by
    apply List.filter_eq_nil_iff.mpr
    intro p hp heq
    obtain rfl : p.1 = ws := of_decide_eq_true heq
    exact hnone p.2 hp
  rw [lastUid, hfilter]
  rfl

variable {gw}

theorem uidsKnown_step {h : History (Input τ) (Output τ)} {s s' : State τ} {i : Input τ}
    {o : Output τ} (hinv : SessionInv (logins gw h) s) (hknown : UidsKnown gw h s)
    (hstep : (gateway gw).step s i = some (o, s')) : UidsKnown gw (h ++ [(i, o)]) s' := by
  intro w data hsocket
  rcases gateway_step hstep with ⟨ws, rfl, hunopened, rfl⟩ | ⟨ws, uid, old, hlogin, -, hopen, rfl⟩ |
    ⟨ws, old, rfl, hopen, rfl⟩ | ⟨hlogin, -, rfl⟩
  · rw [lastUid_snoc_none gw (loginOf_onOpen gw ws)]
    rw [sockets_setSocket] at hsocket
    split at hsocket
    · next hw =>
      -- a socket that has just opened has had no login
      cases hsocket
      rw [lastUid_of_none gw (hinv.fresh w (hw ▸ hunopened))]
    · exact hknown w data hsocket
  · rw [lastUid_snoc_some gw hlogin]
    rw [sockets_entered] at hsocket
    split at hsocket
    · next hw =>
      cases hsocket
      rw [if_pos hw]
    · next hw =>
      rw [if_neg hw]
      exact hknown w data hsocket
  · rw [lastUid_snoc_none gw (loginOf_onClose gw ws)]
    rw [sockets_setSocket, sockets_removeSession] at hsocket
    split at hsocket
    · cases hsocket
    · exact hknown w data hsocket
  · rw [lastUid_snoc_none gw hlogin]
    exact hknown w data hsocket

theorem gateway_handled {s s' : State τ} {ws : τ} {opCode : OpCode} {message : Bytes} {e : Env}
    {o : Output τ} (hstep : (gateway gw).step s (.onMessage ws opCode message e) = some (o, s')) :
    (∃ data, s.sockets ws = .opened data) ∧
      o = .handled ((onMessage gw opCode message).events (exec gw e ws) s) ∧
      s' = (logsIn gw opCode message e).elim s (s.entered ws) := by
  cases hopen : s.sockets ws with
  | opened data =>
    rw [gateway_message data hopen, Option.some.injEq, Prod.mk.injEq] at hstep
    exact ⟨⟨data, rfl⟩, hstep.1.symm, hstep.2.symm⟩
  | unopened => simp [gateway, hopen] at hstep
  | closed => simp [gateway, hopen] at hstep

theorem recognised_step {h : History (Input τ) (Output τ)} {s s' : State τ} {i : Input τ}
    {o : Output τ} (hinv : Recognised gw h s) (hstep : (gateway gw).step s i = some (o, s')) :
    Recognised gw (h ++ [(i, o)]) s' :=
  ⟨sessionInv_step gw hinv.sessions hstep, uidsKnown_step hinv.sessions hinv.uids hstep⟩

theorem recognised_start : Recognised gw [] (State.start : State τ) where
  sessions := sessionInv_start
  uids ws data hsocket := by cases hsocket

theorem Recognised.uidOf {h : History (Input τ) (Output τ)} {s : State τ} (hinv : Recognised gw h s)
    {ws : τ} {data : PerSocketData} (hopen : s.sockets ws = .opened data) :
    s.uidOf ws = lastUid gw h ws := by
  rw [uidOf_opened hopen]
  exact hinv.uids ws data hopen

end Uids

section Runs
variable {τ : Type} [DecidableEq τ] (gw : Params)

def Identified : History (Input τ) (Output τ) → State τ → Input τ → Output τ → State τ → Prop :=
  fun h _ i o _ => ∀ ws opCode message e events, i = .onMessage ws opCode message e →
    o = .handled events → ∀ ev ∈ events, ∀ u, clientUid ev.1 = some u → u = lastUid gw h ws

def KeepsIdentity : History (Input τ) (Output τ) → State τ → Input τ → Output τ → State τ → Prop :=
  fun _ s i _ s' => ∀ ws opCode message e, i = .onMessage ws opCode message e →
    logsIn gw opCode message e = none → s'.sockets = s.sockets ∧ s'.sessions_ = s.sessions_

def LoginChecked (e : LetsChat.Env) (w : World) (r : LoginReq) : Prop :=
  ∀ res w', (LogicServiceImpl.login r).run e.exec w = (some res, w') →
    res.err_code = .ERR_SUCCESS →
      ∃ row ∈ w.tables.t_user.rows, row.id = r.uid ∧ row.password ≠ [] ∧ row.password = r.token

theorem loginChecked (e : LetsChat.Env) (w : World) (r : LoginReq) : LoginChecked e w r := by
  intro res w' hrun hok
  rw [LogicServiceImpl.run_login] at hrun
  by_cases haccept : LogicServiceImpl.TokenAccepted e w.tables r
  · obtain ⟨hne, htoken⟩ := haccept
    unfold PooledDbClient.passwordOf at hne htoken
    -- a password that is not empty was read from a row
    by_cases hret : e.Returns .getUserPassword
    · rw [if_pos hret] at hne htoken
      cases hfind : w.tables.t_user.find r.uid with
      | none =>
        rw [hfind] at hne
        exact absurd rfl hne
      | some row =>
        rw [hfind] at hne htoken
        obtain ⟨hrow, hid⟩ := (SerialTable.find_eq_some_iff _).mp hfind
        exact ⟨row, hrow, hid, hne, htoken⟩
    · rw [if_neg hret] at hne
      exact absurd rfl hne
  · rw [if_neg haccept, Prod.mk.injEq, Option.some.injEq] at hrun
    obtain ⟨rfl, -⟩ := hrun
    cases hok

/-- No client speaks under an identity other than that of its last login, and no login
succeeds without the password. -/
theorem identity_not_forged (is : List (Input τ)) :
    (gateway gw).EveryStep (fun h s i o s' => Identified gw h s i o s' ∧ KeepsIdentity gw h s i o s')
      [] State.start is ∧ ∀ e w r, LoginChecked e w r := by
  refine ⟨everyStep_of_invariant (I := Recognised gw) ?_ ?_ recognised_start, loginChecked⟩
  · exact fun _ _ _ _ _ => recognised_step
  intro h s i o s' hinv hstep
  constructor
  · rintro ws opCode message e events rfl rfl ev hev u hclient
    obtain ⟨⟨data, hopen⟩, hevents, -⟩ := gateway_handled hstep
    cases hevents
    obtain ⟨-, hheader, hreq⟩ := rpc_onMessage gw e ws s message hev (isRpc_of_clientUid hclient)
    have hu := (clientUid_request hheader hreq hclient).1
    rw [hu, hinv.uidOf hopen]
  · rintro ws opCode message e rfl hnone
    obtain ⟨-, -, hs'⟩ := gateway_handled hstep
    rw [hnone] at hs'
    subst hs'
    exact ⟨rfl, rfl⟩

def ServedAfterLogin : History (Input τ) (Output τ) → State τ → Input τ → Output τ → State τ → Prop :=
  fun h _ i o _ => ∀ ws opCode message e events, i = .onMessage ws opCode message e →
    o = .handled events → ∀ ev ∈ events, (clientUid ev.1).isSome → ∃ u, (ws, u) ∈ logins gw h

def UnguardedAfterLogin :
    History (Input τ) (Output τ) → State τ → Input τ → Output τ → State τ → Prop :=
  fun h _ i _ _ => ∀ ws message e, i = .onMessage ws .BINARY message e → Unguarded gw e message →
    ∃ u, (ws, u) ∈ logins gw h

theorem exists_login_of_lastUid {h : History (Input τ) (Output τ)} {ws : τ}
    (hne : lastUid gw h ws ≠ 0) : ∃ u, (ws, u) ∈ logins gw h := by
  by_contra hnot
  exact hne (lastUid_of_none gw fun u hmem => hnot ⟨u, hmem⟩)

theorem served_after_login_iff (is : List (Input τ)) :
    (gateway gw).EveryStep (ServedAfterLogin gw) [] State.start is ↔
      (gateway gw).EveryStep (UnguardedAfterLogin gw) [] State.start is := by
  refine everyStep_congr (I := Recognised gw) ?_ ?_ recognised_start
  · exact fun _ _ _ _ _ => recognised_step
  intro h s i o s' hinv hstep
  constructor
  · rintro hserved ws message e rfl hunguarded
    obtain ⟨-, hevents, -⟩ := gateway_handled hstep
    obtain ⟨o, hreq, hclient⟩ := request_of_unguarded hunguarded (s.uidOf ws)
    obtain ⟨ev, hev, rfl, -⟩ := request_performed gw e ws s message hunguarded.1 hreq
    have hsome : (clientUid ev.1).isSome := by rw [hclient]; rfl
    exact hserved ws .BINARY message e _ rfl hevents ev hev hsome
  · rintro hguarded ws opCode message e events rfl rfl ev hev hsome
    obtain ⟨⟨data, hopen⟩, hevents, -⟩ := gateway_handled hstep
    cases hevents
    obtain ⟨u, hclient⟩ := Option.isSome_iff_exists.mp hsome
    obtain ⟨rfl, hheader, hreq⟩ := rpc_onMessage gw e ws s message hev (isRpc_of_clientUid hclient)
    rcases (clientUid_request hheader hreq hclient).2 with hne | hunguarded
    · -- the branch for messages has looked at the uid
      rw [hinv.uidOf hopen] at hne
      exact exists_login_of_lastUid gw hne
    · exact hguarded ws message e rfl hunguarded

end Runs

def syncing : Params :=
  { refusing with
    protobuf := { refusing.protobuf with parseSyncMsgReq := fun body => if body = [] then some {} else none } }

def syncFrame : Bytes := encodeHeader .little ⟨12, 1, 0x1006, 0⟩

theorem unguarded_syncFrame : Unguarded syncing welcoming syncFrame := by
  refine ⟨by decide, (lengthOk_iff _ _).mpr (by decide), .inl ⟨by decide, by decide⟩⟩

theorem synced_before_login :
    ¬(gateway syncing).EveryStep (ServedAfterLogin syncing) [] (State.start : State Nat)
      [.onOpen 0, .onMessage 0 .BINARY syncFrame welcoming] := by
  intro h
  have hopened := (h _ _ rfl).2
  have hserved := (hopened _ _ (gateway_message {} rfl .BINARY syncFrame welcoming)).1
  obtain ⟨o, hreq, hclient⟩ := request_of_unguarded unguarded_syncFrame 0
  obtain ⟨ev, hev, rfl, -⟩ := request_performed syncing welcoming (0 : Nat)
    (State.start.setSocket 0 (.opened {})) syncFrame unguarded_syncFrame.1 hreq
  have hsome : (clientUid ev.1).isSome := by rw [hclient]; rfl
  obtain ⟨u, hmem⟩ := hserved 0 .BINARY syncFrame welcoming _ rfl rfl ev hev hsome
  exact absurd hmem List.not_mem_nil

end LetsChat.Gateway
