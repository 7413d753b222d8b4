import LetsChat.Gateway.FrameBounds
import LetsChat.Gateway.Sessions

/-! What the session map says about the sockets, over any order of opens, messages,
closes and pushes. -/

namespace LetsChat.Gateway
open Lib Machine

variable {τ : Type}

@[simp] theorem sockets_removeSession (s : State τ) (uid : Int) :
    (s.removeSession uid).sockets = s.sockets := rfl

@[simp] theorem sessions_removeSession (s : State τ) (uid u : Int) :
    (s.removeSession uid).sessions_ u = if u = uid then none else s.sessions_ u :=
  Function.update_apply _ _ _ _

theorem pushToUser_eq (s : State τ) (uid : Int) (data : Bytes) :
    s.pushToUser uid data =
      ((s.sessions_ uid).isSome, (s.sessions_ uid).map fun ws => (ws, data)) := by
  unfold State.pushToUser
  split
  · next ws hentry => rw [hentry, Option.isSome_some, Option.map_some]
  · next hentry => rw [hentry, Option.isSome_none, Option.map_none]

theorem pushMsg_sent (s : State τ) (request : PushMsgReq) :
    (s.pushMsg request).2 = (s.sessions_ request.to_uid).map fun ws => (ws, request.content) := by
  unfold State.pushMsg
  rw [pushToUser_eq]
  dsimp only
  split <;> rfl

theorem uidOf_opened {s : State τ} {ws : τ} {data : PerSocketData}
    (h : s.sockets ws = .opened data) : s.uidOf ws = data.uid := by
  rw [State.uidOf, h]

def Sound (s : State τ) : Prop :=
  ∀ u ws, s.sessions_ u = some ws → s.sockets ws = .opened { uid := u }

def PushesToUser (s : State τ) : Prop :=
  ∀ request ws data, (s.pushMsg request).2 = some (ws, data) →
    s.sockets ws = .opened { uid := request.to_uid }

theorem Sound.pushesToUser {s : State τ} (hs : Sound s) : PushesToUser s := by
  intro request ws data hsent
  rw [pushMsg_sent] at hsent
  obtain ⟨w, hentry, heq⟩ := Option.map_eq_some_iff.mp hsent
  cases heq
  exact hs request.to_uid ws hentry

variable [DecidableEq τ]

@[simp] theorem sockets_setSocket (s : State τ) (ws w : τ) (state : SocketState) :
    (s.setSocket ws state).sockets w = if w = ws then state else s.sockets w :=
  Function.update_apply _ _ _ _

@[simp] theorem sessions_setSocket (s : State τ) (ws : τ) (state : SocketState) :
    (s.setSocket ws state).sessions_ = s.sessions_ := rfl

@[simp] theorem sockets_entered (s : State τ) (ws w : τ) (uid : Int) :
    (s.entered ws uid).sockets w = if w = ws then .opened { uid } else s.sockets w :=
  Function.update_apply _ _ _ _

@[simp] theorem sessions_entered (s : State τ) (ws : τ) (uid u : Int) :
    (s.entered ws uid).sessions_ u = if u = uid then some ws else s.sessions_ u :=
  Function.update_apply _ _ _ _

variable (gw : Params)

/-- A login that succeeds on a socket is for the uid that the socket has, or the map has no
entry of the socket under that uid. -/
def LeavesNoEntry : History (Input τ) (Output τ) → State τ → Input τ → Output τ → State τ → Prop :=
  fun _ s i _ _ => ∀ ws uid, loginOf gw i = some (ws, uid) →
    s.uidOf ws = uid ∨ s.sessions_ (s.uidOf ws) ≠ some ws

theorem Sound.entered_iff {s : State τ} (hs : Sound s) (ws : τ) (uid : Int) :
    Sound (s.entered ws uid) ↔ s.uidOf ws = uid ∨ s.sessions_ (s.uidOf ws) ≠ some ws := by
  constructor
  · intro h
    by_contra hnot
    obtain ⟨hne, hentry⟩ := not_or.mp hnot
    -- the entry under the old uid still refers to the socket, whose uid is the new one
    have hstale : (s.entered ws uid).sessions_ (s.uidOf ws) = some ws := by
      rw [sessions_entered, if_neg hne, not_not.mp hentry]
    have hsocket := h _ _ hstale
    rw [sockets_entered, if_pos rfl] at hsocket
    cases hsocket
    exact hne rfl
  · intro h u w hentry
    rw [sessions_entered] at hentry
    rw [sockets_entered]
    by_cases hu : u = uid
    · rw [if_pos hu, Option.some.injEq] at hentry
      rw [if_pos hentry.symm, hu]
    · rw [if_neg hu] at hentry
      have hsocket := hs u w hentry
      by_cases hw : w = ws
      · subst hw
        rw [uidOf_opened hsocket] at h
        exact absurd hentry (h.resolve_left hu)
      · rw [if_neg hw, hsocket]

theorem Sound.opened {s : State τ} (hs : Sound s) {ws : τ} (hunopened : s.sockets ws = .unopened)
    (data : PerSocketData) : Sound (s.setSocket ws (.opened data)) := by
  intro u w hentry
  have hsocket := hs u w hentry
  have hne : w ≠ ws := by
    rintro rfl
    rw [hunopened] at hsocket
    cases hsocket
  rw [sockets_setSocket, if_neg hne, hsocket]

theorem Sound.closed {s : State τ} (hs : Sound s) {ws : τ} {data : PerSocketData}
    (hopen : s.sockets ws = .opened data) :
    Sound ((s.removeSession data.uid).setSocket ws .closed) := by
  intro u w hentry
  rw [sessions_setSocket, sessions_removeSession] at hentry
  by_cases hu : u = data.uid
  · rw [if_pos hu] at hentry
    cases hentry
  · rw [if_neg hu] at hentry
    have hsocket := hs u w hentry
    have hne : w ≠ ws := by
      rintro rfl
      rw [hopen] at hsocket
      cases hsocket
      exact hu rfl
    rw [sockets_setSocket, if_neg hne, sockets_removeSession, hsocket]

theorem sessions_sound_iff (is : List (Input τ)) :
    (gateway gw).EveryState (fun _ s => Sound s ∧ PushesToUser s) [] State.start is ↔
      (gateway gw).EveryStep (LeavesNoEntry gw) [] State.start is := by
  have hpushes : ∀ s : State τ, Sound s ∧ PushesToUser s ↔ Sound s := fun s =>
    and_iff_left_of_imp Sound.pushesToUser
  simp only [hpushes]
  refine everyState_iff_everyStep (I := fun _ _ => True) (fun _ _ _ _ _ _ _ _ _ => trivial) ?_
    trivial (fun u ws h => by cases h)
  intro h s i o s' _ hs hstep
  rcases gateway_step hstep with ⟨ws, rfl, hunopened, rfl⟩ | ⟨ws, uid, data, hlogin, -, hopen, rfl⟩ |
    ⟨ws, data, rfl, hopen, rfl⟩ | ⟨hlogin, -, rfl⟩
  · exact iff_of_true (hs.opened hunopened _) (by rintro w uid ⟨⟩)
  · rw [hs.entered_iff, LeavesNoEntry, hlogin]
    constructor
    · rintro hcond w u ⟨⟩
      exact hcond
    · exact fun hcond => hcond ws uid rfl
  · exact iff_of_true (hs.closed hopen) (by rintro w uid ⟨⟩)
  · exact iff_of_true hs fun w uid hw => by rw [hlogin] at hw; cases hw

/-! A gateway that parses the login bodies `uid = 0 .. 127` without a token. -/

def parseSmallLogin : Bytes → Option LoginReq
  | [] => some {}
  | [tag, uid] => if tag = 0x08 ∧ uid < 0x80 then some { uid := uid.toNat } else none
  | _ => none

def small : Params :=
  { refusing with protobuf := { refusing.protobuf with parseLoginReq := parseSmallLogin } }

def loginAs (uid : Byte) : Bytes := encodeHeader .little ⟨14, 1, 0x1001, 0⟩ ++ [0x08, uid]

def welcoming : Env where
  memory _ := []
  login _ := some { err_code := .ERR_SUCCESS }
  sendMsg _ := none
  syncMsg _ := none
  getUploadUrl _ := none

theorem logsIn_loginAs_one : logsIn small .BINARY (loginAs 1) welcoming = some 1 := by decide

theorem logsIn_loginAs_two : logsIn small .BINARY (loginAs 2) welcoming = some 2 := by decide

theorem entry_of_other_user :
    ¬(gateway small).EveryState (fun _ s => Sound s ∧ PushesToUser s) [] (State.start : State Nat)
      [.onOpen 0, .onMessage 0 .BINARY (loginAs 1) welcoming,
        .onMessage 0 .BINARY (loginAs 2) welcoming] := by
  intro h
  have h₁ := h.2 _ _ rfl
  have h₂ := h₁.2 _ _ (gateway_message {} rfl .BINARY (loginAs 1) welcoming)
  rw [logsIn_loginAs_one] at h₂
  have h₃ := h₂.2 _ _ (gateway_message { uid := 1 } rfl .BINARY (loginAs 2) welcoming)
  rw [logsIn_loginAs_two] at h₃
  have hsocket := h₃.first.1 1 0 rfl
  cases hsocket

end LetsChat.Gateway
