import LetsChat.Gateway.SessionMap

/-! A socket keeps the session of its last login, as long as nobody takes it over. -/

namespace LetsChat.Gateway
open Lib Machine

variable {τ : Type} (gw : Params)

def logins (h : History (Input τ) (Output τ)) : List (τ × Int) :=
  h.filterMap fun p => loginOf gw p.1

def LastLogin (ls : List (τ × Int)) (w : τ) (u : Int) : Prop :=
  ∃ older newer, ls = older ++ (w, u) :: newer ∧ ∀ p ∈ newer, p.1 ≠ w ∧ p.2 ≠ u

/-- An open socket is the entry of its last login, unless another socket has logged in since. -/
def Owned (h : History (Input τ) (Output τ)) (s : State τ) : Prop :=
  ∀ w u data, s.sockets w = .opened data → LastLogin (logins gw h) w u → s.sessions_ u = some w

def PushesToOwner (h : History (Input τ) (Output τ)) (s : State τ) : Prop :=
  ∀ w u data message, s.sockets w = .opened data → LastLogin (logins gw h) w u →
    s.pushToUser u message = (true, some (w, message))

/-- A socket closes when the entry of its uid is its own or that of no open socket of the uid. -/
def ClosesOwn : History (Input τ) (Output τ) → State τ → Input τ → Output τ → State τ → Prop :=
  fun _ s i _ _ => ∀ ws w, i = .onClose ws → w ≠ ws → s.sessions_ (s.uidOf ws) = some w →
    s.sockets w ≠ .opened { uid := s.uidOf ws }

theorem Owned.pushesToOwner {h : History (Input τ) (Output τ)} {s : State τ} (howned : Owned gw h s) :
    PushesToOwner gw h s := by
  intro w u data message hsocket hlast
  rw [pushToUser_eq, howned w u data hsocket hlast]
  rfl

theorem logins_snoc (h : History (Input τ) (Output τ)) (i : Input τ) (o : Output τ) :
    logins gw (h ++ [(i, o)]) = logins gw h ++ (loginOf gw i).toList := by
  rw [logins, List.filterMap_append]
  cases hi : loginOf gw i <;> simp [logins, hi]

theorem LastLogin.mem {ls : List (τ × Int)} {w : τ} {u : Int} (h : LastLogin ls w u) :
    (w, u) ∈ ls := by
  obtain ⟨older, newer, rfl, -⟩ := h
  exact List.mem_append_right _ List.mem_cons_self

theorem lastLogin_snoc {ls : List (τ × Int)} {ws w : τ} {uid u : Int} :
    LastLogin (ls ++ [(ws, uid)]) w u ↔
      (w = ws ∧ u = uid) ∨ (w ≠ ws ∧ u ≠ uid ∧ LastLogin ls w u) := by
  constructor
  · rintro ⟨older, newer, heq, hnewer⟩
    rcases List.eq_nil_or_concat newer with rfl | ⟨newer, p, rfl⟩
    · obtain ⟨-, hlast⟩ := List.append_inj' heq rfl
      cases hlast
      exact .inl ⟨rfl, rfl⟩
    · rw [List.concat_eq_append, ← List.cons_append, ← List.append_assoc] at heq
      obtain ⟨rfl, hlast⟩ := List.append_inj' heq rfl
      cases hlast
      have hlast : (ws, uid) ∈ newer.concat (ws, uid) := by
        rw [List.concat_eq_append]
        exact List.mem_append_right _ (List.mem_singleton.mpr rfl)
      have hp := hnewer (ws, uid) hlast
      refine .inr ⟨hp.1.symm, hp.2.symm, older, newer, rfl, fun q hq => hnewer q ?_⟩
      rw [List.concat_eq_append]
      exact List.mem_append_left _ hq
  · rintro (⟨rfl, rfl⟩ | ⟨hw, hu, older, newer, rfl, hnewer⟩)
    · exact ⟨ls, [], rfl, fun p hp => absurd hp List.not_mem_nil⟩
    · refine ⟨older, newer ++ [(ws, uid)], by simp, fun p hp => ?_⟩
      rcases List.mem_append.mp hp with hp | hp
      · exact hnewer p hp
      · obtain rfl := List.mem_singleton.mp hp
        exact ⟨hw.symm, hu.symm⟩

variable [DecidableEq τ]

structure SessionInv (ls : List (τ × Int)) (s : State τ) : Prop where
  entry : ∀ u w, s.sessions_ u = some w → s.sockets w = .opened { uid := u } → LastLogin ls w u
  uid : ∀ u w data, s.sockets w = .opened data → LastLogin ls w u → data.uid = u
  used : ∀ u w, s.sessions_ u = some w → s.sockets w ≠ .unopened
  fresh : ∀ w, s.sockets w = .unopened → ∀ u, (w, u) ∉ ls

theorem sessionInv_start {τ : Type} : SessionInv [] (State.start : State τ) where
  entry u w hentry := by cases hentry
  uid u w data hsocket := by cases hsocket
  used u w hentry := by cases hentry
  fresh w _ u hmem := absurd hmem List.not_mem_nil

theorem SessionInv.opened {ls : List (τ × Int)} {s : State τ} (hinv : SessionInv ls s) {ws : τ}
    (hunopened : s.sockets ws = .unopened) : SessionInv ls (s.setSocket ws (.opened {})) where
  entry u w hentry hsocket := by
    have hne : w ≠ ws := fun h => hinv.used u w hentry (h ▸ hunopened)
    rw [sockets_setSocket, if_neg hne] at hsocket
    exact hinv.entry u w hentry hsocket
  uid u w data hsocket hlast := by
    have hne : w ≠ ws := fun h => hinv.fresh ws hunopened u (h ▸ hlast.mem)
    rw [sockets_setSocket, if_neg hne] at hsocket
    exact hinv.uid u w data hsocket hlast
  used u w hentry := by
    rw [sockets_setSocket]
    split
    · nofun
    · exact hinv.used u w hentry
  fresh w hsocket := by
    rw [sockets_setSocket] at hsocket
    split at hsocket
    · cases hsocket
    · exact hinv.fresh w hsocket

theorem SessionInv.entered {ls : List (τ × Int)} {s : State τ} (hinv : SessionInv ls s) {ws : τ}
    {data : PerSocketData} (hopen : s.sockets ws = .opened data) (uid : Int) :
    SessionInv (ls ++ [(ws, uid)]) (s.entered ws uid) where
  entry u w hentry hsocket := by
    rw [sessions_entered] at hentry
    rw [sockets_entered] at hsocket
    rw [lastLogin_snoc]
    by_cases hu : u = uid
    · rw [if_pos hu, Option.some.injEq] at hentry
      exact .inl ⟨hentry.symm, hu⟩
    · rw [if_neg hu] at hentry
      have hw : w ≠ ws := by
        rintro rfl
        rw [if_pos rfl] at hsocket
        cases hsocket
        exact hu rfl
      rw [if_neg hw] at hsocket
      exact .inr ⟨hw, hu, hinv.entry u w hentry hsocket⟩
  uid u w data' hsocket hlast := by
    rw [sockets_entered] at hsocket
    rcases lastLogin_snoc.mp hlast with ⟨rfl, rfl⟩ | ⟨hw, -, hlast⟩
    · rw [if_pos rfl] at hsocket
      cases hsocket
      rfl
    · rw [if_neg hw] at hsocket
      exact hinv.uid u w data' hsocket hlast
  used u w hentry := by
    rw [sessions_entered] at hentry
    rw [sockets_entered]
    by_cases hw : w = ws
    · rw [if_pos hw]
      nofun
    · rw [if_neg hw]
      split at hentry
      · exact absurd (Option.some.inj hentry).symm hw
      · exact hinv.used u w hentry
  fresh w hsocket u hmem := by
    rw [sockets_entered] at hsocket
    split at hsocket
    · cases hsocket
    · next hw =>
      rcases List.mem_append.mp hmem with hmem | hmem
      · exact hinv.fresh w hsocket u hmem
      · exact hw (congrArg Prod.fst (List.mem_singleton.mp hmem))

theorem SessionInv.closed {ls : List (τ × Int)} {s : State τ} (hinv : SessionInv ls s) (ws : τ)
    (uid : Int) : SessionInv ls ((s.removeSession uid).setSocket ws .closed) where
  entry u w hentry hsocket := by
    rw [sessions_setSocket, sessions_removeSession] at hentry
    rw [sockets_setSocket, sockets_removeSession] at hsocket
    split at hentry
    · cases hentry
    split at hsocket
    · cases hsocket
    · exact hinv.entry u w hentry hsocket
  uid u w data hsocket hlast := by
    rw [sockets_setSocket, sockets_removeSession] at hsocket
    split at hsocket
    · cases hsocket
    · exact hinv.uid u w data hsocket hlast
  used u w hentry := by
    rw [sessions_setSocket, sessions_removeSession] at hentry
    rw [sockets_setSocket, sockets_removeSession]
    split at hentry
    · cases hentry
    split
    · nofun
    · exact hinv.used u w hentry
  fresh w hsocket := by
    rw [sockets_setSocket, sockets_removeSession] at hsocket
    split at hsocket
    · cases hsocket
    · exact hinv.fresh w hsocket

theorem owned_opened {h : History (Input τ) (Output τ)} {s : State τ}
    (hinv : SessionInv (logins gw h) s) (howned : Owned gw h s) {ws : τ}
    (hunopened : s.sockets ws = .unopened) (o : Output τ) :
    Owned gw (h ++ [(.onOpen ws, o)]) (s.setSocket ws (.opened {})) := by
  intro w u data hsocket hlast
  rw [logins_snoc, loginOf_onOpen, Option.toList_none, List.append_nil] at hlast
  have hne : w ≠ ws := fun heq => hinv.fresh ws hunopened u (heq ▸ hlast.mem)
  rw [sockets_setSocket, if_neg hne] at hsocket
  exact howned w u data hsocket hlast

theorem owned_entered {h : History (Input τ) (Output τ)} {s : State τ} (howned : Owned gw h s)
    {i : Input τ} {ws : τ} {uid : Int} (hlogin : loginOf gw i = some (ws, uid)) (o : Output τ) :
    Owned gw (h ++ [(i, o)]) (s.entered ws uid) := by
  intro w u data hsocket hlast
  rw [logins_snoc, hlogin, Option.toList_some] at hlast
  rw [sockets_entered] at hsocket
  rw [sessions_entered]
  rcases lastLogin_snoc.mp hlast with ⟨rfl, rfl⟩ | ⟨hw, hu, hlast⟩
  · rw [if_pos rfl]
  · rw [if_neg hw] at hsocket
    rw [if_neg hu]
    exact howned w u data hsocket hlast

theorem owned_closed_iff {h : History (Input τ) (Output τ)} {s : State τ}
    (hinv : SessionInv (logins gw h) s) (howned : Owned gw h s) {ws : τ} {data : PerSocketData}
    (o : Output τ) :
    Owned gw (h ++ [(.onClose ws, o)]) ((s.removeSession data.uid).setSocket ws .closed) ↔
      ∀ w, w ≠ ws → s.sessions_ data.uid = some w → s.sockets w ≠ .opened { uid := data.uid } := by
  have hlogins : logins gw (h ++ [(.onClose ws, o)]) = logins gw h := by
    rw [logins_snoc, loginOf_onClose, Option.toList_none, List.append_nil]
  constructor
  · -- a socket that loses its entry had it from its last login
    intro hafter w hne hentry hsocket
    have hlast := hinv.entry _ w hentry hsocket
    have hopen : ((s.removeSession data.uid).setSocket ws .closed).sockets w =
        .opened { uid := data.uid } := by
      rw [sockets_setSocket, if_neg hne, sockets_removeSession, hsocket]
    have hkept := hafter w data.uid _ hopen (hlogins ▸ hlast)
    rw [sessions_setSocket, sessions_removeSession, if_pos rfl] at hkept
    cases hkept
  · intro hother w u data' hsocket hlast
    rw [hlogins] at hlast
    rw [sockets_setSocket, sockets_removeSession] at hsocket
    rw [sessions_setSocket, sessions_removeSession]
    by_cases hw : w = ws
    · rw [if_pos hw] at hsocket
      cases hsocket
    · rw [if_neg hw] at hsocket
      have hentry := howned w u data' hsocket hlast
      have huid : data'.uid = u := hinv.uid u w data' hsocket hlast
      -- two sockets with one uid: the entry was that of the other
      by_cases hu : u = data.uid
      · subst hu
        obtain rfl := PerSocketData.ext huid
        exact absurd hsocket (hother w hw hentry)
      · rw [if_neg hu, hentry]

theorem sessionInv_step {h : History (Input τ) (Output τ)} {s s' : State τ} {i : Input τ}
    {o : Output τ} (hinv : SessionInv (logins gw h) s)
    (hstep : (gateway gw).step s i = some (o, s')) :
    SessionInv (logins gw (h ++ [(i, o)])) s' := by
  rw [logins_snoc]
  rcases gateway_step hstep with ⟨ws, rfl, hunopened, rfl⟩ | ⟨ws, uid, data, hlogin, -, hopen, rfl⟩ |
    ⟨ws, data, rfl, hopen, rfl⟩ | ⟨hlogin, -, rfl⟩
  · rw [loginOf_onOpen, Option.toList_none, List.append_nil]
    exact hinv.opened hunopened
  · rw [hlogin, Option.toList_some]
    exact hinv.entered hopen uid
  · rw [loginOf_onClose, Option.toList_none, List.append_nil]
    exact hinv.closed ws data.uid
  · rw [hlogin, Option.toList_none, List.append_nil]
    exact hinv

theorem sessions_owned_iff (is : List (Input τ)) :
    (gateway gw).EveryState (fun h s => Owned gw h s ∧ PushesToOwner gw h s) [] State.start is ↔
      (gateway gw).EveryStep ClosesOwn [] State.start is := by
  have hpushes : ∀ h (s : State τ), Owned gw h s ∧ PushesToOwner gw h s ↔ Owned gw h s := fun h s =>
    and_iff_left_of_imp (Owned.pushesToOwner gw)
  simp only [hpushes]
  refine everyState_iff_everyStep (I := fun h s => SessionInv (logins gw h) s)
    (fun h s i o s' hinv _ _ hstep => sessionInv_step gw hinv hstep) ?_ sessionInv_start
    (fun w u data h => by cases h)
  intro h s i o s' hinv howned hstep
  rcases gateway_step hstep with ⟨ws, rfl, hunopened, rfl⟩ | ⟨ws, uid, data, hlogin, hclose, hopen, rfl⟩ |
    ⟨ws, data, rfl, hopen, rfl⟩ | ⟨hlogin, hclose, rfl⟩
  · exact iff_of_true (owned_opened gw hinv howned hunopened o) (by rintro ws w ⟨⟩)
  · exact iff_of_true (owned_entered gw howned hlogin o) fun ws w hi => absurd hi (hclose ws)
  · rw [owned_closed_iff gw hinv howned o, ClosesOwn]
    have huid := uidOf_opened hopen
    constructor
    · rintro hother ws w ⟨⟩ hne hentry
      rw [huid] at hentry ⊢
      exact hother w hne hentry
    · intro hother w hne hentry
      have hclosed := hother ws w rfl hne
      rw [huid] at hclosed
      exact hclosed hentry
  · refine iff_of_true ?_ fun ws w hi => absurd hi (hclose ws)
    rw [Owned, logins_snoc, hlogin, Option.toList_none, List.append_nil]
    exact howned

theorem session_lost_on_reconnect :
    ¬(gateway small).EveryState (fun h s => Owned small h s ∧ PushesToOwner small h s) []
      (State.start : State Nat)
      [.onOpen 0, .onMessage 0 .BINARY (loginAs 1) welcoming, .onOpen 1,
        .onMessage 1 .BINARY (loginAs 1) welcoming, .onClose 0] := by
  intro h
  have h₁ := h.2 _ _ rfl
  have h₂ := h₁.2 _ _ (gateway_message {} rfl .BINARY (loginAs 1) welcoming)
  rw [logsIn_loginAs_one] at h₂
  have h₃ := h₂.2 _ _ rfl
  have h₄ := h₃.2 _ _ (gateway_message {} rfl .BINARY (loginAs 1) welcoming)
  rw [logsIn_loginAs_one] at h₄
  have h₅ := h₄.2 _ _ rfl
  have hentry := h₅.first.1 1 1 { uid := 1 } rfl ⟨[(0, 1)], [], ?_, fun p hp => absurd hp List.not_mem_nil⟩
  · cases hentry
  · simp only [logins_snoc, loginOf_onOpen, loginOf_onClose, loginOf_onMessage, logsIn_loginAs_one]
    rfl

end LetsChat.Gateway
