import LetsChat.Footprint

/-! The route that `Login` writes and the route that `SendMsg` reads. -/

namespace LetsChat
open Lib Prog Machine PooledDbClient LogicServiceImpl

theorem notMem_key {pre : String} (hpre : '\x00' ∉ pre.toList) (uid : Int) :
    '\x00' ∉ pre.toList ++ to_string uid := by
  intro h
  rcases List.mem_append.mp h with h | h
  · exact hpre h
  · exact Decimal.not_mem_print (by decide) (by decide) h

theorem cStr_loginKey (uid : Int) : Sql.cStr (loginKey uid) = loginKey uid :=
  Sql.cStr_of_notMem (notMem_key (Sql.of_ofList (P := fun t => '\x00' ∉ t) (by decide)) uid)

theorem cStr_sendKey (uid : Int) : Sql.cStr (sendKey uid) = sendKey uid :=
  Sql.cStr_of_notMem (notMem_key (Sql.of_ofList (P := fun t => '\x00' ∉ t) (by decide)) uid)

theorem cStr_tokenKey (uid : Int) : Sql.cStr (tokenKey uid) = tokenKey uid :=
  Sql.cStr_of_notMem (notMem_key (Sql.of_ofList (P := fun t => '\x00' ∉ t) (by decide)) uid)

theorem loginKey_ne_sendKey (u v : Int) : loginKey u ≠ sendKey v := by
  intro h
  have hcolon : "IM:USER:SESS".toList ++ [':'] = "IM:USER:SESS:".toList :=
    Query.toList_snoc String.toList_ofList
  have hkeys : "IM:USER:SESS".toList ++ to_string u = "IM:USER:SESS:".toList ++ to_string v := h
  rw [← hcolon, List.append_assoc] at hkeys
  have hnum : to_string u = ':' :: to_string v := List.append_cancel_left hkeys
  have hmem : ':' ∈ to_string u := hnum ▸ List.mem_cons_self
  exact Decimal.not_mem_print (by decide) (by decide) hmem

theorem tokenKey_ne_sendKey (u v : Int) : tokenKey u ≠ sendKey v := by
  intro h
  have htoken : "IM:USER:TOKEN".toList.length = 13 :=
    Sql.of_ofList (P := fun t => t.length = 13) (by decide)
  have hsend : "IM:USER:SESS:".toList.length = 13 :=
    Sql.of_ofList (P := fun t => t.length = 13) (by decide)
  have hpre := (List.append_inj h (htoken.trans hsend.symm)).1
  exact absurd (String.toList_inj.mp hpre) (by decide)

def WritesSession : Op → Prop
  | .redisSet key _ => ∃ u, key = loginKey u ∨ key = tokenKey u
  | _ => True

theorem writesSession_of_touches {req : Request} {o : Op} (h : req.touches o) : WritesSession o := by
  cases o with
  | redisSet key value =>
    cases req with
    | login r => exact ⟨r.uid, .inl h⟩
    | httpLogin r =>
      obtain ⟨uid, hkey⟩ := h
      exact ⟨uid, .inr hkey⟩
    | _ => exact h.elim
  | _ => trivial

theorem sendKey_unwritten {impl : LogicServiceImpl} {w w' : World} {i : Request × Env}
    {o : Option Reply} (h : (service impl).step w i = some (o, w')) (u : Int) :
    w'.redis (sendKey u) = w.redis (sendKey u) := by
  apply redis_kept h
  intro key hkey
  have hsession : WritesSession (.redisSet key []) := writesSession_of_touches hkey
  -- both kinds of key that are written differ from the key that is read
  obtain ⟨v, rfl | rfl⟩ := hsession
  · rw [cStr_loginKey]
    exact loginKey_ne_sendKey v u
  · rw [cStr_tokenKey]
    exact tokenKey_ne_sendKey v u

def LoggedIn (h : History (Request × Env) (Option Reply)) (uid : Int) : Prop :=
  ∃ r e res, ((.login r, e), some (.login res)) ∈ h ∧ r.uid = uid ∧ res.err_code = .ERR_SUCCESS

/-- A message that passes the friend check, and whose recipient logged in earlier, finds the
address that the login stored and is pushed to it. -/
def RouteFound : History (Request × Env) (Option Reply) → World → Request × Env → Option Reply →
    World → Prop :=
  fun h w i _ w' => ∀ r, i.1 = .sendMsg r →
    FriendsSeen i.2 w.tables r.msg.from_uid r.msg.to_uid → LoggedIn h r.msg.to_uid →
      route i.2 w r.msg.to_uid = some gateway_addr ∧
      ∃ content, w'.pushed = w.pushed ++ [(gateway_addr, ⟨r.msg.to_uid, content⟩)]

def NoneOnline : History (Request × Env) (Option Reply) → World → Request × Env → Option Reply →
    World → Prop :=
  fun h w i _ _ => ∀ r, i.1 = .sendMsg r →
    FriendsSeen i.2 w.tables r.msg.from_uid r.msg.to_uid → ¬LoggedIn h r.msg.to_uid

theorem route_eq_none {w : World} (hw : ∀ u, w.redis (sendKey u) = none) (e : Env) (u : Int) :
    route e w u = none := by
  rw [route, cStr_sendKey, hw, ite_self]

theorem routeFound_iff_noneOnline (impl : LogicServiceImpl) (w : World)
    (hw : ∀ u, w.redis (sendKey u) = none) (is : List (Request × Env)) :
    (service impl).EveryStep RouteFound [] w is ↔ (service impl).EveryStep NoneOnline [] w is := by
  refine everyStep_congr (I := fun _ w => ∀ u, w.redis (sendKey u) = none) ?_ ?_ hw
  · intro h w i o w' hnone hs u
    rw [sendKey_unwritten hs, hnone]
  · intro h w i o w' hnone hs
    constructor
    -- a route that is found would be one that nobody has written
    · intro hfound r hr hseen hlogged
      have hroute := (hfound r hr hseen hlogged).1
      rw [route_eq_none hnone] at hroute
      cases hroute
    · intro hnot r hr hseen hlogged
      exact absurd hlogged (hnot r hr hseen)

def friendsAndUser : World :=
  { World.empty with
    tables := { Tables.empty with
      t_user := SerialTable.empty.insert (fun id => ⟨id, "ann".toList, "pw".toList, []⟩) fun _ => rfl
      t_friend := [⟨1, 2, 0⟩, ⟨2, 1, 0⟩] } }

def loginThenSend : List (Request × Env) :=
  [(.login { uid := 1, token := "pw".toList }, Env.fair),
    (.sendMsg { msg := { from_uid := 2, to_uid := 1, content := "hi".toList } }, Env.fair)]

theorem routeFound_iff_noneOnline_loginThenSend :
    (service bare).EveryStep RouteFound [] friendsAndUser loginThenSend ↔
      (service bare).EveryStep NoneOnline [] friendsAndUser loginThenSend :=
  routeFound_iff_noneOnline bare friendsAndUser (fun _ => rfl) loginThenSend

theorem route_not_found :
    ¬(service bare).EveryStep RouteFound [] friendsAndUser loginThenSend := by
  intro h
  obtain ⟨⟨o, w'⟩, hlogin⟩ : ∃ r, (service bare).step friendsAndUser
      (.login { uid := 1, token := "pw".toList }, Env.fair) = some r := ⟨_, rfl⟩
  obtain ⟨⟨o₂, w₂⟩, hsend⟩ : ∃ r, (service bare).step w'
      (.sendMsg { msg := { from_uid := 2, to_uid := 1, content := "hi".toList } }, Env.fair) =
      some r := ⟨_, rfl⟩
  have hnone : ∀ u, w'.redis (sendKey u) = none := fun u => sendKey_unwritten hlogin u
  rcases service_login hlogin with ⟨-, rfl, rfl⟩ | ⟨hnot, -, -⟩
  · have hfound := ((h _ _ hlogin).2 _ _ hsend).1 _ rfl (by decide)
      ⟨_, _, _, List.mem_singleton.mpr rfl, rfl, rfl⟩
    have hroute := hfound.1
    rw [route_eq_none hnone] at hroute
    cases hroute
  · exact hnot (by decide)

end LetsChat
