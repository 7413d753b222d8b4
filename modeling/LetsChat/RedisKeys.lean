import LetsChat.Registration
import LetsChat.Routing

/-! The keys under which `Login` and `HttpLogin` store and `SendMsg` looks up: one scheme for
each, with the user's number behind a fixed text. -/

namespace LetsChat
open Lib Prog Machine PooledDbClient LogicServiceImpl

theorem key_injective (pre : Text) : Function.Injective fun uid => pre ++ to_string uid := by
  intro u v h
  have hnum : to_string u = to_string v := List.append_cancel_left h
  exact Decimal.print_injective hnum

theorem loginKey_injective : Function.Injective loginKey := key_injective "IM:USER:SESS".toList

theorem sendKey_injective : Function.Injective sendKey := key_injective "IM:USER:SESS:".toList

theorem tokenKey_injective : Function.Injective tokenKey := key_injective "IM:USER:TOKEN".toList

theorem loginKey_ne_tokenKey (u v : Int) : loginKey u ≠ tokenKey v := by
  have hletter : ∀ {pre : Text} {c : Char}, pre[8]? = some c →
      ∀ uid, (pre ++ to_string uid)[8]? = some c := by
    intro pre c hpre uid
    rw [List.getElem?_append_left (List.getElem?_eq_some_iff.mp hpre).1]
    exact hpre
  have hlogin : (loginKey u)[8]? = some 'S' :=
    hletter (Sql.of_ofList (P := fun t => t[8]? = some 'S') (by decide)) u
  have htoken : (tokenKey v)[8]? = some 'T' :=
    hletter (Sql.of_ofList (P := fun t => t[8]? = some 'T') (by decide)) v
  intro h
  rw [h, htoken] at hlogin
  exact absurd hlogin (by decide)

def OwnLogin (uid : Int) (i : Request × Env) (o : Option Reply) : Prop :=
  ∃ r res, i.1 = .login r ∧ r.uid = uid ∧ o = some (.login res) ∧ res.err_code = .ERR_SUCCESS

def OwnHttpLogin (uid : Int) (i : Request × Env) (o : Option Reply) : Prop :=
  ∃ r res, i.1 = .httpLogin r ∧ o = some (.httpLogin res) ∧ res.err_code = 0 ∧ res.uid = uid

section Step
variable {impl : LogicServiceImpl} {e : Env} {w w' : World} {i : Request × Env} {o : Option Reply}

theorem redis_checkUserByEmail (e : Env) (w : World) (email password : Text) (user_info : HttpLoginRes) :
    ((checkUserByEmail email password user_info).run e.exec w).2.redis = w.redis := by
  have hop : ∀ op w, Statements (fun _ => True) op → (e.exec op w).2.redis = w.redis := by
    rintro op w ⟨hdb, -⟩
    cases op with
    | acquire => rfl
    | pqExec => rfl
    | time => rfl
    | _ => exact hdb.elim
  exact run_keeps (fun w : World => w.redis) hop
    (within_checkUserByEmail trivial password user_info) w

theorem service_httpLogin {r : HttpLoginReq}
    (h : (service impl).step w (.httpLogin r, e) = some (o, w')) :
    (∃ res, o = some (.httpLogin res) ∧ res.err_code = 0 ∧
      w'.redis =
        if PooledRedisClient.Reaches e then
          Function.update w.redis (Sql.cStr (tokenKey res.uid)) (some (Sql.cStr r.password))
        else w.redis) ∨
    w'.redis = w.redis := by
  have hrun := service_step h
  have hredis := redis_checkUserByEmail e w r.email r.password {}
  rw [handle, run_map] at hrun
  rcases hcheck : (checkUserByEmail r.email r.password {}).run e.exec w with
    ⟨_ | ⟨found, reply⟩, w₁⟩
  · rw [httpLogin, run_bind, hcheck] at hrun
    rw [hcheck] at hredis
    cases hrun
    exact .inr hredis
  · rw [hcheck] at hredis
    have hredis₁ : w₁.redis = w.redis := hredis
    cases found with
    | false =>
      have hrefused : (httpLogin r).run e.exec w = _ := run_bind_of _ hcheck
      rw [hrefused] at hrun
      cases hrun
      exact .inr hredis₁
    | true =>
      have hset := PooledRedisClient.run_set e w₁ (tokenKey reply.uid) r.password
      have hstored : (httpLogin r).run e.exec w = _ :=
        (run_bind_of _ hcheck).trans (run_bind_of _ hset)
      rw [hstored, hredis₁] at hrun
      cases hrun
      exact .inl ⟨{ reply with err_code := 0 }, rfl, rfl, rfl⟩

theorem row_of_ownHttpLogin {r : HttpLoginReq} {uid : Int} (he : e.Serves)
    (h : (service impl).step w (.httpLogin r, e) = some (o, w'))
    (hown : OwnHttpLogin uid (.httpLogin r, e) o) :
    ∃ row ∈ w.tables.t_user.rows, row.email = r.email ∧ row.password = r.password ∧ row.id = uid := by
  have hrun := service_step h
  obtain ⟨redis, hlogin⟩ := run_httpLogin he w r
  rw [handle, run_map, hlogin] at hrun
  obtain ⟨-, res, -, rfl, hok, rfl⟩ := hown
  cases hfound : (firstUser w.tables r.email).filter fun row => row.password = r.password with
  | none =>
    rw [hfound] at hrun
    cases hrun
    cases hok
  | some row =>
    rw [hfound] at hrun
    obtain ⟨hfirst, hpass⟩ := Option.filter_eq_some_iff.mp hfound
    obtain ⟨hrow, hemail⟩ := List.mem_filter.mp (List.mem_of_head? hfirst)
    cases hrun
    exact ⟨row, hrow, of_decide_eq_true hemail, of_decide_eq_true hpass, rfl⟩

theorem ownLogin_of_changed (h : (service impl).step w i = some (o, w')) {uid : Int}
    (hchanged : w'.redis (loginKey uid) ≠ w.redis (loginKey uid)) : OwnLogin uid i o := by
  obtain ⟨req, e⟩ := i
  cases req with
  | login r =>
    have huid : r.uid = uid := by
      by_contra hother
      refine hchanged (redis_kept h fun k hk => ?_)
      obtain rfl : k = loginKey r.uid := hk
      rw [cStr_loginKey]
      exact loginKey_injective.ne hother
    rcases service_login h with ⟨-, ho, -⟩ | ⟨-, -, rfl⟩
    · exact ⟨r, _, rfl, huid, ho, rfl⟩
    · exact absurd rfl hchanged
  | httpLogin r =>
    refine absurd (redis_kept h fun k hk => ?_) hchanged
    obtain ⟨v, rfl⟩ := hk
    rw [cStr_tokenKey]
    exact (loginKey_ne_tokenKey uid v).symm
  | _ => exact absurd (redis_kept h fun _ hk => hk.elim) hchanged

theorem ownHttpLogin_of_changed (h : (service impl).step w i = some (o, w')) {uid : Int}
    (hchanged : w'.redis (tokenKey uid) ≠ w.redis (tokenKey uid)) : OwnHttpLogin uid i o := by
  obtain ⟨req, e⟩ := i
  cases req with
  | login r =>
    refine absurd (redis_kept h fun k hk => ?_) hchanged
    obtain rfl : k = loginKey r.uid := hk
    rw [cStr_loginKey]
    exact loginKey_ne_tokenKey r.uid uid
  | httpLogin r =>
    rcases service_httpLogin h with ⟨res, ho, hok, hredis⟩ | hredis
    · have huid : res.uid = uid := by
        by_contra hother
        apply hchanged
        rw [hredis, cStr_tokenKey]
        split
        · exact Function.update_of_ne (tokenKey_injective.ne fun heq => hother heq.symm) _ w.redis
        · rfl
      exact ⟨r, res, rfl, ho, hok, huid⟩
    · exact absurd (congrFun hredis _) hchanged
  | _ => exact absurd (redis_kept h fun _ hk => hk.elim) hchanged

end Step

/-- The call changes no route and no token but those of its own user. -/
def ChangesOwn (w : World) (i : Request × Env) (o : Option Reply) (w' : World) : Prop :=
  ∀ uid, (w'.redis (loginKey uid) ≠ w.redis (loginKey uid) → OwnLogin uid i o) ∧
    (w'.redis (tokenKey uid) ≠ w.redis (tokenKey uid) → OwnHttpLogin uid i o)

theorem redis_keys_apart (impl : LogicServiceImpl) (w : World) (is : List (Request × Env)) :
    Function.Injective loginKey ∧ Function.Injective tokenKey ∧ Function.Injective sendKey ∧
      (∀ u v, loginKey u ≠ tokenKey v ∧ sendKey u ≠ tokenKey v) ∧
      (service impl).EveryStep (fun _ w i o w' => ChangesOwn w i o w') [] w is := by
  have hstep : ∀ (h : History (Request × Env) (Option Reply)) w i o w', True →
      (service impl).step w i = some (o, w') → ChangesOwn w i o w' :=
    fun _ _ _ _ _ _ hs uid => ⟨ownLogin_of_changed hs, ownHttpLogin_of_changed hs⟩
  refine ⟨loginKey_injective, tokenKey_injective, sendKey_injective, fun u v => ?_, ?_⟩
  · exact ⟨loginKey_ne_tokenKey u v, (tokenKey_ne_sendKey v u).symm⟩
  · exact everyStep_of_invariant (fun _ _ _ _ _ _ _ => trivial) hstep trivial

theorem key_kept {impl : LogicServiceImpl} {key : Text} {own : Request × Env → Option Reply → Prop}
    (hchanged : ∀ w i o w', (service impl).step w i = some (o, w') →
      w'.redis key ≠ w.redis key → own i o) (w₀ : World) (is : List (Request × Env)) :
    (service impl).EveryState (fun h w => (∀ x ∈ h, ¬own x.1 x.2) → w.redis key = w₀.redis key)
      [] w₀ is := by
  refine everyState_of_invariant (fun h w i o w' hkept hs hnone => ?_) fun _ => rfl
  rw [List.forall_mem_append, List.forall_mem_singleton] at hnone
  by_contra hne
  refine hnone.2 (hchanged w i o w' hs ?_)
  rwa [hkept hnone.1]

theorem route_kept (impl : LogicServiceImpl) (w₀ : World) (uid : Int) (is : List (Request × Env)) :
    (service impl).EveryState (fun h w => (∀ x ∈ h, ¬OwnLogin uid x.1 x.2) →
      w.redis (loginKey uid) = w₀.redis (loginKey uid)) [] w₀ is :=
  key_kept (fun _ _ _ _ hs hne => ownLogin_of_changed hs hne) w₀ is

theorem token_kept (impl : LogicServiceImpl) (w₀ : World) (uid : Int) (is : List (Request × Env)) :
    (service impl).EveryState (fun h w => (∀ x ∈ h, ¬OwnHttpLogin uid x.1 x.2) →
      w.redis (tokenKey uid) = w₀.redis (tokenKey uid)) [] w₀ is :=
  key_kept (fun _ _ _ _ hs hne => ownHttpLogin_of_changed hs hne) w₀ is

end LetsChat
