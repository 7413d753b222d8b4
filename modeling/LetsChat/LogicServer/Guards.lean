import LetsChat.LogicServer.Clients
import LetsChat.OneStatement

/-! The guards of the client functions. Each function takes one connection at its start and has
it until it returns; no handler calls one function twice. `opens` is the function that a call of
`Acquire` is for, `inside` the one that another operation belongs to. -/

namespace LetsChat.LogicServer
open Lib Prog PooledDbClient LogicServiceImpl

inductive PoolName
  | db
  | redis
  deriving DecidableEq

/-- The functions with a guard. One name is enough for `Set` and `Get` of `PooledRedisClient`, as
no handler calls both. -/
inductive Scope
  | db (site : Site)
  | redis
  deriving DecidableEq

def Scope.pool : Scope → PoolName
  | .db _ => .db
  | .redis => .redis

def siteFunction : Site → Site
  | .acceptIns1 | .acceptIns2 | .acceptUpd => .acceptFriendRequest
  | site => site

def opens : Op → Option Scope
  | .acquire site => some (.db site)
  | .redisAcquire => some .redis
  | _ => none

def inside : Op → Option Scope
  | .pqExec site _ => some (.db (siteFunction site))
  -- `SendMsg` reads the clock itself
  | .time .sendMsg => none
  | .time site => some (.db (siteFunction site))
  | .redisSet _ _ | .redisGet _ => some .redis
  | _ => none

/-- The guard that `Acquire` returns, with a connection or without one. -/
def takes : Event Op.Ret → Option (PoolName × Bool)
  | ⟨.acquire _, ok⟩ => some (.db, ok)
  | ⟨.redisAcquire, ok⟩ => some (.redis, ok)
  | _ => none

def allowed (guard : Option (PoolName × Bool)) (o : Op) : Prop :=
  ∀ sc, inside o = some sc → guard = some (sc.pool, true)

theorem opens_of_inside {o : Op} {sc : Scope} (h : inside o = some sc) : opens o = none := by
  cases o with
  | acquire site => cases h
  | redisAcquire => cases h
  | _ => rfl

theorem takes_of_opens {o : Op} (h : opens o = none) (r : o.Ret) : takes ⟨o, r⟩ = none := by
  cases o with
  | acquire site => cases h
  | redisAcquire => cases h
  | _ => rfl

theorem allowed_of_inside {o : Op} (h : inside o = none) (guard : Option (PoolName × Bool)) :
    allowed guard o := by
  intro sc hsc
  rw [h] at hsc
  cases hsc

variable {α β : Type}

/-- A client function: it asks for a connection, gives up without one, and does the rest
under its guard. -/
def Client (sc : Scope) : Prog Op.Ret α → Prop
  | .op o k => opens o = some sc ∧ ∀ r, (k r).Within (fun o => inside o = some sc) ∧
      (takes ⟨o, r⟩ = some (sc.pool, true) ∨ (k r).finished = true)
  | _ => False

theorem nested_client {sc : Scope} {p : Prog Op.Ret α} (hp : Client sc p) :
    p.guarded.Nested takes allowed none := by
  cases p with
  | ret a => exact hp.elim
  | throw => exact hp.elim
  | op o k =>
    obtain ⟨hopens, hrest⟩ := hp
    have hunder : ∀ r ok, takes ⟨o, r⟩ = some (sc.pool, ok) →
        (k r).guarded.Nested takes allowed (some (sc.pool, ok)) := by
      intro r ok hok
      apply nested_guarded
      obtain ⟨hwithin, htrue | hfinished⟩ := hrest r
      · obtain rfl : ok = true := by
          rw [hok] at htrue
          exact (Prod.mk.inj (Option.some.inj htrue)).2
        refine hwithin.mono fun o ho => ⟨fun sc' hsc' => ?_, takes_of_opens (opens_of_inside ho)⟩
        rw [Option.some.inj (hsc'.symm.trans ho)]
      · exact within_of_finished hfinished
    cases o with
    | acquire site =>
      cases hopens
      exact ⟨nofun, fun ok => ⟨rfl, hunder ok ok rfl⟩⟩
    | redisAcquire =>
      cases hopens
      exact ⟨nofun, fun ok => ⟨rfl, hunder ok ok rfl⟩⟩
    | _ => cases hopens

theorem client_db {site : Site} {x : α} {body : Prog Op.Ret α}
    (hbody : body.Within fun o => inside o = some (.db site)) :
    Client (.db site) (acquire site >>= fun g => if (!g) = true then ret x else body) := by
  refine ⟨rfl, fun r => ?_⟩
  cases r with
  | false => exact ⟨trivial, .inr rfl⟩
  | true => exact ⟨hbody, .inl rfl⟩

theorem client_redis {x : α} {body : Prog Op.Ret α}
    (hbody : body.Within fun o => inside o = some .redis) :
    Client .redis (redisAcquire >>= fun g => if (!g) = true then ret x else body) := by
  refine ⟨rfl, fun r => ?_⟩
  cases r with
  | false => exact ⟨trivial, .inr rfl⟩
  | true => exact ⟨hbody, .inl rfl⟩

/-- Only `SendMsg` reads the clock outside of a client function. -/
theorem inside_time {site : Site} (h : site ≠ .sendMsg) :
    inside (.time site) = some (.db (siteFunction site)) := by
  cases site with
  | sendMsg => exact absurd rfl h
  | _ => rfl

theorem client_one {site : Site} {p : Prog Op.Ret α} (h : OneStatement site p)
    (hsite : siteFunction site = site) (hown : site ≠ .sendMsg) : Client (.db site) p := by
  have hstatement : ∀ {f : PGresult → Prog Op.Ret α}, (∀ res, (f res).finished = true) →
      ∀ q, (pqExec site q >>= f).Within fun o => inside o = some (.db site) := by
    intro f hf q
    refine ⟨?_, fun res => within_of_finished (hf res)⟩
    show some (Scope.db (siteFunction site)) = some (.db site)
    rw [hsite]
  cases h with
  | query x q f hf => exact client_db (hstatement hf q)
  | stamped x q f hf =>
    refine client_db ⟨?_, fun now => hstatement hf (q now)⟩
    show inside (.time site) = some (.db site)
    rw [inside_time hown, hsite]

theorem client_acceptFriendRequest (req_id : Int) :
    Client (.db .acceptFriendRequest) (acceptFriendRequest req_id) := by
  refine client_db ⟨rfl, fun res => within_ite.mpr ⟨fun _ => trivial, fun _ => ?_⟩⟩
  refine within_ofOption_bind.mpr fun from_uid _ => within_ofOption_bind.mpr fun to_uid _ => ?_
  refine ⟨rfl, fun now => ⟨rfl, fun r1 => ⟨rfl, fun r2 => ?_⟩⟩⟩
  exact within_ite.mpr ⟨fun _ => trivial, fun _ => ⟨rfl, fun _ => trivial⟩⟩

theorem client_set (key value : Text) : Client .redis (PooledRedisClient.set key value) := by
  refine client_redis ⟨rfl, fun reply => ?_⟩
  cases reply with
  | none => trivial
  | some reply => cases reply <;> trivial

theorem client_get (key : Text) : Client .redis (PooledRedisClient.get key) := by
  refine client_redis ⟨rfl, fun reply => ?_⟩
  cases reply with
  | none => trivial
  | some reply => cases reply <;> trivial

def ClientCall.scope : ClientCall → Scope
  | execute _ => .db .execute
  | getUserPassword _ => .db .getUserPassword
  | saveMessage _ _ _ _ => .db .saveMessage
  | getofflineMsgs _ _ => .db .getofflineMsgs
  | createUser _ _ _ => .db .createUser
  | checkUserByEmail _ _ _ => .db .checkUserByEmail
  | createFriendRequest _ _ _ => .db .createFriendRequest
  | getFriendRequestsForUser _ => .db .getFriendRequestsForUser
  | acceptFriendRequest _ => .db .acceptFriendRequest
  | areFriends _ _ => .db .areFriends
  | listFriends _ => .db .listFriends
  | set _ _ | get _ => .redis

theorem client_body (c : ClientCall) : Client c.scope c.body := by
  cases c with
  | execute sql => exact client_one (oneStatement_execute sql) rfl nofun
  | getUserPassword uid => exact client_one (oneStatement_getUserPassword uid) rfl nofun
  | saveMessage msg_id from_uid to_uid content =>
    exact client_one (oneStatement_saveMessage msg_id from_uid to_uid content) rfl nofun
  | getofflineMsgs uid last_msg_id =>
    exact client_one (oneStatement_getofflineMsgs uid last_msg_id) rfl nofun
  | createUser username password email =>
    exact client_one (oneStatement_createUser username password email) rfl nofun
  | checkUserByEmail email password user_info =>
    exact client_one (oneStatement_checkUserByEmail email password user_info) rfl nofun
  | createFriendRequest from_uid to_uid reason =>
    exact client_one (oneStatement_createFriendRequest from_uid to_uid reason) rfl nofun
  | getFriendRequestsForUser uid =>
    exact client_one (oneStatement_getFriendRequestsForUser uid) rfl nofun
  | acceptFriendRequest req_id => exact client_acceptFriendRequest req_id
  | areFriends uid1 uid2 => exact client_one (oneStatement_areFriends uid1 uid2) rfl nofun
  | listFriends uid => exact client_one (oneStatement_listFriends uid) rfl nofun
  | set key value => exact client_set key value
  | get key => exact client_get key

def Quiet (o : Op) : Prop := inside o = none ∧ opens o = none

def CallOp.Proper : CallOp → Prop
  | client _ => True
  | own o => Quiet o

def CallOp.scope : CallOp → Option Scope
  | client c => some c.scope
  | own o => opens o

structure Orderly (past : List (Event CallOp.Ret)) (o : CallOp) : Prop where
  proper : o.Proper
  once : ∀ sc, o.scope = some sc → ∀ ev ∈ past, ev.1.scope ≠ some sc

theorem orderly_client {past : List (Event CallOp.Ret)} {c : ClientCall}
    (h : ∀ ev ∈ past, ev.1.scope ≠ some c.scope) : Orderly past (.client c) where
  proper := trivial
  once _ hsc := Option.some.inj hsc ▸ h

theorem orderly_own {past : List (Event CallOp.Ret)} {o : Op} (h : Quiet o) :
    Orderly past (.own o) where
  proper := h
  once sc hsc := by
    have hnone : opens o = some sc := hsc
    rw [h.2] at hnone
    cases hnone

theorem disciplined_own {p : Prog Op.Ret α} (hp : p.Within Quiet)
    (past : List (Event CallOp.Ret)) : (own p).Disciplined Orderly past := by
  refine Within.disciplined_interpret (fun o ho past => ?_) hp past
  exact ⟨orderly_own ho, fun _ => trivial⟩

theorem disciplined_clock {past : List (Event CallOp.Ret)} {f : Int → Prog CallOp.Ret α}
    (hf : ∀ now, (f now).Disciplined Orderly (past ++ [⟨.own .systemClock, now⟩])) :
    (own systemClock >>= f).Disciplined Orderly past :=
  ⟨orderly_own ⟨rfl, rfl⟩, hf⟩

section Handlers
variable (impl : LogicServiceImpl)

theorem quiet_forward (msg : ChatMsg) (addr : Option Text) :
    (impl.forward msg addr).Within Quiet := by
  cases addr with
  | none => trivial
  | some addr => exact ⟨⟨rfl, rfl⟩, fun _ => trivial⟩

theorem quiet_clock : (time .sendMsg).Within Quiet := ⟨⟨rfl, rfl⟩, fun _ => trivial⟩

theorem quiet_getUploadUrl (r : GetUploadUrlReq) : (impl.getUploadUrl r).Within Quiet :=
  within_uploads impl ⟨rfl, rfl⟩ (fun _ _ _ => ⟨rfl, rfl⟩) (fun _ _ => ⟨rfl, rfl⟩)
    (fun _ => ⟨rfl, rfl⟩) r

theorem nothing_called (sc : Scope) :
    ∀ ev ∈ ([] : List (Event CallOp.Ret)), ev.1.scope ≠ some sc :=
  fun _ hev => absurd hev List.not_mem_nil

theorem disciplined_call {past : List (Event CallOp.Ret)} {c : ClientCall}
    {f : c.Ret → Prog CallOp.Ret α} (hc : ∀ ev ∈ past, ev.1.scope ≠ some c.scope)
    (hf : ∀ r, (f r).Disciplined Orderly (past ++ [⟨.client c, r⟩])) :
    (client c >>= f).Disciplined Orderly past :=
  ⟨orderly_client hc, hf⟩

theorem orderly_one {c : ClientCall} {f : c.Ret → Prog CallOp.Ret α}
    (hf : ∀ r, (f r).finished = true) : (client c >>= f).Disciplined Orderly [] :=
  disciplined_call (nothing_called _) fun r => disciplined_of_finished (hf r)

theorem orderly_calls (req : Request) : (calls impl req).Disciplined Orderly [] := by
  cases req with
  | login r =>
    refine disciplined_map _ (disciplined_call (nothing_called _) fun db_password => ?_)
    refine disciplined_ite.mpr ⟨fun _ => disciplined_call ?_ fun _ => trivial, fun _ => trivial⟩
    simp [CallOp.scope, ClientCall.scope]
  | sendMsg r =>
    refine disciplined_map _ (disciplined_call (nothing_called _) fun friends => ?_)
    refine disciplined_ite.mpr ⟨fun _ => trivial, fun _ => ?_⟩
    refine disciplined_clock fun msg_id => disciplined_call ?_ fun saved =>
      disciplined_call ?_ fun addr => ?_
    · simp [CallOp.scope, ClientCall.scope, opens]
    · simp [CallOp.scope, ClientCall.scope, opens]
    · apply disciplined_bind (disciplined_own (quiet_forward impl r.msg addr) _)
      intro _ past
      exact disciplined_bind (disciplined_own quiet_clock _) fun _ _ => trivial
  | syncMsg r => exact disciplined_map _ (orderly_one fun _ => rfl)
  | registerUser r =>
    refine disciplined_map _ (orderly_one fun uid => ?_)
    split <;> rfl
  | httpLogin r =>
    refine disciplined_map _ (disciplined_call (nothing_called _) fun answer => ?_)
    refine disciplined_ite.mpr ⟨fun _ => disciplined_call ?_ fun _ => trivial, fun _ => trivial⟩
    simp [CallOp.scope, ClientCall.scope]
  | getUploadUrl r => exact disciplined_map _ (disciplined_own (quiet_getUploadUrl impl r) [])
  | sendFriendRequest r =>
    refine disciplined_map _ (orderly_one fun id => ?_)
    cases id <;> rfl
  | respondFriendRequest r =>
    refine disciplined_map _ (disciplined_ite.mpr ⟨fun _ => ?_, fun _ => ?_⟩)
    · apply orderly_one
      intro accepted
      split <;> rfl
    · exact orderly_one fun _ => rfl
  | listFriends r => exact disciplined_map _ (orderly_one fun _ => rfl)
  | getFriendRequests r => exact disciplined_map _ (orderly_one fun _ => rfl)

def guardedHandle (req : Request) : Prog (Guarded.Ret Op.Ret) Reply :=
  (calls impl req).interpret CallOp.guarded

theorem erase_guardedHandle (req : Request) : (guardedHandle impl req).erase = handle impl req :=
  (erase_interpret CallOp.erase_guarded _).trans (interpret_calls impl req)

theorem nested_callOp {o : CallOp} (ho : o.Proper) : o.guarded.Nested takes allowed none := by
  cases o with
  | client c => exact nested_client (client_body c)
  | own o =>
    refine ⟨allowed_of_inside ho.1 none, fun r => ?_⟩
    rw [takes_of_opens ho.2 r]
    rfl

theorem nested_guardedHandle (req : Request) :
    (guardedHandle impl req).Nested takes allowed none :=
  ((orderly_calls impl req).within_of fun _ _ h => h.proper).nested_interpret
    fun _ => nested_callOp

def Unopened (past : List (Event Op.Ret)) (o : Op) : Prop :=
  ∀ sc, opens o = some sc → ∀ ev ∈ past, opens ev.1 ≠ some sc

def Called (fine : List (Event Op.Ret)) (coarse : List (Event CallOp.Ret)) : Prop :=
  ∀ ev ∈ fine, ∀ sc, opens ev.1 = some sc → ∃ ev' ∈ coarse, ev'.1.scope = some sc

theorem called_nil : Called [] [] := fun _ hev => absurd hev List.not_mem_nil

theorem opens_body (o : CallOp) : o.body.Within fun o' => ∀ sc, opens o' = some sc →
    o.scope = some sc := by
  cases o with
  | own o => exact ⟨fun _ h => h, fun _ => trivial⟩
  | client c =>
    have hclient := client_body c
    cases hbody : c.body with
    | ret a => rw [CallOp.body, hbody]; trivial
    | throw => rw [CallOp.body, hbody]; trivial
    | op o k =>
      rw [hbody] at hclient
      rw [CallOp.body, hbody]
      refine ⟨fun sc h => hclient.1.symm.trans h, fun r => (hclient.2 r).1.mono ?_⟩
      intro o ho sc h
      rw [opens_of_inside ho] at h
      cases h

theorem renders_called : Renders CallOp.body Called := by
  intro o fine coarse hcalled
  have hkept : ∀ past : List (Event Op.Ret), ∀ ev : Event Op.Ret,
      (∀ sc, opens ev.1 = some sc → o.scope = some sc) →
      (∀ ev ∈ past, ∀ sc, opens ev.1 = some sc →
        o.scope = some sc ∨ ∃ ev' ∈ coarse, ev'.1.scope = some sc) →
      ∀ ev' ∈ past ++ [ev], ∀ sc, opens ev'.1 = some sc →
        o.scope = some sc ∨ ∃ ev' ∈ coarse, ev'.1.scope = some sc := by
    intro past ev hev hpast
    rw [List.forall_mem_append]
    exact ⟨hpast, List.forall_mem_singleton.mpr fun sc hsc => .inl (hev sc hsc)⟩
  refine ((opens_body o).concludes_stable hkept fun ev hev sc hsc =>
    .inr (hcalled ev hev sc hsc)).mono fun past r hpast ev hev sc hsc => ?_
  rcases hpast ev hev sc hsc with hscope | ⟨ev', hev', hscope⟩
  · exact ⟨_, List.mem_append_right _ (List.mem_singleton_self _), hscope⟩
  · exact ⟨ev', List.mem_append_left _ hev', hscope⟩

theorem unopened_body {o : CallOp} {past : List (Event Op.Ret)}
    (h : ∀ sc, o.scope = some sc → ∀ ev ∈ past, opens ev.1 ≠ some sc) :
    o.body.Disciplined Unopened past := by
  cases o with
  | own o => exact ⟨h, fun _ => trivial⟩
  | client c =>
    have hclient := client_body c
    rw [CallOp.body]
    cases hbody : c.body with
    | ret a => trivial
    | throw => trivial
    | op o k =>
      rw [hbody] at hclient
      obtain ⟨hopens, hrest⟩ := hclient
      refine ⟨fun sc hsc => h sc (hopens.symm.trans hsc), fun r => ?_⟩
      apply (hrest r).1.disciplined
      intro more o ho sc hsc
      rw [opens_of_inside ho] at hsc
      cases hsc

theorem unopened_handle (req : Request) : (handle impl req).Disciplined Unopened [] := by
  rw [← interpret_calls]
  refine (orderly_calls impl req).interpret renders_called ?_ called_nil
  intro o fine coarse hcalled horderly
  apply unopened_body
  intro sc hsc ev hev hopens
  obtain ⟨ev', hev', hscope⟩ := hcalled ev hev sc hopens
  exact horderly.once sc hsc ev' hev' hscope

end Handlers
end LetsChat.LogicServer
