import LetsChat.Footprint

/-! The functions of `PooledDbClient` that make one statement, and what is left of a call once
its last statement is made. -/

namespace LetsChat
open Lib Prog PooledDbClient LogicServiceImpl

/-- A connection, the clock where the statement has a time in it, the statement, and no
operation behind it. -/
inductive OneStatement {α : Type} (site : Site) : Prog Op.Ret α → Prop
  | query (x : α) (q : Query) (f : PGresult → Prog Op.Ret α) :
    (∀ res, (f res).finished = true) →
    OneStatement site (acquire site >>= fun g =>
      if (!g) = true then ret x else pqExec site q >>= f)
  | stamped (x : α) (q : Int → Query) (f : PGresult → Prog Op.Ret α) :
    (∀ res, (f res).finished = true) →
    OneStatement site (acquire site >>= fun g =>
      if (!g) = true then ret x else time site >>= fun now => pqExec site (q now) >>= f)

theorem finished_ofOption {α : Type} (a : Option α) :
    (ofOption a : Prog Op.Ret α).finished = true := by
  cases a <;> rfl

theorem finished_ofOption_bind {α β : Type} (a : Option α) (f : α → β) :
    (ofOption a >>= fun x => ret (f x) : Prog Op.Ret β).finished = true := by
  cases a <;> rfl

theorem finished_ite {α : Type} {c : Prop} [Decidable c] {p q : Prog Op.Ret α}
    (hp : p.finished = true) (hq : q.finished = true) :
    (if c then p else q).finished = true := by
  split
  · exact hp
  · exact hq

theorem oneStatement_execute (sql : Query) : OneStatement .execute (execute sql) :=
  .query _ _ _ fun _ => finished_ite rfl rfl

theorem oneStatement_getUserPassword (uid : Int) :
    OneStatement .getUserPassword (getUserPassword uid) :=
  .query _ _ _ fun _ => finished_ite rfl (finished_ite rfl rfl)

theorem oneStatement_saveMessage (msg_id : Text) (from_uid to_uid : Int) (content : Text) :
    OneStatement .saveMessage (saveMessage msg_id from_uid to_uid content) :=
  .stamped _ (fun now => .insertChatMsg msg_id from_uid to_uid content now) _
    fun _ => finished_ite rfl rfl

theorem oneStatement_getofflineMsgs (uid last_msg_id : Int) :
    OneStatement .getofflineMsgs (getofflineMsgs uid last_msg_id) :=
  .query _ _ _ fun _ => finished_ite rfl (finished_ofOption _)

theorem oneStatement_createUser (username password email : Text) :
    OneStatement .createUser (createUser username password email) :=
  .query _ _ _ fun _ => finished_ite rfl (finished_ofOption _)

theorem oneStatement_checkUserByEmail (email password : Text) (user_info : HttpLoginRes) :
    OneStatement .checkUserByEmail (checkUserByEmail email password user_info) :=
  .query _ _ _ fun _ => finished_ite rfl (finished_ite rfl (finished_ofOption_bind _ _))

theorem oneStatement_createFriendRequest (from_uid to_uid : Int) (reason : Text) :
    OneStatement .createFriendRequest (createFriendRequest from_uid to_uid reason) :=
  .stamped _ (fun now => .insertFriendRequest from_uid to_uid reason now) _
    fun _ => finished_ite rfl (finished_ofOption_bind _ _)

theorem oneStatement_getFriendRequestsForUser (uid : Int) :
    OneStatement .getFriendRequestsForUser (getFriendRequestsForUser uid) :=
  .query _ _ _ fun _ => finished_ite rfl (finished_ofOption _)

theorem oneStatement_areFriends (uid1 uid2 : Int) :
    OneStatement .areFriends (areFriends uid1 uid2) :=
  .query _ _ _ fun _ => rfl

theorem oneStatement_listFriends (uid : Int) :
    OneStatement .listFriends (PooledDbClient.listFriends uid) :=
  .query _ _ _ fun _ => finished_ite rfl (finished_ofOption _)

def isStatement : Op → Bool
  | .pqExec _ _ => true
  | _ => false

def Plain (o : Op) : Prop := isStatement o = false

def AtMostOne {α : Type} : Prog Op.Ret α → Prop
  | .ret _ => True
  | .throw => True
  | .op o k => (isStatement o = true → ∀ r, (k r).Within Plain) ∧ (Plain o → ∀ r, AtMostOne (k r))

section AtMostOne
variable {α β : Type} {p : Prog Op.Ret α} {f : α → Prog Op.Ret β}

theorem atMostOne_of_plain (hp : p.Within Plain) : AtMostOne p := by
  induction p with
  | ret a => trivial
  | throw => trivial
  | op o k ih => exact ⟨fun _ => hp.2, fun _ r => ih r (hp.2 r)⟩

theorem atMostOne_bind (hp : AtMostOne p) (hf : ∀ a, (f a).Within Plain) :
    AtMostOne (p >>= f) := by
  induction p with
  | ret a => exact atMostOne_of_plain (hf a)
  | throw => trivial
  | op o k ih => exact ⟨fun ho r => within_bind (hp.1 ho r) hf, fun ho r => ih r (hp.2 ho r)⟩

theorem OneStatement.atMostOne {site : Site} (h : OneStatement site p) : AtMostOne p := by
  have hafter : ∀ {f : PGresult → Prog Op.Ret α}, (∀ res, (f res).finished = true) →
      ∀ q, AtMostOne (pqExec site q >>= f) := by
    intro f hf q
    exact ⟨fun _ res => within_of_finished (hf res), nofun⟩
  cases h with
  | query x q f hf =>
    refine ⟨nofun, fun _ g => ?_⟩
    cases g with
    | false => trivial
    | true => exact hafter hf q
  | stamped x q f hf =>
    refine ⟨nofun, fun _ g => ?_⟩
    cases g with
    | false => trivial
    | true => exact ⟨nofun, fun _ now => hafter hf (q now)⟩

end AtMostOne
end LetsChat
