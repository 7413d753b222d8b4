import LetsChat.EndToEnd.Safety
import LetsChat.Registration

/-! The users over any interleaving: what a statement told about them stays true, and no uid is
drawn twice. -/

namespace LetsChat.EndToEnd
open Lib Prog Machine PooledDbClient

variable {τ : Type}

def drawnId : Event (Op.Ret (τ := τ)) → Option Int
  | ⟨.logic (.pqExec _ (.insertUser _ _ _)), res⟩ =>
    let res : PGresult := res
    if res.status = .PGRES_TUPLES_OK then stoll (res.getvalue 0 0) else none
  | _ => none

def IsUser (rows : List UserRow) (r : RegisterReq) (uid : Int) : Prop :=
  ∃ row ∈ rows, row.id = uid ∧ row.email = r.email ∧ varchar 50 r.nickname = some row.username ∧
    varchar 50 r.password = some row.password

def IsFirst (rows : List UserRow) (email : Text) (res : PGresult) : Prop :=
  ∃ row ∈ rows, row.email = email ∧ res.getvalue 0 0 = to_string row.id ∧
    res.getvalue 0 1 = row.username ∧ res.getvalue 0 2 = row.password

def Attests (rows : List UserRow) : Event (Op.Ret (τ := τ)) → Prop
  | ⟨.logic (.pqExec _ (.insertUser username password email)), res⟩ =>
    let res : PGresult := res
    res.status = .PGRES_TUPLES_OK → ∀ uid, stoll (res.getvalue 0 0) = some uid →
      IsUser rows ⟨email, username, password⟩ uid
  | ⟨.logic (.pqExec _ (.selectUserByEmail email)), res⟩ =>
    let res : PGresult := res
    res.status = .PGRES_TUPLES_OK → res.ntuples ≠ 0 → IsFirst rows email res
  | _ => True

theorem Attests.mono {rows rows' : List UserRow} (hsub : rows ⊆ rows')
    {ev : Event (Op.Ret (τ := τ))} (h : Attests rows ev) : Attests rows' ev := by
  have hinserted : ∀ {r uid}, IsUser rows r uid → IsUser rows' r uid := by
    rintro r uid ⟨row, hrow, heq⟩
    exact ⟨row, hsub hrow, heq⟩
  have hfound : ∀ {email res}, IsFirst rows email res → IsFirst rows' email res := by
    rintro email res ⟨row, hrow, heq⟩
    exact ⟨row, hsub hrow, heq⟩
  obtain ⟨o, res⟩ := ev
  cases o with
  | logic o =>
    cases o with
    | pqExec site q =>
      cases q with
      | insertUser => exact fun hstatus uid huid => hinserted (h hstatus uid huid)
      | selectUserByEmail => exact fun hstatus hne => hfound (h hstatus hne)
      | _ => trivial
    | _ => trivial
  | _ => trivial

theorem insertUser_exec (username password email : Text) (t : Tables) :
    Query.exec (.insertUser username password email) t = (.fatal, t) ∨
    ∃ name pass, varchar 50 username = some name ∧ varchar 50 password = some pass ∧
      Query.exec (.insertUser username password email) t = (.tuples [[to_string t.t_user.next]],
        { t with t_user := t.t_user.insert (fun id => ⟨id, name, pass, email⟩) fun _ => rfl }) := by
  rw [Query.exec]
  cases varchar 50 username with
  | none => exact .inl rfl
  | some name =>
    cases varchar 50 password with
    | none => exact .inl rfl
    | some pass =>
      dsimp only
      split
      · exact .inl rfl
      · exact .inr ⟨name, pass, rfl, rfl, rfl⟩

theorem user_exec {q : Query} (hq : ∀ username password email, q ≠ .insertUser username password email)
    (t : Tables) : (q.exec t).2.t_user = t.t_user := by
  cases q with
  | insertUser username password email => exact absurd rfl (hq _ _ _)
  | insertFriend uid friend_uid now =>
    rw [Query.exec]
    split <;> rfl
  | _ => rfl

section Statements
variable {e : LetsChat.Env} (hintended : e.unquoted = Query.exec)
include hintended

theorem pqExec_returned {site : Site} {q : Query} {t : Tables}
    (hstatus : (e.pqExec site q t).1.status = .PGRES_TUPLES_OK) : e.pqExec site q t = q.exec t := by
  have hserve : ∀ q t, e.serve q t = q.exec t := serve_intended ⟨e, hintended⟩
  cases hstmt : e.stmt site with
  | done => rw [e.pqExec_done hstmt, hserve]
  | _ =>
    rw [Env.pqExec_fst, if_neg (by rw [hstmt]; exact nofun)] at hstatus
    cases hstatus

theorem attests_pqExec (site : Site) (q : Query) (t : Tables) :
    Attests (τ := τ) (e.pqExec site q t).2.t_user.rows
      ⟨.logic (.pqExec site q), (e.pqExec site q t).1⟩ := by
  cases q with
  | insertUser username password email =>
    intro hstatus uid huid
    have hdone := pqExec_returned hintended hstatus
    rw [hdone] at hstatus huid ⊢
    rcases insertUser_exec username password email t with hfatal | ⟨name, pass, hname, hpass, hnew⟩
    · rw [hfatal] at hstatus
      cases hstatus
    · rw [hnew] at huid ⊢
      have hid : t.t_user.next = uid := Option.some.inj ((stoll_to_string _).symm.trans huid)
      refine ⟨⟨t.t_user.next, name, pass, email⟩, ?_, hid, rfl, hname, hpass⟩
      exact List.mem_append_right _ (List.mem_singleton_self _)
  | selectUserByEmail email =>
    intro hstatus hne
    rw [pqExec_returned hintended hstatus] at hne ⊢
    cases hrows : t.t_user.rows.filter fun r => r.email = email with
    | nil =>
      rw [Query.exec, hrows] at hne
      exact absurd rfl hne
    | cons row rows =>
      have hrow : row ∈ t.t_user.rows.filter fun r => r.email = email := by
        rw [hrows]
        exact List.mem_cons_self
      obtain ⟨hmem, hemail⟩ := List.mem_filter.mp hrow
      refine ⟨row, hmem, of_decide_eq_true hemail, ?_⟩
      rw [Query.exec, hrows]
      exact ⟨rfl, rfl, rfl⟩
  | _ => trivial

theorem drawnId_pqExec {site : Site} {q : Query} {t : Tables} {uid : Int}
    (h : drawnId (τ := τ) ⟨.logic (.pqExec site q), (e.pqExec site q t).1⟩ = some uid) :
    uid = t.t_user.next ∧ (e.pqExec site q t).2.t_user.next = uid + 1 := by
  cases q with
  | insertUser username password email =>
    obtain ⟨hstatus, hread⟩ := Option.ite_none_right_eq_some.mp h
    have hdone := pqExec_returned hintended hstatus
    rw [hdone] at hstatus hread ⊢
    rcases insertUser_exec username password email t with hfatal | ⟨name, pass, -, -, hnew⟩
    · rw [hfatal] at hstatus
      cases hstatus
    · rw [hnew] at hread ⊢
      obtain rfl : t.t_user.next = uid := Option.some.inj ((stoll_to_string _).symm.trans hread)
      exact ⟨rfl, rfl⟩
  | _ => cases h

theorem users_pqExec (site : Site) (q : Query) (t : Tables) :
    t.t_user.rows <+: (e.pqExec site q t).2.t_user.rows ∧
      t.t_user.next ≤ (e.pqExec site q t).2.t_user.next := by
  have hserve : ∀ q t, e.serve q t = q.exec t := serve_intended ⟨e, hintended⟩
  rw [Env.pqExec_snd, hserve]
  split
  · exact ⟨List.prefix_refl _, Int.le_refl _⟩
  by_cases hq : ∀ username password email, q ≠ .insertUser username password email
  · rw [user_exec hq]
    exact ⟨List.prefix_refl _, Int.le_refl _⟩
  · simp only [not_forall, not_not] at hq
    obtain ⟨username, password, email, rfl⟩ := hq
    rcases insertUser_exec username password email t with hfatal | ⟨name, pass, -, -, hnew⟩
    · rw [hfatal]
      exact ⟨List.prefix_refl _, Int.le_refl _⟩
    · rw [hnew]
      exact ⟨List.prefix_append _ _, Int.le_of_lt (Int.lt_succ _)⟩

end Statements

def userTable (s : State τ) : SerialTable UserRow UserRow.id := s.world.tables.t_user

def drawn (c : Running τ) : List Int := c.threads.flatMap fun t => t.past.filterMap drawnId

theorem drawn_snoc (past : Events τ) (ev : Event (Op.Ret (τ := τ))) :
    (past ++ [ev]).filterMap drawnId = past.filterMap drawnId ++ (drawnId ev).toList := by
  rw [List.filterMap_append, List.filterMap_cons, List.filterMap_nil]
  cases drawnId ev <;> rfl

structure UsersKept (w : World) (c : Running τ) : Prop where
  kept : w.tables.t_user.rows <+: (userTable c.shared).rows
  attests : ∀ t ∈ c.threads, ∀ ev ∈ t.past, Attests (userTable c.shared).rows ev
  nodup : (drawn c).Nodup
  below : ∀ uid ∈ drawn c, w.tables.t_user.next ≤ uid ∧ uid < (userTable c.shared).next
  next : w.tables.t_user.next ≤ (userTable c.shared).next

section Steps
variable [DecidableEq τ] (gw : Gateway.Params) {e : Env}

theorem users_exec (hintended : e.logic.unquoted = Query.exec) (o : Op τ) (s : State τ) :
    (userTable s).rows <+: (userTable (e.exec gw o s).2).rows ∧
      (userTable s).next ≤ (userTable (e.exec gw o s).2).next := by
  have hsame : (e.exec gw o s).2.world.tables = s.world.tables →
      (userTable s).rows <+: (userTable (e.exec gw o s).2).rows ∧
        (userTable s).next ≤ (userTable (e.exec gw o s).2).next := by
    intro h
    unfold userTable
    rw [h]
    exact ⟨List.prefix_refl _, Int.le_refl _⟩
  rcases tables_exec gw e s o with h | ⟨op, rfl, hop⟩
  · exact hsame h
  · cases op with
    | pqExec site q => exact users_pqExec hintended site q s.world.tables
    | _ => exact hsame hop

theorem attests_exec (hintended : e.logic.unquoted = Query.exec) (o : Op τ) (s : State τ) :
    Attests (userTable (e.exec gw o s).2).rows ⟨o, (e.exec gw o s).1⟩ := by
  cases o with
  | logic o =>
    cases o with
    | pqExec site q => exact attests_pqExec hintended site q s.world.tables
    | _ => trivial
  | _ => trivial

theorem drawnId_exec (hintended : e.logic.unquoted = Query.exec) {o : Op τ} {s : State τ} {uid : Int}
    (h : drawnId ⟨o, (e.exec gw o s).1⟩ = some uid) :
    uid = (userTable s).next ∧ (userTable (e.exec gw o s).2).next = uid + 1 := by
  cases o with
  | logic o =>
    cases o with
    | pqExec site q => exact drawnId_pqExec hintended h
    | _ => cases h
  | _ => cases h

variable {gw} {w : World} {c c' : Running τ} {i : Input τ} {out : Output τ}
variable {json : Gateway.Nlohmann} {impl : LogicServiceImpl}

theorem usersKept_step (hc : UsersKept w c) (hintended : Intended c')
    (h : (interleaving (body gw json impl) (Env.exec gw)).step c i = some (out, c')) :
    UsersKept w c' := by
  rcases interleaving_step h with
    ⟨call, e, rfl, rfl⟩ | ⟨k, call, e, past, o, next, rfl, hk, hc'⟩
  · have hdrawn : drawn { c with threads := c.threads ++ [⟨call, e, [], body gw json impl call⟩] } =
        drawn c := by
      unfold drawn
      rw [List.flatMap_append]
      exact List.append_nil _
    refine ⟨hc.kept, fun t ht ev hev => ?_, hdrawn ▸ hc.nodup, hdrawn ▸ hc.below, hc.next⟩
    rcases List.mem_append.mp ht with ht | ht
    · exact hc.attests t ht ev hev
    · obtain rfl := List.mem_singleton.mp ht
      exact absurd hev List.not_mem_nil
  · have henv : e.logic.unquoted = Query.exec := by
      rw [hc'] at hintended
      exact hintended _ (mem_set_self hk _)
    have hgrow := users_exec gw henv o c.shared
    have hshared : c'.shared = (e.exec gw o c.shared).2 := by rw [hc']
    rw [← hshared] at hgrow
    have hperm : (drawn c').Perm (drawn c ++ (drawnId ⟨o, (e.exec gw o c.shared).1⟩).toList) := by
      rw [hc']
      exact flatMap_set_perm (fun t => t.past.filterMap drawnId) hk (b := ⟨call, e,
        past ++ [⟨o, (e.exec gw o c.shared).1⟩], next (e.exec gw o c.shared).1⟩) (drawn_snoc past _)
    have hnew : ∀ uid, drawnId ⟨o, (e.exec gw o c.shared).1⟩ = some uid →
        uid = (userTable c.shared).next ∧ uid < (userTable c'.shared).next := by
      intro uid huid
      obtain ⟨hdraws, hnext⟩ := drawnId_exec gw henv huid
      refine ⟨hdraws, ?_⟩
      rw [hshared, hnext]
      exact Int.lt_succ _
    refine
      { kept := hc.kept.trans hgrow.1
        attests := ?_
        nodup := ?_
        below := ?_
        next := Int.le_trans hc.next hgrow.2 }
    · refine events_step (P := fun ev s => Attests (userTable s).rows ev)
        (fun ev hev => hev.mono hgrow.1.subset) ?_ hc.attests h
      rintro _ t o' next' ⟨⟩ hk' hrest
      obtain rfl := Option.some.inj (hk.symm.trans hk')
      exact attests_exec gw henv o' c.shared
    · refine hperm.nodup_iff.mpr (List.nodup_append.mpr ⟨hc.nodup, ?_, ?_⟩)
      · cases drawnId ⟨o, (e.exec gw o c.shared).1⟩ with
        | none => exact List.nodup_nil
        | some uid => exact List.nodup_singleton uid
      · -- what was drawn before is below the next uid
        rintro a ha b hb rfl
        have hlt := (hc.below a ha).2
        rw [(hnew a (Option.mem_toList.mp hb)).1] at hlt
        exact Int.lt_irrefl _ hlt
    · intro uid huid
      rcases List.mem_append.mp (hperm.mem_iff.mp huid) with huid | huid
      · exact ⟨(hc.below uid huid).1, Int.lt_of_lt_of_le (hc.below uid huid).2 hgrow.2⟩
      · obtain ⟨hdraws, hlt⟩ := hnew uid (Option.mem_toList.mp huid)
        exact ⟨hdraws ▸ hc.next, hlt⟩

theorem everyState_usersKept (gw : Gateway.Params) (json : Gateway.Nlohmann)
    (impl : LogicServiceImpl) (w : World) (is : List (Input τ)) :
    (system gw json impl).EveryState
      (fun _ c => WellTraced (body gw json impl) c ∧ (Intended c → UsersKept w c)) []
      ⟨.start w, []⟩ is := by
  refine everyState_of_invariant
    (I := fun _ c => WellTraced (body gw json impl) c ∧ (Intended c → UsersKept w c)) ?_
    ⟨fun _ ht => absurd ht List.not_mem_nil, fun _ => ?_⟩
  · rintro h c i o c' ⟨htraced, hkept⟩ hs
    have hstep := (restrict_step hs).2
    refine ⟨wellTraced_step htraced hstep, fun hintended => ?_⟩
    exact usersKept_step (hkept ((grows_step hstep).intended hintended)) hintended hstep
  · exact ⟨List.prefix_refl _, fun _ ht => absurd ht List.not_mem_nil, List.nodup_nil,
      fun _ huid => absurd huid List.not_mem_nil, Int.le_refl _⟩

end Steps

end LetsChat.EndToEnd
