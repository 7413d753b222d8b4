import LetsChat.LogicService

/-! Whether a registered user gets in again: over HTTP with the email and the password, and
from there with the token. -/

namespace LetsChat
open Lib Prog Machine PooledDbClient LogicServiceImpl

def registering : Machine World (RegisterReq × ServingEnv) (Option RegisterRes) where
  step w i := some ((registerUser i.1).run i.2.env.exec w)

def firstUser (t : Tables) (email : Text) : Option UserRow :=
  (t.t_user.rows.filter fun r => r.email = email).head?

theorem varchar_eq_some {n : Nat} {s stored : Text} (h : varchar n s = some stored) :
    stored = s ↔ s.length ≤ n := by
  unfold varchar at h
  by_cases hlen : s.length ≤ n
  · rw [if_pos hlen] at h
    exact iff_of_true (Option.some.inj h).symm hlen
  · rw [if_neg hlen] at h
    refine iff_of_false (fun heq => ?_) hlen
    split at h
    · -- only blanks were cut off, but something was
      have hstored := Option.some.inj h
      rw [heq] at hstored
      have htake := congrArg List.length hstored
      rw [List.length_take] at htake
      omega
    · cases h

/-- The constraints of the schema refuse the user. -/
def Refused (t : Tables) (username password : Text) : Prop :=
  ∀ name pass, varchar 50 username = some name → varchar 50 password = some pass →
    ∃ row ∈ t.t_user.rows, row.username = name

theorem insertUser_cases (t : Tables) (username password email : Text) :
    (Refused t username password ∧ Query.exec (.insertUser username password email) t = (.fatal, t)) ∨
    ∃ name pass, varchar 50 password = some pass ∧
      Query.exec (.insertUser username password email) t =
        (.tuples [[to_string t.t_user.next]],
          { t with t_user := t.t_user.insert (fun id => ⟨id, name, pass, email⟩) fun _ => rfl }) := by
  rw [Query.exec]
  unfold Refused
  cases varchar 50 username with
  | none => exact .inl ⟨fun name pass hname => (by cases hname), rfl⟩
  | some name =>
    cases varchar 50 password with
    | none => exact .inl ⟨fun name pass _ hpass => (by cases hpass), rfl⟩
    | some pass =>
      dsimp only
      split
      · next hused =>
        refine .inl ⟨fun name' pass' hname _ => ?_, rfl⟩
        obtain ⟨row, hrow, hsame⟩ := List.any_eq_true.mp hused
        exact ⟨row, hrow, (of_decide_eq_true hsame).trans (Option.some.inj hname)⟩
      · exact .inr ⟨name, pass, rfl, rfl⟩

section Handlers
variable {e : Env} (he : e.Serves) (w : World)
include he

theorem registerUser_cases (r : RegisterReq) (hnext : 0 < w.tables.t_user.next) :
    (Refused w.tables r.nickname r.password ∧
      ∃ res, (registerUser r).run e.exec w = (some res, w) ∧ res.err_code ≠ 0) ∨
    ∃ name pass, varchar 50 r.password = some pass ∧
      (registerUser r).run e.exec w = (some { err_code := 0, uid := w.tables.t_user.next },
        { w with
          tables := { w.tables with
            t_user := w.tables.t_user.insert (fun id => ⟨id, name, pass, r.email⟩) fun _ => rfl } }) := by
  have hcreate := run_served he w .createUser (.insertUser r.nickname r.password r.email) (-1)
    (k := fun res => if res.status ≠ .PGRES_TUPLES_OK then ret (-1)
      else ofOption (stoll (res.getvalue 0 0))) fun w => by simp
  rcases insertUser_cases w.tables r.nickname r.password r.email with
    ⟨hrefused, hfatal⟩ | ⟨name, pass, hpass, hdone⟩
  · rw [hfatal] at hcreate
    have hrun : (registerUser r).run e.exec w = _ := run_bind_of _ hcreate
    exact .inl ⟨hrefused, _, hrun, by decide⟩
  · rw [hdone] at hcreate
    have hnew : (createUser r.nickname r.password r.email).run e.exec w =
        (some w.tables.t_user.next, { w with
          tables := { w.tables with
            t_user := w.tables.t_user.insert (fun id => ⟨id, name, pass, r.email⟩) fun _ => rfl } }) := by
      apply hcreate.trans
      simp [PGresult.getvalue]
    have hrun : (registerUser r).run e.exec w = _ := run_bind_of _ hnew
    rw [if_pos hnext] at hrun
    exact .inr ⟨name, pass, hpass, hrun⟩

theorem run_httpLogin (r : HttpLoginReq) :
    ∃ redis, (httpLogin r).run e.exec w =
      match (firstUser w.tables r.email).filter fun row => row.password = r.password with
      | some row =>
        (some { err_code := 0, uid := row.id, token := row.password, nickname := row.username },
          { w with redis })
      | none => (some { err_code := 1, err_msg := "Invaild email or passwrod".toList }, w) := by
  have hcheck : (checkUserByEmail r.email r.password {}).run e.exec w =
      match (firstUser w.tables r.email).filter fun row => row.password = r.password with
      | some row =>
        (some (true, { uid := row.id, nickname := row.username, token := row.password }), w)
      | none => (some (false, {}), w) := by
    refine (run_served he w .checkUserByEmail (.selectUserByEmail r.email)
      (false, ({} : HttpLoginRes)) fun w => by simp).trans ?_
    unfold firstUser
    rw [Query.exec]
    cases hrows : w.tables.t_user.rows.filter fun row => row.email = r.email with
    | nil => simp
    | cons row rows =>
      by_cases hpass : row.password = r.password
      · simp [PGresult.getvalue, hpass, Option.filter]
      · simp [PGresult.getvalue, hpass, Option.filter]
  cases hfound : (firstUser w.tables r.email).filter fun row => row.password = r.password with
  | none =>
    rw [hfound] at hcheck
    have hrun : (httpLogin r).run e.exec w = _ := run_bind_of _ hcheck
    exact ⟨w.redis, hrun⟩
  | some row =>
    rw [hfound] at hcheck
    have hrun : (httpLogin r).run e.exec w = _ := run_bind_of _ hcheck
    have hset := PooledRedisClient.run_set e w (tokenKey row.id) r.password
    exact ⟨_, hrun.trans (run_bind_of _ hset)⟩

theorem login_succeeds_iff (uid : Int) (token : Text) :
    (∃ res w', (login { uid, token }).run e.exec w = (some res, w') ∧ res.err_code = .ERR_SUCCESS) ↔
      ∃ row, w.tables.t_user.find uid = some row ∧ row.password ≠ [] ∧ row.password = token := by
  have haccept : TokenAccepted e w.tables { uid, token } ↔
      ∃ row, w.tables.t_user.find uid = some row ∧ row.password ≠ [] ∧ row.password = token := by
    unfold TokenAccepted passwordOf
    rw [if_pos (he.returns _)]
    cases w.tables.t_user.find uid with
    | none => simp
    | some row => simp
  rw [run_login, ← haccept]
  by_cases h : TokenAccepted e w.tables { uid, token }
  · rw [if_pos h]
    exact iff_of_true ⟨_, _, rfl, rfl⟩ h
  · rw [if_neg h]
    refine iff_of_false ?_ h
    rintro ⟨res, w', hrun, hok⟩
    cases hrun
    cases hok

end Handlers

/-- With the credentials of the registration, `HttpLogin` finds the user and gives out a token
that `Login` accepts. -/
def Enters (e₁ e₂ : Env) (w : World) (r : RegisterReq) (uid : Int) : Prop :=
  ∃ reply w₁, (httpLogin ⟨r.email, r.password⟩).run e₁.exec w = (some reply, w₁) ∧
    reply.err_code = 0 ∧ reply.uid = uid ∧
    ∃ res w₂, (login { uid, token := reply.token }).run e₂.exec w₁ = (some res, w₂) ∧
      res.err_code = .ERR_SUCCESS

theorem enters_iff {e₁ e₂ : Env} (he₁ : e₁.Serves) (he₂ : e₂.Serves) (w : World) (r : RegisterReq)
    (uid : Int) :
    Enters e₁ e₂ w r uid ↔ ∃ row, firstUser w.tables r.email = some row ∧
      row.password = r.password ∧ row.id = uid ∧ r.password ≠ [] := by
  obtain ⟨redis, hrun⟩ := run_httpLogin he₁ w ⟨r.email, r.password⟩
  constructor
  · rintro ⟨reply, w₁, hreply, hcode, huid, hlogin⟩
    rw [hrun] at hreply
    split at hreply
    · next row hfound =>
      obtain ⟨hfirst, hpass⟩ := Option.filter_eq_some_iff.mp hfound
      cases hreply
      obtain ⟨row', -, hne, htoken⟩ := (login_succeeds_iff he₂ _ _ _).mp hlogin
      have hpass : row.password = r.password := of_decide_eq_true hpass
      have htoken : row'.password = row.password := htoken
      refine ⟨row, hfirst, hpass, huid, ?_⟩
      rw [← hpass, ← htoken]
      exact hne
    · cases hreply
      cases hcode
  · rintro ⟨row, hfirst, hpass, huid, hne⟩
    have hfound : (firstUser w.tables r.email).filter (fun row => row.password = r.password) =
        some row := Option.filter_eq_some_iff.mpr ⟨hfirst, decide_eq_true hpass⟩
    rw [hfound] at hrun
    have hmem : row ∈ w.tables.t_user.rows :=
      (List.mem_filter.mp (List.mem_of_head? hfirst)).1
    have hfind : w.tables.t_user.find uid = some row :=
      (SerialTable.find_eq_some_iff _).mpr ⟨hmem, huid⟩
    refine ⟨_, _, hrun, rfl, huid, (login_succeeds_iff he₂ _ _ _).mpr ⟨row, hfind, ?_, rfl⟩⟩
    rw [hpass]
    exact hne

def RegisteredEnter (h : History (RegisterReq × ServingEnv) (Option RegisterRes)) (w : World) : Prop :=
  ∀ r e res, ((r, e), some res) ∈ h → res.err_code = 0 →
    ∀ e₁ e₂ : ServingEnv, Enters e₁.env e₂.env w r res.uid

/-- A registration is accepted only for a new email, and for a password that is neither empty
nor longer than its column. -/
def FreshCredentials :
    History (RegisterReq × ServingEnv) (Option RegisterRes) → World → RegisterReq × ServingEnv →
      Option RegisterRes → World → Prop :=
  fun _ w i o _ => ∀ res, o = some res → res.err_code = 0 →
    (∀ row ∈ w.tables.t_user.rows, row.email ≠ i.1.email) ∧ i.1.password ≠ [] ∧
      i.1.password.length ≤ 50

theorem firstUser_insert (t : Tables) (name pass email email' : Text) :
    firstUser { t with t_user := t.t_user.insert (fun id => ⟨id, name, pass, email⟩) fun _ => rfl } email' =
      (firstUser t email').or
        (if email = email' then some ⟨t.t_user.next, name, pass, email⟩ else none) := by
  unfold firstUser
  rw [SerialTable.rows_insert, List.filter_append, List.head?_append]
  congr 1
  by_cases h : email = email'
  · simp [h]
  · simp [h]

theorem firstUser_eq_none {t : Tables} {email : Text} :
    firstUser t email = none ↔ ∀ row ∈ t.t_user.rows, row.email ≠ email := by
  unfold firstUser
  rw [List.head?_eq_none_iff, List.filter_eq_nil_iff]
  simp only [decide_eq_true_eq, ne_eq]

theorem found_new_iff {t : Tables} {r : RegisterReq} {pass : Text} (name : Text)
    (hpass : varchar 50 r.password = some pass) :
    (∃ row, firstUser { t with
        t_user := t.t_user.insert (fun id => ⟨id, name, pass, r.email⟩) fun _ => rfl } r.email = some row ∧
      row.password = r.password ∧ row.id = t.t_user.next ∧ r.password ≠ []) ↔
    (∀ row ∈ t.t_user.rows, row.email ≠ r.email) ∧ r.password ≠ [] ∧ r.password.length ≤ 50 := by
  rw [firstUser_insert, if_pos rfl, ← firstUser_eq_none]
  constructor
  · rintro ⟨row, hfirst, hstored, hid, hne⟩
    cases hold : firstUser t r.email with
    | none =>
      rw [hold, Option.none_or, Option.some.injEq] at hfirst
      rw [← hfirst] at hstored
      exact ⟨rfl, hne, (varchar_eq_some hpass).mp hstored⟩
    | some old =>
      -- the earlier user with this email has a smaller id
      rw [hold, Option.some_or, Option.some.injEq] at hfirst
      have hmem : old ∈ t.t_user.rows := (List.mem_filter.mp (List.mem_of_head? hold)).1
      have hlt := t.t_user.below old hmem
      rw [hfirst, hid] at hlt
      exact absurd hlt (Int.lt_irrefl _)
  · rintro ⟨hnone, hne, hlen⟩
    rw [hnone, Option.none_or]
    exact ⟨_, rfl, (varchar_eq_some hpass).mpr hlen, rfl, hne⟩

theorem registeredEnter_snoc {h : History (RegisterReq × ServingEnv) (Option RegisterRes)} {w : World}
    (hknown : RegisteredEnter h w) (r : RegisterReq) (e : ServingEnv) {name pass : Text}
    (hpass : varchar 50 r.password = some pass) :
    let w' := { w with
      tables := { w.tables with
        t_user := w.tables.t_user.insert (fun id => ⟨id, name, pass, r.email⟩) fun _ => rfl } }
    RegisteredEnter (h ++ [((r, e), some { err_code := 0, uid := w.tables.t_user.next })]) w' ↔
      (∀ row ∈ w.tables.t_user.rows, row.email ≠ r.email) ∧ r.password ≠ [] ∧
        r.password.length ≤ 50 := by
  intro w'
  rw [← found_new_iff name hpass]
  constructor
  · intro hafter
    exact (enters_iff e.serves e.serves w' r _).mp
      (hafter r e _ (List.mem_append_right _ (List.mem_singleton.mpr rfl)) rfl e e)
  · intro hnew r' e' res hmem hok e₁ e₂
    rw [enters_iff e₁.serves e₂.serves]
    rcases List.mem_append.mp hmem with hmem | hmem
    · -- an earlier user stays the first one with its email
      obtain ⟨row, hfirst, hrow⟩ := (enters_iff e₁.serves e₂.serves w r' _).mp
        (hknown r' e' res hmem hok e₁ e₂)
      refine ⟨row, ?_, hrow⟩
      show firstUser { w.tables with t_user := _ } r'.email = some row
      rw [firstUser_insert, hfirst, Option.some_or]
    · cases List.mem_singleton.mp hmem
      exact hnew

theorem registered_enter_iff (w : World) (is : List (RegisterReq × ServingEnv)) :
    registering.EveryState RegisteredEnter []
        { w with tables := { w.tables with t_user := .empty } } is ↔
      registering.EveryStep FreshCredentials []
        { w with tables := { w.tables with t_user := .empty } } is := by
  have hstep : ∀ w i o w', 0 < w.tables.t_user.next → registering.step w i = some (o, w') →
      (∃ res, o = some res ∧ w' = w ∧ res.err_code ≠ 0) ∨
      ∃ name pass, varchar 50 i.1.password = some pass ∧
        o = some { err_code := 0, uid := w.tables.t_user.next } ∧
        w' = { w with
          tables := { w.tables with
            t_user := w.tables.t_user.insert (fun id => ⟨id, name, pass, i.1.email⟩) fun _ => rfl } } := by
    intro w i o w' hnext hs
    have hrun := Option.some.inj hs
    rcases registerUser_cases i.2.serves w i.1 hnext with
      ⟨-, res, hres, hne⟩ | ⟨name, pass, hpass, hres⟩
    · rw [hres, Prod.mk.injEq] at hrun
      exact .inl ⟨res, hrun.1.symm, hrun.2.symm, hne⟩
    · rw [hres, Prod.mk.injEq] at hrun
      exact .inr ⟨name, pass, hpass, hrun.1.symm, hrun.2.symm⟩
  refine everyState_iff_everyStep (I := fun _ w => 0 < w.tables.t_user.next) ?_ ?_ Int.one_pos
    fun r e res hmem => absurd hmem List.not_mem_nil
  · intro h w i o w' hnext _ _ hs
    rcases hstep w i o w' hnext hs with ⟨res, -, rfl, -⟩ | ⟨name, pass, -, -, rfl⟩
    · exact hnext
    · exact Int.lt_trans hnext (Int.lt_succ _)
  · intro h w i o w' hnext hknown hs
    obtain ⟨r, e⟩ := i
    rcases hstep w (r, e) o w' hnext hs with ⟨res, rfl, rfl, hne⟩ | ⟨name, pass, hpass, rfl, rfl⟩
    · refine iff_of_true (fun r' e' res' hmem hok => ?_) fun res' hres hok => ?_
      · rcases List.mem_append.mp hmem with hmem | hmem
        · exact hknown r' e' res' hmem hok
        · cases List.mem_singleton.mp hmem
          exact absurd hok hne
      · cases hres
        exact absurd hok hne
    · apply (registeredEnter_snoc hknown r e hpass).trans
      constructor
      · rintro hfresh _ ⟨⟩ -
        exact hfresh
      · intro hfresh
        exact hfresh _ rfl rfl

def serving : ServingEnv := ⟨Env.fair, Env.fair_serves⟩

theorem registered_without_password :
    ¬registering.EveryState RegisteredEnter [] World.empty
      [({ email := "ann@x".toList, nickname := "ann".toList }, serving)] := by
  intro h
  have hname : varchar 50 "ann".toList = some "ann".toList := by decide
  rcases registerUser_cases Env.fair_serves World.empty
      { email := "ann@x".toList, nickname := "ann".toList } Int.one_pos with
    ⟨hrefused, -⟩ | ⟨name, pass, hpass, hres⟩
  · obtain ⟨row, hrow, -⟩ := hrefused _ _ hname rfl
    exact absurd hrow List.not_mem_nil
  · have hafter := (h.2 _ _ (congrArg some hres)).first
    have henters := hafter _ _ _ (List.mem_singleton.mpr rfl) rfl serving serving
    obtain ⟨row, -, -, -, hne⟩ := (enters_iff Env.fair_serves Env.fair_serves _ _ _).mp henters
    exact hne rfl

end LetsChat
