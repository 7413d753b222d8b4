import LetsChat.FriendsOnly
import LetsChat.Lib.Growth
import LetsChat.OneStatement
import LetsChat.Registration

/-! What the replies of calls say of each other. Nothing that was so is taken back, and a call
that begins later sees it. -/

namespace LetsChat
open Lib Prog Machine Growth PooledDbClient LogicServiceImpl

def FriendRequestRow.Becomes (r r' : FriendRequestRow) : Prop :=
  r' = Query.setStatus r'.status r ∧ (r'.status = 0 → r.status = 0)

structure TablesGrow (t t' : Tables) : Prop where
  users : t.t_user.rows <+: t'.t_user.rows
  messages : t.t_chat_msg.rows <+: t'.t_chat_msg.rows
  groupMessages : t.t_group_msg.rows <+: t'.t_group_msg.rows
  friends : t.t_friend <+: t'.t_friend
  requests : ∀ r ∈ t.t_friend_request.rows, ∃ r' ∈ t'.t_friend_request.rows, r.Becomes r'

section TablesGrow
variable {t t' t'' : Tables}

theorem FriendRequestRow.becomes_refl (r : FriendRequestRow) : r.Becomes r := ⟨rfl, fun h => h⟩

theorem TablesGrow.refl (t : Tables) : TablesGrow t t where
  users := List.prefix_refl _
  messages := List.prefix_refl _
  groupMessages := List.prefix_refl _
  friends := List.prefix_refl _
  requests r hr := ⟨r, hr, r.becomes_refl⟩

theorem TablesGrow.trans (h : TablesGrow t t') (h' : TablesGrow t' t'') : TablesGrow t t'' where
  users := h.users.trans h'.users
  messages := h.messages.trans h'.messages
  groupMessages := h.groupMessages.trans h'.groupMessages
  friends := h.friends.trans h'.friends
  requests := by
    intro r hr
    obtain ⟨r', hr', heq, hopen⟩ := h.requests r hr
    obtain ⟨r'', hr'', heq', hopen'⟩ := h'.requests r' hr'
    refine ⟨r'', hr'', ?_, fun hzero => hopen (hopen' hzero)⟩
    rw [heq', heq]
    rfl

theorem tablesGrow_updateStatus (req_id : Int) {status : Int} (hstatus : status ≠ 0) (t : Tables) :
    TablesGrow t (Query.updateStatus req_id status t).2 := by
  refine { TablesGrow.refl t with requests := fun r hr => ?_ }
  refine ⟨_, List.mem_map.mpr ⟨r, hr, rfl⟩, ?_⟩
  split
  · exact ⟨rfl, fun hzero => absurd hzero hstatus⟩
  · exact r.becomes_refl

theorem tablesGrow_exec (q : Query) (t : Tables) : TablesGrow t (q.exec t).2 := by
  cases q with
  | insertChatMsg => exact { TablesGrow.refl t with messages := List.prefix_append _ _ }
  | insertGroupMsg => exact { TablesGrow.refl t with groupMessages := List.prefix_append _ _ }
  | insertFriendRequest =>
    exact { TablesGrow.refl t with
      requests := fun r hr => ⟨r, List.mem_append_left _ hr, r.becomes_refl⟩ }
  | insertFriend uid friend_uid now =>
    rw [Query.exec]
    split
    · exact TablesGrow.refl t
    · exact { TablesGrow.refl t with friends := List.prefix_append _ _ }
  | insertUser username password email =>
    rw [Query.exec]
    split
    · split
      · exact TablesGrow.refl t
      · exact { TablesGrow.refl t with users := List.prefix_append _ _ }
    · exact TablesGrow.refl t
  | acceptRequest req_id => exact tablesGrow_updateStatus req_id (by decide) t
  | rejectRequest req_id => exact tablesGrow_updateStatus req_id (by decide) t
  | _ => exact TablesGrow.refl t

end TablesGrow

def tableGrowth : Growth fun e : IntendedEnv => e.env.exec where
  le w w' := TablesGrow w.tables w'.tables
  refl w := TablesGrow.refl w.tables
  trans h h' := h.trans h'
  step e o w := by
    rcases exec_tables e w o with hsame | ⟨site, q, rfl, hq⟩
    · rw [hsame]
      exact TablesGrow.refl w.tables
    · rw [hq]
      exact tablesGrow_exec q w.tables

def AtOneMoment {α : Type} (p : Prog Op.Ret α) (past : List (Event Op.Ret)) (a : α) : Prop :=
  ∀ (e : IntendedEnv) w w', (∀ ev ∈ past, tableGrowth.Between w w' e ev) →
    ∃ u : World, TablesGrow w.tables u.tables ∧ TablesGrow (p.run e.env.exec u).2.tables w'.tables ∧
      (p.run e.env.exec u).1 = some a

section AtOneMoment
variable {α β : Type} {site : Site} {p : Prog Op.Ret α} {past : List (Event Op.Ret)}

theorem AtOneMoment.snoc {a : α} (h : AtOneMoment p past a) (ev : Event Op.Ret) :
    AtOneMoment p (past ++ [ev]) a := fun e w w' hbetween =>
  h e w w' fun ev' hev' => hbetween ev' (List.mem_append_left _ hev')

theorem atOneMoment_of_run {a : α} {ev : Event Op.Ret} (hev : ev ∈ past)
    (hrun : ∀ (e : IntendedEnv) w w', (∀ ev ∈ past, tableGrowth.Between w w' e ev) →
      ∀ u, (e.env.exec ev.1 u).1 = ev.2 → p.run e.env.exec u = (some a, (e.env.exec ev.1 u).2)) :
    AtOneMoment p past a := by
  intro e w w' hbetween
  obtain ⟨u, hu, hu', hres⟩ := hbetween ev hev
  have hrun := hrun e w w' hbetween u hres
  exact ⟨u, hu, by rw [hrun]; exact hu', by rw [hrun]⟩

theorem atOneMoment_statement {q : Query} {f : PGresult → Prog Op.Ret α}
    (hf : ∀ res, (f res).finished = true)
    (hrun : ∀ (e : IntendedEnv) w w', (∀ ev ∈ past, tableGrowth.Between w w' e ev) →
      ∀ u, p.run e.env.exec u = (pqExec site q >>= f).run e.env.exec u) :
    (pqExec site q >>= f).Concludes (AtOneMoment p) past := by
  intro res
  show (f res).Concludes _ _
  have hfinished := hf res
  cases hres : f res with
  | op o k =>
    rw [hres] at hfinished
    cases hfinished
  | throw => trivial
  | ret a =>
    apply atOneMoment_of_run (List.mem_append_right _ (List.mem_singleton_self _))
    intro e w w' hbetween u hread
    have hread : (e.env.exec (.pqExec site q) u).1 = res := hread
    rw [hrun e w w' (fun ev hev => hbetween ev (List.mem_append_left _ hev)), pqExec_bind, run_op,
      hread, hres]
    rfl

theorem acquire_of_between {g : Bool} {e : IntendedEnv} {w w' : World}
    (h : tableGrowth.Between w w' e ⟨.acquire site, g⟩) : e.env.acquire site = g := by
  obtain ⟨u, -, -, hg⟩ := h
  exact hg

theorem time_of_between {now : Int} {e : IntendedEnv} {w w' : World}
    (h : tableGrowth.Between w w' e ⟨.time site, now⟩) : e.env.time site = now := by
  obtain ⟨u, -, -, hnow⟩ := h
  exact hnow

theorem OneStatement.atOneMoment (h : OneStatement site p) : p.Concludes (AtOneMoment p) past := by
  have hlast : ∀ (past : List (Event Op.Ret)) ev, ev ∈ past ++ [ev] := fun past ev =>
    List.mem_append_right _ (List.mem_singleton_self ev)
  cases h with
  | query x q f hf =>
    intro g
    cases g with
    | false =>
      apply atOneMoment_of_run (hlast _ _)
      intro e w w' hbetween u _
      have hacquire := acquire_of_between (hbetween _ (hlast _ _))
      simp [Env.exec, hacquire]
    | true =>
      apply atOneMoment_statement hf
      intro e w w' hbetween u
      have hacquire := acquire_of_between (hbetween _ (hlast _ _))
      simp [Env.exec, hacquire]
  | stamped x q f hf =>
    intro g
    cases g with
    | false =>
      apply atOneMoment_of_run (hlast _ _)
      intro e w w' hbetween u _
      have hacquire := acquire_of_between (hbetween _ (hlast _ _))
      simp [Env.exec, hacquire]
    | true =>
      intro now
      apply atOneMoment_statement hf
      intro e w w' hbetween u
      have hacquire := acquire_of_between (hbetween _ (List.mem_append_left _ (hlast _ _)))
      have htime := time_of_between (hbetween _ (hlast _ _))
      simp [Env.exec, hacquire, htime]

theorem AtOneMoment.reads {a : α} (h : AtOneMoment p past a) {f : Env → Tables → α}
    (hrun : ∀ (e : IntendedEnv) u, p.run e.env.exec u = (some (f e.env u.tables), u))
    {e : IntendedEnv} {w w' : World} (hbetween : ∀ ev ∈ past, tableGrowth.Between w w' e ev) :
    ∃ t, TablesGrow w.tables t ∧ TablesGrow t w'.tables ∧ f e.env t = a := by
  obtain ⟨u, hu, hu', hread⟩ := h e w w' hbetween
  rw [hrun] at hu' hread
  exact ⟨u.tables, hu, hu', Option.some.inj hread⟩

theorem OneStatement.concludes_bind (h : OneStatement site p) {f : α → Prog Op.Ret β}
    {R : α → β → Prop} (hf : ∀ a past, (f a).Concludes (fun _ b => R a b) past) :
    (p >>= f).Concludes (fun past b => ∃ a, AtOneMoment p past a ∧ R a b) past := by
  refine Prog.concludes_bind (h.atOneMoment.mono fun past a ha => ?_)
  have hstays := concludes_of_stable (S := fun past => AtOneMoment p past a)
    (fun _ ev h => h.snoc ev) ha (f a)
  exact (hstays.and (hf a past)).mono fun past b hb => ⟨a, hb⟩

end AtOneMoment

theorem TablesGrow.firstUser {t t' : Tables} (h : TablesGrow t t') {email : Text} {row : UserRow}
    (hfirst : firstUser t email = some row) : firstUser t' email = some row := by
  obtain ⟨more, hrows⟩ := h.users
  rw [LetsChat.firstUser, ← hrows, List.filter_append, List.head?_append]
  rw [LetsChat.firstUser] at hfirst
  rw [hfirst]
  rfl

end LetsChat
