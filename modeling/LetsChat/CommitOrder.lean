import LetsChat.Lib.Interpret
import LetsChat.Lib.Paging
import LetsChat.OfflineSync

/-! `SaveMessage` and `GetofflineMsgs` at once, where an insert first draws the id of its
row and shows the row later. A page is read for good when no row that is still to be shown
belongs on it. -/

namespace LetsChat
open Lib Prog Machine PooledDbClient

inductive MessageCall
  | saveMessage (msg_id : Text) (from_uid to_uid : Int) (content : Text)
  | getofflineMsgs (uid last_msg_id : Int)

abbrev MessageResult := Bool ⊕ List ChatMsg

def messageCall : MessageCall → Prog Op.Ret MessageResult
  | .saveMessage msg_id from_uid to_uid content =>
    Sum.inl <$> saveMessage msg_id from_uid to_uid content
  | .getofflineMsgs uid last_msg_id => Sum.inr <$> getofflineMsgs uid last_msg_id

inductive PgOp
  | plain (o : Op)
  | allocate (msg_id : Text) (from_uid to_uid : Int) (content : Text) (now : Int)
  | commit (site : Site) (row : ChatMsgRow)

@[reducible] def PgOp.Ret : PgOp → Type
  | plain o => o.Ret
  | allocate _ _ _ _ _ => ChatMsgRow
  | commit _ _ => PGresult

def carriedOut : (o : Op) → Prog PgOp.Ret o.Ret
  | .pqExec site (.insertChatMsg msg_id from_uid to_uid content now) =>
    perform (PgOp.allocate msg_id from_uid to_uid content now) >>= fun row =>
      perform (PgOp.commit site row)
  | o => perform (PgOp.plain o)

def stepwise (call : MessageCall) : Prog PgOp.Ret MessageResult :=
  (messageCall call).interpret carriedOut

structure PageRead where
  uid : Int
  cursor : Int
  rows : List ChatMsgRow
  deriving DecidableEq

structure PgWorld where
  world : World
  pages : List PageRead

namespace PgWorld

def msgs (w : PgWorld) : SerialTable ChatMsgRow ChatMsgRow.id := w.world.tables.t_chat_msg

def setMsgs (w : PgWorld) (t : SerialTable ChatMsgRow ChatMsgRow.id) : PgWorld :=
  { w with world := { w.world with tables := { w.world.tables with t_chat_msg := t } } }

def drawId (w : PgWorld) : PgWorld := w.setMsgs (w.msgs.skip 1)

def reveal (w : PgWorld) (row : ChatMsgRow) : PgWorld :=
  if h : row.id < w.msgs.next then w.setMsgs (w.msgs.place row h) else w

end PgWorld

def pagesRead (e : Env) (w : World) : Op → List PageRead
  | .pqExec site (.selectOfflineMsgs uid cursor) =>
    if e.stmt site = .done then [⟨uid, cursor, offlineRows w.tables uid cursor⟩] else []
  | _ => []

/-- An insert that fails has drawn its id. -/
def Env.execPg (e : Env) : (o : PgOp) → PgWorld → o.Ret × PgWorld
  | .plain o, w =>
    ((e.exec o w.world).1, ⟨(e.exec o w.world).2, w.pages ++ pagesRead e w.world o⟩)
  | .allocate msg_id from_uid to_uid content now, w =>
    (⟨w.msgs.next, msg_id, from_uid, to_uid, content, now⟩, w.drawId)
  | .commit site row, w =>
    match e.stmt site with
    | .done => (.command 1, w.reveal row)
    | .failed => (.fatal, w)
    | .lost => (.fatal, w.reveal row)

abbrev Messaging := Conf PgOp.Ret MessageCall Env PgWorld MessageResult

def messaging : Machine Messaging (Sched MessageCall Env) (Option (Event PgOp.Ret)) :=
  interleaving stepwise Env.execPg

def PagesComplete (w : PgWorld) : Prop :=
  ∀ page ∈ w.pages, ∀ r ∈ w.msgs.rows, r.to_uid = page.uid → page.cursor < r.id →
    (∃ last ∈ page.rows, r.id ≤ last.id) → r ∈ page.rows

def Holds (t : Thread PgOp.Ret MessageCall Env MessageResult) (row : ChatMsgRow) : Prop :=
  ∃ site next, t.rest = .op (.commit site row) next ∧ t.env.stmt site ≠ .failed

def EndsBefore (t : Tables) (uid cursor id : Int) : Prop :=
  (∀ r ∈ rowsFor t uid, r.id < id) ∨
    100 ≤ ((rowsFor t uid).filter fun r => cursor < r.id ∧ r.id < id).length

/-- When a query for a page is carried out, the page ends before each row of the user past
the cursor that has drawn its id and is not visible yet. -/
def ReadsBehind (c : Messaging) (i : Sched MessageCall Env) : Prop :=
  ∀ k req e past site uid cursor next, i = .pick k →
    c.threads[k]? = some
      ⟨req, e, past, .op (.plain (.pqExec site (.selectOfflineMsgs uid cursor))) next⟩ →
    e.stmt site = .done →
    ∀ t ∈ c.threads, ∀ row, Holds t row → row.to_uid = uid → cursor < row.id →
      EndsBefore c.shared.world.tables uid cursor row.id

def MessageStatement : Query → Prop
  | .insertChatMsg _ _ _ _ _ => True
  | .selectOfflineMsgs _ _ => True
  | _ => False

theorem within_messageCall (call : MessageCall) :
    (messageCall call).Within (Statements MessageStatement) := by
  cases call with
  | saveMessage => exact within_map _ (within_saveMessage fun _ => trivial)
  | getofflineMsgs => exact within_map _ (within_getofflineMsgs trivial)

def AsksPg (past : List (Event PgOp.Ret)) : PgOp → Prop
  | .plain (.acquire _) => True
  | .plain (.time _) => True
  | .plain (.pqExec _ (.selectOfflineMsgs _ _)) => True
  | .allocate _ _ _ _ _ => True
  | .commit _ row => ∃ before msg_id from_uid to_uid content now,
    past = before ++ [⟨.allocate msg_id from_uid to_uid content now, row⟩]
  | _ => False

theorem disciplined_carriedOut (o : Op) (ho : Statements MessageStatement o)
    (past : List (Event PgOp.Ret)) : (carriedOut o).Disciplined AsksPg past := by
  cases o with
  | acquire site => exact ⟨trivial, fun _ => trivial⟩
  | time site => exact ⟨trivial, fun _ => trivial⟩
  | pqExec site q =>
    have hq := ho.2 site q rfl
    cases q with
    | insertChatMsg => exact ⟨trivial, fun row => ⟨⟨past, _, _, _, _, _, rfl⟩, fun _ => trivial⟩⟩
    | selectOfflineMsgs => exact ⟨trivial, fun _ => trivial⟩
    | _ => exact hq.elim
  | _ => exact ho.1.elim

theorem disciplined_stepwise (call : MessageCall) : (stepwise call).Disciplined AsksPg [] :=
  (within_messageCall call).disciplined_interpret disciplined_carriedOut []

theorem PgWorld.next_reveal (w : PgWorld) (row : ChatMsgRow) :
    (w.reveal row).msgs.next = w.msgs.next := by
  unfold reveal
  split <;> rfl

theorem PgWorld.pages_reveal (w : PgWorld) (row : ChatMsgRow) : (w.reveal row).pages = w.pages := by
  unfold reveal
  split <;> rfl

theorem PgWorld.mem_reveal {w : PgWorld} {row r : ChatMsgRow} (hr : r ∈ (w.reveal row).msgs.rows) :
    r = row ∨ r ∈ w.msgs.rows := by
  unfold reveal at hr
  split at hr
  · next h => exact SerialTable.mem_place (h := h) hr
  · exact .inr hr

section Exec
variable (e : Env) (w : PgWorld)

theorem execPg_commit (site : Site) (row : ChatMsgRow) :
    (e.execPg (.commit site row) w).2 = if e.stmt site = .failed then w else w.reveal row := by
  rw [Env.execPg]
  cases hstmt : e.stmt site <;> simp

inductive PgMove : PgOp → PgWorld → Prop
  | quiet (o : PgOp) : PgMove o w
  | read (site : Site) (uid cursor : Int) : e.stmt site = .done →
    PgMove (.plain (.pqExec site (.selectOfflineMsgs uid cursor)))
      { w with pages := w.pages ++ [⟨uid, cursor, offlineRows w.world.tables uid cursor⟩] }
  | allocated (msg_id : Text) (from_uid to_uid : Int) (content : Text) (now : Int) :
    PgMove (.allocate msg_id from_uid to_uid content now) w.drawId
  | committed (site : Site) (row : ChatMsgRow) : e.stmt site ≠ .failed →
    PgMove (.commit site row) (w.reveal row)

theorem execPg_quiet {o : Op} (hworld : (e.exec o w.world).2 = w.world)
    (hpages : pagesRead e w.world o = []) : (e.execPg (.plain o) w).2 = w := by
  rw [Env.execPg, hworld, hpages, List.append_nil]

theorem exec_select (site : Site) (uid cursor : Int) :
    (e.exec (.pqExec site (.selectOfflineMsgs uid cursor)) w.world).2 = w.world := by
  have htables : (e.pqExec site (.selectOfflineMsgs uid cursor) w.world.tables).2 =
      w.world.tables := by
    rw [Env.pqExec_snd, e.serve_plain rfl]
    exact ite_self _
  rw [Env.exec, htables]

theorem pgMove_exec {past : List (Event PgOp.Ret)} {o : PgOp} (ho : AsksPg past o) :
    PgMove e w o (e.execPg o w).2 := by
  cases o with
  | plain o =>
    cases o with
    | acquire site =>
      rw [execPg_quiet e w rfl rfl]
      exact .quiet _
    | time site =>
      rw [execPg_quiet e w rfl rfl]
      exact .quiet _
    | pqExec site q =>
      cases q with
      | selectOfflineMsgs uid cursor =>
        rw [Env.execPg, exec_select, pagesRead]
        by_cases hdone : e.stmt site = .done
        · rw [if_pos hdone]
          exact .read site uid cursor hdone
        · rw [if_neg hdone, List.append_nil]
          exact .quiet _
      | _ => exact ho.elim
    | _ => exact ho.elim
  | allocate msg_id from_uid to_uid content now => exact .allocated msg_id from_uid to_uid content now
  | commit site row =>
    rw [execPg_commit]
    by_cases hfailed : e.stmt site = .failed
    · rw [if_pos hfailed]
      exact .quiet _
    · rw [if_neg hfailed]
      exact .committed site row hfailed

end Exec

theorem offlineRows_eq_page (t : Tables) (uid cursor : Int) :
    offlineRows t uid cursor = Paging.page ChatMsgRow.id 100 (rowsFor t uid) cursor := by
  rw [offlineRows, Paging.page, Paging.after, rowsFor, List.filter_filter]
  congr 2
  funext r
  rw [Bool.decide_and, Bool.and_comm]

theorem ascending_rowsFor (t : Tables) (uid : Int) :
    (rowsFor t uid).Pairwise fun a b => a.id < b.id :=
  t.t_chat_msg.ascending.filter _

theorem EndsBefore.lt {t : Tables} {uid cursor id : Int} (h : EndsBefore t uid cursor id)
    {r : ChatMsgRow} (hr : r ∈ offlineRows t uid cursor) : r.id < id := by
  rw [offlineRows_eq_page] at hr
  obtain hlast | hfull := h
  · exact hlast r (List.mem_filter.mp (List.mem_of_mem_take hr)).1
  · exact Paging.lt_of_full (ascending_rowsFor t uid) hfull hr

theorem offlineRows_complete {t : Tables} {uid cursor : Int} {r last : ChatMsgRow}
    (hr : r ∈ t.t_chat_msg.rows) (huid : r.to_uid = uid) (hc : cursor < r.id)
    (hlast : last ∈ offlineRows t uid cursor) (hle : r.id ≤ last.id) :
    r ∈ offlineRows t uid cursor := by
  rw [offlineRows_eq_page] at hlast ⊢
  have hrow : r ∈ rowsFor t uid := List.mem_filter.mpr ⟨hr, decide_eq_true huid⟩
  exact Paging.mem_page_of_le (ascending_rowsFor t uid) hlast hrow hc hle

structure PageInv (c : Messaging) : Prop where
  traced : WellTraced stepwise c
  complete : PagesComplete c.shared
  behind : ∀ page ∈ c.shared.pages, ∀ t ∈ c.threads, ∀ row, Holds t row →
    row.to_uid = page.uid → page.cursor < row.id → ∀ r ∈ page.rows, r.id < row.id
  drawn : ∀ page ∈ c.shared.pages, ∀ r ∈ page.rows, r.id < c.shared.msgs.next

theorem PageInv.asks {c : Messaging} (h : PageInv c) {req : MessageCall} {e : Env}
    {past : List (Event PgOp.Ret)} {o : PgOp} {next : o.Ret → Prog PgOp.Ret MessageResult}
    (ht : ⟨req, e, past, .op o next⟩ ∈ c.threads) : AsksPg past o :=
  (disciplined_stepwise req).asks (h.traced _ ht)

theorem Holds.allocated {t : Thread PgOp.Ret MessageCall Env MessageResult} {row : ChatMsgRow}
    (h : Holds t row) (htr : Trace (stepwise t.call) t.past t.rest) :
    ∃ before msg_id from_uid to_uid content now,
      t.past = before ++ [⟨.allocate msg_id from_uid to_uid content now, row⟩] := by
  obtain ⟨site, next, hrest, -⟩ := h
  rw [hrest] at htr
  exact (disciplined_stepwise t.call).asks htr

theorem Holds.id_eq {req : MessageCall} {e : Env} {past : List (Event PgOp.Ret)} {o : PgOp}
    {w : PgWorld} {rest : Prog PgOp.Ret MessageResult} {row : ChatMsgRow}
    (h : Holds ⟨req, e, past ++ [⟨o, (e.execPg o w).1⟩], rest⟩ row)
    (htr : Trace (stepwise req) (past ++ [⟨o, (e.execPg o w).1⟩]) rest) :
    row.id = w.msgs.next ∧ (e.execPg o w).2 = w.drawId := by
  obtain ⟨before, msg_id, from_uid, to_uid, content, now, hlast⟩ := h.allocated htr
  obtain ⟨-, hev⟩ := List.append_inj' hlast rfl
  obtain ⟨rfl, hres⟩ := Sigma.mk.inj_iff.mp (List.singleton_inj.mp hev)
  obtain rfl := eq_of_heq hres
  exact ⟨rfl, rfl⟩

theorem PgMove.mem_pages {e : Env} {w w' : PgWorld} {o : PgOp} (h : PgMove e w o w')
    {page : PageRead} (hpage : page ∈ w'.pages) :
    page ∈ w.pages ∨ ∃ site uid cursor, o = .plain (.pqExec site (.selectOfflineMsgs uid cursor)) ∧
      e.stmt site = .done ∧ page = ⟨uid, cursor, offlineRows w.world.tables uid cursor⟩ := by
  cases h with
  | quiet => exact .inl hpage
  | read site uid cursor hdone =>
    exact (List.mem_append.mp hpage).imp_right fun hnew =>
      ⟨site, uid, cursor, rfl, hdone, List.mem_singleton.mp hnew⟩
  | allocated => exact .inl hpage
  | committed site row =>
    rw [w.pages_reveal] at hpage
    exact .inl hpage

theorem PgMove.next_le {e : Env} {w w' : PgWorld} {o : PgOp} (h : PgMove e w o w') :
    w.msgs.next ≤ w'.msgs.next := by
  cases h with
  | quiet => exact Int.le_refl _
  | read => exact Int.le_refl _
  | allocated => exact Int.le_of_lt (Int.lt_succ _)
  | committed site row => rw [w.next_reveal]

section Step
variable {c : Messaging} {req : MessageCall} {e : Env} {past : List (Event PgOp.Ret)} {o : PgOp}
  {next : o.Ret → Prog PgOp.Ret MessageResult} {w' : PgWorld} (hinv : PageInv c)
include hinv

theorem PageInv.complete_after (hthread : ⟨req, e, past, .op o next⟩ ∈ c.threads)
    (hmove : PgMove e c.shared o w') : PagesComplete w' := by
  intro page hpage r hr huid hc hlast
  cases hmove with
  | quiet => exact hinv.complete page hpage r hr huid hc hlast
  | read site uid cursor =>
    rcases List.mem_append.mp hpage with hpage | hpage
    · exact hinv.complete page hpage r hr huid hc hlast
    · obtain rfl := List.mem_singleton.mp hpage
      obtain ⟨last, hlast, hle⟩ := hlast
      exact offlineRows_complete hr huid hc hlast hle
  | allocated => exact hinv.complete page hpage r hr huid hc hlast
  | committed site row hstmt =>
    rw [PgWorld.pages_reveal] at hpage
    rcases PgWorld.mem_reveal hr with rfl | hr
    · -- the row that is shown lies behind the page
      obtain ⟨last, hlast, hle⟩ := hlast
      have hlt := hinv.behind page hpage _ hthread r ⟨site, next, rfl, hstmt⟩ huid hc last hlast
      exact absurd hle (Int.not_le_of_gt hlt)
    · exact hinv.complete page hpage r hr huid hc hlast

theorem PageInv.drawn_after (hmove : PgMove e c.shared o w') :
    ∀ page ∈ w'.pages, ∀ r ∈ page.rows, r.id < w'.msgs.next := by
  intro page hpage r hr
  refine Int.lt_of_lt_of_le ?_ hmove.next_le
  rcases hmove.mem_pages hpage with hpage | ⟨site, uid, cursor, -, -, rfl⟩
  · exact hinv.drawn page hpage r hr
  · have hrow : r ∈ c.shared.msgs.rows := (List.mem_filter.mp (List.mem_of_mem_take hr)).1
    exact c.shared.msgs.below r hrow

end Step

theorem pageInv_step {c c' : Messaging} {i : Sched MessageCall Env} {out : Option (Event PgOp.Ret)}
    (hinv : PageInv c) (hbehind : ReadsBehind c i) (hs : messaging.step c i = some (out, c')) :
    PageInv c' := by
  have htraced : WellTraced stepwise c' := wellTraced_step hinv.traced hs
  rcases interleaving_step hs with
    ⟨req, e, rfl, rfl⟩ | ⟨k, req, e, past, o, next, rfl, hk, rfl⟩
  · -- a call that has just arrived has drawn nothing
    refine ⟨htraced, hinv.complete, fun page hpage t ht row hholds => ?_, hinv.drawn⟩
    rcases List.mem_append.mp ht with ht | ht
    · exact hinv.behind page hpage t ht row hholds
    · obtain rfl := List.mem_singleton.mp ht
      obtain ⟨before, _, _, _, _, _, hpast⟩ := hholds.allocated (.nil _)
      exact absurd hpast.symm (List.append_ne_nil_of_right_ne_nil _ (List.cons_ne_nil _ _))
  · have hthread : ⟨req, e, past, .op o next⟩ ∈ c.threads := List.mem_of_getElem? hk
    have hmove := pgMove_exec e c.shared (hinv.asks hthread)
    refine ⟨htraced, hinv.complete_after hthread hmove, ?_, hinv.drawn_after hmove⟩
    intro page hpage t ht row hholds huid hc r hr
    have htrace := htraced t ht
    rcases List.mem_or_eq_of_mem_set ht with hold | rfl
    · rcases hmove.mem_pages hpage with hpage | ⟨site, uid, cursor, rfl, hdone, rfl⟩
      · exact hinv.behind page hpage t hold row hholds huid hc r hr
      · have hends := hbehind k req e past site uid cursor next rfl hk hdone t hold row hholds huid hc
        exact hends.lt hr
    · -- the row that was just drawn is behind every page
      obtain ⟨hid, hdraw⟩ := hholds.id_eq htrace
      rw [hid]
      change page ∈ (e.execPg o c.shared).2.pages at hpage
      rw [hdraw] at hpage
      exact hinv.drawn page hpage r hr

theorem pages_stay_complete (w : World) (is : List (Sched MessageCall Env))
    (hbehind : messaging.EveryStep (fun _ c i _ _ => ReadsBehind c i) [] ⟨⟨w, []⟩, []⟩ is) :
    messaging.EveryState (fun _ c => PagesComplete c.shared) [] ⟨⟨w, []⟩, []⟩ is := by
  have hinit : PageInv ⟨⟨w, []⟩, []⟩ :=
    ⟨fun t ht => absurd ht List.not_mem_nil, fun page hpage => absurd hpage List.not_mem_nil,
      fun page hpage => absurd hpage List.not_mem_nil, fun page hpage => absurd hpage List.not_mem_nil⟩
  have hstates := everyState_of_guarded (I := fun _ => PageInv)
    (fun _ _ _ _ _ hinv hc hs => pageInv_step hinv hc hs) hinit hbehind
  exact hstates.mono fun _ _ hinv => hinv.complete

/-- The page is read while a second message has its id and is not shown yet. -/
def readWhileSaving : List (Sched MessageCall Env) :=
  [.call (.saveMessage [] 3 2 []) .fair, .call (.getofflineMsgs 2 0) .fair,
    .pick 0, .pick 0, .pick 0, .pick 1, .pick 1, .pick 0]

theorem readsBehind_of_ne {c : Messaging} {k : Nat} {req : MessageCall} {e : Env}
    {past : List (Event PgOp.Ret)} {o : PgOp} {next : o.Ret → Prog PgOp.Ret MessageResult}
    (hk : c.threads[k]? = some ⟨req, e, past, .op o next⟩)
    (ho : ∀ site uid cursor, o ≠ .plain (.pqExec site (.selectOfflineMsgs uid cursor))) :
    ReadsBehind c (.pick k) := by
  rintro _ req' e' past' site uid cursor next' ⟨⟩ hthread
  rw [hk] at hthread
  cases hthread
  exact absurd rfl (ho site uid cursor)

theorem readsBehind_call (c : Messaging) (req : MessageCall) (e : Env) :
    ReadsBehind c (.call req e) := by
  rintro k _ _ _ _ _ _ _ ⟨⟩

theorem pages_stay_complete_readWhileSaving :
    messaging.EveryState (fun _ c => PagesComplete c.shared) [] ⟨⟨oneMessage, []⟩, []⟩
      readWhileSaving := by
  apply pages_stay_complete oneMessage readWhileSaving
  refine (everyStep_cons (interleaving_call ..)).mpr ⟨readsBehind_call _ _ _, ?_⟩
  refine (everyStep_cons (interleaving_call ..)).mpr ⟨readsBehind_call _ _ _, ?_⟩
  refine (everyStep_cons (interleaving_pick _ _ rfl)).mpr ⟨readsBehind_of_ne rfl nofun, ?_⟩
  refine (everyStep_cons (interleaving_pick _ _ rfl)).mpr ⟨readsBehind_of_ne rfl nofun, ?_⟩
  refine (everyStep_cons (interleaving_pick _ _ rfl)).mpr ⟨readsBehind_of_ne rfl nofun, ?_⟩
  refine (everyStep_cons (interleaving_pick _ _ rfl)).mpr ⟨readsBehind_of_ne rfl nofun, ?_⟩
  refine (everyStep_cons (interleaving_pick _ _ rfl)).mpr ⟨?_, ?_⟩
  · -- the page is read: the row with the id 2 is held, and no visible row is behind it
    rintro k req e past site uid cursor next hk hthread - t ht row ⟨site', next', hrest, -⟩ - -
    cases hk
    cases hthread
    refine .inl ?_
    have hrow : row.id = 2 := by
      rcases List.mem_cons.mp ht with rfl | ht
      · cases hrest
        rfl
      · obtain rfl := List.mem_singleton.mp ht
        cases hrest
    rw [hrow]
    show ∀ r ∈ rowsFor oneMessage.tables 2, r.id < 2
    decide
  refine (everyStep_cons (interleaving_pick _ _ rfl)).mpr ⟨readsBehind_of_ne rfl nofun, trivial⟩

def overtaken : List (Sched MessageCall Env) :=
  [.call (.saveMessage [] 1 2 []) .fair, .call (.saveMessage [] 3 2 []) .fair,
    .call (.getofflineMsgs 2 0) .fair, .pick 0, .pick 0, .pick 0, .pick 1, .pick 1, .pick 1,
    .pick 1, .pick 2, .pick 2, .pick 0]

theorem skipped_message :
    ¬messaging.EveryState (fun _ c => PagesComplete c.shared) [] ⟨⟨.empty, []⟩, []⟩ overtaken := by
  intro h
  have hcalled := ((h.2 _ _ rfl).2 _ _ rfl).2 _ _ rfl
  have h₁ := (hcalled.2 _ _ (interleaving_pick _ _ rfl)).2 _ _ (interleaving_pick _ _ rfl)
  have h₂ := (h₁.2 _ _ (interleaving_pick _ _ rfl)).2 _ _ (interleaving_pick _ _ rfl)
  have h₃ := (h₂.2 _ _ (interleaving_pick _ _ rfl)).2 _ _ (interleaving_pick _ _ rfl)
  have h₄ := (h₃.2 _ _ (interleaving_pick _ _ rfl)).2 _ _ (interleaving_pick _ _ rfl)
  have h₅ := (h₄.2 _ _ (interleaving_pick _ _ rfl)).2 _ _ (interleaving_pick _ _ rfl)
  have hmissed := h₅ ⟨2, 0, [⟨2, [], 3, 2, [], 0⟩]⟩ (by decide +kernel)
    ⟨1, [], 1, 2, [], 0⟩ (by decide +kernel) rfl (by decide) ⟨_, List.mem_singleton_self _, by decide⟩
  exact absurd hmissed (by decide)

theorem PgWorld.reveal_drawn (w : PgWorld) (mk : Int → ChatMsgRow) (hmk : ∀ k, (mk k).id = k) :
    w.drawId.reveal (mk w.msgs.next) = w.setMsgs (w.msgs.insert mk hmk) := by
  have hlt : (mk w.msgs.next).id < w.drawId.msgs.next := by
    rw [hmk]
    exact Int.lt_succ _
  unfold reveal
  rw [dif_pos hlt]
  exact congrArg w.setMsgs (w.msgs.place_skip mk hmk hlt)

theorem run_stepwise {e : Env} (he : e.Serves) (call : MessageCall) (w : PgWorld) :
    ∃ w', (stepwise call).run e.execPg w = (((messageCall call).run e.exec w.world).1, w') ∧
      w'.world = ((messageCall call).run e.exec w.world).2 := by
  refine run_interpret (R := fun (s : World) (t : PgWorld) => t.world = s) ?_ (messageCall call) rfl
  rintro o _ w rfl
  unfold carriedOut
  split
  · next site msg_id from_uid to_uid content now =>
    have hexec : e.exec (.pqExec site (.insertChatMsg msg_id from_uid to_uid content now)) w.world =
        (.command 1, (w.setMsgs (w.msgs.insert
          (fun id => ⟨id, msg_id, from_uid, to_uid, content, now⟩) fun _ => rfl)).world) := by
      rw [Env.exec, e.pqExec_done (he.stmt site), he.serve]
      rfl
    have hcommit : e.execPg (.commit site ⟨w.msgs.next, msg_id, from_uid, to_uid, content, now⟩)
        w.drawId = (.command 1, w.setMsgs (w.msgs.insert
          (fun id => ⟨id, msg_id, from_uid, to_uid, content, now⟩) fun _ => rfl)) := by
      rw [Env.execPg, he.stmt site, ← w.reveal_drawn]
    rw [hexec]
    exact ⟨_, congrArg (fun r => (some r.1, r.2)) hcommit, rfl⟩
  · exact ⟨_, rfl, rfl⟩

end LetsChat
