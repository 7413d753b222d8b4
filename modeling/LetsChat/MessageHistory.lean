import LetsChat.DbClient
import LetsChat.Lib.Paging

/-! The two message tables as histories: what the save functions leave in them, and what
a reader gets who asks for one page after the other with the row ids as cursors. -/

namespace LetsChat
open Lib Prog PooledDbClient

inductive Mailbox
  | user (uid : Int)
  | group (group_id : Int)
  deriving DecidableEq

inductive Save
  | message (msg_id : Text) (from_uid to_uid : Int) (content : Text)
  | groupMessage (msg_id : Text) (group_id from_uid : Int) (content : Text)

namespace Save

def call : Save → Prog Op.Ret Bool
  | message msg_id from_uid to_uid content => saveMessage msg_id from_uid to_uid content
  | groupMessage msg_id group_id from_uid content =>
    saveGroupMessage msg_id group_id from_uid content

def site : Save → Site
  | message _ _ _ _ => .saveMessage
  | groupMessage _ _ _ _ => .saveGroupMessage

def query (now : Int) : Save → Query
  | message msg_id from_uid to_uid content => .insertChatMsg msg_id from_uid to_uid content now
  | groupMessage msg_id group_id from_uid content =>
    .insertGroupMsg msg_id group_id from_uid content now

def box : Save → Mailbox
  | message _ _ to_uid _ => .user to_uid
  | groupMessage _ group_id _ _ => .group group_id

/-- The message that a reader is meant to get, with the group id as its recipient. -/
def msg (now : Int) : Save → ChatMsg
  | message _ from_uid to_uid content => { from_uid, to_uid, content, create_time := now }
  | groupMessage _ group_id from_uid content =>
    { from_uid, to_uid := group_id, content, create_time := now }

def idDrawn (t : Tables) : Save → Int
  | message _ _ _ _ => t.t_chat_msg.next
  | groupMessage _ _ _ _ => t.t_group_msg.next

end Save

/-- A completed call, after failed ones that drew `skipped` ids of each table. -/
structure SaveStep where
  save : Save
  env : ServingEnv
  skipped : Nat

structure SavedMessage where
  id : Int
  box : Mailbox
  msg : ChatMsg

def World.skipIds (w : World) (n : Nat) : World :=
  { w with tables := { w.tables with
      t_chat_msg := w.tables.t_chat_msg.skip n
      t_group_msg := w.tables.t_group_msg.skip n } }

namespace SaveStep

def now (s : SaveStep) : Int := s.env.env.time s.save.site

def run (s : SaveStep) (w : World) : Option Bool × World :=
  s.save.call.run s.env.env.exec (w.skipIds s.skipped)

def saved (s : SaveStep) (w : World) : SavedMessage :=
  ⟨s.save.idDrawn (w.skipIds s.skipped).tables, s.save.box, s.save.msg s.now⟩

end SaveStep

def saveAll : List SaveStep → World → World
  | [], w => w
  | s :: steps, w => saveAll steps (s.run w).2

def history : List SaveStep → World → List SavedMessage
  | [], _ => []
  | s :: steps, w => s.saved w :: history steps (s.run w).2

def ofGroupRow (r : GroupMsgRow) : ChatMsg :=
  { from_uid := r.from_uid, to_uid := r.group_id, content := r.content, create_time := r.create_time }

def groupRows (t : Tables) (group_id last_msg_id : Int) : List GroupMsgRow :=
  (t.t_group_msg.rows.filter fun r => r.group_id = group_id ∧ last_msg_id < r.id).take 100

namespace Mailbox

def fetch : Mailbox → Int → Prog Op.Ret (List ChatMsg)
  | user uid, last_msg_id => getofflineMsgs uid last_msg_id
  | group group_id, last_msg_id => getGroupMsgs group_id last_msg_id

def site : Mailbox → Site
  | user _ => .getofflineMsgs
  | group _ => .getGroupMsgs

def pageIds (t : Tables) : Mailbox → Int → List Int
  | user uid, last_msg_id => (offlineRows t uid last_msg_id).map (·.id)
  | group group_id, last_msg_id => (groupRows t group_id last_msg_id).map (·.id)

def rows (t : Tables) : Mailbox → List (Int × ChatMsg)
  | user uid =>
    (t.t_chat_msg.rows.filter fun r => r.to_uid = uid).map fun r => (r.id, ofRow r)
  | group group_id =>
    (t.t_group_msg.rows.filter fun r => r.group_id = group_id).map fun r => (r.id, ofGroupRow r)

end Mailbox

/-- The pages that a reader gets from a cursor on, who asks with the largest row id of the
page before until a page is empty. Call `n` meets the environment `env n`. -/
inductive Fetched (env : Nat → ServingEnv) (w : World) (box : Mailbox) :
    Nat → Int → List (List ChatMsg) → Prop
  | stop {n : Nat} {c : Int} : (box.fetch c).run (env n).env.exec w = (some [], w) →
    Fetched env w box n c [[]]
  | next {n : Nat} {c m : Int} {page : List ChatMsg} {pages : List (List ChatMsg)} :
    (box.fetch c).run (env n).env.exec w = (some page, w) →
    IsGreatest {k | k ∈ box.pageIds w.tables c} m → Fetched env w box (n + 1) m pages →
    Fetched env w box n c (page :: pages)

theorem run_getGroupMsgs (e : Env) (w : World) (group_id last_msg_id : Int) :
    (getGroupMsgs group_id last_msg_id).run e.exec w =
      (some (if e.Returns .getGroupMsgs then (groupRows w.tables group_id last_msg_id).map ofGroupRow
        else []), w) := by
  have hexec : Query.exec (.selectGroupMsgs group_id last_msg_id) w.tables =
      (.tuples ((groupRows w.tables group_id last_msg_id).map Query.groupMsgCells), w.tables) := rfl
  refine (run_query e w _ rfl rfl [] fun w => by simp).trans ?_
  by_cases hret : e.Returns .getGroupMsgs
  · have hcells : ∀ rows : List GroupMsgRow, (List.range rows.length).mapM
        (groupMsg (.tuples (rows.map Query.groupMsgCells))) = some (rows.map ofGroupRow) := by
      intro rows
      apply mapM_rows _ ofGroupRow rows
      intro i r hr
      simp [groupMsg, PGresult.getvalue, hr, Query.groupMsgCells, ofGroupRow]
    rw [if_pos hret, if_pos hret, hexec]
    simp [-List.map_take, hcells]
  · rw [if_neg hret, if_neg hret]

theorem run_save (s : SaveStep) (w : World) :
    s.run w = (some true,
      { w with tables := ((s.save.query s.now).exec (w.skipIds s.skipped).tables).2 }) := by
  obtain ⟨save, ⟨e, he⟩, skipped⟩ := s
  cases save with
  | message msg_id from_uid to_uid content =>
    exact run_served_time he (w.skipIds skipped) _
      (Query.insertChatMsg msg_id from_uid to_uid content) false fun w => by simp
  | groupMessage msg_id group_id from_uid content =>
    exact run_served_time he (w.skipIds skipped) _
      (Query.insertGroupMsg msg_id group_id from_uid content) false fun w => by simp

theorem selected_snoc {ρ : Type} (rows : List ρ) (p : ρ → Prop) [DecidablePred p] (new : ρ)
    (entry : ρ → Int × ChatMsg) :
    ((rows ++ [new]).filter fun r => p r).map entry =
      (rows.filter fun r => p r).map entry ++ if p new then [entry new] else [] := by
  rw [List.filter_append, List.map_append, List.filter_singleton]
  by_cases hnew : p new
  · simp [hnew]
  · simp [hnew]

theorem rows_run (s : SaveStep) (w : World) (box : Mailbox) :
    box.rows (s.run w).2.tables = box.rows w.tables ++
      if (s.saved w).box = box then [((s.saved w).id, (s.saved w).msg)] else [] := by
  rw [run_save]
  obtain ⟨save, e, skipped⟩ := s
  cases save with
  | message msg_id from_uid to_uid content =>
    cases box with
    | user uid =>
      refine (selected_snoc w.tables.t_chat_msg.rows (fun r => r.to_uid = uid) _ _).trans ?_
      simp only [SaveStep.saved, Save.box, Mailbox.user.injEq]
      rfl
    | group group_id => exact (List.append_nil _).symm
  | groupMessage msg_id group_id from_uid content =>
    cases box with
    | user uid => exact (List.append_nil _).symm
    | group g =>
      refine (selected_snoc w.tables.t_group_msg.rows (fun r => r.group_id = g) _ _).trans ?_
      simp only [SaveStep.saved, Save.box, Mailbox.group.injEq]
      rfl

theorem rows_saveAll (steps : List SaveStep) (w : World) (box : Mailbox) :
    box.rows (saveAll steps w).tables = box.rows w.tables ++
      ((history steps w).filter fun s => s.box = box).map fun s => (s.id, s.msg) := by
  induction steps generalizing w with
  | nil => exact (List.append_nil _).symm
  | cons s steps ih =>
    rw [saveAll, ih, rows_run, history, List.filter_cons, List.append_assoc]
    by_cases hbox : (s.saved w).box = box
    · rw [if_pos hbox, if_pos (decide_eq_true hbox)]
      rfl
    · rw [if_neg hbox, if_neg (by simpa using hbox)]
      rfl

section Pages
variable {ρ : Type} (rows : List ρ) (p : ρ → Prop) [DecidablePred p] (id : ρ → Int)
  (msg : ρ → ChatMsg)

theorem page_selected (c : Int) :
    Paging.page Prod.fst 100 ((rows.filter fun r => p r).map fun r => (id r, msg r)) c =
      ((rows.filter fun r => p r ∧ c < id r).take 100).map fun r => (id r, msg r) := by
  rw [Paging.page, Paging.after, List.filter_map, List.filter_filter, List.map_take]
  congr 3
  funext r
  rw [Function.comp_apply, Bool.and_comm]
  exact (Bool.decide_and _ _).symm

theorem ascending_selected (hasc : rows.Pairwise fun a b => id a < id b) :
    ((rows.filter fun r => p r).map fun r => (id r, msg r)).Pairwise fun a b => a.1 < b.1 :=
  List.pairwise_map.mpr (hasc.filter _)

end Pages

namespace Mailbox
variable (t : Tables) (box : Mailbox)

theorem ascending_rows : (box.rows t).Pairwise fun a b => a.1 < b.1 := by
  cases box with
  | user uid => exact ascending_selected _ _ _ _ t.t_chat_msg.ascending
  | group group_id => exact ascending_selected _ _ _ _ t.t_group_msg.ascending

theorem pageIds_eq (c : Int) :
    box.pageIds t c = (Paging.page Prod.fst 100 (box.rows t) c).map Prod.fst := by
  cases box with
  | user uid =>
    rw [rows, page_selected, List.map_map]
    rfl
  | group group_id =>
    rw [rows, page_selected, List.map_map]
    rfl

theorem run_fetch {e : Env} (he : e.Serves) (w : World) (c : Int) :
    (box.fetch c).run e.exec w =
      (some ((Paging.page Prod.fst 100 (box.rows w.tables) c).map Prod.snd), w) := by
  cases box with
  | user uid =>
    rw [rows, page_selected, List.map_map]
    apply (run_getofflineMsgs e w uid c).trans
    rw [if_pos (he.returns _)]
    rfl
  | group group_id =>
    rw [rows, page_selected, List.map_map]
    apply (run_getGroupMsgs e w group_id c).trans
    rw [if_pos (he.returns _)]
    rfl

end Mailbox

section Fetched
variable {env : Nat → ServingEnv} {w : World} {box : Mailbox} {n : Nat} {c : Int}

theorem fetched_of_pages {pages : List (List (Int × ChatMsg))}
    (h : Paging.Pages Prod.fst 100 (box.rows w.tables) c pages) (n : Nat) :
    Fetched env w box n c (pages.map (List.map Prod.snd)) := by
  induction h generalizing n with
  | stop hempty =>
    refine .stop ((box.run_fetch (env n).serves w _).trans ?_)
    rw [hempty]
    rfl
  | next hm hrest ih =>
    rw [← box.pageIds_eq] at hm
    exact .next (box.run_fetch (env n).serves w _) hm (ih (n + 1))

theorem pages_of_fetched {pages : List (List ChatMsg)} (h : Fetched env w box n c pages) :
    ∃ rowPages, Paging.Pages Prod.fst 100 (box.rows w.tables) c rowPages ∧
      pages = rowPages.map (List.map Prod.snd) := by
  induction h with
  | stop hrun =>
    rw [box.run_fetch (env _).serves] at hrun
    have hempty := List.map_eq_nil_iff.mp (Option.some.inj (congrArg Prod.fst hrun))
    exact ⟨_, .stop hempty, rfl⟩
  | next hrun hm hrest ih =>
    obtain ⟨rowPages, hpages, rfl⟩ := ih
    rw [box.pageIds_eq] at hm
    rw [box.run_fetch (env _).serves] at hrun
    obtain rfl := Option.some.inj (congrArg Prod.fst hrun)
    exact ⟨_, .next hm hpages, rfl⟩

end Fetched

theorem paging_partitions (steps : List SaveStep) (env : Nat → ServingEnv) (box : Mailbox) (c : Int) :
    (∃ pages, Fetched env (saveAll steps World.empty) box 0 c pages) ∧
      ∀ pages, Fetched env (saveAll steps World.empty) box 0 c pages →
        pages.flatten = ((history steps World.empty).filter fun s => s.box = box ∧ c < s.id).map
          (·.msg) := by
  have hasc := box.ascending_rows (saveAll steps World.empty).tables
  have hsaved : box.rows (saveAll steps World.empty).tables =
      ((history steps World.empty).filter fun s => s.box = box).map fun s => (s.id, s.msg) := by
    rw [rows_saveAll]
    cases box <;> rfl
  constructor
  · obtain ⟨pages, hpages⟩ := Paging.exists_pages (by decide : 0 < 100) hasc c
    exact ⟨_, fetched_of_pages hpages 0⟩
  · intro pages hfetched
    obtain ⟨rowPages, hpages, rfl⟩ := pages_of_fetched hfetched
    rw [← List.map_flatten, hpages.flatten (by decide) hasc, hsaved, Paging.after, List.filter_map,
      List.map_map, List.filter_filter]
    have hboth : ∀ s : SavedMessage, (decide (c < s.id) && decide (s.box = box)) =
        decide (s.box = box ∧ c < s.id) := fun s => by rw [Bool.decide_and, Bool.and_comm]
    exact congrArg (fun p => ((history steps World.empty).filter p).map (·.msg)) (funext hboth)

end LetsChat
