import LetsChat.LogicService

/-! The offline synchronisation of a client that follows the protocol's cursor. -/

namespace LetsChat
open Lib PooledDbClient LogicServiceImpl

def syncPage (e : Env) (w : World) (uid last_msg_id : Int) : List ChatMsg :=
  (((syncMsg { uid, last_msg_id }).run e.exec w).1.map (·.msgs)).getD []

/-- The client asks from a cursor on until it gets an empty reply; call `n` meets the
environment `env n`. -/
inductive ClientSync (env : Nat → Env) (w : World) (uid : Int) : Nat → Int → List ChatMsg → Prop
  | done {n : Nat} {cursor : Int} (hpage : syncPage (env n) w uid cursor = []) :
    ClientSync env w uid n cursor []
  | more {n : Nat} {cursor : Int} {received : List ChatMsg}
    (hpage : syncPage (env n) w uid cursor ≠ [])
    (hrest : ClientSync env w uid (n + 1) ((syncPage (env n) w uid cursor).getLast hpage).msg_id
      received) :
    ClientSync env w uid n cursor (syncPage (env n) w uid cursor ++ received)

def Carries (m : ChatMsg) (r : ChatMsgRow) : Prop :=
  m.from_uid = r.from_uid ∧ m.to_uid = r.to_uid ∧ m.content = r.content ∧
    m.create_time = r.create_time

def rowsFor (t : Tables) (uid : Int) : List ChatMsgRow :=
  t.t_chat_msg.rows.filter fun r => r.to_uid = uid

def Delivers (env : Nat → Env) (w : World) (uid : Int) : Prop :=
  ∃ received, ClientSync env w uid 0 0 received ∧
    List.Forall₂ Carries received (rowsFor w.tables uid)

theorem syncPage_eq {e : Env} (he : e.Returns .getofflineMsgs) (w : World) (uid cursor : Int) :
    syncPage e w uid cursor = (offlineRows w.tables uid cursor).map ofRow := by
  rw [syncPage, run_syncMsg, if_pos he]
  rfl

/-- The row loop leaves the message id at its default. -/
theorem msg_id_eq_zero {e : Env} {w : World} {uid cursor : Int} (m : ChatMsg)
    (hm : m ∈ syncPage e w uid cursor) : m.msg_id = 0 := by
  rw [syncPage, run_syncMsg] at hm
  by_cases he : e.Returns .getofflineMsgs
  · rw [if_pos he] at hm
    obtain ⟨r, -, rfl⟩ := List.mem_map.mp hm
    rfl
  · rw [if_neg he] at hm
    exact absurd hm List.not_mem_nil

theorem not_clientSync {env : Nat → Env} {w : World} {uid : Int}
    (hpage : ∀ n, syncPage (env n) w uid 0 ≠ []) {n : Nat} {received : List ChatMsg} :
    ¬ClientSync env w uid n 0 received := by
  intro h
  generalize hc : (0 : Int) = cursor at h
  induction h with
  | done hempty =>
    subst hc
    exact hpage _ hempty
  -- the next cursor is the id of the last message, which is 0 again
  | more hne hrest ih => exact ih (msg_id_eq_zero _ (List.getLast_mem hne)).symm

theorem delivers_iff (env : Nat → Env) (w : World) (uid : Int)
    (henv : ∀ n, (env n).Returns .getofflineMsgs) :
    Delivers env w uid ↔ ∀ r ∈ w.tables.t_chat_msg.rows, r.to_uid ≠ uid := by
  have hfirst : ∀ n, syncPage (env n) w uid 0 = (offlineRows w.tables uid 0).map ofRow :=
    fun n => syncPage_eq (henv n) w uid 0
  constructor
  · rintro ⟨received, hsync, hall⟩ r hr hto
    have hrow : r ∈ rowsFor w.tables uid := List.mem_filter.mpr ⟨hr, by simp [hto]⟩
    by_cases hnil : offlineRows w.tables uid 0 = []
    · -- the one reply is empty, so nothing was received of the row
      cases hsync with
      | done =>
        rw [List.forall₂_nil_left_iff.mp hall] at hrow
        exact absurd hrow List.not_mem_nil
      | more hne =>
        have hempty : syncPage (env 0) w uid 0 = [] := by rw [hfirst, hnil, List.map_nil]
        exact hne hempty
    · refine not_clientSync (fun n => ?_) hsync
      rw [hfirst]
      exact fun h => hnil (List.map_eq_nil_iff.mp h)
  · intro hnone
    have hrows : rowsFor w.tables uid = [] := by
      apply List.filter_eq_nil_iff.mpr
      intro r hr
      simp [hnone r hr]
    have hoffline : offlineRows w.tables uid 0 = [] := by
      have hfilter : w.tables.t_chat_msg.rows.filter (fun r => r.to_uid = uid ∧ 0 < r.id) = [] := by
        apply List.filter_eq_nil_iff.mpr
        intro r hr
        simp [hnone r hr]
      rw [offlineRows, hfilter, List.take_nil]
    refine ⟨[], .done ?_, ?_⟩
    · rw [hfirst, hoffline, List.map_nil]
    · rw [hrows]
      exact .nil

def oneMessage : World :=
  { World.empty with
    tables := { Tables.empty with
      t_chat_msg := SerialTable.empty.insert
        (fun id => ⟨id, "7".toList, 1, 2, "hi".toList, 0⟩) fun _ => rfl } }

theorem delivers_iff_oneMessage :
    Delivers (fun _ => Env.fair) oneMessage 1 ↔
      ∀ r ∈ oneMessage.tables.t_chat_msg.rows, r.to_uid ≠ 1 :=
  delivers_iff (fun _ => Env.fair) oneMessage 1 fun _ => Env.fair_serves.returns _

theorem not_delivers_oneMessage : ¬Delivers (fun _ => Env.fair) oneMessage 2 := by
  rintro ⟨received, hsync, -⟩
  refine not_clientSync (fun n => ?_) hsync
  rw [syncPage_eq (Env.fair_serves.returns _)]
  decide

end LetsChat
