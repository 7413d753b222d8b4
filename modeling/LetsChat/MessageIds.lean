import LetsChat.Acknowledgement
import LetsChat.Footprint

/-! The ids of the stored messages, over any interleaving of the calls. -/

namespace LetsChat
open Lib Prog Machine PooledDbClient LogicServiceImpl

def Query.newIds : Query → List Text
  | insertChatMsg msg_id _ _ _ _ => [msg_id]
  | _ => []

def Op.newIds : Op → List Text
  | .pqExec _ q => q.newIds
  | _ => []

def messageIds (t : Tables) : List Text := t.t_chat_msg.rows.map (·.msg_id)

theorem messageIds_exec (q : Query) (t : Tables) :
    messageIds (q.exec t).2 = messageIds t ++ q.newIds := by
  have hids : (q.newMsgs t.t_chat_msg.next).map (·.msg_id) = q.newIds := by cases q <;> rfl
  unfold messageIds
  rw [Query.rows_exec, List.map_append, hids]

def ReadAsIntended (e : Env) : Op → Prop
  | .pqExec site q => e.stmt site ≠ .failed → q.LexesAsIntended
  | _ => True

def Env.savedIds (e : Env) : Op → List Text
  | .pqExec site q => if e.stmt site = .failed then [] else q.newIds
  | _ => []

theorem messageIds_op {e : Env} {o : Op} (h : ReadAsIntended e o) (w : World) :
    messageIds (e.exec o w).2.tables = messageIds w.tables ++ e.savedIds o := by
  cases o with
  | pqExec site q =>
    show messageIds (e.pqExec site q w.tables).2 = _
    rw [Env.pqExec_snd, Env.savedIds]
    by_cases hfailed : e.stmt site = .failed
    · rw [if_pos hfailed, if_pos hfailed, List.append_nil]
    · rw [if_neg hfailed, if_neg hfailed, Env.serve, if_pos (h hfailed), messageIds_exec]
  | _ => exact (List.append_nil _).symm

theorem savedIds_eq (e : Env) (o : Op) : e.savedIds o = [] ∨ e.savedIds o = o.newIds := by
  cases o with
  | pqExec site q =>
    unfold Env.savedIds
    by_cases hfailed : e.stmt site = .failed
    · exact .inl (if_pos hfailed)
    · exact .inr (if_neg hfailed)
  | _ => exact .inl rfl

def StampedOnce (past : List (Event Op.Ret)) (o : Op) : Prop :=
  o.newIds = [] ∨ (∀ ev ∈ past, ev.1.newIds = []) ∧
    ∃ tick : Int, ⟨Op.systemClock, tick⟩ ∈ past ∧ o.newIds = [to_string tick]

theorem newIds_of_statements {o : Op} (h : Statements (fun q => q.newIds = []) o) :
    o.newIds = [] := by
  cases o with
  | pqExec site q => exact h.2 site q rfl
  | _ => rfl

theorem newIds_of_touches {req : Request} {o : Op} (hreq : ∀ r, req ≠ .sendMsg r)
    (h : req.touches o) : o.newIds = [] := by
  cases o with
  | pqExec site q =>
    cases q with
    | insertChatMsg msg_id from_uid to_uid content now =>
      obtain ⟨r, heq, -⟩ := Request.sendMsg_of_statement h
      exact absurd heq (hreq r)
    | _ => rfl
  | _ => rfl

theorem within_forward (impl : LogicServiceImpl) (msg : ChatMsg) (addr : Option Text) :
    (impl.forward msg addr).Within fun o => o.newIds = [] := by
  cases addr with
  | none => trivial
  | some addr => exact ⟨rfl, fun _ => trivial⟩

theorem noIds_snoc {past : List (Event Op.Ret)} {ev : Event Op.Ret}
    (hpast : ∀ ev ∈ past, ev.1.newIds = []) (hev : ev.1.newIds = []) :
    ∀ ev' ∈ past ++ [ev], ev'.1.newIds = [] := by
  rw [List.forall_mem_append]
  exact ⟨hpast, List.forall_mem_singleton.mpr hev⟩

theorem stampedOnce_saveMessage {past : List (Event Op.Ret)} {tick : Int}
    (hpast : ∀ ev ∈ past, ev.1.newIds = []) (htick : ⟨Op.systemClock, tick⟩ ∈ past)
    (from_uid to_uid : Int) (content : Text) :
    (saveMessage (to_string tick) from_uid to_uid content).Disciplined StampedOnce past := by
  simp only [saveMessage, acquire_bind, time_bind, pqExec_bind, disciplined_op, disciplined_ite]
  refine ⟨.inl rfl, fun g => ⟨fun _ => trivial, fun _ => ⟨.inl rfl, fun now => ⟨?_, fun res =>
    ⟨fun _ => trivial, fun _ => trivial⟩⟩⟩⟩⟩
  refine .inr ⟨noIds_snoc (noIds_snoc hpast rfl) rfl, tick, ?_, rfl⟩
  exact List.mem_append_left _ (List.mem_append_left _ htick)

theorem stampedOnce_sendMsg (impl : LogicServiceImpl) (r : MsgSendReq) :
    (impl.sendMsg r).Disciplined StampedOnce [] := by
  have hplain : ∀ past more o, o.newIds = [] → StampedOnce (past ++ more) o :=
    fun _ _ _ ho => .inl ho
  have hcheck : (areFriends r.msg.from_uid r.msg.to_uid).Within fun o => o.newIds = [] :=
    (within_areFriends (S := fun q => q.newIds = []) rfl).mono fun o => newIds_of_statements
  have hget : (PooledRedisClient.get (sendKey r.msg.to_uid)).Within fun o => o.newIds = [] :=
    within_get rfl rfl
  rw [sendMsg_eq]
  refine (Concludes.mono (fun past friends hpast => ?_)
    (hcheck.concludes fun ev hev => absurd hev List.not_mem_nil)).disciplined_bind
      (hcheck.disciplined (hplain []))
  cases friends with
  | false => trivial
  | true =>
    simp only [Bool.not_true, Bool.false_eq_true, if_false, deliver, systemClock_bind, disciplined_op]
    refine ⟨.inl rfl, fun tick => ?_⟩
    refine disciplined_bind (stampedOnce_saveMessage (noIds_snoc hpast rfl)
      (List.mem_append_right _ (List.mem_singleton_self _)) _ _ _) fun saved past => ?_
    refine (within_bind hget fun addr => ?_).disciplined (hplain past)
    exact within_bind (within_forward impl r.msg addr) fun _ => ⟨rfl, fun _ => trivial⟩

theorem stampedOnce_handle (impl : LogicServiceImpl) (req : Request) :
    (handle impl req).Disciplined StampedOnce [] := by
  cases req with
  | sendMsg r => exact disciplined_map _ (stampedOnce_sendMsg impl r)
  | _ =>
    refine (within_handle impl _).disciplined fun more o ho => .inl (newIds_of_touches ?_ ho)
    intro r heq
    cases heq

def savedIds (t : Thread Op.Ret Request Env Reply) : List Text :=
  t.past.flatMap fun ev => t.env.savedIds ev.1

structure Stamped (impl : LogicServiceImpl) (t : Thread Op.Ret Request Env Reply) : Prop where
  traced : Trace (handle impl t.call) t.past t.rest
  ticks : ∀ tick : Int, ⟨Op.systemClock, tick⟩ ∈ t.past → tick = t.env.systemClock
  ids : savedIds t = [] ∨ savedIds t = [to_string t.env.systemClock]

section Calls
variable {impl : LogicServiceImpl} {req : Request} {e : Env} {past : List (Event Op.Ret)} {o : Op}
variable {next : o.Ret → Prog Op.Ret Reply}

theorem stamped_arrival (impl : LogicServiceImpl) (req : Request) (e : Env) :
    Stamped impl ⟨req, e, [], handle impl req⟩ where
  traced := .nil _
  ticks _ hmem := absurd hmem List.not_mem_nil
  ids := .inl rfl

theorem savedIds_snoc (req : Request) (e : Env) (past : List (Event Op.Ret)) (ev : Event Op.Ret)
    (rest rest' : Prog Op.Ret Reply) :
    savedIds ⟨req, e, past ++ [ev], rest'⟩ = savedIds ⟨req, e, past, rest⟩ ++ e.savedIds ev.1 := by
  unfold savedIds
  rw [List.flatMap_append, List.flatMap_singleton]

theorem Stamped.advance (h : Stamped impl ⟨req, e, past, .op o next⟩) (w : World) :
    Stamped impl ⟨req, e, past ++ [⟨o, (e.exec o w).1⟩], next (e.exec o w).1⟩ where
  traced := h.traced.snoc _
  ticks tick hmem := by
    rcases List.mem_append.mp hmem with hmem | hmem
    · exact h.ticks tick hmem
    · obtain ⟨rfl, htick⟩ := Sigma.mk.inj_iff.mp (List.mem_singleton.mp hmem)
      exact eq_of_heq htick
  ids := by
    rw [savedIds_snoc req e past _ (.op o next)]
    dsimp only
    rcases (stampedOnce_handle impl req).asks h.traced with hnone | ⟨hpast, tick, htick, hone⟩
    · have hsame : e.savedIds o = [] := (savedIds_eq e o).elim id fun heq => heq.trans hnone
      rw [hsame, List.append_nil]
      exact h.ids
    · -- the call has stored nothing so far, and the number is its own
      have hempty : savedIds ⟨req, e, past, .op o next⟩ = [] := by
        apply List.flatMap_eq_nil_iff.mpr
        intro ev hev
        exact (savedIds_eq e ev.1).elim id fun heq => heq.trans (hpast ev hev)
      obtain rfl : tick = e.systemClock := h.ticks tick htick
      rw [hempty, List.nil_append]
      exact (savedIds_eq e o).imp_right fun heq => heq.trans hone

end Calls

abbrev Calls := Conf Op.Ret Request Env World Reply

def UniqueIds (w : World) : Prop := (messageIds w.tables).Nodup

def Saved (t : Thread Op.Ret Request Env Reply) : Prop := savedIds t ≠ []

def DistinctTicks (c : Calls) : Prop :=
  c.threads.Pairwise fun t t' => Saved t → Saved t' → t.env.systemClock ≠ t'.env.systemClock

def Intended : History (Sched Request Env) (Option (Event Op.Ret)) → Calls → Sched Request Env →
    Option (Event Op.Ret) → Calls → Prop :=
  fun _ c i _ _ => ∀ k req e past o next, i = .pick k →
    c.threads[k]? = some ⟨req, e, past, .op o next⟩ → ReadAsIntended e o

structure IdsInv (impl : LogicServiceImpl) (c : Calls) : Prop where
  stamped : ∀ t ∈ c.threads, Stamped impl t
  ids : (messageIds c.shared.tables).Perm (c.threads.flatMap savedIds)

theorem idsInv_step {impl : LogicServiceImpl} {h : History (Sched Request Env) (Option (Event Op.Ret))}
    {c c' : Calls} {i : Sched Request Env} {out : Option (Event Op.Ret)} (hinv : IdsInv impl c)
    (hintended : Intended h c i out c') (hs : (concurrentService impl).step c i = some (out, c')) :
    IdsInv impl c' where
  stamped := threads_step (fun req e _ => stamped_arrival impl req e) (fun _ _ _ _ _ w ht => ht.advance w) hinv.stamped hs
  ids := by
    rcases interleaving_step hs with
      ⟨req, e, rfl, rfl⟩ | ⟨k, req, e, past, o, next, rfl, hk, rfl⟩
    · rw [List.flatMap_append, List.flatMap_singleton]
      exact hinv.ids.trans (.of_eq (List.append_nil _).symm)
    · have hnew := savedIds_snoc req e past ⟨o, (e.exec o c.shared).1⟩ (.op o next)
        (next (e.exec o c.shared).1)
      rw [messageIds_op (hintended k req e past o next rfl hk)]
      exact (hinv.ids.append_right _).trans (flatMap_set_perm savedIds hk hnew).symm

section Ids
variable {impl : LogicServiceImpl} {t t' : Thread Op.Ret Request Env Reply}

theorem Stamped.nodup (h : Stamped impl t) : (savedIds t).Nodup := by
  rcases h.ids with hnone | hone
  · rw [hnone]
    exact List.nodup_nil
  · rw [hone]
    exact List.nodup_singleton _

theorem Stamped.disjoint_iff (h : Stamped impl t) (h' : Stamped impl t') :
    List.Disjoint (savedIds t) (savedIds t') ↔
      (Saved t → Saved t' → t.env.systemClock ≠ t'.env.systemClock) := by
  unfold Saved
  rcases h.ids with hnone | hone
  · rw [hnone]
    exact iff_of_true (List.disjoint_nil_left _) fun hsaved => absurd rfl hsaved
  rcases h'.ids with hnone | hone'
  · rw [hnone]
    exact iff_of_true (List.disjoint_nil_right _) fun _ hsaved => absurd rfl hsaved
  -- both calls have stored a number, and printing keeps numbers apart
  · rw [hone, hone', List.disjoint_singleton, List.mem_singleton,
      imp_iff_right (List.cons_ne_nil _ _), imp_iff_right (List.cons_ne_nil _ _)]
    apply not_congr
    exact ⟨fun hsame => (Decimal.print_injective hsame).symm, fun hsame => congrArg _ hsame.symm⟩

theorem IdsInv.uniqueIds_iff {c : Calls} (hinv : IdsInv impl c) :
    UniqueIds c.shared ↔ DistinctTicks c := by
  have hnodup : ∀ t ∈ c.threads, (savedIds t).Nodup := fun t ht => (hinv.stamped t ht).nodup
  unfold UniqueIds DistinctTicks
  rw [hinv.ids.nodup_iff, List.nodup_flatMap, and_iff_right hnodup]
  apply List.Pairwise.iff_of_mem
  intro t t' ht ht'
  exact (hinv.stamped t ht).disjoint_iff (hinv.stamped t' ht')

end Ids

def Request.strings : Request → List Text
  | .sendMsg r => [r.msg.content]
  | .registerUser r => [r.nickname, r.password, r.email]
  | .httpLogin r => [r.email]
  | .sendFriendRequest r => [r.reason]
  | _ => []

theorem readAsIntended_of_clean {req : Request} (hclean : ∀ s ∈ req.strings, Clean s)
    {past : List (Event Op.Ret)} {o : Op} (htouches : req.touches o) (hstamped : StampedOnce past o)
    (e : Env) : ReadAsIntended e o := by
  cases o with
  | pqExec site q =>
    intro _
    rw [Query.lexesAsIntended_iff]
    cases req with
    | login | syncMsg | listFriends | getFriendRequests =>
      obtain rfl := htouches
      exact fun s hs => absurd hs List.not_mem_nil
    | registerUser | httpLogin =>
      obtain rfl := htouches
      exact hclean
    | getUploadUrl => exact htouches.elim
    | sendMsg r =>
      rcases htouches with rfl | ⟨msg_id, now, rfl⟩
      · exact fun s hs => absurd hs List.not_mem_nil
      · -- the id is a printed number
        rcases hstamped with hnone | ⟨-, tick, -, hone⟩
        · cases hnone
        · obtain rfl := List.singleton_inj.mp hone
          exact List.forall_mem_cons.mpr ⟨clean_to_string tick, hclean⟩
    | sendFriendRequest r =>
      obtain ⟨now, rfl⟩ := htouches
      exact hclean
    | respondFriendRequest r =>
      rcases htouches with rfl | ⟨_, _, _, rfl⟩ | rfl | rfl <;>
        exact fun s hs => absurd hs List.not_mem_nil
  | _ => trivial

structure CleanCall (impl : LogicServiceImpl) (t : Thread Op.Ret Request Env Reply) : Prop where
  traced : Trace (handle impl t.call) t.past t.rest
  clean : ∀ s ∈ t.call.strings, Clean s

theorem intended_of_clean (impl : LogicServiceImpl) (w : World) (is : List (Sched Request Env))
    (hclean : ∀ req e, Sched.call req e ∈ is → ∀ s ∈ req.strings, Clean s) :
    (concurrentService impl).EveryStep Intended [] ⟨w, []⟩ is := by
  have hinputs : (concurrentService impl).EveryStep
      (fun _ _ i _ _ => ∀ req e, i = .call req e → ∀ s ∈ req.strings, Clean s) [] ⟨w, []⟩ is :=
    everyStep_of_inputs fun i hi req e heq => hclean req e (heq ▸ hi)
  refine everyStep_of_guarded (I := fun _ c => ∀ t ∈ c.threads, CleanCall impl t) ?_ ?_ ?_ hinputs
  · intro h c i out c' hcalls hinput hs
    exact threads_step (fun req e heq => ⟨.nil _, hinput req e heq⟩)
      (fun _ _ _ _ _ _ ht => ⟨ht.traced.snoc _, ht.clean⟩) hcalls hs
  · rintro h c i out c' hcalls _ _ k req e past o next rfl hk
    have hcall := hcalls _ (List.mem_of_getElem? hk)
    exact readAsIntended_of_clean hcall.clean ((within_handle impl req).asks hcall.traced)
      ((stampedOnce_handle impl req).asks hcall.traced) e
  · exact fun t ht => absurd ht List.not_mem_nil

def World.unsent (w : World) : World := { w with tables := { w.tables with t_chat_msg := .empty } }

/-- In a run whose statements are read as they were meant, the ids are unique in exactly the
states in which no two messages were saved in one tick. -/
theorem unique_ids_iff (impl : LogicServiceImpl) (w : World) (is : List (Sched Request Env))
    (hintended : (concurrentService impl).EveryStep Intended [] ⟨w.unsent, []⟩ is) :
    (concurrentService impl).EveryState (fun _ c => UniqueIds c.shared ↔ DistinctTicks c) []
      ⟨w.unsent, []⟩ is := by
  have hinit : IdsInv impl ⟨w.unsent, []⟩ := ⟨fun _ ht => absurd ht List.not_mem_nil, .nil⟩
  refine (everyState_of_guarded (I := fun _ c => IdsInv impl c) ?_ hinit hintended).mono
    fun _ c hinv => hinv.uniqueIds_iff
  exact fun _ _ _ _ _ hinv hstep hs => idsInv_step hinv hstep hs

def farewell : MsgSendReq := { msg := { from_uid := 1, to_uid := 2, content := "bye".toList } }

def oneTick : List (Sched Request Env) :=
  inTurn (handle bare) Env.exec friendsOnly.unsent (.sendMsg greeting) Env.fair (.sendMsg farewell)
    Env.fair

theorem unique_ids_iff_oneTick :
    (concurrentService bare).EveryState (fun _ c => UniqueIds c.shared ↔ DistinctTicks c) []
      ⟨friendsOnly.unsent, []⟩ oneTick := by
  refine unique_ids_iff bare friendsOnly oneTick (intended_of_clean bare _ _ fun req e hcall => ?_)
  rcases call_mem_inTurn hcall with rfl | rfl
  · exact fun s hs => List.mem_singleton.mp hs ▸ by decide
  · exact fun s hs => List.mem_singleton.mp hs ▸ by decide

theorem messageIds_sendMsg {w : World} {r : MsgSendReq}
    (hseen : FriendsSeen Env.fair w.tables r.msg.from_uid r.msg.to_uid) (hclean : Clean r.msg.content) :
    ((handle bare (.sendMsg r)).run Env.fair.exec w).2.tables.t_friend = w.tables.t_friend ∧
      messageIds ((handle bare (.sendMsg r)).run Env.fair.exec w).2.tables =
        messageIds w.tables ++ [to_string 0] := by
  have htables : ((handle bare (.sendMsg r)).run Env.fair.exec w).2.tables =
      ((saveQuery Env.fair r.msg).exec w.tables).2 := by
    rw [handle, run_map, run_sendMsg, if_pos hseen]
    dsimp only
    rw [Env.effect_eq, if_pos (Env.fair_serves.returns _).reaches, serve_saveQuery _ _ hclean]
  rw [htables, messageIds_exec]
  exact ⟨rfl, rfl⟩

theorem not_uniqueIds_twice :
    ¬UniqueIds ((handle bare (.sendMsg farewell)).run Env.fair.exec
      ((handle bare (.sendMsg greeting)).run Env.fair.exec friendsOnly.unsent).2).2 := by
  have hseen : FriendsSeen Env.fair friendsOnly.unsent.tables 1 2 := by decide
  obtain ⟨hfriends, hone⟩ := messageIds_sendMsg (r := greeting) hseen (by decide)
  have hstill : FriendsSeen Env.fair
      ((handle bare (.sendMsg greeting)).run Env.fair.exec friendsOnly.unsent).2.tables 1 2 := by
    unfold FriendsSeen
    rwa [hfriends]
  have htwo := (messageIds_sendMsg (r := farewell) hstill (by decide)).2
  unfold UniqueIds
  rw [htwo, hone]
  intro htwice
  exact (List.nodup_cons.mp htwice).1 (List.mem_singleton_self _)

theorem same_id_in_one_tick :
    ¬(concurrentService bare).EveryState (fun _ c => UniqueIds c.shared) []
      ⟨friendsOnly.unsent, []⟩ oneTick := by
  intro h
  obtain ⟨_, c, hunique, hshared⟩ := everyState_inTurn h
  rw [hshared] at hunique
  exact not_uniqueIds_twice hunique

end LetsChat
