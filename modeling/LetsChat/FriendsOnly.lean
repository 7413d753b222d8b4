import LetsChat.Footprint
import LetsChat.FriendTables
import LetsChat.Lib.Outline

/-! Stored and pushed messages are between friends, over any interleaving of the calls. -/

namespace LetsChat
open Lib Prog Machine PooledDbClient LogicServiceImpl

/-- Statements may fail, but the ones that the server carries out have their intended effect. -/
structure IntendedEnv where
  env : Env
  intended : env.unquoted = Query.exec

theorem befriended_exec {t : Tables} {a b : Int} (h : Befriended t a b) (q : Query) :
    Befriended (q.exec t).2 a b := by
  cases q with
  | insertFriend uid friend_uid now => exact (befriended_insertFriend t uid friend_uid now a b).mpr (.inr h)
  | insertUser username password email =>
    rw [Query.exec]
    split
    · split <;> exact h
    · exact h
  | _ => exact h

theorem chatMsg_exec {t : Tables} {q : Query} {row : ChatMsgRow}
    (h : row ∈ (q.exec t).2.t_chat_msg.rows) : row ∈ t.t_chat_msg.rows ∨
      ∃ now, q = .insertChatMsg row.msg_id row.from_uid row.to_uid row.content now := by
  rw [Query.rows_exec] at h
  rcases List.mem_append.mp h with h | h
  · exact .inl h
  · cases q with
    | insertChatMsg msg_id from_uid to_uid content now =>
      obtain rfl := List.mem_singleton.mp h
      exact .inr ⟨now, rfl⟩
    | _ => exact absurd h List.not_mem_nil

section Operations
variable (e : IntendedEnv) (w : World)

theorem serve_intended (q : Query) (t : Tables) : e.env.serve q t = q.exec t := by
  rw [Env.serve, e.intended, ite_self]

theorem exec_tables (o : Op) : (e.env.exec o w).2.tables = w.tables ∨
    ∃ site q, o = .pqExec site q ∧ (e.env.exec o w).2.tables = (q.exec w.tables).2 := by
  cases o with
  | pqExec site q =>
    show (e.env.pqExec site q w.tables).2 = w.tables ∨ _
    by_cases hfailed : e.env.stmt site = .failed
    · rw [Env.pqExec_snd, if_pos hfailed]
      exact .inl rfl
    · refine .inr ⟨site, q, rfl, ?_⟩
      show (e.env.pqExec site q w.tables).2 = _
      rw [Env.pqExec_snd, if_neg hfailed, serve_intended]
  | _ => exact .inl rfl

theorem befriended_op {a b : Int} (h : Befriended w.tables a b) (o : Op) :
    Befriended (e.env.exec o w).2.tables a b := by
  rcases exec_tables e w o with hsame | ⟨site, q, rfl, hq⟩
  · rwa [hsame]
  · rw [hq]
    exact befriended_exec h q

theorem befriended_of_selectFriend {site : Site} {a b : Int}
    (hstatus : (e.env.pqExec site (.selectFriend a b) w.tables).1.status = .PGRES_TUPLES_OK)
    (hne : (e.env.pqExec site (.selectFriend a b) w.tables).1.ntuples ≠ 0) :
    Befriended w.tables a b := by
  rw [Env.pqExec_fst, serve_intended] at hstatus hne
  by_cases hdone : e.env.stmt site = .done
  · rw [if_pos hdone, Query.exec, PGresult.ntuples_tuples, List.length_map] at hne
    obtain ⟨row, hrow⟩ := List.exists_mem_of_length_pos (Nat.pos_of_ne_zero hne)
    obtain ⟨hmem, hpair⟩ := List.mem_filter.mp (List.mem_of_mem_take hrow)
    exact ⟨row, hmem, of_decide_eq_true hpair⟩
  · rw [if_neg hdone] at hstatus
    cases hstatus

end Operations

def SawFriends (a b : Int) (past : List (Event Op.Ret)) : Prop :=
  ∃ site, ∃ res : PGresult, ⟨Op.pqExec site (.selectFriend a b), res⟩ ∈ past ∧
    res.status = .PGRES_TUPLES_OK ∧ res.ntuples ≠ 0

theorem SawFriends.append {a b : Int} {past : List (Event Op.Ret)} (h : SawFriends a b past)
    (more : List (Event Op.Ret)) : SawFriends a b (past ++ more) := by
  obtain ⟨site, res, hmem, hres⟩ := h
  exact ⟨site, res, List.mem_append_left _ hmem, hres⟩

def Cautious (req : Request) (past : List (Event Op.Ret)) : Op → Prop
  | .pqExec _ (.insertChatMsg _ from_uid to_uid _ _) => SawFriends from_uid to_uid past
  | .pushMsg _ _ => ∃ r, req = .sendMsg r ∧ SawFriends r.msg.from_uid r.msg.to_uid past
  | _ => True

theorem cautious_of_touches {req : Request} {o : Op} (hreq : ∀ r, req ≠ .sendMsg r)
    (h : req.touches o) (past : List (Event Op.Ret)) : Cautious req past o := by
  cases o with
  | pqExec site q =>
    cases q with
    | insertChatMsg msg_id from_uid to_uid content now =>
      obtain ⟨r, heq, -⟩ := Request.sendMsg_of_statement h
      exact absurd heq (hreq r)
    | _ => trivial
  | pushMsg addr push_req =>
    obtain ⟨r, heq, -⟩ := h
    exact absurd heq (hreq r)
  | _ => trivial

theorem cautious_of_sawFriends {r : MsgSendReq} {o : Op} (h : (Request.sendMsg r).touches o)
    {past : List (Event Op.Ret)} (hsaw : SawFriends r.msg.from_uid r.msg.to_uid past) :
    Cautious (.sendMsg r) past o := by
  cases o with
  | pqExec site q =>
    cases q with
    | insertChatMsg msg_id from_uid to_uid content now =>
      have hstatement : (Request.sendMsg r).statement _ := h
      obtain ⟨_, ⟨⟩, rfl, rfl⟩ := Request.sendMsg_of_statement hstatement
      exact hsaw
    | _ => trivial
  | pushMsg addr push_req => exact ⟨r, rfl, hsaw⟩
  | _ => trivial

def Inert (o : Op) : Prop := ∀ (e : IntendedEnv) w, (e.env.exec o w).2 = w

theorem inert_acquire (site : Site) : Inert (.acquire site) := fun _ _ => rfl

theorem inert_selectFriend (site : Site) (a b : Int) : Inert (.pqExec site (.selectFriend a b)) := by
  intro e w
  have htables : (e.env.pqExec site (.selectFriend a b) w.tables).2 = w.tables := by
    rw [Env.pqExec_snd, serve_intended]
    exact ite_self _
  rw [Env.exec, htables]

theorem concludes_areFriends (a b : Int) :
    (areFriends a b).Concludes
      (fun past friends => (friends = true → SawFriends a b past) ∧ ∀ ev ∈ past, Inert ev.1) [] := by
  intro g
  cases g with
  | false =>
    refine ⟨fun h => (by cases h), fun ev hev => ?_⟩
    obtain rfl := List.mem_singleton.mp hev
    exact inert_acquire _
  | true =>
    intro res
    refine ⟨fun h => ?_, fun ev hev => ?_⟩
    · obtain ⟨hstatus, hpos⟩ := of_decide_eq_true h
      exact ⟨_, res, List.mem_append_right _ (List.mem_singleton.mpr rfl), hstatus,
        Nat.ne_of_gt hpos⟩
    · rcases List.mem_append.mp hev with hev | hev
      · obtain rfl := List.mem_singleton.mp hev
        exact inert_acquire _
      · obtain rfl := List.mem_singleton.mp hev
        exact inert_selectFriend _ a b

section SendMsg
variable (impl : LogicServiceImpl) (r : MsgSendReq)

theorem disciplined_sendMsg : (impl.sendMsg r).Disciplined (Cautious (.sendMsg r)) [] := by
  rw [sendMsg_eq]
  have hcheck : (areFriends r.msg.from_uid r.msg.to_uid).Disciplined (Cautious (.sendMsg r)) [] := by
    refine (within_areFriends (S := fun q => q = .selectFriend _ _) rfl).disciplined fun more o ho => ?_
    obtain ⟨hdb, hselect⟩ := ho
    cases o with
    | pqExec site q =>
      rw [hselect site q rfl]
      trivial
    | acquire | time => trivial
    | _ => exact hdb.elim
  refine (Concludes.mono (fun past friends h => ?_) (concludes_areFriends _ _)).disciplined_bind hcheck
  cases friends with
  | false => trivial
  | true =>
    exact (within_deliver impl r).disciplined fun more o ho =>
      cautious_of_sawFriends ho ((h.1 rfl).append more)

theorem concludes_sendMsg :
    (impl.sendMsg r).Concludes
      (fun past res => res.err_code = .ERR_NOT_FRIEND → ∀ ev ∈ past, Inert ev.1) [] := by
  rw [sendMsg_eq]
  refine concludes_bind (Concludes.mono (fun past friends h => ?_) (concludes_areFriends _ _))
  cases friends with
  | false => exact fun _ => h.2
  | true =>
    -- whatever happens from here on, the reply is a success
    refine concludes_bind (concludes_of_forall (fun past msg_id => ?_) _)
    refine concludes_bind (concludes_of_forall (fun past saved => ?_) _)
    refine concludes_bind (concludes_of_forall (fun past addr => ?_) _)
    refine concludes_bind (concludes_of_forall (fun past _ => ?_) _)
    intro create_time hnot
    cases hnot

end SendMsg

theorem disciplined_handle (impl : LogicServiceImpl) (req : Request) :
    (handle impl req).Disciplined (Cautious req) [] := by
  cases req with
  | sendMsg r => exact disciplined_map _ (disciplined_sendMsg impl r)
  | _ =>
    refine (within_handle impl _).disciplined fun more o ho => cautious_of_touches ?_ ho _
    intro r heq
    cases heq

def StoredForFriends (w : World) : Prop :=
  ∀ row ∈ w.tables.t_chat_msg.rows, Befriended w.tables row.from_uid row.to_uid

/-- What a call has read of friendships is true, since none is ever undone. -/
def friendOutline (impl : LogicServiceImpl) :
    Outline (handle impl) fun e : IntendedEnv => e.env.exec where
  invariant := StoredForFriends
  asserts _ past w := ∀ a b, SawFriends a b past → Befriended w.tables a b
  asks := Cautious
  disciplined := disciplined_handle impl
  initial _ _ _ a b hsaw := by
    obtain ⟨_, _, hmem, -⟩ := hsaw
    exact absurd hmem List.not_mem_nil
  own req past e o w hinv hasserts hasks := by
    constructor
    · intro row hrow
      rcases exec_tables e w o with hsame | ⟨site, q, rfl, hq⟩
      · rw [hsame] at hrow ⊢
        exact hinv row hrow
      · rw [hq] at hrow ⊢
        refine befriended_exec ?_ q
        rcases chatMsg_exec hrow with hrow | ⟨now, rfl⟩
        · exact hinv row hrow
        · exact hasserts _ _ hasks
    · rintro a b ⟨site, res, hmem, hstatus, hne⟩
      refine befriended_op e w ?_ o
      rcases List.mem_append.mp hmem with hmem | hmem
      · exact hasserts a b ⟨site, res, hmem, hstatus, hne⟩
      · -- the call has just read it
        obtain ⟨rfl, hres⟩ := Sigma.mk.inj_iff.mp (List.mem_singleton.mp hmem).symm
        rw [heq_iff_eq] at hres
        exact befriended_of_selectFriend e w (hres ▸ hstatus) (hres ▸ hne)
  others _ past _ _ e o w _ hasserts _ _ a b hsaw := befriended_op e w (hasserts a b hsaw) o

abbrev Serving := Conf Op.Ret Request IntendedEnv World Reply

def intendedService (impl : LogicServiceImpl) :
    Machine Serving (Sched Request IntendedEnv) (Option (Event Op.Ret)) :=
  interleaving (handle impl) fun e => e.env.exec

def PushedForFriends (c : Serving) : Prop :=
  ∀ t ∈ c.threads, ∀ addr push_req ok, ⟨Op.pushMsg addr push_req, ok⟩ ∈ t.past →
    ∃ r, t.call = .sendMsg r ∧ Befriended c.shared.tables r.msg.from_uid r.msg.to_uid

def RefusalsInert (c : Serving) : Prop :=
  ∀ t ∈ c.threads, ∀ r res, t.call = .sendMsg r → t.rest = .ret (.sendMsg res) →
    res.err_code = .ERR_NOT_FRIEND → ∀ ev ∈ t.past, Inert ev.1

def FriendshipsStay :
    History (Sched Request IntendedEnv) (Option (Event Op.Ret)) → Serving →
      Sched Request IntendedEnv → Option (Event Op.Ret) → Serving → Prop :=
  fun _ c _ _ c' => ∀ a b, Befriended c.shared.tables a b → Befriended c'.shared.tables a b

section Runs
variable {impl : LogicServiceImpl} {c : Serving}

theorem pushedForFriends_of_holds (hc : (friendOutline impl).Holds c) : PushedForFriends c := by
  intro t ht addr push_req ok hmem
  -- the call has asked for the push at a point where it had read the friendship
  obtain ⟨before, after, k, hpast, htrace⟩ := (hc.traced t ht).split hmem
  obtain ⟨r, hcall, hsaw⟩ := (disciplined_handle impl t.call).asks htrace
  refine ⟨r, hcall, hc.asserts t ht _ _ ?_⟩
  rw [hpast]
  exact hsaw.append _

theorem refusalsInert_of_holds (hc : (friendOutline impl).Holds c) : RefusalsInert c := by
  intro t ht r res hcall hrest hnot
  have htrace := hc.traced t ht
  rw [hcall, hrest] at htrace
  have hconcludes : (handle impl (.sendMsg r)).Concludes
      (fun past reply => ∀ res, reply = .sendMsg res → res.err_code = .ERR_NOT_FRIEND →
        ∀ ev ∈ past, Inert ev.1) [] := by
    refine concludes_map (Concludes.mono (fun past res h => ?_) (concludes_sendMsg impl r))
    rintro _ ⟨⟩
    exact h
  exact hconcludes.returns htrace res rfl hnot

theorem friendshipsStay_step {h : History (Sched Request IntendedEnv) (Option (Event Op.Ret))}
    {c' : Serving} {i : Sched Request IntendedEnv} {o : Option (Event Op.Ret)}
    (hs : (intendedService impl).step c i = some (o, c')) : FriendshipsStay h c i o c' := by
  intro a b hab
  rcases interleaving_step hs with ⟨req, e, rfl, rfl⟩ | ⟨k, req, e, past, o, next, rfl, hk, rfl⟩
  · exact hab
  · exact befriended_op e c.shared hab o

end Runs

/-- Over any interleaving and with any failures, what is stored or pushed is between friends,
who stay friends, and a refusal changes nothing. -/
theorem only_friends (impl : LogicServiceImpl) (w : World)
    (is : List (Sched Request IntendedEnv)) :
    (intendedService impl).EveryState
        (fun _ c => StoredForFriends c.shared ∧ PushedForFriends c ∧ RefusalsInert c) []
        ⟨{ w with tables := .empty }, []⟩ is ∧
      (intendedService impl).EveryStep FriendshipsStay [] ⟨{ w with tables := .empty }, []⟩ is := by
  have hinit : StoredForFriends { w with tables := .empty } := fun row hrow => absurd hrow List.not_mem_nil
  have hholds := (friendOutline impl).everyState hinit is
  constructor
  · exact hholds.mono fun h c hc =>
      ⟨hc.invariant, pushedForFriends_of_holds hc, refusalsInert_of_holds hc⟩
  · exact everyStep_true.mono fun h c i o c' hs _ => friendshipsStay_step hs

end LetsChat
