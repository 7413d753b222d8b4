import LetsChat.FriendAnswers
import LetsChat.FriendTables

/-! Whether the reply to an answer says what has become of the request. -/

namespace LetsChat
open Lib Prog PooledDbClient LogicServiceImpl

def answeredStatus (accept : Bool) : Int := if accept then 1 else 2

def RepliesTruth (e : Env) (w : World) (req : RespondFriendReq) : Prop :=
  ∃ res w', (respondFriendRequest req).run e.exec w = (some res, w') ∧
    (res.err_code = .ERR_SUCCESS ↔
      statusOf w req.req_id = some 0 ∧
        statusOf w' req.req_id = some (answeredStatus req.accept))

/-- The update of an acceptance that comes to it is carried out. A rejection finds the
request pending, and its update is carried out. -/
def AnswerCarriedOut (e : Env) (w : World) (req : RespondFriendReq) : Prop :=
  if req.accept then
    ∀ row, foundRow e req.req_id w.tables = some row → InsertsDone e → e.stmt .acceptUpd ≠ .failed
  else statusOf w req.req_id = some 0 ∧ e.Reaches .execute

theorem statusOf_of_requests {w : World} {t : Tables}
    (h : t.t_friend_request = w.tables.t_friend_request) (req_id : Int) :
    statusOf { w with tables := t } req_id = statusOf w req_id := by
  rw [statusOf, statusOf, h]

theorem statusOf_eq_zero_iff (w : World) (req_id : Int) :
    statusOf w req_id = some 0 ↔ ∃ row, pendingRow w.tables req_id = some row := by
  rw [statusOf, pendingRow]
  cases w.tables.t_friend_request.find req_id with
  | none => simp
  | some row => by_cases hrow : row.status = 0 <;> simp [hrow, Option.filter]

theorem foundRow_pending {e : Env} {req_id : Int} {t : Tables} {row : FriendRequestRow}
    (h : foundRow e req_id t = some row) : pendingRow t req_id = some row := by
  unfold foundRow at h
  exact (Option.ite_none_right_eq_some.mp h).2

theorem statusOf_pqExec_accept (e : Env) (w : World) (site : Site) (req_id : Int) {t : Tables}
    (h : t.t_friend_request = w.tables.t_friend_request) :
    statusOf { w with tables := (e.pqExec site (.acceptRequest req_id) t).2 } req_id =
      if e.stmt site = .failed then statusOf w req_id else (statusOf w req_id).map fun _ => 1 := by
  rw [Env.pqExec_snd, e.serve_plain rfl]
  by_cases hfailed : e.stmt site = .failed
  · rw [if_pos hfailed, if_pos hfailed]
    exact statusOf_of_requests h req_id
  · have hupdate := statusOf_updateStatus { w with tables := t } req_id 1 req_id
    rw [if_pos rfl, statusOf_of_requests h] at hupdate
    rw [if_neg hfailed, if_neg hfailed]
    exact hupdate

theorem statusOf_effect_reject (e : Env) (w : World) (req_id : Int) :
    statusOf { w with tables := e.effect .execute (.rejectRequest req_id) w.tables } req_id =
      if e.Reaches .execute then (statusOf w req_id).map fun _ => 2 else statusOf w req_id := by
  rw [Env.effect_eq, e.serve_plain rfl]
  by_cases hreach : e.Reaches .execute
  · have hupdate := statusOf_updateStatus w req_id 2 req_id
    rw [if_pos rfl] at hupdate
    rw [if_pos hreach, if_pos hreach]
    exact hupdate
  · rw [if_neg hreach, if_neg hreach]

theorem run_execute (e : Env) (w : World) (q : Query) :
    (execute q).run e.exec w =
      (some (decide ((e.answer .execute q w.tables).status = .PGRES_COMMAND_OK)),
        { w with tables := e.effect .execute q w.tables }) := by
  refine (run_connected e w _ q false fun w => by simp).trans ?_
  split <;> simp_all

theorem run_reject (e : Env) (w : World) (req : RespondFriendReq) (h : req.accept = false) :
    (respondFriendRequest req).run e.exec w =
      (some { err_code := .ERR_SUCCESS },
        { w with tables := e.effect .execute (.rejectRequest req.req_id) w.tables }) := by
  unfold respondFriendRequest
  rw [h, if_neg Bool.false_ne_true, run_bind_of _ (run_execute e w _)]
  rfl

def acceptReply (accepted : Bool) : RespondFriendRes :=
  if accepted then { err_code := .ERR_SUCCESS }
  else { err_code := .ERR_SYS_ERROR, err_msg := "Failed to accept friend request".toList }

theorem acceptReply_success {accepted : Bool} :
    (acceptReply accepted).err_code = .ERR_SUCCESS ↔ accepted = true := by
  cases accepted <;> simp [acceptReply]

theorem run_accept {e : Env} {w w' : World} {req : RespondFriendReq} {accepted : Bool}
    (h : req.accept = true)
    (hrun : (acceptFriendRequest req.req_id).run e.exec w = (some accepted, w')) :
    (respondFriendRequest req).run e.exec w = (some (acceptReply accepted), w') := by
  unfold respondFriendRequest
  rw [h, if_pos rfl, run_bind_of _ hrun]
  cases accepted <;> rfl

section Replies
variable {e : Env} {w w' : World} {req : RespondFriendReq}

theorem repliesTruth_of_run {res : RespondFriendRes}
    (hrun : (respondFriendRequest req).run e.exec w = (some res, w')) :
    RepliesTruth e w req ↔ (res.err_code = .ERR_SUCCESS ↔
      statusOf w req.req_id = some 0 ∧
        statusOf w' req.req_id = some (answeredStatus req.accept)) := by
  constructor
  · rintro ⟨res', w'', hrun', htruth⟩
    rw [hrun] at hrun'
    cases hrun'
    exact htruth
  · exact fun htruth => ⟨res, w', hrun, htruth⟩

theorem repliesTruth_refused (haccept : req.accept = true)
    (hrun : (acceptFriendRequest req.req_id).run e.exec w = (some false, w'))
    (hsame : statusOf w' req.req_id = statusOf w req.req_id) : RepliesTruth e w req := by
  rw [repliesTruth_of_run (run_accept haccept hrun), acceptReply_success, hsame]
  apply iff_of_false Bool.false_ne_true
  rintro ⟨hpending, hanswered⟩
  rw [hpending, haccept] at hanswered
  cases hanswered

theorem repliesTruth_accept (haccept : req.accept = true) :
    RepliesTruth e w req ↔ AnswerCarriedOut e w req := by
  have hrun := run_acceptFriendRequest e w req.req_id
  rw [AnswerCarriedOut, if_pos haccept]
  cases hfound : foundRow e req.req_id w.tables with
  | none =>
    rw [hfound] at hrun
    exact iff_of_true (repliesTruth_refused haccept hrun rfl) nofun
  | some row =>
    rw [hfound] at hrun
    have hpending := (statusOf_eq_zero_iff w req.req_id).mpr ⟨row, foundRow_pending hfound⟩
    have hrequests := insertedBoth_requests e row w.tables
    dsimp only at hrun
    by_cases hdone : InsertsDone e
    · rw [if_pos hdone] at hrun
      rw [repliesTruth_of_run (run_accept haccept hrun), acceptReply_success,
        statusOf_pqExec_accept e w .acceptUpd req.req_id hrequests, hpending, haccept]
      by_cases hfailed : e.stmt .acceptUpd = .failed
      · simp [hfailed, hdone, answeredStatus]
      · simp [hfailed, answeredStatus]
    · rw [if_neg hdone] at hrun
      have hsame := statusOf_of_requests hrequests req.req_id
      exact iff_of_true (repliesTruth_refused haccept hrun hsame) fun _ _ h => absurd h hdone

theorem repliesTruth_reject (hreject : req.accept = false) :
    RepliesTruth e w req ↔ AnswerCarriedOut e w req := by
  rw [repliesTruth_of_run (run_reject e w req hreject), statusOf_effect_reject, AnswerCarriedOut,
    hreject, if_neg Bool.false_ne_true, answeredStatus, if_neg Bool.false_ne_true]
  refine (iff_true_left rfl).trans (and_congr_right fun hpending => ?_)
  by_cases hreach : e.Reaches .execute
  · rw [if_pos hreach, hpending]
    exact iff_of_true rfl hreach
  · rw [if_neg hreach, hpending]
    exact iff_of_false (by decide) hreach

end Replies

theorem repliesTruth_iff (e : Env) (w : World) (req : RespondFriendReq) :
    RepliesTruth e w req ↔ AnswerCarriedOut e w req := by
  cases haccept : req.accept with
  | false => exact repliesTruth_reject haccept
  | true => exact repliesTruth_accept haccept

theorem rejects_what_is_not_there :
    ¬RepliesTruth Env.fair World.empty { req_id := 7, accept := false } := by
  rw [repliesTruth_of_run (run_reject Env.fair World.empty _ rfl)]
  intro htruth
  have hpending : statusOf World.empty 7 = some 0 := (htruth.mp rfl).1
  cases hpending

end LetsChat
