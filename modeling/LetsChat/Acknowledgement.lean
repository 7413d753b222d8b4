import LetsChat.LogicService

/-! When the acknowledgement of a message means that the message is stored. -/

namespace LetsChat
open Lib Machine PooledDbClient LogicServiceImpl

def Stored (t : Tables) (msg : ChatMsg) : Prop :=
  ∃ row ∈ t.t_chat_msg.rows,
    row.from_uid = msg.from_uid ∧ row.to_uid = msg.to_uid ∧ row.content = msg.content

def Clean (s : Text) : Prop := '\'' ∉ s ∧ '\x00' ∉ s

instance (s : Text) : Decidable (Clean s) := inferInstanceAs (Decidable (_ ∧ _))

theorem clean_to_string (n : Int) : Clean (to_string n) :=
  ⟨Decimal.not_mem_print (by decide) (by decide), Decimal.not_mem_print (by decide) (by decide)⟩

/-- A message whose friend check passes has a clean content, and the statement that saves
it reaches the server. An equal message stored earlier serves as well. -/
def Saving : History (Request × Env) (Option Reply) → World → Request × Env → Option Reply →
    World → Prop :=
  fun _ w i _ _ => ∀ r, i.1 = .sendMsg r →
    FriendsSeen i.2 w.tables r.msg.from_uid r.msg.to_uid →
      Clean r.msg.content ∧ (i.2.Reaches .saveMessage ∨ Stored w.tables r.msg)

def AckStored : History (Request × Env) (Option Reply) → World → Request × Env → Option Reply →
    World → Prop :=
  fun _ _ i o w' => ∀ r res, i.1 = .sendMsg r → o = some (.sendMsg res) →
    res.err_code = .ERR_SUCCESS → Stored w'.tables r.msg

theorem serve_saveQuery (e : Env) (t : Tables) {msg : ChatMsg} (hclean : Clean msg.content) :
    e.serve (saveQuery e msg) t = (saveQuery e msg).exec t := by
  have hlex : (saveQuery e msg).LexesAsIntended := by
    rw [Query.lexesAsIntended_iff]
    intro s hs
    rcases List.mem_cons.mp hs with rfl | hs
    · exact clean_to_string e.systemClock
    · obtain rfl := List.mem_singleton.mp hs
      exact hclean
  rw [Env.serve, if_pos hlex]

theorem stored_saveQuery (e : Env) (t : Tables) (msg : ChatMsg) :
    Stored ((saveQuery e msg).exec t).2 msg :=
  ⟨_, List.mem_append_right _ (List.mem_singleton.mpr rfl), rfl, rfl, rfl⟩

theorem stored_effect {e : Env} {t : Tables} {msg : ChatMsg} (hclean : Clean msg.content)
    (h : e.Reaches .saveMessage ∨ Stored t msg) :
    Stored (e.effect .saveMessage (saveQuery e msg) t) msg := by
  rw [Env.effect_eq, serve_saveQuery e t hclean]
  -- a statement that does not reach the server leaves the earlier row
  by_cases hreach : e.Reaches .saveMessage
  · rw [if_pos hreach]
    exact stored_saveQuery e t msg
  · rw [if_neg hreach]
    exact h.resolve_left hreach

theorem ackStored_step {impl : LogicServiceImpl} {h : History (Request × Env) (Option Reply)}
    {w w' : World} {i : Request × Env} {o : Option Reply}
    (hs : (service impl).step w i = some (o, w')) (hsave : Saving h w i o w') :
    AckStored h w i o w' := by
  obtain ⟨req, e⟩ := i
  rintro r res rfl rfl hok
  rcases service_sendMsg hs with ⟨hseen, -, rfl⟩ | ⟨-, ho, -⟩
  · obtain ⟨hclean, hstored⟩ := hsave r rfl hseen
    exact stored_effect hclean hstored
  · obtain rfl : res = _ := Reply.sendMsg.inj (Option.some.inj ho)
    cases hok

theorem acknowledged_stored (impl : LogicServiceImpl) (w : World) (is : List (Request × Env))
    (h : (service impl).EveryStep Saving [] w is) : (service impl).EveryStep AckStored [] w is :=
  h.mono fun _ _ _ _ _ hs hsave => ackStored_step hs hsave

def friendsOnly : World := { World.empty with tables := { Tables.empty with t_friend := [⟨1, 2, 0⟩] } }

def greeting : MsgSendReq := { msg := { from_uid := 1, to_uid := 2, content := "hi".toList } }

theorem acknowledged_stored_greeting :
    (service bare).EveryStep AckStored [] friendsOnly
      [(.sendMsg greeting, Env.fair), (.syncMsg ⟨2, 0⟩, Env.fair), (.sendMsg greeting, Env.fair)] := by
  apply acknowledged_stored
  have hsend : ∀ h w o w', Saving h w (.sendMsg greeting, Env.fair) o w' := by
    rintro h w o w' r hr -
    obtain rfl := Request.sendMsg.inj hr
    exact ⟨by decide, .inl (Env.fair_serves.returns _).reaches⟩
  have hsync : ∀ h w o w', Saving h w (.syncMsg ⟨2, 0⟩, Env.fair) o w' := by
    intro h w o w' r hr
    cases hr
  exact fun _ _ _ => ⟨hsend _ _ _ _, fun _ _ _ => ⟨hsync _ _ _ _, fun _ _ _ => ⟨hsend _ _ _ _, trivial⟩⟩⟩

def noConnection : Env :=
  { Env.fair with acquire := fun site => decide (site ≠ .saveMessage) }

theorem lost_without_connection :
    ¬(service bare).EveryStep AckStored [] friendsOnly [(.sendMsg greeting, noConnection)] := by
  intro h
  have hseen : FriendsSeen noConnection friendsOnly.tables 1 2 := by decide
  obtain ⟨⟨o, w'⟩, hstep⟩ : ∃ r, (service bare).step friendsOnly (.sendMsg greeting, noConnection) =
      some r := ⟨_, rfl⟩
  rcases service_sendMsg hstep with ⟨-, ho, rfl⟩ | ⟨hnot, -, -⟩
  · obtain ⟨row, hrow, -⟩ := (h _ _ hstep).1 greeting _ rfl ho rfl
    exact absurd hrow List.not_mem_nil
  · exact hnot hseen

end LetsChat
