import Mathlib.Logic.Equiv.List
import LetsChat.Acknowledgement

/-! The three ways in which a message is told: the push to its recipient, the row that the
recipient syncs, and the acknowledgement. -/

namespace LetsChat
open Lib PooledDbClient LogicServiceImpl

def SyncedAs (row : ChatMsgRow) (m : ChatMsg) : Prop :=
  ∀ (e : Env) (w w' : World) (last_msg_id : Int) (res : SyncMsgRes), e.Returns .getofflineMsgs →
    (syncMsg ⟨row.to_uid, last_msg_id⟩).run e.exec w = (some res, w') →
      ∀ i : Nat, (offlineRows w.tables row.to_uid last_msg_id)[i]? = some row → res.msgs[i]? = some m

def carried (parse : Bytes → Option MsgPush) (push_req : PushMsgReq) : Option ChatMsg :=
  (parse (push_req.content.drop HEADER_LEN)).map (·.msg)

/-- A message that is accepted and saved is synced as the `ChatMsg` that is pushed, which has
the id and the time of the acknowledgement. -/
def OneMessage (impl : LogicServiceImpl) (parse : Bytes → Option MsgPush) (e : Env) (w : World)
    (r : MsgSendReq) : Prop :=
  ∀ res w', (impl.sendMsg r).run e.exec w = (some res, w') → res.err_code = .ERR_SUCCESS →
    ∀ row ∈ w'.tables.t_chat_msg.rows, row ∉ w.tables.t_chat_msg.rows →
      ∃ m, SyncedAs row m ∧
        (∀ news, w'.pushed = w.pushed ++ news → ∀ p ∈ news, carried parse p.2 = some m) ∧
        res.msg_id = m.msg_id ∧ res.create_time = m.create_time

def StoredFor (e : Env) (w : World) (msg : ChatMsg) (row : ChatMsgRow) : Prop :=
  row ∈ (e.effect .saveMessage (saveQuery e msg) w.tables).t_chat_msg.rows ∧
    row ∉ w.tables.t_chat_msg.rows

structure SentAsStored (msg : ChatMsg) (row : ChatMsgRow) : Prop where
  msg_id : msg.msg_id = 0
  from_uid : msg.from_uid = row.from_uid
  to_uid : msg.to_uid = row.to_uid
  session_id : msg.session_id = 0
  msg_type : msg.msg_type = 0
  content : msg.content = row.content
  create_time : msg.create_time = row.create_time

/-- The clock stands at its epoch, the reply is made in the second of the `INSERT`, and a message
that is pushed was sent as it is stored. -/
def OneSource (e : Env) (w : World) (r : MsgSendReq) : Prop :=
  FriendsSeen e w.tables r.msg.from_uid r.msg.to_uid → ∀ row, StoredFor e w r.msg row →
    e.systemClock = 0 ∧ e.time .sendMsg = row.create_time ∧
      (route e w r.msg.to_uid ≠ none → SentAsStored r.msg row)

theorem sentAsStored_iff {msg : ChatMsg} {row : ChatMsgRow} :
    SentAsStored msg row ↔ msg = ofRow row := by
  constructor
  · intro h
    obtain ⟨msg_id, from_uid, to_uid, session_id, msg_type, content, create_time⟩ := msg
    obtain ⟨rfl, rfl, rfl, rfl, rfl, rfl, rfl⟩ := h
    rfl
  · rintro rfl
    exact ⟨rfl, rfl, rfl, rfl, rfl, rfl, rfl⟩

def onlyRow (row : ChatMsgRow) : World :=
  { World.empty with
    tables := { Tables.empty with
      t_chat_msg :=
        { rows := [row]
          next := row.id + 1
          ascending := List.pairwise_singleton _ _
          below := fun _ hr => List.mem_singleton.mp hr ▸ Int.lt_succ _ } } }

theorem offlineRows_onlyRow (row : ChatMsgRow) :
    offlineRows (onlyRow row).tables row.to_uid (row.id - 1) = [row] := by
  have hpage : [row].filter (fun r => r.to_uid = row.to_uid ∧ row.id - 1 < r.id) = [row] := by
    apply List.filter_eq_self.mpr
    intro r hr
    obtain rfl := List.mem_singleton.mp hr
    exact decide_eq_true ⟨rfl, Int.sub_one_lt_of_le (Int.le_refl _)⟩
  unfold offlineRows
  exact congrArg (List.take 100) hpage

theorem syncedAs_iff (row : ChatMsgRow) (m : ChatMsg) : SyncedAs row m ↔ m = ofRow row := by
  constructor
  · intro h
    have hrun := run_syncMsg Env.fair (onlyRow row) ⟨row.to_uid, row.id - 1⟩
    rw [if_pos (Env.fair_serves.returns _), offlineRows_onlyRow] at hrun
    have hfirst := h Env.fair (onlyRow row) _ _ _ (Env.fair_serves.returns _) hrun 0
      (by rw [offlineRows_onlyRow]; rfl)
    exact (Option.some.inj hfirst).symm
  · rintro rfl e w w' last_msg_id res hret hrun i hi
    rw [run_syncMsg, if_pos hret] at hrun
    obtain ⟨hres, -⟩ := Prod.mk.inj hrun
    obtain rfl := Option.some.inj hres
    rw [List.getElem?_map, hi, Option.map_some]

section Clean
variable {e : Env} {w : World} {msg : ChatMsg} (hclean : Clean msg.content)
include hclean

theorem storedFor_iff (row : ChatMsgRow) : StoredFor e w msg row ↔ e.Reaches .saveMessage ∧
    row = ⟨w.tables.t_chat_msg.next, to_string e.systemClock, msg.from_uid, msg.to_uid, msg.content,
      e.time .saveMessage⟩ := by
  unfold StoredFor
  rw [Env.effect_eq, serve_saveQuery e _ hclean]
  by_cases hreach : e.Reaches .saveMessage
  · rw [if_pos hreach, and_iff_right hreach]
    constructor
    · rintro ⟨hrow, hnew⟩
      exact List.mem_singleton.mp ((List.mem_append.mp hrow).resolve_left hnew)
    · rintro rfl
      refine ⟨List.mem_append_right _ (List.mem_singleton_self _), fun hold => ?_⟩
      exact absurd (w.tables.t_chat_msg.below _ hold) (Int.lt_irrefl _)
  · rw [if_neg hreach]
    exact iff_of_false (fun h => h.2 h.1) fun h => hreach h.1

end Clean

theorem oneSource_iff_of_clean {e : Env} {w : World} {r : MsgSendReq} (hclean : Clean r.msg.content)
    (hseen : FriendsSeen e w.tables r.msg.from_uid r.msg.to_uid) (hreach : e.Reaches .saveMessage) :
    OneSource e w r ↔ e.systemClock = 0 ∧ e.time .sendMsg = e.time .saveMessage ∧
      (route e w r.msg.to_uid ≠ none → r.msg.msg_id = 0 ∧ r.msg.session_id = 0 ∧
        r.msg.msg_type = 0 ∧ r.msg.create_time = e.time .saveMessage) := by
  unfold OneSource
  constructor
  · intro h
    obtain ⟨hclock, htime, hsent⟩ := h hseen _ ((storedFor_iff hclean _).mpr ⟨hreach, rfl⟩)
    refine ⟨hclock, htime, fun hroute => ?_⟩
    have hfields := hsent hroute
    exact ⟨hfields.msg_id, hfields.session_id, hfields.msg_type, hfields.create_time⟩
  · rintro ⟨hclock, htime, hsent⟩ - row hrow
    obtain ⟨-, rfl⟩ := (storedFor_iff hclean row).mp hrow
    refine ⟨hclock, htime, fun hroute => ?_⟩
    obtain ⟨hid, hsession, htype, hcreate⟩ := hsent hroute
    exact ⟨hid, rfl, rfl, hsession, htype, rfl, hcreate⟩

section Copies
variable {impl : LogicServiceImpl} {parse : Bytes → Option MsgPush} {e : Env} {w : World}
variable {r : MsgSendReq}

theorem oneMessage_iff_of_seen (hseen : FriendsSeen e w.tables r.msg.from_uid r.msg.to_uid) :
    OneMessage impl parse e w r ↔ ∀ row, StoredFor e w r.msg row →
      (∀ p ∈ impl.pushes r.msg (route e w r.msg.to_uid), carried parse p.2 = some (ofRow row)) ∧
        e.systemClock = 0 ∧ e.time .sendMsg = row.create_time := by
  unfold OneMessage
  rw [run_sendMsg, if_pos hseen]
  constructor
  · rintro h row ⟨hrow, hnew⟩
    obtain ⟨m, hsynced, hpushed, hid, htime⟩ := h _ _ rfl rfl row hrow hnew
    have hm : m = ofRow row := (syncedAs_iff row m).mp hsynced
    rw [hm] at hpushed hid htime
    exact ⟨hpushed _ rfl, hid, htime⟩
  · intro h res w' hrun _ row hrow hnew
    obtain ⟨hres, rfl⟩ := Prod.mk.inj hrun
    obtain rfl := Option.some.inj hres
    obtain ⟨hpushed, hid, htime⟩ := h row ⟨hrow, hnew⟩
    refine ⟨ofRow row, (syncedAs_iff row _).mpr rfl, fun news hnews => ?_, hid, htime⟩
    have hsame : impl.pushes r.msg (route e w r.msg.to_uid) = news := List.append_cancel_left hnews
    rwa [← hsame]

theorem oneMessage_of_refused (hseen : ¬FriendsSeen e w.tables r.msg.from_uid r.msg.to_uid) :
    OneMessage impl parse e w r := by
  unfold OneMessage
  rw [run_sendMsg, if_neg hseen]
  intro res w' hrun hok
  obtain ⟨hres, -⟩ := Prod.mk.inj hrun
  obtain rfl := Option.some.inj hres
  cases hok

variable (hparse : ∀ p, parse (impl.protobuf.serializeMsgPush p) = some p)
include hparse

theorem carried_pushes_iff (msg : ChatMsg) (addr : Option Text) (row : ChatMsgRow) :
    (∀ p ∈ impl.pushes msg addr, carried parse p.2 = some (ofRow row)) ↔
      (addr ≠ none → SentAsStored msg row) := by
  cases addr with
  | none =>
    exact iff_of_true (fun p hp => absurd hp List.not_mem_nil) fun hne => absurd rfl hne
  | some addr =>
    have hcarried : carried parse ⟨msg.to_uid, packPushMsg impl.host impl.protobuf msg⟩ = some msg := by
      unfold carried
      rw [drop_packPushMsg, hparse, Option.map_some]
    unfold pushes
    rw [List.forall_mem_singleton, hcarried, Option.some.injEq, ← sentAsStored_iff]
    exact ⟨fun hsent _ => hsent, fun hsent => hsent (Option.some_ne_none addr)⟩

theorem one_message_iff (e : Env) (w : World) (r : MsgSendReq) :
    OneMessage impl parse e w r ↔ OneSource e w r := by
  unfold OneSource
  by_cases hseen : FriendsSeen e w.tables r.msg.from_uid r.msg.to_uid
  · rw [oneMessage_iff_of_seen hseen, imp_iff_right hseen]
    apply forall₂_congr
    intro row _
    rw [carried_pushes_iff hparse, and_comm, and_assoc]
  · exact iff_of_true (oneMessage_of_refused hseen) fun h => absurd h hseen

end Copies

def ChatMsg.fields (m : ChatMsg) : Int × Int × Int × Int × Int × List Nat × Int :=
  (m.msg_id, m.from_uid, m.to_uid, m.session_id, m.msg_type, m.content.map Char.toNat, m.create_time)

def ChatMsg.ofFields : Int × Int × Int × Int × Int × List Nat × Int → ChatMsg
  | (msg_id, from_uid, to_uid, session_id, msg_type, content, create_time) =>
    { msg_id, from_uid, to_uid, session_id, msg_type, content := content.map Char.ofNat, create_time }

/-- The bytes of the wire format for one message, and for any other as many bytes as its number. -/
def spell (p : MsgPush) : Bytes :=
  if p.msg = greeting.msg then [10, 8, 16, 1, 24, 2, 50, 2, 104, 105]
  else List.replicate (Encodable.encode p.msg.fields) 255

def unspell (bytes : Bytes) : Option MsgPush :=
  if bytes = [10, 8, 16, 1, 24, 2, 50, 2, 104, 105] then some ⟨greeting.msg⟩
  else (Encodable.decode bytes.length).map fun c => ⟨.ofFields c⟩

theorem ChatMsg.ofFields_fields (m : ChatMsg) : ofFields m.fields = m := by
  have hcontent : (m.content.map Char.toNat).map Char.ofNat = m.content := by
    rw [List.map_map]
    exact List.map_id'' Char.ofNat_toNat m.content
  unfold ofFields fields
  dsimp only
  rw [hcontent]

theorem unspell_spell (p : MsgPush) : unspell (spell p) = some p := by
  obtain ⟨m⟩ := p
  unfold spell
  dsimp only
  split
  · next heq =>
    rw [heq, unspell, if_pos rfl]
  · have hne : List.replicate (Encodable.encode m.fields) 255 ≠
        ([10, 8, 16, 1, 24, 2, 50, 2, 104, 105] : Bytes) := by
      intro h
      have hten := List.eq_of_mem_replicate (h ▸ List.mem_cons_self)
      exact absurd hten (by decide)
    rw [unspell, if_neg hne, List.length_replicate, Encodable.encodek, Option.map_some,
      ChatMsg.ofFields_fields]

def spelling : LogicServiceImpl :=
  { bare with protobuf := { bare.protobuf with serializeMsgPush := spell } }

def routed : World := { friendsOnly with redis := fun _ => some gateway_addr }

theorem one_message_iff_routed :
    OneMessage spelling unspell Env.fair routed greeting ↔ OneSource Env.fair routed greeting := by
  have hparse : ∀ p, unspell (spelling.protobuf.serializeMsgPush p) = some p := unspell_spell
  exact one_message_iff hparse Env.fair routed greeting

def atSeven : Env := { Env.fair with systemClock := 7 }

theorem synced_without_id : ¬OneMessage spelling unspell atSeven friendsOnly greeting := by
  have hseen : FriendsSeen atSeven friendsOnly.tables greeting.msg.from_uid greeting.msg.to_uid := by
    decide
  have hreach : atSeven.Reaches .saveMessage := by decide
  have hclean : Clean greeting.msg.content := by decide
  rw [oneMessage_iff_of_seen hseen]
  intro h
  have hclock := (h _ ((storedFor_iff hclean _).mpr ⟨hreach, rfl⟩)).2.1
  exact absurd hclock (by decide)

end LetsChat
