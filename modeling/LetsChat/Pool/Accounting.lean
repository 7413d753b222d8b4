import Mathlib.Data.Fintype.Card
import LetsChat.Lib.Ledger
import LetsChat.Pool.Pool

/-! The counter of a pool counts the connections that are idle or in a guard, and each
live connection has one owner: the idle list, a guard, or the thread that created it. -/

namespace LetsChat.Pool
open Lib Lib.Machine

/-- The counter cannot overflow: there are fewer pointers than its values, as null is none. -/
theorem length_lt_of_nodup {conns : List Conn} (hnodup : conns.Nodup) : conns.length < 2 ^ 64 := by
  have hinj : Function.Injective fun c : Conn => c.addr.toFin := by
    intro a b h
    cases a
    cases b
    cases BitVec.toFin_injective h
    rfl
  have haddrs : (0 :: conns.map fun c => c.addr.toFin).Nodup := by
    refine List.nodup_cons.mpr ⟨fun hzero => ?_, hnodup.map hinj⟩
    obtain ⟨c, -, hc⟩ := List.mem_map.mp hzero
    exact c.notNull (BitVec.toFin_injective hc)
  have hcard := haddrs.length_le_card
  rw [Fintype.card_fin, List.length_cons, List.length_map] at hcard
  exact hcard

theorem toNat_pred {total : SizeT} (hpos : 0 < total.toNat) :
    (total - 1).toNat + 1 = total.toNat := by
  have hone : (1 : SizeT) ≤ total := hpos
  rw [BitVec.toNat_sub_of_le hone]
  exact Nat.sub_add_cancel hpos

theorem perm_guard (c : Conn) (idle guards : List Conn) :
    (c :: (idle ++ guards)).Perm (idle ++ (guards ++ [c])) := by
  rw [← List.append_assoc]
  exact (List.perm_append_singleton c _).symm

section Drain
variable (healthy : Conn → Bool) (idle : List Conn) (total : SizeT)

theorem drain_idle : idle = (drain healthy idle total).freed ++
    ((drain healthy idle total).found.toList ++ (drain healthy idle total).idle) := by
  fun_induction drain healthy idle total with
  | case1 total => rfl
  | case2 c idle total hc => rfl
  | case3 c idle total hc rest ih => exact congrArg (c :: ·) ih

theorem drain_total (hcounted : idle.length ≤ total.toNat) :
    (drain healthy idle total).total.toNat + (drain healthy idle total).freed.length =
      total.toNat := by
  fun_induction drain healthy idle total with
  | case1 total => rfl
  | case2 c idle total hc => rfl
  | case3 c idle total hc rest ih =>
    rw [List.length_cons] at hcounted
    have hpred := toNat_pred (Nat.lt_of_lt_of_le (Nat.succ_pos _) hcounted)
    have hrest : rest.total.toNat + rest.freed.length = (total - 1).toNat := ih (by omega)
    show rest.total.toNat + (rest.freed.length + 1) = total.toNat
    omega

end Drain

section Turn
variable {K : PoolKind} {τ : Type} [DecidableEq τ] (max_pool_ : SizeT) (s : State K τ) (t : τ)

theorem turn_freed :
    (s.turn max_pool_ t).1.freed = (drain s.isHealthy s.idle_ s.total_created_).freed := by
  unfold State.turn
  dsimp only
  split
  · rfl
  · split <;> rfl

theorem turn_handed :
    (s.turn max_pool_ t).1.handed = (drain s.isHealthy s.idle_ s.total_created_).found := by
  unfold State.turn
  dsimp only
  split
  · next c hfound => exact hfound.symm
  · next hfound => split <;> exact hfound.symm

theorem turn_total :
    (s.turn max_pool_ t).2.total_created_ = (drain s.isHealthy s.idle_ s.total_created_).total := by
  unfold State.turn
  dsimp only
  split
  · rfl
  · split <;> rfl

end Turn

variable {K : PoolKind} {τ : Type}

def PC.transit : PC → Option Conn
  | .connected c => c
  | _ => none

namespace State

def transit (s : State K τ) (t : τ) : Option Conn := (s.threads t).transit

theorem transit_of_eq {s : State K τ} {t : τ} {pc : PC} (ht : s.threads t = pc) :
    s.transit t = pc.transit :=
  congrArg PC.transit ht

def live (s : State K τ) (c : Conn) : Prop := s.heap c ≠ none

theorem live_freeAll {s : State K τ} {freed : List Conn} {c : Conn} :
    (s.freeAll freed).live c ↔ s.live c ∧ c ∉ freed := by
  by_cases hc : c ∈ freed <;> simp [live, freeAll, hc]

theorem live_setHeap {s : State K τ} {c c' : Conn} {status : K.Status} :
    (s.setHeap c (some status)).live c' ↔ c' = c ∨ s.live c' := by
  by_cases hc : c' = c
  · subst hc
    simp [live, setHeap]
  · simp [live, setHeap, hc]

theorem transit_setThread [DecidableEq τ] (s : State K τ) (t : τ) (pc : PC) :
    (s.setThread t pc).transit = Function.update s.transit t pc.transit := by
  funext t'
  exact Function.apply_update (fun _ => PC.transit) s.threads t pc t'

end State

structure Accounted (s : State K τ) : Prop where
  total : s.total_created_.toNat = s.idle_.length + s.guards.length
  owners : Ledger (s.idle_ ++ s.guards) s.transit s.live

namespace Accounted
variable {s : State K τ}

theorem drain_owners (h : Accounted s) :
    let d := drain s.isHealthy s.idle_ s.total_created_
    Ledger (d.found.toList ++ (d.idle ++ s.guards)) s.transit (s.drained d).live := by
  intro d
  have hsplit : s.idle_ = d.freed ++ (d.found.toList ++ d.idle) := drain_idle ..
  have howners := h.owners
  rw [hsplit, List.append_assoc, List.append_assoc] at howners
  exact howners.free.congr fun c => State.live_freeAll

theorem drain_counts (h : Accounted s) :
    let d := drain s.isHealthy s.idle_ s.total_created_
    d.total.toNat = d.found.toList.length + (d.idle.length + s.guards.length) := by
  intro d
  have hsplit : s.idle_.length = d.freed.length + (d.found.toList.length + d.idle.length) := by
    rw [← List.length_append, ← List.length_append]
    exact congrArg List.length (drain_idle ..)
  have htotal : d.total.toNat + d.freed.length = s.total_created_.toNat :=
    drain_total _ _ _ (h.total ▸ Nat.le_add_right ..)
  have hcounter := h.total
  omega

theorem pos_of_guard (h : Accounted s) {c : Conn} (hc : c ∈ s.guards) : 0 < s.total_created_.toNat := by
  rw [h.total]
  exact Nat.add_pos_right _ (List.length_pos_of_mem hc)

theorem setStatus (h : Accounted s) {c : Conn} (hc : s.live c) (status : K.Status) :
    Accounted (s.setHeap c (some status)) where
  total := h.total
  owners := h.owners.congr fun _ =>
    State.live_setHeap.trans ⟨fun hor => hor.elim (fun heq => heq ▸ hc) id, .inr⟩

theorem release (h : Accounted s) {c : Conn} (hc : c ∈ s.guards) : Accounted (s.release c).2 := by
  have hperm := List.perm_cons_erase hc
  have hlength := hperm.length_eq
  rw [List.length_cons] at hlength
  have hcounter := h.total
  unfold State.release
  dsimp only
  split
  -- a healthy connection goes back to the idle list, another one is freed
  · constructor
    · show s.total_created_.toNat = (s.idle_ ++ [c]).length + (s.guards.erase c).length
      rw [List.length_append, List.length_singleton]
      omega
    · apply h.owners.perm
      show (s.idle_ ++ s.guards).Perm (s.idle_ ++ [c] ++ s.guards.erase c)
      rw [List.append_assoc]
      exact hperm.append_left s.idle_
  · constructor
    · have hpos : 0 < s.total_created_ := h.pos_of_guard hc
      have hpred := toNat_pred (h.pos_of_guard hc)
      rw [if_pos hpos]
      show (s.total_created_ - 1).toNat = s.idle_.length + (s.guards.erase c).length
      omega
    · have hfront : (s.idle_ ++ s.guards).Perm ([c] ++ (s.idle_ ++ s.guards.erase c)) :=
        (hperm.append_left s.idle_).trans List.perm_middle
      exact (h.owners.perm hfront).free.congr fun c' => State.live_freeAll

variable [DecidableEq τ]

theorem setThread (h : Accounted s) {t : τ} (pc : PC) (ht : s.transit t = none)
    (hpc : pc.transit = none) : Accounted (s.setThread t pc) where
  total := h.total
  owners := by
    rw [State.transit_setThread, hpc, ← ht, Function.update_eq_self]
    exact h.owners

theorem turn (h : Accounted s) (max_pool_ : SizeT) {t : τ} (ht : s.transit t = none) :
    Accounted (s.turn max_pool_ t).2 := by
  have howners := h.drain_owners
  have hcounts := h.drain_counts
  unfold State.turn
  generalize drain s.isHealthy s.idle_ s.total_created_ = d at howners hcounts ⊢
  dsimp only at howners hcounts ⊢
  cases hfound : d.found with
  -- the connection moves from the idle list into a guard
  | some c =>
    rw [hfound, Option.toList_some] at howners hcounts
    have hhanded : Accounted ((s.drained d).hand c) := by
      constructor
      · show d.total.toNat = d.idle.length + (s.guards ++ [c]).length
        rw [hcounts, List.length_append, Nat.add_comm, Nat.add_assoc]
      · exact howners.perm (perm_guard c d.idle s.guards)
    exact hhanded.setThread .out ht rfl
  | none =>
    rw [hfound, Option.toList_none, List.nil_append] at howners
    rw [hfound, Option.toList_none, List.length_nil, Nat.zero_add] at hcounts
    have hdrained : Accounted (s.drained d) := ⟨hcounts, howners⟩
    dsimp only
    split
    · exact hdrained.setThread .connecting ht rfl
    · exact hdrained.setThread .waiting ht rfl

theorem create (h : Accounted s) {t : τ} (ht : s.transit t = none) {c : Conn} (hc : ¬s.live c)
    (status : K.Status) :
    Accounted ((s.setHeap c (some status)).setThread t (.connected (some c))) where
  total := h.total
  owners := by
    rw [State.transit_setThread]
    exact (h.owners.create ht hc).congr fun c' => State.live_setHeap

theorem handNew (h : Accounted s) {t : τ} {c : Conn} (ht : s.transit t = some c) :
    Accounted ((s.handNew c).setThread t .out) := by
  have hsettled := h.owners.settle ht
  have hroom := length_lt_of_nodup hsettled.nodup
  rw [List.length_cons, List.length_append] at hroom
  constructor
  · show (s.total_created_ + 1).toNat = s.idle_.length + (s.guards ++ [c]).length
    have hone : s.total_created_.toNat + (1 : SizeT).toNat < 2 ^ 64 := h.total ▸ hroom
    rw [BitVec.toNat_add_of_lt hone, h.total, List.length_append, Nat.add_assoc]
    rfl
  · rw [State.transit_setThread]
    exact hsettled.perm (perm_guard c s.idle_ s.guards)

end Accounted

theorem find?_eq_none_iff {conns : List (Conn × K.Status)} {c : Conn} :
    (conns.find? fun p => p.1 = c).map Prod.snd = none ↔ c ∉ conns.map Prod.fst := by
  rw [Option.map_eq_none_iff, List.find?_eq_none, List.mem_map]
  constructor
  · rintro hnone ⟨p, hp, hpc⟩
    exact hnone p hp (decide_eq_true hpc)
  · intro hnot p hp hpc
    exact hnot ⟨p, hp, of_decide_eq_true hpc⟩

theorem accounted_construct {min_pool : SizeT} (init : Startup K min_pool) :
    Accounted (construct init : State K τ) where
  total := by
    have hlt := length_lt_of_nodup init.distinct
    rw [List.length_map] at hlt
    show (BitVec.ofNat 64 (init.attempts.filterMap K.connection).length).toNat = _
    rw [BitVec.toNat_ofNat, Nat.mod_eq_of_lt hlt]
    exact (List.length_map _).symm
  owners := {
    nodup := by
      rw [construct, List.append_nil]
      exact init.distinct
    apart := fun t c ht => nomatch ht
    single := fun t t' c ht => nomatch ht
    live_iff := fun c => by
      rw [State.live, construct, ne_eq, find?_eq_none_iff, not_not, List.append_nil]
      exact ⟨.inl, fun hor => hor.elim id fun ⟨t, ht⟩ => nomatch ht⟩ }

/-- The freed connections are live and counted, so that no decrement of the counter is one
of 0; the connection that goes out is live and not among them. -/
structure SafeStep (s : State K τ) (i : Input K τ) (o : Output) : Prop where
  freed_nodup : o.freed.Nodup
  freed_live : ∀ c ∈ o.freed, s.live c
  freed_counted : o.freed.length ≤ s.total_created_.toNat
  handed_live : ∀ c, o.handed = some c → s.live c ∧ c ∉ o.freed
  release_counted : ∀ c, i = .release c → 0 < s.total_created_

variable {max_pool_ : SizeT} {s s' : State K τ} {i : Input K τ} {o : Output}

theorem safeStep_handed {handed : Option Conn} (hlive : ∀ c, handed = some c → s.live c)
    (hrelease : ∀ c, i = .release c → 0 < s.total_created_) : SafeStep s i { handed } where
  freed_nodup := List.nodup_nil
  freed_live _ hc := absurd hc List.not_mem_nil
  freed_counted := Nat.zero_le _
  handed_live c hc := ⟨hlive c hc, List.not_mem_nil⟩
  release_counted := hrelease

theorem safeStep_quiet (s : State K τ) (hrelease : ∀ c, i ≠ .release c) : SafeStep s i {} := by
  have hnone : ∀ c, (none : Option Conn) = some c → s.live c := by
    intro c hc
    cases hc
  exact safeStep_handed hnone fun c hi => absurd hi (hrelease c)

theorem safeStep_release (h : Accounted s) {c : Conn} (hc : c ∈ s.guards) :
    SafeStep s (.release c) (s.release c).1 := by
  have hpos := h.pos_of_guard hc
  have hlive := h.owners.live_of_mem (List.mem_append_right s.idle_ hc)
  unfold State.release
  dsimp only
  split
  · exact safeStep_handed (fun c' hc' => by cases hc') fun c' _ => hpos
  · exact
      { freed_nodup := List.nodup_singleton c
        freed_live := fun c' hc' => List.mem_singleton.mp hc' ▸ hlive
        freed_counted := hpos
        handed_live := fun c' hc' => by cases hc'
        release_counted := fun c' _ => hpos }

variable [DecidableEq τ]

theorem accounted_step (h : Accounted s) (hstep : (pool K τ max_pool_).step s i = some (o, s')) :
    Accounted s' := by
  cases move_of_step hstep with
  | acquire t ht => exact h.setThread .start (State.transit_of_eq ht) rfl
  | locked t ht => exact h.turn max_pool_ (State.transit_of_eq ht)
  | failed t attempt c ht => exact h.setThread (.connected none) (State.transit_of_eq ht) rfl
  | created t attempt c status ht hfresh =>
    exact h.create (State.transit_of_eq ht) (not_not_intro hfresh) status
  | joined t c ht => exact h.handNew (State.transit_of_eq ht)
  | gaveUp t ht => exact h.setThread .waiting (State.transit_of_eq ht) rfl
  | woken t ht => exact h.turn max_pool_ (State.transit_of_eq ht)
  | timeout t ht => exact h.setThread .out (State.transit_of_eq ht) rfl
  | released c hc => exact h.release hc
  | setStatus c status hc => exact h.setStatus hc status

theorem safeStep_turn (h : Accounted s) (t : τ) (hrelease : ∀ c, i ≠ .release c) :
    SafeStep s i (s.turn max_pool_ t).1 := by
  have hsplit := drain_idle s.isHealthy s.idle_ s.total_created_
  have htotal := drain_total s.isHealthy s.idle_ s.total_created_ (h.total ▸ Nat.le_add_right ..)
  have hfreed := turn_freed max_pool_ s t
  have hnodup := (List.nodup_append.mp h.owners.nodup).1
  have hlive : ∀ c ∈ s.idle_, s.live c := fun c hc => h.owners.live_of_mem (List.mem_append_left _ hc)
  rw [hsplit] at hnodup hlive
  constructor
  · rw [hfreed]
    exact (List.nodup_append.mp hnodup).1
  · rw [hfreed]
    exact fun c hc => hlive c (List.mem_append_left _ hc)
  · rw [hfreed]
    omega
  · intro c hc
    rw [turn_handed] at hc
    rw [hc, Option.toList_some] at hnodup hlive
    have hdisj := (List.nodup_append.mp hnodup).2.2
    have hfound : c ∈ [c] ++ (drain s.isHealthy s.idle_ s.total_created_).idle := List.mem_cons_self
    rw [hfreed]
    exact ⟨hlive c (List.mem_append_right _ hfound), fun hf => hdisj c hf c hfound rfl⟩
  · exact fun c hi => absurd hi (hrelease c)

theorem safeStep_of_accounted (h : Accounted s)
    (hstep : (pool K τ max_pool_).step s i = some (o, s')) : SafeStep s i o := by
  cases move_of_step hstep with
  | acquire => exact safeStep_quiet s nofun
  | locked t => exact safeStep_turn h t nofun
  | failed => exact safeStep_quiet s nofun
  | created => exact safeStep_quiet s nofun
  | joined t c ht =>
    have hlive : s.live c := (h.owners.live_iff c).mpr (.inr ⟨t, State.transit_of_eq ht⟩)
    exact safeStep_handed (fun c' hc' => Option.some.inj hc' ▸ hlive) nofun
  | gaveUp => exact safeStep_quiet s nofun
  | woken t => exact safeStep_turn h t nofun
  | timeout => exact safeStep_quiet s nofun
  | released c hc => exact safeStep_release h hc
  | setStatus => exact safeStep_quiet s nofun

theorem connections_accounted {min_pool : SizeT} (init : Startup K min_pool)
    (is : List (Input K τ)) :
    (pool K τ max_pool_).EveryState (fun _ s => Accounted s) [] (construct init) is ∧
      (pool K τ max_pool_).EveryStep (fun _ s i o _ => SafeStep s i o) [] (construct init) is :=
  ⟨everyState_of_invariant (fun _ _ _ _ _ h hstep => accounted_step h hstep)
      (accounted_construct init),
    everyStep_of_invariant (fun _ _ _ _ _ h hstep => accounted_step h hstep)
      (fun _ _ _ _ _ h hstep => safeStep_of_accounted h hstep) (accounted_construct init)⟩

end LetsChat.Pool
