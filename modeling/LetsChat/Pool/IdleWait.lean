import LetsChat.Pool.Steps

/-! A turn of the loop of `Acquire` looks at `idle_` before it waits. A failed connection
attempt and a timeout do not, and a release in between goes unseen. -/

namespace LetsChat.Pool
open Lib Lib.Machine

variable {K : PoolKind} {τ : Type}

def WaitsOrGivesUp (i : Input K τ) (o : Output) (s' : State K τ) : Prop :=
  ∃ t, i.thread = some t ∧ (s'.threads t = .waiting ∨ s'.threads t = .out ∧ o.handed = none)

def NoneOverlooked (i : Input K τ) (o : Output) (s' : State K τ) : Prop :=
  WaitsOrGivesUp i o s' → s'.idle_ = []

/-- The steps that leave the loop's look at `idle_` out: the one after a failed attempt and
a timeout. -/
def Unseeing (s : State K τ) (i : Input K τ) (t : τ) : Prop :=
  i = .relock t ∧ s.threads t = .connected none ∨ i = .timeout t

def Input.Looks (i : Input K τ) (t : τ) : Prop := i = .lock t ∨ i = .wake t

def Output.Takes (o : Output) (c : Conn) : Prop := c ∈ o.freed ∨ o.handed = some c

/-- Since the last look of the thread the connection was released, healthy, and no other
thread has taken it. -/
def ReleasedUnseen (t : τ) (h : History (Input K τ) Output) (c : Conn) : Prop :=
  Since (fun e => ¬e.1.Looks t ∧ ¬e.2.Takes c) (fun e => e.1 = .release c ∧ e.2.freed = []) h

def NoReleaseMissed (h : History (Input K τ) Output) (s : State K τ) (i : Input K τ) : Prop :=
  ∀ t, Unseeing s i t → ∀ c, ¬ReleasedUnseen t h c

theorem drain_idle_of_found_none {healthy : Conn → Bool} {idle : List Conn} {total : SizeT}
    (hfound : (drain healthy idle total).found = none) : (drain healthy idle total).idle = [] := by
  fun_induction drain healthy idle total with
  | case1 total => rfl
  | case2 c idle total hc => cases hfound
  | case3 c idle total hc rest ih => exact ih hfound

variable {s s' : State K τ} {i : Input K τ} {o : Output}

theorem drain_keeps (h : Accounted s) (c : Conn) :
    c ∈ (drain s.isHealthy s.idle_ s.total_created_).idle ↔
      ¬(c ∈ (drain s.isHealthy s.idle_ s.total_created_).freed ∨
        (drain s.isHealthy s.idle_ s.total_created_).found = some c) ∧ c ∈ s.idle_ := by
  have hsplit := drain_idle s.isHealthy s.idle_ s.total_created_
  have hnodup := (List.nodup_append.mp h.owners.nodup).1
  generalize drain s.isHealthy s.idle_ s.total_created_ = d at hsplit ⊢
  rw [hsplit, ← List.append_assoc] at hnodup
  have hapart := (List.nodup_append.mp hnodup).2.2
  rw [hsplit, List.mem_append, List.mem_append, Option.mem_toList]
  constructor
  · intro hc
    have hrest : ∀ c' ∈ d.freed ++ d.found.toList, c' ≠ c := fun c' hc' => hapart c' hc' c hc
    refine ⟨?_, .inr (.inr hc)⟩
    rintro (hfreed | hfound)
    · exact hrest c (List.mem_append_left _ hfreed) rfl
    · exact hrest c (List.mem_append_right _ (Option.mem_toList.mpr hfound)) rfl
  · rintro ⟨hnot, hfreed | hfound | hidle⟩
    · exact absurd (.inl hfreed) hnot
    · exact absurd (.inr hfound) hnot
    · exact hidle

def IdleStep (s : State K τ) (i : Input K τ) (o : Output) (s' : State K τ) : Prop :=
  ∀ c, c ∈ s'.idle_ ↔ (i = .release c ∧ o.freed = []) ∨ ¬o.Takes c ∧ c ∈ s.idle_

theorem idleStep_quiet (hi : ∀ c, i ≠ .release c) (hidle : s'.idle_ = s.idle_) :
    IdleStep s i {} s' := by
  intro c
  rw [hidle]
  simp [hi c, Output.Takes]

theorem idleStep_release (h : Accounted s) {c : Conn} (hc : c ∈ s.guards) :
    IdleStep s (.release c) (s.release c).1 (s.release c).2 := by
  intro c'
  unfold State.release
  dsimp only
  split
  · show c' ∈ s.idle_ ++ [c] ↔ _
    rw [List.mem_append, List.mem_singleton, or_comm]
    simp [Output.Takes, eq_comm]
  · have hapart := (List.nodup_append.mp h.owners.nodup).2.2
    show c' ∈ s.idle_ ↔ _
    constructor
    · intro hc'
      refine .inr ⟨?_, hc'⟩
      rintro (hfreed | ⟨⟨⟩⟩)
      exact hapart c' hc' c hc (List.mem_singleton.mp hfreed)
    · rintro (⟨-, ⟨⟩⟩ | ⟨-, hc'⟩)
      exact hc'

def PC.PastLook : PC → Prop
  | .connecting | .connected _ | .waiting => True
  | .out | .start => False

structure Followed (h : History (Input K τ) Output) (s : State K τ) : Prop where
  accounted : Accounted s
  unseen : ∀ t, (s.threads t).PastLook → ∀ c, c ∈ s.idle_ ↔ ReleasedUnseen t h c

theorem followed_construct {min_pool : SizeT} (init : Startup K min_pool) :
    Followed [] (construct init : State K τ) where
  accounted := accounted_construct init
  unseen _ hpast := nomatch hpast

theorem noReleaseMissed_of_not {h : History (Input K τ) Output} (hi : ∀ t, ¬Unseeing s i t) :
    NoReleaseMissed h s i :=
  fun t hunseen => absurd hunseen (hi t)

theorem idle_iff_noReleaseMissed {h : History (Input K τ) Output} (hf : Followed h s) {t : τ}
    (hpast : (s.threads t).PastLook) (hi : ∀ t', Unseeing s i t' ↔ t' = t) :
    s.idle_ = [] ↔ NoReleaseMissed h s i := by
  rw [List.eq_nil_iff_forall_not_mem, NoReleaseMissed]
  simp only [hi, forall_eq, hf.unseen t hpast]

variable [DecidableEq τ] {max_pool_ : SizeT}

theorem turn_handed_or_idle (s : State K τ) (t : τ) :
    (∃ c, (s.turn max_pool_ t).1.handed = some c ∧ (s.turn max_pool_ t).2.threads t = .out) ∨
      (s.turn max_pool_ t).2.idle_ = [] := by
  unfold State.turn
  dsimp only
  split
  · next c hfound => exact .inl ⟨c, rfl, threads_setThread ..⟩
  · next hfound =>
    have hidle := drain_idle_of_found_none hfound
    split
    · exact .inr hidle
    · exact .inr hidle

theorem turn_sees {t : τ} (hi : i.thread = some t) :
    NoneOverlooked i (s.turn max_pool_ t).1 (s.turn max_pool_ t).2 := by
  rintro ⟨t', hi', hends⟩
  obtain rfl : t = t' := Option.some.inj (hi.symm.trans hi')
  obtain ⟨c, hhanded, hout⟩ | hidle := @turn_handed_or_idle _ _ _ max_pool_ s t
  · obtain hwaiting | ⟨-, hnone⟩ := hends
    · rw [hout] at hwaiting
      cases hwaiting
    · rw [hhanded] at hnone
      cases hnone
  · exact hidle

theorem sees_setThread {t : τ} {pc : PC} (hi : i.thread = some t)
    (hpc : ¬(pc = .waiting ∨ pc = .out ∧ o.handed = none)) (s : State K τ) :
    NoneOverlooked i o (s.setThread t pc) := by
  rintro ⟨t', hi', hends⟩
  obtain rfl : t = t' := Option.some.inj (hi.symm.trans hi')
  rw [threads_setThread] at hends
  exact absurd hends hpc

theorem overlooks_iff {t : τ} {pc : PC} (hi : i.thread = some t)
    (hends : pc = .waiting ∨ pc = .out ∧ o.handed = none) (s : State K τ) :
    NoneOverlooked i o (s.setThread t pc) ↔ s.idle_ = [] := by
  refine ⟨fun hsees => hsees ⟨t, hi, ?_⟩, fun hidle _ => hidle⟩
  rw [threads_setThread]
  exact hends

theorem turn_idle (s : State K τ) (t : τ) : (s.turn max_pool_ t).2.idle_ =
    (drain s.isHealthy s.idle_ s.total_created_).idle := by
  unfold State.turn
  dsimp only
  split
  · rfl
  · split <;> rfl

theorem idleStep_turn (h : Accounted s) (t : τ) (hi : ∀ c, i ≠ .release c) :
    IdleStep s i (s.turn max_pool_ t).1 (s.turn max_pool_ t).2 := by
  intro c
  rw [turn_idle, drain_keeps h, Output.Takes, turn_freed, turn_handed]
  simp [hi c]

theorem idleStep_joined (h : Accounted s) {t : τ} {c : Conn} (ht : s.threads t = .connected (some c)) :
    IdleStep s (.relock t) { handed := some c } ((s.handNew c).setThread t .out) := by
  intro c'
  have hapart := h.owners.apart t c (State.transit_of_eq ht)
  show c' ∈ s.idle_ ↔ _
  constructor
  · intro hc'
    refine .inr ⟨?_, hc'⟩
    rintro (⟨⟨⟩⟩ | ⟨⟨⟩⟩)
    exact hapart (List.mem_append_left _ hc')
  · rintro (⟨⟨⟩, -⟩ | ⟨-, hc'⟩)
    exact hc'

theorem idleStep_of_step (h : Accounted s) (hstep : (pool K τ max_pool_).step s i = some (o, s')) :
    IdleStep s i o s' := by
  cases move_of_step hstep with
  | acquire t => exact idleStep_quiet nofun rfl
  | locked t => exact idleStep_turn h t nofun
  | failed t => exact idleStep_quiet nofun rfl
  | created t => exact idleStep_quiet nofun rfl
  | joined t c ht => exact idleStep_joined h ht
  | gaveUp t => exact idleStep_quiet nofun rfl
  | woken t => exact idleStep_turn h t nofun
  | timeout t => exact idleStep_quiet nofun rfl
  | released c hc => exact idleStep_release h hc
  | setStatus c status => exact idleStep_quiet nofun rfl

theorem turn_of_looks {t : τ} (hi : i.Looks t)
    (hstep : (pool K τ max_pool_).step s i = some (o, s')) : s.turn max_pool_ t = (o, s') := by
  rcases hi with rfl | rfl
  · exact Option.some.inj (Option.ite_none_right_eq_some.mp hstep).2
  · exact Option.some.inj (Option.ite_none_right_eq_some.mp hstep).2

theorem pastLook_of_step (hstep : (pool K τ max_pool_).step s i = some (o, s')) (t : τ)
    (hpast : (s'.threads t).PastLook) :
    i.Looks t ∧ s'.idle_ = [] ∨ ¬i.Looks t ∧ (s.threads t).PastLook := by
  by_cases hlooks : i.Looks t
  · refine .inl ⟨hlooks, ?_⟩
    have hturn := @turn_handed_or_idle _ _ _ max_pool_ s t
    rw [turn_of_looks hlooks hstep] at hturn
    obtain ⟨c, -, hout⟩ | hidle := hturn
    · rw [hout] at hpast
      cases hpast
    · exact hidle
  · refine .inr ⟨hlooks, ?_⟩
    by_cases hi : i.thread = some t
    · cases move_of_step hstep with
      | acquire t' =>
        cases hi
        rw [threads_setThread] at hpast
        cases hpast
      | locked t' =>
        cases hi
        exact absurd (.inl rfl) hlooks
      | failed t' attempt c ht =>
        cases hi
        rw [ht]
        trivial
      | created t' attempt c status ht =>
        cases hi
        rw [ht]
        trivial
      | joined t' =>
        cases hi
        rw [threads_setThread] at hpast
        cases hpast
      | gaveUp t' ht =>
        cases hi
        rw [ht]
        trivial
      | woken t' =>
        cases hi
        exact absurd (.inr rfl) hlooks
      | timeout t' =>
        cases hi
        rw [threads_setThread] at hpast
        cases hpast
      | released c => cases hi
      | setStatus c status => cases hi
    · rwa [threads_of_step hi hstep] at hpast

theorem followed_step {h : History (Input K τ) Output} (hf : Followed h s)
    (hstep : (pool K τ max_pool_).step s i = some (o, s')) : Followed (h ++ [(i, o)]) s' where
  accounted := accounted_step hf.accounted hstep
  unseen t hpast c := by
    rw [ReleasedUnseen, since_concat, ← ReleasedUnseen]
    obtain ⟨hlook, hidle⟩ | ⟨hnot, hpast⟩ := pastLook_of_step hstep t hpast
    · rw [hidle]
      apply iff_of_false List.not_mem_nil
      rintro (⟨rfl, -⟩ | ⟨⟨hnot, -⟩, -⟩)
      · rcases hlook with ⟨⟨⟩⟩ | ⟨⟨⟩⟩
      · exact hnot hlook
    · rw [idleStep_of_step hf.accounted hstep c, hf.unseen t hpast c]
      simp [hnot]

theorem noneOverlooked_iff {h : History (Input K τ) Output} (hf : Followed h s)
    (hstep : (pool K τ max_pool_).step s i = some (o, s')) :
    NoneOverlooked i o s' ↔ NoReleaseMissed h s i := by
  cases move_of_step hstep with
  | acquire t =>
    exact iff_of_true (sees_setThread rfl (by simp) s) (noReleaseMissed_of_not (by simp [Unseeing]))
  | locked t => exact iff_of_true (turn_sees rfl) (noReleaseMissed_of_not (by simp [Unseeing]))
  | failed t =>
    exact iff_of_true (sees_setThread rfl (by simp) s) (noReleaseMissed_of_not (by simp [Unseeing]))
  | created t =>
    exact iff_of_true (sees_setThread rfl (by simp) _) (noReleaseMissed_of_not (by simp [Unseeing]))
  | joined t c ht =>
    refine iff_of_true (sees_setThread rfl (by simp) _) (noReleaseMissed_of_not ?_)
    rintro t' (⟨⟨⟩, hnone⟩ | ⟨⟨⟩⟩)
    rw [ht] at hnone
    cases hnone
  | gaveUp t ht =>
    rw [overlooks_iff rfl (.inl rfl)]
    have hpast : (s.threads t).PastLook := by rw [ht]; trivial
    apply idle_iff_noReleaseMissed hf hpast
    intro t'
    constructor
    · rintro (⟨⟨⟩, -⟩ | ⟨⟨⟩⟩)
      rfl
    · rintro rfl
      exact .inl ⟨rfl, ht⟩
  | woken t => exact iff_of_true (turn_sees rfl) (noReleaseMissed_of_not (by simp [Unseeing]))
  | timeout t ht =>
    rw [overlooks_iff rfl (.inr ⟨rfl, rfl⟩)]
    have hpast : (s.threads t).PastLook := by rw [ht]; trivial
    apply idle_iff_noReleaseMissed hf hpast
    intro t'
    simp [Unseeing, eq_comm]
  | released c =>
    have hnobody : ¬WaitsOrGivesUp (.release c) (s.release c).1 (s.release c).2 := by
      rintro ⟨t, ⟨⟩, -⟩
    exact iff_of_true (fun hends => absurd hends hnobody)
      (noReleaseMissed_of_not (by simp [Unseeing]))
  | setStatus c status =>
    have hnobody : ¬WaitsOrGivesUp (.setStatus c status) {} (s.setHeap c (some status)) := by
      rintro ⟨t, ⟨⟩, -⟩
    exact iff_of_true (fun hends => absurd hends hnobody)
      (noReleaseMissed_of_not (by simp [Unseeing]))

/-- No thread waits or gives up while a connection is idle, exactly in the runs in which
none has come back unseen to a thread that leaves the look at `idle_` out. -/
theorem idle_seen_iff {min_pool : SizeT} (init : Startup K min_pool) (is : List (Input K τ)) :
    (pool K τ max_pool_).EveryStep (fun _ _ i o s' => NoneOverlooked i o s') [] (construct init) is ↔
      (pool K τ max_pool_).EveryStep (fun h s i _ _ => NoReleaseMissed h s i) []
        (construct init) is :=
  everyStep_congr (fun _ _ _ _ _ hf hstep => followed_step hf hstep)
    (fun _ _ _ _ _ hf hstep => noneOverlooked_iff hf hstep) (followed_construct init)

def oneAtStartup : Startup DbPool 1 where
  attempts := [(some .CONNECTION_OK, ⟨8, by decide⟩)]
  length_eq := rfl
  distinct := List.nodup_singleton _

/-- The one connection comes back while the second thread fails to open another one. -/
def releaseWhileConnecting : List (Input DbPool Bool) :=
  [.acquire false, .lock false, .acquire true, .lock true, .release ⟨8, by decide⟩,
    .connect true none ⟨16, by decide⟩, .relock true]

theorem waits_beside_idle :
    ¬(pool DbPool Bool 2).EveryStep (fun _ _ i o s' => NoneOverlooked i o s') []
      (construct oneAtStartup) releaseWhileConnecting := by
  intro h
  have h₁ := (h _ _ rfl).2
  have h₂ := (h₁ _ _ rfl).2
  have h₃ := (h₂ _ _ rfl).2
  have h₄ := (h₃ _ _ rfl).2
  have h₅ := (h₄ _ _ rfl).2
  have h₆ := (h₅ _ _ rfl).2
  have hidle := (h₆ _ _ rfl).1 ⟨true, rfl, .inl rfl⟩
  exact absurd hidle (List.cons_ne_nil _ _)

end LetsChat.Pool
