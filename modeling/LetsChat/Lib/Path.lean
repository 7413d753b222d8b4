import LetsChat.Lib.Program

/-! Paths: the states that a list of labels leads through, one step for each label. -/

namespace Lib

section Path
variable {α β ν : Type} (R : α → ν → ν → Prop)

def Path : List α → ν → ν → Prop
  | [], v, v' => v' = v
  | a :: l, v, v' => ∃ u, R a v u ∧ Path l u v'

variable {R}

theorem path_append {l l' : List α} {v v' : ν} :
    Path R (l ++ l') v v' ↔ ∃ u, Path R l v u ∧ Path R l' u v' := by
  induction l generalizing v with
  | nil =>
    constructor
    · exact fun h => ⟨v, rfl, h⟩
    · rintro ⟨_, rfl, h⟩
      exact h
  | cons a l ih =>
    constructor
    · rintro ⟨u, ha, h⟩
      obtain ⟨u', hl, hl'⟩ := ih.mp h
      exact ⟨u', ⟨u, ha, hl⟩, hl'⟩
    · rintro ⟨u', ⟨u, ha, hl⟩, hl'⟩
      exact ⟨u, ha, ih.mpr ⟨u', hl, hl'⟩⟩

theorem path_snoc {l : List α} {a : α} {v v' : ν} :
    Path R (l ++ [a]) v v' ↔ ∃ u, Path R l v u ∧ R a u v' := by
  refine path_append.trans (exists_congr fun u => and_congr_right fun _ => ?_)
  constructor
  · rintro ⟨_, ha, rfl⟩
    exact ha
  · exact fun ha => ⟨v', ha, rfl⟩

theorem Path.label {l : List α} {v v' : ν} (h : Path R l v v') {a : α} (ha : a ∈ l) :
    ∃ u u', R a u u' := by
  obtain ⟨l₁, l₂, rfl⟩ := List.append_of_mem ha
  obtain ⟨u, -, u', hstep, -⟩ := path_append.mp h
  exact ⟨u, u', hstep⟩

theorem Path.exchange {S : β → ν → ν → Prop} {M : α → β → Prop} {l : List α}
    (hex : ∀ a ∈ l, ∀ v v', R a v v' → ∃ b, S b v v' ∧ M a b) {v v' : ν} (h : Path R l v v') :
    ∃ l', Path S l' v v' ∧ List.Forall₂ M l l' := by
  induction l generalizing v with
  | nil => exact ⟨[], h, .nil⟩
  | cons a l ih =>
    obtain ⟨u, ha, hl⟩ := h
    obtain ⟨b, hb, hm⟩ := hex a List.mem_cons_self v u ha
    obtain ⟨l', hl', hms⟩ := ih (fun c hc => hex c (List.mem_cons_of_mem _ hc)) hl
    exact ⟨b :: l', ⟨u, hb, hl'⟩, .cons hm hms⟩

/-- A path along labels of which some leave the state alone. -/
theorem Path.skip {S : β → ν → ν → Prop} {f : α → Option β} {l : List α}
    (hsome : ∀ a ∈ l, ∀ b, f a = some b → ∀ v v', R a v v' → S b v v')
    (hnone : ∀ a ∈ l, f a = none → ∀ v v', R a v v' → v' = v) {v v' : ν} (h : Path R l v v') :
    Path S (l.filterMap f) v v' := by
  induction l generalizing v with
  | nil => exact h
  | cons a l ih =>
    obtain ⟨u, ha, hl⟩ := h
    have hrest : Path S (l.filterMap f) u v' :=
      ih (fun c hc => hsome c (List.mem_cons_of_mem _ hc))
        (fun c hc => hnone c (List.mem_cons_of_mem _ hc)) hl
    rw [List.filterMap_cons]
    cases hf : f a with
    | none =>
      obtain rfl := hnone a List.mem_cons_self hf v u ha
      exact hrest
    | some b => exact ⟨u, hsome a List.mem_cons_self b hf v u ha, hrest⟩

/-- The converse, where the labels that `f` leaves out may be taken in any state. -/
theorem Path.fill {S : β → ν → ν → Prop} {f : α → Option β} {l : List α}
    (hsome : ∀ a ∈ l, ∀ b, f a = some b → ∀ v v', S b v v' → R a v v')
    (hnone : ∀ a ∈ l, f a = none → ∀ v, R a v v) {v v' : ν} (h : Path S (l.filterMap f) v v') :
    Path R l v v' := by
  induction l generalizing v with
  | nil => exact h
  | cons a l ih =>
    have hrest : ∀ u, Path S (l.filterMap f) u v' → Path R l u v' := fun u =>
      ih (fun c hc => hsome c (List.mem_cons_of_mem _ hc))
        (fun c hc => hnone c (List.mem_cons_of_mem _ hc))
    rw [List.filterMap_cons] at h
    cases hf : f a with
    | none =>
      rw [hf] at h
      exact ⟨v, hnone a List.mem_cons_self hf v, hrest v h⟩
    | some b =>
      rw [hf] at h
      obtain ⟨u, hb, hl⟩ := h
      exact ⟨u, hsome a List.mem_cons_self b hf v u hb, hrest u hl⟩

end Path

namespace Machine
variable {σ ι ω : Type} (m : Machine σ ι ω)

abbrev Run : History ι ω → σ → σ → Prop := Path fun io s s' => m.step s io.1 = some (io.2, s')

variable {m}

theorem EveryState.along {P : History ι ω → σ → Prop} {l : History ι ω} {s s' : σ}
    (hrun : m.Run l s s') {h : History ι ω} (hp : m.EveryState P h s (l.map (·.1))) :
    P (h ++ l) s' := by
  induction l generalizing h s with
  | nil =>
    obtain rfl := hrun
    rw [List.append_nil]
    exact hp
  | cons io l ih =>
    obtain ⟨u, hstep, hrest⟩ := hrun
    have hnext := ih hrest (hp.2 io.2 u hstep)
    rwa [List.append_assoc] at hnext

end Machine

namespace Prog
variable {Op : Type} {Ret : Op → Type} {α σ : Type}

abbrev Performs (exec : (o : Op) → σ → Ret o × σ) : List (Event Ret) → σ → σ → Prop :=
  Path fun ev s s' => exec ev.1 s = (ev.2, s')

theorem Trace.run_of_performs {exec : (o : Op) → σ → Ret o × σ} {p : Prog Ret α} {a : α}
    {tr : List (Event Ret)} (h : Trace p tr (ret a)) {s s' : σ} (hperf : Performs exec tr s s') :
    p.run exec s = (some a, s') ∧ p.events exec s = tr := by
  generalize hq : ret a = q at h
  induction h generalizing s with
  | nil p =>
    subst hq
    obtain rfl := hperf
    exact ⟨rfl, rfl⟩
  | @cons o k r tr q h ih =>
    obtain ⟨u, hstep, hrest⟩ := hperf
    obtain ⟨hrun, hevents⟩ := ih hrest hq
    rw [run_op, events, hstep]
    exact ⟨hrun, congrArg _ hevents⟩

end Prog
end Lib
