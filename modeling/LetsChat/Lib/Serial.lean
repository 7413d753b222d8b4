import LetsChat.Lib.Path
import Mathlib.Data.List.Induction

/-! Logs of many callers that take their steps in turn, and an order of the same steps in which
those of one caller stand together. -/

namespace Lib

structure Entry (κ ι ρ : Type) where
  caller : κ
  stmt : ι
  res : ρ

namespace Entry
variable {κ ι ρ σ : Type}

abbrev Replays (exec : ι → σ → ρ × σ) : List (Entry κ ι ρ) → σ → σ → Prop :=
  Path fun x s s' => exec x.stmt s = (x.res, s')

structure Idle (exec : ι → σ → ρ × σ) (x : Entry κ ι ρ) (s : σ) : Prop where
  quiet : ∀ u, (exec x.stmt u).2 = u
  again : (exec x.stmt s).1 = x.res

theorem replays_idle {exec : ι → σ → ρ × σ} {l : List (Entry κ ι ρ)} {s : σ}
    (h : ∀ x ∈ l, Idle exec x s) : Replays exec l s s := by
  induction l with
  | nil => rfl
  | cons x l ih =>
    have hx := h x List.mem_cons_self
    refine ⟨s, ?_, ih fun y hy => h y (List.mem_cons_of_mem _ hy)⟩
    exact Prod.ext hx.again (hx.quiet s)

variable [DecidableEq κ]

def own (k : κ) (l : List (Entry κ ι ρ)) : List (Entry κ ι ρ) :=
  l.filter fun x => decide (x.caller = k)

def others (k : κ) (l : List (Entry κ ι ρ)) : List (Entry κ ι ρ) :=
  l.filter fun x => !decide (x.caller = k)

/-- The steps that are to stay whole move behind, to the place of the last step of their
caller. -/
def insertStep (whole : ι → Bool) (l : List (Entry κ ι ρ)) (x : Entry κ ι ρ) :
    List (Entry κ ι ρ) :=
  if whole x.stmt then others x.caller l ++ (own x.caller l ++ [x]) else l ++ [x]

def gather (whole : ι → Bool) (log : List (Entry κ ι ρ)) : List (Entry κ ι ρ) :=
  log.foldl (insertStep whole) []

variable {k : κ} {l l' : List (Entry κ ι ρ)} {x : Entry κ ι ρ}

theorem mem_own : x ∈ own k l ↔ x ∈ l ∧ x.caller = k := by simp [own]

theorem mem_others : x ∈ others k l ↔ x ∈ l ∧ x.caller ≠ k := by simp [others]

theorem own_append (k : κ) (l l' : List (Entry κ ι ρ)) : own k (l ++ l') = own k l ++ own k l' :=
  List.filter_append ..

theorem others_append (k : κ) (l l' : List (Entry κ ι ρ)) :
    others k (l ++ l') = others k l ++ others k l' :=
  List.filter_append ..

theorem own_eq_self (h : ∀ x ∈ l, x.caller = k) : own k l = l :=
  List.filter_eq_self.mpr fun x hx => decide_eq_true (h x hx)

theorem others_eq_self (h : ∀ x ∈ l, x.caller ≠ k) : others k l = l :=
  List.filter_eq_self.mpr fun x hx => by rw [decide_eq_false (h x hx), Bool.not_false]

theorem own_eq_nil_iff : own k l = [] ↔ ∀ x ∈ l, x.caller ≠ k := by
  simp [own, List.filter_eq_nil_iff]

theorem own_singleton (x : Entry κ ι ρ) : own x.caller [x] = [x] :=
  own_eq_self fun _ hy => by rw [List.mem_singleton.mp hy]

theorem own_singleton_of_ne (h : x.caller ≠ k) : own k [x] = [] :=
  own_eq_nil_iff.mpr fun _ hy => by rwa [List.mem_singleton.mp hy]

theorem own_own : own k (own k l) = own k l := own_eq_self fun _ hx => (mem_own.mp hx).2

theorem own_others : own k (others k l) = [] :=
  own_eq_nil_iff.mpr fun _ hx => (mem_others.mp hx).2

theorem own_own_of_ne {k' : κ} (h : k' ≠ k) : own k (own k' l) = [] :=
  own_eq_nil_iff.mpr fun _ hx heq => h ((mem_own.mp hx).2.symm.trans heq)

theorem own_others_of_ne {k' : κ} (h : k' ≠ k) : own k (others k' l) = own k l := by
  rw [own, others, List.filter_filter]
  apply List.filter_congr
  intro x _
  by_cases hx : x.caller = k
  · simp [hx, h.symm]
  · simp [hx]

theorem others_append_own (k : κ) (l : List (Entry κ ι ρ)) : (others k l ++ own k l).Perm l :=
  List.perm_append_comm.trans (List.filter_append_perm _ l)

variable {whole : ι → Bool}

theorem gather_snoc (whole : ι → Bool) (l : List (Entry κ ι ρ)) (x : Entry κ ι ρ) :
    gather whole (l ++ [x]) = insertStep whole (gather whole l) x := by
  rw [gather, List.foldl_append]
  rfl

theorem insertStep_perm (whole : ι → Bool) (l : List (Entry κ ι ρ)) (x : Entry κ ι ρ) :
    (insertStep whole l x).Perm (l ++ [x]) := by
  unfold insertStep
  split
  · rw [← List.append_assoc]
    exact (others_append_own x.caller l).append_right [x]
  · exact List.Perm.refl _

theorem own_insertStep (whole : ι → Bool) (l : List (Entry κ ι ρ)) (x : Entry κ ι ρ) :
    own k (insertStep whole l x) = own k (l ++ [x]) := by
  unfold insertStep
  split
  · rw [own_append, own_append, own_append]
    by_cases hk : x.caller = k
    · subst hk
      rw [own_others, own_own, List.nil_append]
    · rw [own_others_of_ne hk, own_own_of_ne hk, List.nil_append]
  · rfl

theorem gather_perm (whole : ι → Bool) (l : List (Entry κ ι ρ)) : (gather whole l).Perm l := by
  induction l using List.reverseRecOn with
  | nil => exact List.Perm.refl _
  | append_singleton l x ih =>
    rw [gather_snoc]
    exact (insertStep_perm whole _ x).trans (ih.append_right [x])

theorem own_gather (whole : ι → Bool) (l : List (Entry κ ι ρ)) :
    own k (gather whole l) = own k l := by
  induction l using List.reverseRecOn with
  | nil => rfl
  | append_singleton l x ih => rw [gather_snoc, own_insertStep, own_append, own_append, ih]

def Together (k : κ) (l : List (Entry κ ι ρ)) : Prop :=
  ∃ l₁ l₂, l = l₁ ++ own k l ++ l₂ ∧ own k l₁ = [] ∧ own k l₂ = []

theorem Together.insertStep_other (h : Together k l) (hk : x.caller ≠ k) :
    Together k (insertStep whole l x) := by
  have hsame : own k (insertStep whole l x) = own k l := by
    rw [own_insertStep, own_append, own_singleton_of_ne hk, List.append_nil]
  obtain ⟨l₁, l₂, hl, h₁, h₂⟩ := h
  rw [Together, hsame]
  unfold insertStep
  split
  · refine ⟨others x.caller l₁, others x.caller l₂ ++ (own x.caller l ++ [x]), ?_, ?_, ?_⟩
    · have hown : others x.caller (own k l) = own k l :=
        others_eq_self fun y hy heq => hk (heq.symm.trans (mem_own.mp hy).2)
      have hothers : others x.caller l = others x.caller l₁ ++ own k l ++ others x.caller l₂ := by
        conv_lhs => rw [hl, others_append, others_append, hown]
      rw [hothers, List.append_assoc]
    · rw [own_others_of_ne hk, h₁]
    · rw [own_append, own_append, own_others_of_ne hk, own_own_of_ne hk, h₂,
        own_singleton_of_ne hk]
      rfl
  · refine ⟨l₁, l₂ ++ [x], ?_, h₁, ?_⟩
    · conv_lhs => rw [hl, List.append_assoc]
    · rw [own_append, h₂, own_singleton_of_ne hk]
      rfl

theorem together_insertStep (hwhole : whole x.stmt = true) :
    Together x.caller (insertStep whole l x) := by
  rw [Together, own_insertStep, own_append, own_singleton, insertStep, if_pos hwhole]
  exact ⟨others x.caller l, [], by rw [List.append_nil], own_others, rfl⟩

theorem together_gather (l : List (Entry κ ι ρ)) (h : ∀ x ∈ l, x.caller = k → whole x.stmt = true) :
    Together k (gather whole l) := by
  induction l using List.reverseRecOn with
  | nil => exact ⟨[], [], rfl, rfl, rfl⟩
  | append_singleton l x ih =>
    rw [gather_snoc]
    by_cases hk : x.caller = k
    · subst hk
      exact together_insertStep (h x (List.mem_append_right _ (List.mem_singleton_self x)) rfl)
    · exact (ih fun y hy => h y (List.mem_append_left _ hy)).insertStep_other hk

/-- At any moment, what comes first is of the past, and what comes after it is of callers that
go on. -/
def KeepsTime (log serial : List (Entry κ ι ρ)) : Prop :=
  ∀ a b, log = a ++ b → ∃ l₁ l₂, serial = l₁ ++ l₂ ∧ l₁ ⊆ a ∧ ∀ y ∈ l₂, ∃ x ∈ b, x.caller = y.caller

theorem keepsTime_gather (l : List (Entry κ ι ρ)) : KeepsTime l (gather whole l) := by
  rintro a b rfl
  induction b using List.reverseRecOn with
  | nil =>
    rw [List.append_nil]
    refine ⟨gather whole a, [], (List.append_nil _).symm, (gather_perm whole a).subset, ?_⟩
    exact fun y hy => absurd hy List.not_mem_nil
  | append_singleton b x ih =>
    obtain ⟨l₁, l₂, hl, h₁, h₂⟩ := ih
    have hlater : ∀ y ∈ l₂, ∃ z ∈ b ++ [x], z.caller = y.caller := by
      intro y hy
      obtain ⟨z, hz, heq⟩ := h₂ y hy
      exact ⟨z, List.mem_append_left _ hz, heq⟩
    have hx : x ∈ b ++ [x] := List.mem_append_right _ (List.mem_singleton_self x)
    rw [← List.append_assoc, gather_snoc, hl]
    unfold insertStep
    split
    · refine ⟨others x.caller l₁,
        others x.caller l₂ ++ (own x.caller (l₁ ++ l₂) ++ [x]), ?_, ?_, ?_⟩
      · rw [others_append, List.append_assoc]
      · exact fun y hy => h₁ (mem_others.mp hy).1
      · intro y hy
        rcases List.mem_append.mp hy with hy | hy
        · exact hlater y (mem_others.mp hy).1
        · rcases List.mem_append.mp hy with hy | hy
          · exact ⟨x, hx, (mem_own.mp hy).2.symm⟩
          · exact ⟨x, hx, by rw [List.mem_singleton.mp hy]⟩
    · refine ⟨l₁, l₂ ++ [x], (List.append_assoc ..), h₁, fun y hy => ?_⟩
      rcases List.mem_append.mp hy with hy | hy
      · exact hlater y hy
      · exact ⟨x, hx, by rw [List.mem_singleton.mp hy]⟩

section Replay
variable {exec : ι → σ → ρ × σ} {s s' s'' : σ}

theorem replays_others (h : Replays exec l s s')
    (hquiet : ∀ x ∈ l, x.caller = k → ∀ u, (exec x.stmt u).2 = u) :
    Replays exec (others k l) s s' := by
  rw [others, ← List.filterMap_eq_filter]
  refine h.skip (fun x _ y hy v v' hstep => ?_) (fun x hx hnone v v' hstep => ?_)
  · obtain ⟨rfl, -⟩ := Option.guard_eq_some_iff.mp hy
    exact hstep
  · have hcaller : x.caller = k := by simpa using hnone
    rw [← hquiet x hx hcaller v, hstep]

theorem replays_gather_snoc (h : Replays exec (gather whole l) s s')
    (hx : exec x.stmt s' = (x.res, s''))
    (hidle : whole x.stmt = true → ∀ y ∈ own x.caller l, Idle exec y s') :
    Replays exec (gather whole (l ++ [x])) s s'' := by
  rw [gather_snoc, insertStep]
  split
  · next hwhole =>
    have hown := hidle hwhole
    rw [← own_gather whole l] at hown
    refine path_append.mpr ⟨s', ?_, path_snoc.mpr ⟨s', replays_idle hown, hx⟩⟩
    exact replays_others h fun y hy heq => (hown y (mem_own.mpr ⟨hy, heq⟩)).quiet
  · exact path_snoc.mpr ⟨s', h, hx⟩

end Replay

/-- An order of the steps of the log. Each caller keeps its own order, those that are to stay
whole stand together, and a caller that has ended comes before one that has not begun. -/
structure Serializes (whole : ι → Bool) (log serial : List (Entry κ ι ρ)) : Prop where
  perm : serial.Perm log
  own : ∀ k, own k serial = own k log
  together : ∀ k, (∀ x ∈ log, x.caller = k → whole x.stmt = true) → Together k serial
  keepsTime : KeepsTime log serial

theorem serializes_gather (whole : ι → Bool) (log : List (Entry κ ι ρ)) :
    Serializes whole log (gather whole log) where
  perm := gather_perm whole log
  own _ := own_gather whole log
  together _ h := together_gather log h
  keepsTime := keepsTime_gather log

end Entry
end Lib
