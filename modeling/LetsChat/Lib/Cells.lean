import LetsChat.Lib.Path
import Mathlib.Logic.Function.Basic

/-! Many copies of one machine side by side, each input being for one of them. -/

namespace Lib.Machine
variable {σ τ ι ω : Type} [DecidableEq τ]

/-- The copies of `m`, where `key` says which one an input is for. -/
def cells (m : Machine σ ι ω) (key : ι → τ) : Machine (τ → σ) ι ω where
  step s i := (m.step (s (key i)) i).map fun res => (res.1, Function.update s (key i) res.2)

def History.own (key : ι → τ) (h : History ι ω) (k : τ) : History ι ω :=
  h.filter fun io => key io.1 = k

variable {m : Machine σ ι ω} {key : ι → τ}

theorem cells_step {s s' : τ → σ} {i : ι} {o : ω} (h : (cells m key).step s i = some (o, s')) :
    ∃ u, m.step (s (key i)) i = some (o, u) ∧ s' = Function.update s (key i) u := by
  obtain ⟨⟨o', u⟩, hstep, heq⟩ := Option.map_eq_some_iff.mp h
  cases heq
  exact ⟨u, hstep, rfl⟩

theorem cells_runs {start : σ} {h : History ι ω} {s s' : τ → σ} {i : ι} {o : ω}
    (hruns : ∀ k, m.Run (h.own key k) start (s k)) (hs : (cells m key).step s i = some (o, s'))
    (k : τ) : m.Run (History.own key (h ++ [(i, o)]) k) start (s' k) := by
  obtain ⟨u, hstep, rfl⟩ := cells_step hs
  have happend : History.own key (h ++ [(i, o)]) k = h.own key k ++
      if key i = k then [(i, o)] else [] := by
    rw [History.own, History.own, List.filter_append, List.filter_singleton]
    by_cases hk : key i = k
    · rw [if_pos hk, decide_eq_true hk, cond_true]
    · rw [if_neg hk, decide_eq_false hk, cond_false]
  rw [happend]
  by_cases hk : key i = k
  · subst hk
    rw [if_pos rfl, Function.update_self]
    exact path_snoc.mpr ⟨_, hruns (key i), hstep⟩
  · rw [if_neg hk, List.append_nil, Function.update_of_ne (Ne.symm hk)]
    exact hruns k

theorem everyStep_cells {start : σ} {Q : History ι ω → ι → ω → Prop}
    (hq : ∀ k h u i o u', (∀ io ∈ h, key io.1 = k) → m.Run h start u → key i = k →
      m.step u i = some (o, u') → Q h i o) (is : List ι) :
    (cells m key).EveryStep (fun h _ i o _ => Q (h.own key (key i)) i o) [] (fun _ => start) is := by
  refine everyStep_of_invariant
    (I := fun h (s : τ → σ) => ∀ k, m.Run (h.own key k) start (s k))
    (fun h s i o s' hruns hs => cells_runs hruns hs) ?_ fun _ => rfl
  intro h s i o s' hruns hs
  obtain ⟨u, hstep, -⟩ := cells_step hs
  refine hq (key i) _ (s (key i)) i o u (fun io hio => ?_) (hruns (key i)) rfl hstep
  exact of_decide_eq_true (List.mem_filter.mp hio).2

end Lib.Machine
