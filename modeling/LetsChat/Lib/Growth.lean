import LetsChat.Lib.Program

/-! Interleaved calls on a state that only grows. What a call has been told was so at a moment
between its beginning and its end. -/

namespace Lib
open Machine Prog

variable {Op κ ε σ α : Type} {Ret : Op → Type}

structure Growth (exec : ε → (o : Op) → σ → Ret o × σ) where
  le : σ → σ → Prop
  refl : ∀ s, le s s
  trans : ∀ {s t u}, le s t → le t u → le s u
  step : ∀ e o s, le s (exec e o s).2

namespace Growth
variable {exec : ε → (o : Op) → σ → Ret o × σ} (growth : Growth exec)

def Between (s s' : σ) (e : ε) (ev : Event Ret) : Prop :=
  ∃ u, growth.le s u ∧ growth.le (exec e ev.1 u).2 s' ∧ (exec e ev.1 u).1 = ev.2

/-- What has come since the configuration `c`, which the calls that began then have seen. -/
structure Since (c c' : Conf Ret κ ε σ α) : Prop where
  grown : growth.le c.shared c'.shared
  between : ∀ k t, c.threads.length ≤ k → c'.threads[k]? = some t →
    ∀ ev ∈ t.past, growth.Between c.shared c'.shared t.env ev

variable {growth}

theorem Between.later {s s' s'' : σ} {e : ε} {ev : Event Ret} (h : growth.Between s s' e ev)
    (hle : growth.le s' s'') : growth.Between s s'' e ev := by
  obtain ⟨u, hu, hu', hres⟩ := h
  exact ⟨u, hu, growth.trans hu' hle, hres⟩

theorem Since.step {body : κ → Prog Ret α} {c c' c'' : Conf Ret κ ε σ α} {i : Sched κ ε}
    {out : Option (Event Ret)} (h : growth.Since c c')
    (hstep : (interleaving body exec).step c' i = some (out, c'')) : growth.Since c c'' := by
  rcases interleaving_step hstep with
    ⟨req, e, rfl, rfl⟩ | ⟨j, req, e, past, o, next, rfl, hj, rfl⟩
  · refine ⟨h.grown, fun k t hk ht ev hev => ?_⟩
    rcases Nat.lt_or_ge k c'.threads.length with hlt | hge
    · exact h.between k t hk ((List.getElem?_append_left hlt).symm.trans ht) ev hev
    · rw [List.getElem?_append_right hge] at ht
      obtain rfl := List.mem_singleton.mp (List.mem_of_getElem? ht)
      exact absurd hev List.not_mem_nil
  · have hle := growth.step e o c'.shared
    refine ⟨growth.trans h.grown hle, fun k t hk ht ev hev => ?_⟩
    by_cases hjk : j = k
    · subst hjk
      rw [List.getElem?_set_self (List.getElem?_eq_some_iff.mp hj).1] at ht
      obtain rfl := Option.some.inj ht
      rcases List.mem_append.mp hev with hev | hev
      · exact (h.between j _ hk hj ev hev).later hle
      · obtain rfl := List.mem_singleton.mp hev
        exact ⟨c'.shared, h.grown, growth.refl _, rfl⟩
    · exact (h.between k t hk ((List.getElem?_set_ne hjk).symm.trans ht) ev hev).later hle

end Growth
end Lib
