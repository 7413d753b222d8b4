import LetsChat.Lib.Program

/-! Proof outlines of interleaved calls. Each call asserts something of its own events and
the shared state, and no operation that another call may ask for takes that away. -/

namespace Lib
open Machine Prog

variable {Op κ ε σ α : Type} {Ret : Op → Type}

/-- `asks` limits the operations of a call by its events, `invariant` is kept by all of
them, and `asserts` by those of the other calls. -/
structure Outline (body : κ → Prog Ret α) (exec : ε → (o : Op) → σ → Ret o × σ) where
  invariant : σ → Prop
  asserts : κ → List (Event Ret) → σ → Prop
  asks : κ → List (Event Ret) → Op → Prop
  disciplined : ∀ c, (body c).Disciplined (asks c) []
  initial : ∀ c s, invariant s → asserts c [] s
  own : ∀ c past e o s, invariant s → asserts c past s → asks c past o →
    invariant (exec e o s).2 ∧ asserts c (past ++ [⟨o, (exec e o s).1⟩]) (exec e o s).2
  others : ∀ c past c' past' e o s, invariant s → asserts c past s → asserts c' past' s →
    asks c' past' o → asserts c past (exec e o s).2

namespace Outline
variable {body : κ → Prog Ret α} {exec : ε → (o : Op) → σ → Ret o × σ}

structure Holds (outline : Outline body exec) (c : Conf Ret κ ε σ α) : Prop where
  invariant : outline.invariant c.shared
  traced : WellTraced body c
  asserts : ∀ t ∈ c.threads, outline.asserts t.call t.past c.shared

variable {outline : Outline body exec}

theorem Holds.asks {c : Conf Ret κ ε σ α} (hc : outline.Holds c) {call : κ} {e : ε}
    {past : List (Event Ret)} {o : Op} {next : Ret o → Prog Ret α}
    (ht : ⟨call, e, past, .op o next⟩ ∈ c.threads) : outline.asks call past o :=
  (outline.disciplined call).asks (hc.traced _ ht)

theorem Holds.step {c c' : Conf Ret κ ε σ α} {i : Sched κ ε} {out : Option (Event Ret)}
    (hc : outline.Holds c) (h : (interleaving body exec).step c i = some (out, c')) :
    outline.Holds c' := by
  have htraced := wellTraced_step hc.traced h
  rcases interleaving_step h with
    ⟨call, e, rfl, rfl⟩ | ⟨k, call, e, past, o, next, rfl, hk, rfl⟩
  · refine ⟨hc.invariant, htraced, fun t ht => ?_⟩
    rcases List.mem_append.mp ht with ht | ht
    · exact hc.asserts t ht
    · obtain rfl := List.mem_singleton.mp ht
      exact outline.initial call c.shared hc.invariant
  · have hthread := List.mem_of_getElem? hk
    have hasks := hc.asks hthread
    have hasserts := hc.asserts _ hthread
    have hown := outline.own call past e o c.shared hc.invariant hasserts hasks
    refine ⟨hown.1, htraced, fun t ht => ?_⟩
    rcases List.mem_or_eq_of_mem_set ht with ht | rfl
    · exact outline.others t.call t.past call past e o c.shared hc.invariant (hc.asserts t ht)
        hasserts hasks
    · exact hown.2

theorem Holds.start {s : σ} (hs : outline.invariant s) : outline.Holds ⟨s, []⟩ where
  invariant := hs
  traced _ ht := absurd ht List.not_mem_nil
  asserts _ ht := absurd ht List.not_mem_nil

theorem everyState {s : σ} (hs : outline.invariant s) (is : List (Sched κ ε)) :
    (interleaving body exec).EveryState (fun _ c => outline.Holds c) [] ⟨s, []⟩ is :=
  everyState_of_invariant (I := fun _ c => outline.Holds c) (fun _ _ _ _ _ hc h => hc.step h)
    (.start hs)

end Outline
end Lib
