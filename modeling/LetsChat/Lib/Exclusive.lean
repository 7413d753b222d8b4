import LetsChat.Lib.Path

/-! Calls that exclude each other among calls that do not. Where nothing else touches what they
see of the state, they leave the same as if they had been carried out alone, one by one. -/

namespace Lib
open Prog

section Exclusive
variable {Op κ ε σ ν α : Type} {Ret : Op → Type}

/-- The operations of a call, each carried out in some state that looks like the one that the
operation before has left. -/
def Sees (exec : ε → (o : Op) → σ → Ret o × σ) (view : σ → ν) (e : ε) (ev : Event Ret) (v v' : ν) :
    Prop :=
  ∃ s, view s = v ∧ (exec e ev.1 s).1 = ev.2 ∧ view (exec e ev.1 s).2 = v'

/-- The call has begun in a view that meets `begins` and has led to the other by its events. -/
structure Turn (exec : ε → (o : Op) → σ → Ret o × σ) (view : σ → ν) (begins : κ → ν → Prop)
    (t : Thread Ret κ ε α) (v v' : ν) : Prop where
  begins : begins t.call v
  path : Path (Sees exec view t.env) t.past v v'

def turns (excl : κ → Bool) (threads : List (Thread Ret κ ε α)) : List (Thread Ret κ ε α) :=
  threads.filter fun t => excl t.call

structure Serial (exec : ε → (o : Op) → σ → Ret o × σ) (view : σ → ν) (begins : κ → ν → Prop)
    (excl : κ → Bool) (v : ν) (c : Conf Ret κ ε σ α) : Prop where
  path : Path (Turn exec view begins) (turns excl c.threads) v (view c.shared)
  done : ∀ t ∈ (turns excl c.threads).dropLast, t.rest.finished = true

variable {exec : ε → (o : Op) → σ → Ret o × σ} {view : σ → ν} {begins : κ → ν → Prop}
variable {excl : κ → Bool} {v : ν} {c c' : Conf Ret κ ε σ α}

theorem turns_append (threads : List (Thread Ret κ ε α)) (t : Thread Ret κ ε α) :
    turns excl (threads ++ [t]) = turns excl threads ++ if excl t.call = true then [t] else [] := by
  rw [turns, turns, List.filter_append, List.filter_singleton]
  cases excl t.call <;> rfl

theorem turns_set (excl : κ → Bool) {threads : List (Thread Ret κ ε α)} {k : Nat}
    {t t' : Thread Ret κ ε α} (hk : threads[k]? = some t) (hcall : t'.call = t.call) :
    ∃ before after,
      turns excl threads = before ++ (if excl t.call = true then [t] else []) ++ after ∧
      turns excl (threads.set k t') =
        before ++ (if excl t.call = true then [t'] else []) ++ after := by
  induction threads generalizing k with
  | nil => cases hk
  | cons u threads ih =>
    cases k with
    | zero =>
      obtain rfl := Option.some.inj hk
      refine ⟨[], turns excl threads, ?_, ?_⟩
      · rw [turns, turns, List.filter_cons]
        cases excl u.call <;> rfl
      · rw [turns, turns, List.set_cons_zero, List.filter_cons, hcall]
        cases excl u.call <;> rfl
    | succ k =>
      obtain ⟨before, after, hold, hnew⟩ := ih hk
      have hcons : ∀ l : List (Thread Ret κ ε α),
          turns excl (u :: l) = turns excl [u] ++ turns excl l := fun l =>
        List.filter_append (p := fun t : Thread Ret κ ε α => excl t.call) [u] l
      refine ⟨turns excl [u] ++ before, after, ?_, ?_⟩
      · rw [hcons, hold]
        simp only [List.append_assoc]
      · rw [List.set_cons_succ, hcons, hnew]
        simp only [List.append_assoc]

theorem serial_call (hc : Serial exec view begins excl v c) (req : κ) (e : ε) (p : Prog Ret α)
    (hallowed : excl req = true → (∀ t ∈ c.threads, excl t.call = true → t.rest.finished = true) ∧
      begins req (view c.shared)) :
    Serial exec view begins excl v { c with threads := c.threads ++ [⟨req, e, [], p⟩] } := by
  cases hexcl : excl req with
  | false =>
    have hsame : turns excl (c.threads ++ [⟨req, e, [], p⟩]) = turns excl c.threads := by
      rw [turns_append, if_neg (by rw [hexcl]; exact Bool.false_ne_true), List.append_nil]
    exact ⟨hsame ▸ hc.path, hsame ▸ hc.done⟩
  | true =>
    obtain ⟨hidle, hbegins⟩ := hallowed hexcl
    have hmore : turns excl (c.threads ++ [⟨req, e, [], p⟩]) =
        turns excl c.threads ++ [⟨req, e, [], p⟩] := by
      rw [turns_append, if_pos hexcl]
    constructor
    · rw [hmore]
      exact path_snoc.mpr ⟨_, hc.path, hbegins, rfl⟩
    · rw [hmore, List.dropLast_concat]
      intro t ht
      obtain ⟨hmem, ht⟩ := List.mem_filter.mp ht
      exact hidle t hmem ht

theorem turns_other {threads : List (Thread Ret κ ε α)} {k : Nat} {t : Thread Ret κ ε α}
    (hk : threads[k]? = some t) (t' : Thread Ret κ ε α) (hcall : t'.call = t.call)
    (hexcl : excl t.call = false) :
    turns excl (threads.set k t') = turns excl threads := by
  obtain ⟨before, after, hold, hnew⟩ := turns_set excl hk hcall
  simp only [hexcl, Bool.false_eq_true, if_false] at hold hnew
  exact hnew.trans hold.symm

theorem turns_last {threads : List (Thread Ret κ ε α)} {k : Nat} {t : Thread Ret κ ε α}
    (hdone : ∀ t ∈ (turns excl threads).dropLast, t.rest.finished = true)
    (hk : threads[k]? = some t) (t' : Thread Ret κ ε α) (hcall : t'.call = t.call)
    (hexcl : excl t.call = true)
    (hruns : t.rest.finished = false) :
    ∃ before, turns excl threads = before ++ [t] ∧ turns excl (threads.set k t') = before ++ [t'] := by
  obtain ⟨before, after, hold, hnew⟩ := turns_set excl hk hcall
  simp only [hexcl, if_true] at hold hnew
  have hlast : after = [] := by
    by_contra hne
    have hmem : t ∈ (turns excl threads).dropLast := by
      rw [hold, List.dropLast_append_of_ne_nil hne]
      exact List.mem_append_left _ (List.mem_append_right _ (List.mem_singleton_self _))
    rw [hdone t hmem] at hruns
    cases hruns
  rw [hlast, List.append_nil] at hold hnew
  exact ⟨before, hold, hnew⟩

theorem serial_pick (hc : Serial exec view begins excl v c) {k : Nat} {req : κ} {e : ε}
    {past : List (Event Ret)} {o : Op} {next : Ret o → Prog Ret α}
    (hk : c.threads[k]? = some ⟨req, e, past, .op o next⟩)
    (hquiet : excl req = false → view (exec e o c.shared).2 = view c.shared) :
    Serial exec view begins excl v ⟨(exec e o c.shared).2, c.threads.set k
      ⟨req, e, past ++ [⟨o, (exec e o c.shared).1⟩], next (exec e o c.shared).1⟩⟩ := by
  cases hexcl : excl req with
  | false =>
    have hsame := turns_other hk
      ⟨req, e, past ++ [⟨o, (exec e o c.shared).1⟩], next (exec e o c.shared).1⟩ rfl hexcl
    constructor
    · rw [hsame]
      show Path _ _ v (view (exec e o c.shared).2)
      rw [hquiet hexcl]
      exact hc.path
    · rw [hsame]
      exact hc.done
  | true =>
    obtain ⟨before, hold, hnew⟩ := turns_last hc.done hk
      ⟨req, e, past ++ [⟨o, (exec e o c.shared).1⟩], next (exec e o c.shared).1⟩ rfl hexcl rfl
    have hpath := hc.path
    have hdone := hc.done
    rw [hold] at hpath hdone
    obtain ⟨u, hbefore, hturn⟩ := path_snoc.mp hpath
    constructor
    · rw [hnew]
      refine path_snoc.mpr ⟨u, hbefore, hturn.begins, ?_⟩
      exact path_snoc.mpr ⟨_, hturn.path, c.shared, rfl, rfl, rfl⟩
    · rw [hnew, List.dropLast_concat]
      rwa [List.dropLast_concat] at hdone

theorem serial_step {body : κ → Prog Ret α} {i : Sched κ ε} {out : Option (Event Ret)}
    (hc : Serial exec view begins excl v c)
    (hallowed : ∀ req e, i = .call req e → excl req = true →
      (∀ t ∈ c.threads, excl t.call = true → t.rest.finished = true) ∧ begins req (view c.shared))
    (hquiet : ∀ t ∈ c.threads, excl t.call = false → ∀ o next, t.rest = .op o next →
      view (exec t.env o c.shared).2 = view c.shared)
    (h : (interleaving body exec).step c i = some (out, c')) :
    Serial exec view begins excl v c' := by
  rcases interleaving_step h with
    ⟨req, e, rfl, rfl⟩ | ⟨k, req, e, past, o, next, rfl, hk, rfl⟩
  · exact serial_call hc req e _ (hallowed req e rfl)
  · exact serial_pick hc hk fun hreq =>
      hquiet _ (List.mem_of_getElem? hk) hreq o next rfl

def written {γ : Type} (writes : Event Ret → List γ) (excl : κ → Bool)
    (threads : List (Thread Ret κ ε α)) : List γ :=
  (turns excl threads).flatMap fun t => t.past.flatMap writes

theorem written_step {γ : Type} {writes : Event Ret → List γ} {log : σ → List γ}
    {body : κ → Prog Ret α} {i : Sched κ ε} {out : Option (Event Ret)}
    (hdone : ∀ t ∈ (turns excl c.threads).dropLast, t.rest.finished = true)
    (hlog : ∀ e o s, List.Sublist (log s ++ writes ⟨o, (exec e o s).1⟩) (log (exec e o s).2))
    (hc : List.Sublist (written writes excl c.threads) (log c.shared))
    (h : (interleaving body exec).step c i = some (out, c')) :
    List.Sublist (written writes excl c'.threads) (log c'.shared) := by
  rcases interleaving_step h with
    ⟨req, e, rfl, rfl⟩ | ⟨k, req, e, past, o, next, rfl, hk, rfl⟩
  · have hnothing : written writes excl (c.threads ++ [⟨req, e, [], body req⟩]) =
        written writes excl c.threads := by
      rw [written, written, turns_append, List.flatMap_append]
      cases excl req <;> exact List.append_nil _
    exact hnothing ▸ hc
  · cases hexcl : excl req with
    | false =>
      have hsame := turns_other hk
        ⟨req, e, past ++ [⟨o, (exec e o c.shared).1⟩], next (exec e o c.shared).1⟩ rfl hexcl
      rw [written, hsame]
      exact hc.trans ((List.sublist_append_left _ _).trans (hlog e o c.shared))
    | true =>
      obtain ⟨before, hold, hnew⟩ := turns_last hdone hk
        ⟨req, e, past ++ [⟨o, (exec e o c.shared).1⟩], next (exec e o c.shared).1⟩ rfl hexcl
        rfl
      rw [written, hold, List.flatMap_append, List.flatMap_singleton] at hc
      rw [written, hnew, List.flatMap_append, List.flatMap_singleton, List.flatMap_append,
        List.flatMap_singleton, ← List.append_assoc]
      exact (hc.append_right _).trans (hlog e o c.shared)

end Exclusive
end Lib
