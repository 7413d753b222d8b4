import LetsChat.Lib.Program

/-! Programs in which each operation is carried out by a program over finer operations. -/

namespace Lib.Prog
variable {Op Op' : Type} {Ret : Op → Type} {Ret' : Op' → Type} {α : Type}

def interpret (h : (o : Op) → Prog Ret' (Ret o)) : Prog Ret α → Prog Ret' α
  | ret a => ret a
  | throw => throw
  | op o k => h o >>= fun r => (k r).interpret h

variable {h : (o : Op) → Prog Ret' (Ret o)}

theorem interpret_bind {β : Type} (p : Prog Ret α) (f : α → Prog Ret β) :
    (p >>= f).interpret h = p.interpret h >>= fun a => (f a).interpret h := by
  induction p with
  | ret a => rfl
  | throw => rfl
  | op o k ih =>
    calc ((op o k) >>= f).interpret h
      _ = h o >>= fun r => (k r).interpret h >>= fun a => (f a).interpret h :=
        congrArg (h o >>= ·) (funext ih)
      _ = (op o k).interpret h >>= fun a => (f a).interpret h := (bind_assoc ..).symm

theorem interpret_ite {c : Prop} [Decidable c] {p q : Prog Ret α} :
    (if c then p else q).interpret h = if c then p.interpret h else q.interpret h :=
  apply_ite (interpret h) c p q

theorem interpret_map {β : Type} {f : α → β} {p : Prog Ret α} :
    (f <$> p).interpret h = f <$> p.interpret h := by
  rw [map_eq_pure_bind, map_eq_pure_bind, interpret_bind]
  rfl

/-- Where the finer operations do together what each operation does, so does the program. -/
theorem run_interpret {σ σ' : Type} {exec : (o : Op) → σ → Ret o × σ}
    {exec' : (o : Op') → σ' → Ret' o × σ'} {R : σ → σ' → Prop}
    (hop : ∀ o s s', R s s' → ∃ t', (h o).run exec' s' = (some (exec o s).1, t') ∧ R (exec o s).2 t')
    (p : Prog Ret α) {s : σ} {s' : σ'} (hs : R s s') :
    ∃ t', (p.interpret h).run exec' s' = ((p.run exec s).1, t') ∧ R (p.run exec s).2 t' := by
  induction p generalizing s s' with
  | ret a => exact ⟨s', rfl, hs⟩
  | throw => exact ⟨s', rfl, hs⟩
  | op o k ih =>
    obtain ⟨t', hrun, ht⟩ := hop o s s' hs
    obtain ⟨u', hrest, hu⟩ := ih (exec o s).1 ht
    exact ⟨u', (run_bind_of exec' hrun).trans hrest, hu⟩

theorem Within.disciplined_interpret {P : Op → Prop} {R : List (Event Ret') → Op' → Prop}
    (hop : ∀ o, P o → ∀ past, (h o).Disciplined R past) {p : Prog Ret α} (hp : p.Within P)
    (past : List (Event Ret')) : (p.interpret h).Disciplined R past := by
  induction p generalizing past with
  | ret a => trivial
  | throw => trivial
  | op o k ih => exact disciplined_bind (hop o hp.1 past) fun r past => ih r (hp.2 r) past

theorem Within.interpret {P : Op → Prop} {P' : Op' → Prop} (hop : ∀ o, P o → (h o).Within P')
    {p : Prog Ret α} (hp : p.Within P) : (p.interpret h).Within P' := by
  induction p with
  | ret a => trivial
  | throw => trivial
  | op o k ih => exact within_bind (hop o hp.1) fun r => ih r (hp.2 r)

/-- `Abs` relates the finer events to those they carry out, and one operation more keeps it. -/
def Renders (h : (o : Op) → Prog Ret' (Ret o))
    (Abs : List (Event Ret') → List (Event Ret) → Prop) : Prop :=
  ∀ o fine coarse, Abs fine coarse →
    (h o).Concludes (fun fine r => Abs fine (coarse ++ [⟨o, r⟩])) fine

section Levels
variable {Abs : List (Event Ret') → List (Event Ret) → Prop} (hrenders : Renders h Abs)
variable {fine : List (Event Ret')} {coarse : List (Event Ret)}
include hrenders

theorem Concludes.interpret {Q : List (Event Ret) → α → Prop} {p : Prog Ret α}
    (hp : p.Concludes Q coarse) (habs : Abs fine coarse) :
    (p.interpret h).Concludes (fun fine a => ∃ coarse, Abs fine coarse ∧ Q coarse a) fine := by
  induction p generalizing fine coarse with
  | ret a => exact ⟨coarse, habs, hp⟩
  | throw => trivial
  | op o k ih =>
    refine concludes_bind (Concludes.mono (fun fine r hnext => ?_) (hrenders o fine coarse habs))
    exact ih r (hp r) hnext

theorem Disciplined.interpret {P : List (Event Ret) → Op → Prop}
    {R : List (Event Ret') → Op' → Prop}
    (hop : ∀ o fine coarse, Abs fine coarse → P coarse o → (h o).Disciplined R fine)
    {p : Prog Ret α} (hp : p.Disciplined P coarse) (habs : Abs fine coarse) :
    (p.interpret h).Disciplined R fine := by
  induction p generalizing fine coarse with
  | ret a => trivial
  | throw => trivial
  | op o k ih =>
    refine (Concludes.mono (fun fine r hnext => ?_) (hrenders o fine coarse habs)).disciplined_bind
      (hop o fine coarse habs hp.1)
    exact ih r (hp.2 r) hnext

end Levels

theorem renders_map {lift : Event Ret → Event Ret'} {past : List (Event Ret')}
    (hlift : ∀ o fine, (h o).Concludes (fun fine' r => fine' = fine ++ [lift ⟨o, r⟩]) fine) :
    Renders h fun fine coarse => fine = past ++ coarse.map lift := by
  rintro o _ coarse rfl
  refine Concludes.mono (fun fine r hfine => ?_) (hlift o _)
  show fine = past ++ (coarse ++ [(⟨o, r⟩ : Event Ret)]).map lift
  rw [hfine, List.map_append, List.append_assoc]
  rfl

def Throwless : Prog Ret α → Prop
  | ret _ => True
  | throw => False
  | op _ k => ∀ r, (k r).Throwless

section Throwless
variable {β : Type}

@[simp] theorem throwless_ret (a : α) : (ret a : Prog Ret α).Throwless := trivial

@[simp] theorem throwless_ite {c : Prop} [Decidable c] {p q : Prog Ret α} :
    (if c then p else q).Throwless ↔ (c → p.Throwless) ∧ (¬c → q.Throwless) := by
  split <;> simp [*]

theorem throwless_perform (o : Op) : (perform o : Prog Ret (Ret o)).Throwless := fun _ => trivial

theorem throwless_bind {p : Prog Ret α} {f : α → Prog Ret β} (hp : p.Throwless)
    (hf : ∀ a, (f a).Throwless) : (p >>= f).Throwless := by
  induction p with
  | ret a => exact hf a
  | throw => exact hp.elim
  | op o k ih => exact fun r => ih r (hp r)

theorem throwless_optional {p : Prog Ret (Option α)} {f : Option α → Prog Ret β}
    (hp : p.Throwless) (hnone : (f none).Throwless) (hsome : ∀ a, (f (some a)).Throwless) :
    (p >>= f).Throwless := by
  apply throwless_bind hp
  intro res
  cases res with
  | none => exact hnone
  | some a => exact hsome a

theorem Throwless.interpret (hop : ∀ o, (h o).Throwless) {p : Prog Ret α} (hp : p.Throwless) :
    (p.interpret h).Throwless := by
  induction p with
  | ret a => trivial
  | throw => exact hp.elim
  | op o k ih => exact throwless_bind (hop o) fun r => ih r (hp r)

theorem Throwless.rest {p q : Prog Ret α} {tr : List (Event Ret)} (hp : p.Throwless)
    (h : Trace p tr q) : q.Throwless := by
  induction h with
  | nil p => exact hp
  | cons _ ih => exact ih (hp _)

theorem Throwless.returned {p : Prog Ret α} (hp : p.Throwless) (h : p.finished = true) :
    ∃ a, p = ret a := by
  cases p with
  | ret a => exact ⟨a, rfl⟩
  | throw => exact hp.elim
  | op o k => cases h

end Throwless

def attempt : Prog Ret α → Prog Ret (Option α)
  | ret a => ret (some a)
  | throw => ret none
  | op o k => op o fun r => (k r).attempt

theorem within_attempt {P : Op → Prop} {p : Prog Ret α} (hp : p.Within P) : p.attempt.Within P := by
  induction p with
  | ret a => trivial
  | throw => trivial
  | op o k ih => exact ⟨hp.1, fun r => ih r (hp.2 r)⟩

theorem disciplined_attempt {R : List (Event Ret) → Op → Prop} {p : Prog Ret α}
    {past : List (Event Ret)} (hp : p.Disciplined R past) : p.attempt.Disciplined R past := by
  induction p generalizing past with
  | ret a => trivial
  | throw => trivial
  | op o k ih => exact ⟨hp.1, fun r => ih r (hp.2 r)⟩

theorem concludes_attempt {Q : List (Event Ret) → α → Prop} {p : Prog Ret α}
    {past : List (Event Ret)} (hp : p.Concludes Q past) :
    p.attempt.Concludes (fun past res => ∀ a, res = some a → Q past a) past := by
  induction p generalizing past with
  | ret a => exact fun b hb => Option.some.inj hb ▸ hp
  | throw => exact fun b hb => by cases hb
  | op o k ih => exact fun r => ih r (hp r)

theorem throwless_attempt (p : Prog Ret α) : p.attempt.Throwless := by
  induction p with
  | ret a => trivial
  | throw => trivial
  | op o k ih => exact ih

end Lib.Prog
