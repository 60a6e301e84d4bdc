import Mathlib.Logic.Basic

/-!
# Actions that leave no trace

A machine takes actions, changes its state and puts something out. Some of the actions, depending
on the state, are meant to have no effect on the rest, and their outputs are meant to tell
nothing. Both are properties of runs, and both follow from a relation between states that is
looked at one action at a time. The run without those actions may be one of another machine, which
takes the same actions and puts out the same kind of thing.

* `Unwinding.final`, `Unwinding.outputs`: when **idle actions are left out of a run**, it ends in a
  related state and puts out the same for all the other actions.
* `Blindness.outputs`: runs from related states put out **the same for the idle actions**.
-/

namespace RSDWServerAPI.Isolation

variable {σ τ α ω : Type*} (step : σ → α → σ × ω) (step' : τ → α → τ × ω) (idle : σ → α → Prop)
  [∀ s a, Decidable (idle s a)]

/-- The state after a run. -/
def final : σ → List α → σ
  | s, [] => s
  | s, a :: as => final (step s a).1 as

/-- What a run puts out. -/
def outputs : σ → List α → List ω
  | _, [] => []
  | s, a :: as => (step s a).2 :: outputs (step s a).1 as

/-- The actions of a run that are not idle where they are taken. -/
def kept : σ → List α → List α
  | _, [] => []
  | s, a :: as =>
      if idle s a then kept (step s a).1 as else a :: kept (step s a).1 as

/-- What a run puts out for the actions that are not idle. -/
def keptOutputs : σ → List α → List ω
  | _, [] => []
  | s, a :: as =>
      if idle s a then keptOutputs (step s a).1 as
      else (step s a).2 :: keptOutputs (step s a).1 as

/-- What a run puts out for the actions that are idle. -/
def idleOutputs : σ → List α → List ω
  | _, [] => []
  | s, a :: as =>
      if idle s a then (step s a).2 :: idleOutputs (step s a).1 as
      else idleOutputs (step s a).1 as

/-- Of two related states the first may take an idle action alone, and both take any other action
together and with the same output. -/
structure Unwinding (R : σ → τ → Prop) : Prop where
  skip : ∀ {s t a}, R s t → idle s a → R (step s a).1 t
  both : ∀ {s t a}, R s t → ¬ idle s a →
    (step s a).2 = (step' t a).2 ∧ R (step s a).1 (step' t a).1

/-- Two related states take every action together, agree on what is idle, and put out the same for
it. -/
structure Blindness (R : σ → σ → Prop) : Prop where
  next : ∀ {s t a}, R s t → R (step s a).1 (step t a).1
  agree : ∀ {s t a}, R s t → (idle s a ↔ idle t a)
  same : ∀ {s t a}, R s t → idle s a → (step s a).2 = (step t a).2

variable {step step' idle}

/-- **A run without its idle actions** ends in a related state. -/
theorem Unwinding.final {R : σ → τ → Prop} (h : Unwinding step step' idle R) {s : σ} {t : τ}
    (hR : R s t) (as : List α) : R (final step s as) (final step' t (kept step idle s as)) := by
  induction as generalizing s t with
  | nil => exact hR
  | cons a as ih =>
      rw [kept]
      by_cases ha : idle s a
      · rw [if_pos ha]
        exact ih (h.skip hR ha)
      · rw [if_neg ha]
        exact ih (h.both hR ha).2

/-- **A run without its idle actions** puts out the same for the others. -/
theorem Unwinding.outputs {R : σ → τ → Prop} (h : Unwinding step step' idle R) {s : σ} {t : τ}
    (hR : R s t) (as : List α) :
    keptOutputs step idle s as = outputs step' t (kept step idle s as) := by
  induction as generalizing s t with
  | nil => rfl
  | cons a as ih =>
      rw [kept, keptOutputs]
      by_cases ha : idle s a
      · rw [if_pos ha, if_pos ha]
        exact ih (h.skip hR ha)
      · obtain ⟨hout, hnext⟩ := h.both hR ha
        rw [if_neg ha, if_neg ha, ih hnext, hout]
        rfl

/-- **The outputs of idle actions** are the same from related states. -/
theorem Blindness.outputs {R : σ → σ → Prop} (h : Blindness step idle R) {s t : σ} (hR : R s t)
    (as : List α) : idleOutputs step idle s as = idleOutputs step idle t as := by
  induction as generalizing s t with
  | nil => rfl
  | cons a as ih =>
      rw [idleOutputs, idleOutputs, ih (h.next hR)]
      by_cases ha : idle s a
      · rw [if_pos ha, if_pos ((h.agree hR).mp ha), h.same hR ha]
      · rw [if_neg ha, if_neg fun ht => ha ((h.agree hR).mpr ht)]

end RSDWServerAPI.Isolation
