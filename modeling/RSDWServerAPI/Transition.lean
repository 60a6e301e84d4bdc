import Mathlib.Logic.Basic
import Mathlib.Order.Basic

/-!
# Runs of a step function

A component with state is given by a partial step function `step : σ → α → Option σ`: the
state after one atomic action, `none` when the action cannot be taken there. Any
interleaving of threads is a list of actions, one for each atomic section in the order in
which they happen.

`Always P` says that a property of states holds all along a run, `EveryStep Q` that a
property of steps holds of every step taken in it. The rules below reduce either to one
step:

* `always_of_everyStep`: an invariant that the permitted steps keep holds all along a run
  that takes permitted steps only.
* `everyStep_of_always`: conversely, when any other step breaks `P` on the spot, a run
  along which `P` holds takes permitted steps only.
* `always_iff_everyStep`: the two together, the shape in which "exactly when" results
  about runs are stated.
* `countSteps_le`: a potential bounds how often a step of a kind is taken in a run.
-/

namespace RSDWServerAPI.Transition

variable {σ α : Type*} (step : σ → α → Option σ)

/-- The state after a list of actions, `none` when one of them cannot be taken. -/
def exec : σ → List α → Option σ
  | s, [] => some s
  | s, a :: as => (step s a).bind fun t => exec t as

/-- `P` holds in every state of the run that takes the actions in order. -/
def Always (P : σ → Prop) : σ → List α → Prop
  | s, [] => P s
  | s, a :: as => P s ∧ ∀ t, step s a = some t → Always P t as

/-- `Q` holds of every step of the run: of the state before it, its action and the state
after it. -/
def EveryStep (Q : σ → α → σ → Prop) : σ → List α → Prop
  | _, [] => True
  | s, a :: as => ∀ t, step s a = some t → Q s a t ∧ EveryStep Q t as

/-- The number of steps of the run, as far as it can be taken, that have the property `q`: of the
state before the step and its action. -/
def countSteps (q : σ → α → Bool) : σ → List α → ℕ
  | _, [] => 0
  | s, a :: as =>
      match step s a with
      | none => 0
      | some t => (if q s a then 1 else 0) + countSteps q t as

variable {step}

/-- A run can be checked against a decidable property of its steps by taking it. -/
instance EveryStep.decidable {Q : σ → α → σ → Prop} [∀ s a t, Decidable (Q s a t)] :
    ∀ (s : σ) (as : List α), Decidable (EveryStep step Q s as)
  | _, [] => isTrue trivial
  | s, a :: as =>
      match h : step s a with
      | none => isTrue fun t ht => by simp [h] at ht
      | some t =>
          have := EveryStep.decidable (Q := Q) t as
          decidable_of_iff (Q s a t ∧ EveryStep step Q t as)
            ⟨fun hq u hu => by obtain rfl : t = u := by simpa [h] using hu
                               exact hq,
              fun hq => hq t h⟩

/-- What holds all along a run holds where the run starts. -/
theorem Always.head {P : σ → Prop} {s : σ} {as : List α} (h : Always step P s as) : P s := by
  cases as with
  | nil => exact h
  | cons a as => exact h.1

/-- What holds all along a run holds where the run ends. -/
theorem Always.last {P : σ → Prop} {s t : σ} {as : List α} (h : Always step P s as)
    (ht : exec step s as = some t) : P t := by
  induction as generalizing s with
  | nil =>
      obtain rfl : s = t := Option.some.inj ht
      exact h
  | cons a as ih =>
      obtain ⟨u, hu, ht⟩ := Option.bind_eq_some_iff.mp ht
      exact ih (h.2 u hu) ht

/-- What holds of every step of a run holds of the step taken behind a part of it. -/
theorem EveryStep.of_exec {Q : σ → α → σ → Prop} {s t u : σ} {as bs : List α} {a : α}
    (h : EveryStep step Q s (as ++ a :: bs)) (ht : exec step s as = some t)
    (hu : step t a = some u) : Q t a u := by
  induction as generalizing s with
  | nil =>
      obtain rfl : s = t := Option.some.inj ht
      exact (h u hu).1
  | cons b as ih =>
      obtain ⟨v, hv, ht⟩ := Option.bind_eq_some_iff.mp ht
      exact ih (h v hv).2 ht

/-- What the actions of a run have in common holds of its steps. -/
theorem EveryStep.of_forall {Q : σ → α → σ → Prop} {s : σ} {as : List α}
    (h : ∀ a ∈ as, ∀ s t, Q s a t) : EveryStep step Q s as := by
  induction as generalizing s with
  | nil => trivial
  | cons a as ih =>
      exact fun t _ => ⟨h a List.mem_cons_self s t,
        ih fun b hb => h b (List.mem_cons_of_mem a hb)⟩

/-- Two properties of the steps of a run hold of each step together. -/
theorem EveryStep.and {Q Q' : σ → α → σ → Prop} {s : σ} {as : List α}
    (h : EveryStep step Q s as) (h' : EveryStep step Q' s as) :
    EveryStep step (fun s a t => Q s a t ∧ Q' s a t) s as := by
  induction as generalizing s with
  | nil => trivial
  | cons a as ih =>
      intro t ht
      obtain ⟨hq, hrest⟩ := h t ht
      obtain ⟨hq', hrest'⟩ := h' t ht
      exact ⟨⟨hq, hq'⟩, ih hrest hrest'⟩

/-- A weaker property holds along the same run. -/
theorem Always.mono {P P' : σ → Prop} (hP : ∀ s, P s → P' s) {s : σ} {as : List α}
    (h : Always step P s as) : Always step P' s as := by
  induction as generalizing s with
  | nil => exact hP s h
  | cons a as ih => exact ⟨hP s h.1, fun t ht => ih (h.2 t ht)⟩

/-- What every step keeps holds all along a run. -/
theorem Always.of_invariant {I : σ → Prop} (hstep : ∀ s a t, I s → step s a = some t → I t)
    {s : σ} (hs : I s) (as : List α) : Always step I s as := by
  induction as generalizing s with
  | nil => exact hs
  | cons a as ih => exact ⟨hs, fun t ht => ih (hstep s a t hs ht)⟩

/-- **Reachable states**: what every step keeps holds where a run ends. -/
theorem invariant_of_exec {I : σ → Prop} (hstep : ∀ s a t, I s → step s a = some t → I t)
    {s t : σ} {as : List α} (hs : I s) (h : exec step s as = some t) : I t :=
  (Always.of_invariant hstep hs as).last h

/-- What follows from an invariant of one step holds of every step of a run. -/
theorem EveryStep.of_invariant {I : σ → Prop} {Q : σ → α → σ → Prop}
    (hstep : ∀ s a t, I s → step s a = some t → I t ∧ Q s a t) {s : σ} (hs : I s)
    (as : List α) : EveryStep step Q s as := by
  induction as generalizing s with
  | nil => trivial
  | cons a as ih =>
      intro t ht
      obtain ⟨hI, hQ⟩ := hstep s a t hs ht
      exact ⟨hQ, ih hI⟩

/-- **Potential rule**: a quantity that no step raises, and that a step with the property `q`
lowers, bounds how often such a step is taken. -/
theorem countSteps_le {I : σ → Prop} {q : σ → α → Bool} {potential : σ → ℕ}
    (hstep : ∀ s a t, I s → step s a = some t →
      I t ∧ (if q s a then 1 else 0) + potential t ≤ potential s)
    {s : σ} (hs : I s) (as : List α) : countSteps step q s as ≤ potential s := by
  induction as generalizing s with
  | nil => exact Nat.zero_le _
  | cons a as ih =>
      rw [countSteps]
      cases ht : step s a with
      | none => exact Nat.zero_le _
      | some t =>
          obtain ⟨hI, hle⟩ := hstep s a t hs ht
          have := ih hI
          dsimp only
          omega

/-- **Invariant rule**: an invariant that every permitted step keeps holds all along a run
of permitted steps. -/
theorem always_of_everyStep {I : σ → Prop} {Q : σ → α → σ → Prop}
    (hstep : ∀ s a t, I s → Q s a t → step s a = some t → I t)
    {s : σ} {as : List α} (hs : I s) (h : EveryStep step Q s as) : Always step I s as := by
  induction as generalizing s with
  | nil => exact hs
  | cons a as ih =>
      refine ⟨hs, fun t ht => ?_⟩
      obtain ⟨hq, hrest⟩ := h t ht
      exact ih (hstep s a t hs hq ht) hrest

/-- A property of steps that follows from an invariant holds of every step of a run along
which the invariant holds. -/
theorem everyStep_of_invariant {I : σ → Prop} {Q Q' : σ → α → σ → Prop}
    (hstep : ∀ s a t, I s → Q s a t → step s a = some t → I t)
    (hQ : ∀ s a t, I s → Q s a t → step s a = some t → Q' s a t)
    {s : σ} {as : List α} (hs : I s) (h : EveryStep step Q s as) :
    EveryStep step Q' s as := by
  induction as generalizing s with
  | nil => trivial
  | cons a as ih =>
      intro t ht
      obtain ⟨hq, hrest⟩ := h t ht
      exact ⟨hQ s a t hs hq ht, ih (hstep s a t hs hq ht) hrest⟩

/-- **Converse rule**: when a step outside `Q` leaves a state without `P`, a run along
which `P` holds takes steps of `Q` only. -/
theorem everyStep_of_always {I P : σ → Prop} {Q : σ → α → σ → Prop}
    (hstep : ∀ s a t, I s → Q s a t → step s a = some t → I t)
    (hbreak : ∀ s a t, I s → step s a = some t → P t → Q s a t)
    {s : σ} {as : List α} (hs : I s) (h : Always step P s as) : EveryStep step Q s as := by
  induction as generalizing s with
  | nil => trivial
  | cons a as ih =>
      intro t ht
      have hq : Q s a t := hbreak s a t hs ht (h.2 t ht).head
      exact ⟨hq, ih (hstep s a t hs hq ht) (h.2 t ht)⟩

/-- **Exactly the permitted runs are safe**: with an invariant that gives `P` and that the
steps of `Q` keep, and with every other step breaking `P`, a run is safe all along
precisely when each of its steps is one of `Q`. -/
theorem always_iff_everyStep {I P : σ → Prop} {Q : σ → α → σ → Prop}
    (hIP : ∀ s, I s → P s)
    (hstep : ∀ s a t, I s → Q s a t → step s a = some t → I t)
    (hbreak : ∀ s a t, I s → step s a = some t → P t → Q s a t)
    {s : σ} (hs : I s) (as : List α) : Always step P s as ↔ EveryStep step Q s as :=
  ⟨everyStep_of_always hstep hbreak hs,
    fun h => (always_of_everyStep hstep hs h).mono hIP⟩

end RSDWServerAPI.Transition
