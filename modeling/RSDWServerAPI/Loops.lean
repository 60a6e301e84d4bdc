import Mathlib.Data.List.Basic
import Mathlib.Data.List.ReduceOption
import Mathlib.Logic.Function.Iterate

/-!
# Loops over chains and lists

Three shapes of loop. `chain` has what a walk along links visits that gives up after a number of
steps. A search may give up at one of the elements. `fillSlots` goes through a list once and fills
two slots, of which an element takes the first one it is fit for.

## Main results

* `mem_chain_iff`: a walk visits what can be reached in fewer steps than it takes.
* `findSome?_until`: a search that gives up is one in the elements before that.
* `foldl_or`, `foldl_keepFirst`: a loop that keeps the first thing that it finds is a search.
* `foldl_fillSlots`: **the first slot has the first element that fits it, the second one the first
  that fits of the others**.
-/

namespace RSDWServerAPI.Loops

variable {α : Type*}

/-! ### Chains -/

/-- What is visited in at most so many steps. -/
def chain (next : α → Option α) : ℕ → Option α → List α
  | 0, _ => []
  | _ + 1, none => []
  | n + 1, some a => a :: chain next n (next a)

/-- What is reached after a number of links. -/
def reach (next : α → Option α) (k : ℕ) (start : Option α) : Option α :=
  (fun a => a.bind next)^[k] start

/-- No step leaves the start. -/
@[simp] theorem reach_zero (next : α → Option α) (start : Option α) :
    reach next 0 start = start :=
  rfl

/-- Behind the end there is nothing. -/
theorem reach_none (next : α → Option α) (k : ℕ) : reach next k none = none := by
  induction k with
  | zero => rfl
  | succ k ih =>
      rw [reach, Function.iterate_succ_apply]
      exact ih

/-- The first of the steps is taken from the start. -/
theorem reach_succ (next : α → Option α) (k : ℕ) (a : α) :
    reach next (k + 1) (some a) = reach next k (next a) := by
  rw [reach, Function.iterate_succ_apply]
  rfl

/-- A walk visits what can be reached in fewer steps than it takes. -/
theorem mem_chain_iff {next : α → Option α} {n : ℕ} {start : Option α} {b : α} :
    b ∈ chain next n start ↔ ∃ k < n, reach next k start = some b := by
  induction n generalizing start with
  | zero => simp [chain]
  | succ n ih =>
      cases start with
      | none => simp [chain, reach_none]
      | some a =>
          rw [chain, List.mem_cons, ih]
          constructor
          · rintro (rfl | ⟨k, hk, hreach⟩)
            · exact ⟨0, by omega, rfl⟩
            · exact ⟨k + 1, by omega, by rw [reach_succ, hreach]⟩
          · rintro ⟨k, hk, hreach⟩
            cases k with
            | zero => exact Or.inl (Option.some.inj hreach).symm
            | succ k => exact Or.inr ⟨k, by omega, by rw [← reach_succ, hreach]⟩

/-! ### Searches -/

/-- A search among what is made of the elements. -/
theorem findSome?_bind {β γ : Type*} (f : α → Option β) (g : β → Option γ) (l : List α) :
    (l.findSome? fun a => (f a).bind g) = (l.filterMap f).findSome? g := by
  rw [← List.head?_filterMap, ← List.head?_filterMap, List.filterMap_filterMap]

/-- A search that ends at the first element for which the result is `some none`: it goes on up to
there. -/
theorem findSome?_until {β γ : Type*} (f : α → Option (Option β)) (g : β → Option γ) (l : List α) :
    (l.findSome? fun a => (f a).bind fun b => b.elim (some none) fun b => (g b).map some).join =
      ((l.filterMap f).takeWhile Option.isSome).reduceOption.findSome? g := by
  induction l with
  | nil => rfl
  | cons a l ih =>
      rw [List.findSome?_cons, List.filterMap_cons]
      cases f a with
      | none => exact ih
      | some b =>
          cases b with
          | none => rfl
          | some b =>
              rw [List.takeWhile_cons_of_pos rfl, List.reduceOption_cons_of_some,
                List.findSome?_cons]
              cases hg : g b with
              | none => simpa [hg] using ih
              | some c => simp [hg]

/-- A search that is made step by step: what has been found stays. -/
theorem foldl_or {β : Type*} (f : α → Option β) (found : Option β) (l : List α) :
    l.foldl (fun found a => found.or (f a)) found = found.or (l.findSome? f) := by
  induction l generalizing found with
  | nil => rw [List.foldl_nil, List.findSome?_nil, Option.or_none]
  | cons a l ih =>
      rw [List.foldl_cons, ih, Option.or_assoc, List.findSome?_cons]
      cases f a with
      | none => rfl
      | some b => rfl

/-- A slot that the first element takes that fits; with `empty` in it, it is free. -/
def keepFirst [DecidableEq α] (empty : α) (p : α → Bool) (slot a : α) : α :=
  if slot = empty ∧ p a then a else slot

/-- What the slot has in the end. -/
theorem foldl_keepFirst [DecidableEq α] {empty : α} {p : α → Bool} (l : List α) :
    l.foldl (keepFirst empty p) empty = (l.find? fun a => a ≠ empty ∧ p a).getD empty := by
  have hfull : ∀ (l : List α) (slot : α), slot ≠ empty →
      l.foldl (keepFirst empty p) slot = slot := by
    intro l slot hslot
    induction l with
    | nil => rfl
    | cons a l ih => rw [List.foldl_cons, keepFirst, if_neg fun h => hslot h.1, ih]
  induction l with
  | nil => rfl
  | cons a l ih =>
      rw [List.foldl_cons, keepFirst]
      by_cases hfits : a ≠ empty ∧ p a = true
      · rw [if_pos ⟨rfl, hfits.2⟩, hfull l a hfits.1,
          List.find?_cons_of_pos (by simpa using hfits), Option.getD_some]
      · rw [List.find?_cons_of_neg (by simpa using hfits), ← ih]
        by_cases hp : p a = true
        · rw [if_pos ⟨rfl, hp⟩, not_not.mp fun hne => hfits ⟨hne, hp⟩]
        · rw [if_neg fun h => hp h.2]

/-! ### Two slots -/

/-- The body of the loop. A slot with `empty` in it is free. -/
def fillSlots [DecidableEq α] (empty : α) (p q : α → Bool) (slots : α × α) (a : α) : α × α :=
  if slots.1 = empty ∧ p a then (a, slots.2)
  else if slots.2 = empty ∧ q a then (slots.1, a)
  else slots

variable [DecidableEq α] {empty : α} {p q : α → Bool}

/-- Nothing changes any more when both slots are taken. -/
theorem foldl_fillSlots_full {slots : α × α} (hfirst : slots.1 ≠ empty) (hsecond : slots.2 ≠ empty)
    (l : List α) : l.foldl (fillSlots empty p q) slots = slots := by
  induction l with
  | nil => rfl
  | cons a l ih =>
      rw [List.foldl_cons, fillSlots, if_neg (by simp [hfirst]), if_neg (by simp [hsecond]), ih]

/-- The loop when only the second slot is free. -/
theorem foldl_fillSlots_second {first : α} (hfirst : first ≠ empty) {l : List α}
    (hl : ∀ a ∈ l, a ≠ empty) :
    l.foldl (fillSlots empty p q) (first, empty) = (first, (l.find? q).getD empty) := by
  induction l with
  | nil => rfl
  | cons a l ih =>
      have ha := hl a List.mem_cons_self
      rw [List.foldl_cons, fillSlots, if_neg (by simp [hfirst])]
      by_cases hq : q a = true
      · rw [if_pos ⟨rfl, hq⟩, foldl_fillSlots_full hfirst ha, List.find?_cons_of_pos hq]
        rfl
      · rw [if_neg (by simp [hq]), ih fun b hb => hl b (List.mem_cons_of_mem a hb),
          List.find?_cons_of_neg hq]

/-- The loop when only the first slot is free. -/
theorem foldl_fillSlots_first {second : α} (hsecond : second ≠ empty) {l : List α}
    (hl : ∀ a ∈ l, a ≠ empty) :
    l.foldl (fillSlots empty p q) (empty, second) = ((l.find? p).getD empty, second) := by
  induction l with
  | nil => rfl
  | cons a l ih =>
      have ha := hl a List.mem_cons_self
      rw [List.foldl_cons, fillSlots]
      by_cases hp : p a = true
      · rw [if_pos ⟨rfl, hp⟩, foldl_fillSlots_full ha hsecond, List.find?_cons_of_pos hp]
        rfl
      · rw [if_neg (by simp [hp]), if_neg (by simp [hsecond]),
          ih fun b hb => hl b (List.mem_cons_of_mem a hb), List.find?_cons_of_neg hp]

/-- **What the two slots have in the end**: the first element that fits the first slot, and the
first of the others that fits the second one. -/
theorem foldl_fillSlots {l : List α} (hl : ∀ a ∈ l, a ≠ empty) :
    l.foldl (fillSlots empty p q) (empty, empty) =
      ((l.find? p).getD empty, ((l.eraseP p).find? q).getD empty) := by
  induction l with
  | nil => rfl
  | cons a l ih =>
      have ha := hl a List.mem_cons_self
      have hrest : ∀ b ∈ l, b ≠ empty := fun b hb => hl b (List.mem_cons_of_mem a hb)
      rw [List.foldl_cons, fillSlots]
      by_cases hp : p a = true
      · rw [if_pos ⟨rfl, hp⟩, foldl_fillSlots_second ha hrest, List.find?_cons_of_pos hp,
          List.eraseP_cons_of_pos hp]
        rfl
      · rw [if_neg (by simp [hp]), List.find?_cons_of_neg hp, List.eraseP_cons_of_neg hp]
        by_cases hq : q a = true
        · rw [if_pos ⟨rfl, hq⟩, foldl_fillSlots_first ha hrest, List.find?_cons_of_pos hq]
          rfl
        · rw [if_neg (by simp [hq]), ih hrest, List.find?_cons_of_neg hq]

end RSDWServerAPI.Loops
