import Mathlib.Logic.Function.Basic
import RSDWServerAPI.Bytes

/-!
# `net/access_control.cpp`: who may connect

`IpFilter` lets an address through by a list of networks. `FailureTracker` counts failed logins
per address and blocks an address for a while when there are too many of them. Every call of the
tracker holds its lock and reads the steady clock under it, so that a call is one step at one
time, in nanoseconds; zero is `time_point{}`.

## Main results

* `blockedUntil_recordFailure`: the failure that is one too many blocks the address.
* `BlockedUntil.recordFailure`, `BlockedUntil.recordSuccess`, `BlockedUntil.isBlocked`: **a block
  stays in place until its time**, whatever is recorded or asked.
-/

namespace RSDWServerAPI.AccessControl

/-! ### `IpFilter` -/

/-- `IpFilter::Rule`. -/
structure Rule where
  network : UInt32
  mask : UInt32
  deriving DecidableEq, Repr

/-- `IpFilter::Allows`. -/
def allows (rules : List Rule) (addr : UInt32) : Bool :=
  rules.isEmpty || rules.any fun rule => addr &&& rule.mask == rule.network

/-! ### `FailureTracker` -/

/-- `std::chrono::seconds`, in the nanoseconds of the steady clock. -/
def seconds (n : ℕ) : ℕ :=
  n * 1000000000

/-- `FailureTracker::Entry`. -/
structure Entry where
  failures : ℕ := 0
  windowStart : ℕ := 0
  blockedUntil : ℕ := 0
  deriving DecidableEq, Repr

/-- `FailureTracker`: what `Configure` sets, and the entries. -/
structure FailureTracker where
  maxFailures : ℤ
  windowSeconds : ℕ
  banSeconds : ℕ
  enabled : Bool
  entries : UInt32 → Option Entry := fun _ => none

namespace FailureTracker

/-- `Configure`. -/
def configure (maxFailures windowSeconds banSeconds : Int32) : FailureTracker where
  maxFailures := maxFailures.toInt
  windowSeconds := if 0 < windowSeconds.toInt then windowSeconds.toInt.toNat else 60
  banSeconds := if 0 < banSeconds.toInt then banSeconds.toInt.toNat else 300
  enabled := 0 < maxFailures.toInt

/-- The entry of an address is replaced, or erased. -/
def set (tracker : FailureTracker) (addr : UInt32) (entry : Option Entry) : FailureTracker :=
  { tracker with entries := Function.update tracker.entries addr entry }

/-- `IsBlocked`. -/
def isBlocked (tracker : FailureTracker) (now : ℕ) (addr : UInt32) : Bool × FailureTracker :=
  if !tracker.enabled then (false, tracker)
  else
    match tracker.entries addr with
    | none => (false, tracker)
    | some entry =>
        if now < entry.blockedUntil then (true, tracker)
        else if entry.blockedUntil ≠ 0 then (false, tracker.set addr none)
        else (false, tracker)

/-- `RecordFailure`. -/
def recordFailure (tracker : FailureTracker) (now : ℕ) (addr : UInt32) :
    Bool × FailureTracker :=
  if !tracker.enabled then (false, tracker)
  else
    let entry := (tracker.entries addr).getD {}
    let entry :=
      if entry.failures = 0 ∨ seconds tracker.windowSeconds < now - entry.windowStart then
        { entry with windowStart := now, failures := 0 }
      else entry
    let entry := { entry with failures := entry.failures + 1 }
    if (entry.failures : ℤ) < tracker.maxFailures then (false, tracker.set addr (some entry))
    else
      (true, tracker.set addr
        (some { entry with blockedUntil := now + seconds tracker.banSeconds, failures := 0 }))

/-- `RecordSuccess`. -/
def recordSuccess (tracker : FailureTracker) (now : ℕ) (addr : UInt32) : FailureTracker :=
  if !tracker.enabled then tracker
  else
    match tracker.entries addr with
    | none => tracker
    | some entry => if entry.blockedUntil ≤ now then tracker.set addr none else tracker

/-! ### Blocks -/

/-- The address is blocked at least until a time. -/
def BlockedUntil (tracker : FailureTracker) (addr : UInt32) (t : ℕ) : Prop :=
  tracker.enabled = true ∧ ∃ entry, tracker.entries addr = some entry ∧ t ≤ entry.blockedUntil

variable {tracker : FailureTracker} {now t : ℕ} {addr other : UInt32}

/-- The bans stay as long as `Configure` has set them. -/
theorem banSeconds_recordFailure (tracker : FailureTracker) (now : ℕ) (addr : UInt32) :
    (tracker.recordFailure now addr).2.banSeconds = tracker.banSeconds := by
  rw [recordFailure]
  split_ifs
  · rfl
  · dsimp only
    split_ifs <;> rfl

/-- A login leaves the setting. -/
theorem banSeconds_recordSuccess (tracker : FailureTracker) (now : ℕ) (addr : UInt32) :
    (tracker.recordSuccess now addr).banSeconds = tracker.banSeconds := by
  rw [recordSuccess]
  split_ifs
  · rfl
  · cases tracker.entries addr with
    | none => rfl
    | some entry =>
        dsimp only
        split_ifs <;> rfl

/-- A look at a block leaves the setting. -/
theorem banSeconds_isBlocked (tracker : FailureTracker) (now : ℕ) (addr : UInt32) :
    (tracker.isBlocked now addr).2.banSeconds = tracker.banSeconds := by
  rw [isBlocked]
  split_ifs
  · rfl
  · cases tracker.entries addr with
    | none => rfl
    | some entry =>
        dsimp only
        split_ifs <;> rfl

/-- An entry of another address is left alone. -/
theorem BlockedUntil.set_of_ne (h : tracker.BlockedUntil addr t) (hne : other ≠ addr)
    (entry : Option Entry) : (tracker.set other entry).BlockedUntil addr t := by
  obtain ⟨henabled, e, he, hle⟩ := h
  exact ⟨henabled, e, (Function.update_of_ne hne.symm _ _).trans he, hle⟩

/-- An entry that is replaced blocks as long as it says. -/
theorem blockedUntil_set (henabled : tracker.enabled = true) {entry : Entry}
    (hle : t ≤ entry.blockedUntil) : (tracker.set addr (some entry)).BlockedUntil addr t :=
  ⟨henabled, entry, Function.update_self _ _ _, hle⟩

/-- **The failure that is one too many** blocks the address. -/
theorem blockedUntil_recordFailure (h : (tracker.recordFailure now addr).1 = true) :
    (tracker.recordFailure now addr).2.BlockedUntil addr (now + seconds tracker.banSeconds) := by
  rw [recordFailure] at h ⊢
  split_ifs at h ⊢ with henabled
  · dsimp only at h ⊢
    split_ifs at h ⊢
    all_goals exact blockedUntil_set (by simpa using henabled) le_rfl

/-- **No failure shortens a block** that is not longer than a new one. -/
theorem BlockedUntil.recordFailure (h : tracker.BlockedUntil addr t)
    (ht : t ≤ now + seconds tracker.banSeconds) (other : UInt32) :
    (tracker.recordFailure now other).2.BlockedUntil addr t := by
  obtain ⟨henabled, e, he, hle⟩ := h
  rw [FailureTracker.recordFailure, if_neg (by simp [henabled])]
  by_cases hne : other = addr
  · subst hne
    rw [he, Option.getD_some]
    dsimp only
    split_ifs
    all_goals first
      | exact blockedUntil_set henabled hle
      | exact blockedUntil_set henabled ht
  · dsimp only
    split_ifs
    all_goals exact BlockedUntil.set_of_ne ⟨henabled, e, he, hle⟩ hne _

/-- **No success lifts a block** before its time. -/
theorem BlockedUntil.recordSuccess (h : tracker.BlockedUntil addr t) (hnow : now < t)
    (other : UInt32) : (tracker.recordSuccess now other).BlockedUntil addr t := by
  have hblocked := h
  obtain ⟨henabled, e, he, hle⟩ := h
  rw [FailureTracker.recordSuccess, if_neg (by simp [henabled])]
  by_cases hne : other = addr
  · subst hne
    rw [he]
    dsimp only
    rw [if_neg (by omega)]
    exact hblocked
  · cases tracker.entries other with
    | none => exact hblocked
    | some entry =>
        dsimp only
        split_ifs
        · exact hblocked.set_of_ne hne none
        · exact hblocked

/-- **No question lifts a block** before its time, and for the address itself the answer is
yes. -/
theorem BlockedUntil.isBlocked (h : tracker.BlockedUntil addr t) (hnow : now < t)
    (other : UInt32) :
    (tracker.isBlocked now other).2.BlockedUntil addr t ∧
      (other = addr → (tracker.isBlocked now other).1 = true) := by
  have hblocked := h
  obtain ⟨henabled, e, he, hle⟩ := h
  rw [FailureTracker.isBlocked, if_neg (by simp [henabled])]
  by_cases hne : other = addr
  · subst hne
    rw [he]
    dsimp only
    rw [if_pos (by omega)]
    exact ⟨hblocked, fun _ => rfl⟩
  · refine ⟨?_, fun h => absurd h hne⟩
    cases tracker.entries other with
    | none => exact hblocked
    | some entry =>
        dsimp only
        split_ifs
        · exact hblocked
        · exact hblocked.set_of_ne hne none
        · exact hblocked

end FailureTracker

end RSDWServerAPI.AccessControl
