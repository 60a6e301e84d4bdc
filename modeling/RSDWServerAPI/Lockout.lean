import RSDWServerAPI.AccessControl
import RSDWServerAPI.Transition

/-!
# `net/access_control.cpp`: failed logins over time

`FailureTracker` is called by many connections, each call at its own time. A run is a list of
calls whose times do not go back; beside the tracker the state keeps a log of the calls and their
answers, the latest first, which no call looks at.

A *burst* is as many failures of one address as are too many, none of them further back than the
window. README promises a block for every burst. The tracker keeps one counter and the start of
one window for an address: a failure outside the window opens a new one and forgets the failures
of the old one, however recent, and so does a block.

## Main results

* `sound_of_exec`: **a block is asked for and found exactly as long as it lasts**, each block is
  made by a burst, and the calls of one address do not touch another one.
* `always_caught_iff`: **every burst is blocked exactly in the runs in which each burst finds its
  failures counted**: the one window that is open holds all of them, or the address is blocked that
  long already.
-/

namespace RSDWServerAPI.AccessControl.Lockout

open Transition FailureTracker

/-! ### Runs -/

/-- Which function of the tracker is called. -/
inductive Kind
  | isBlocked
  | recordFailure
  | recordSuccess
  deriving DecidableEq, Repr

/-- A call: when it reads the clock, and for which address. -/
structure Call where
  kind : Kind
  time : ℕ
  addr : UInt32
  deriving DecidableEq, Repr

/-- A call that was made, with its answer, and whether it erased the entry of the address. -/
structure Event extends Call where
  answer : Bool
  cleared : Bool
  deriving DecidableEq, Repr

/-- The tracker, the time of the last call, and the log of all calls, the latest first. -/
structure Tracked where
  tracker : FailureTracker
  now : ℕ := 0
  log : List Event := []

/-- What a call answers and does; `RecordSuccess` answers nothing. -/
def perform (tracker : FailureTracker) (call : Call) : Bool × FailureTracker :=
  match call.kind with
  | .isBlocked => tracker.isBlocked call.time call.addr
  | .recordFailure => tracker.recordFailure call.time call.addr
  | .recordSuccess => (false, tracker.recordSuccess call.time call.addr)

/-- The event of a call. -/
def eventOf (tracker : FailureTracker) (call : Call) : Event where
  toCall := call
  answer := (perform tracker call).1
  cleared := (tracker.entries call.addr).isSome &&
    ((perform tracker call).2.entries call.addr).isNone

/-- One call; the clock does not go back. -/
def step (s : Tracked) (call : Call) : Option Tracked :=
  if call.time < s.now then none
  else some ⟨(perform s.tracker call).2, call.time, eventOf s.tracker call :: s.log⟩

/-- The state after `Configure`. -/
def start (maxFailures windowSeconds banSeconds : Int32) : Tracked where
  tracker := configure maxFailures windowSeconds banSeconds

/-! ### What a log says -/

/-- The event is a failure of the address. -/
def Event.isFailure (event : Event) (addr : UInt32) : Bool :=
  event.kind = .recordFailure ∧ event.addr = addr

/-- The event is a failure of the address that was one too many. -/
def Event.Blocks (event : Event) (addr : UInt32) : Prop :=
  event.isFailure addr = true ∧ event.answer = true

/-- A failure completes a burst: with it, the last part of the log has as many failures of the
address as are too many, none further back than the window, and nothing in between that breaks the
series. -/
def Burst (maxFailures : ℤ) (windowSeconds : ℕ) (breaks : Event → Prop) (earlier : List Event)
    (call : Call) : Prop :=
  ∃ recent older, earlier = recent ++ older ∧
    (∀ event ∈ recent, event.isFailure call.addr = true →
      call.time ≤ event.time + seconds windowSeconds) ∧
    (∀ event ∈ recent, event.addr = call.addr → ¬ breaks event) ∧
    maxFailures ≤ recent.countP (fun event => event.isFailure call.addr) + 1

/-- `RecordSuccess`. -/
def Event.IsSuccess (event : Event) : Prop :=
  event.kind = .recordSuccess

instance : DecidablePred Event.IsSuccess :=
  fun event => inferInstanceAs (Decidable (event.kind = .recordSuccess))

/-- A `RecordSuccess` that erased the entry. -/
def Event.IsClearing (event : Event) : Prop :=
  event.kind = .recordSuccess ∧ event.cleared = true

/-- **Blocks are sound**: an address is blocked exactly as long as a failure that was one too many
says, and such a failure completes a burst. -/
structure Sound (settings : FailureTracker) (log : List Event) : Prop where
  isBlocked_iff : ∀ later event earlier, log = later ++ event :: earlier →
    event.kind = .isBlocked → (event.answer = true ↔ ∃ failure ∈ earlier,
      failure.Blocks event.addr ∧ event.time < failure.time + seconds settings.banSeconds)
  burst : ∀ later event earlier, log = later ++ event :: earlier →
    event.kind = .recordFailure → event.answer = true →
      Burst settings.maxFailures settings.windowSeconds Event.IsClearing earlier event.toCall

/-- **Every burst is caught**: from the failure that completes it the address is blocked as long
as blocks last. -/
def Caught (settings : FailureTracker) (s : Tracked) : Prop :=
  ∀ later event earlier, s.log = later ++ event :: earlier → event.kind = .recordFailure →
    Burst settings.maxFailures settings.windowSeconds Event.IsSuccess earlier event.toCall →
    ∀ t, s.now ≤ t → t < event.time + seconds settings.banSeconds →
      (s.tracker.isBlocked t event.addr).1 = true

/-- The entry of an address, an empty one if it has none. -/
def entryOf (tracker : FailureTracker) (addr : UInt32) : Entry :=
  (tracker.entries addr).getD {}

/-- The failures of an address that the window counts which is open at a time. -/
def openCount (tracker : FailureTracker) (now : ℕ) (addr : UInt32) : ℕ :=
  if (entryOf tracker addr).failures = 0 ∨
      seconds tracker.windowSeconds < now - (entryOf tracker addr).windowStart then 0
  else (entryOf tracker addr).failures

/-- A failure that completes a burst finds the others counted, or the address blocked as long as
the failure could block it. -/
def Counted (settings : FailureTracker) (s : Tracked) (call : Call) : Prop :=
  call.kind = .recordFailure →
    Burst settings.maxFailures settings.windowSeconds Event.IsSuccess s.log call →
    settings.maxFailures ≤ openCount s.tracker call.time call.addr + 1 ∨
      s.tracker.BlockedUntil call.addr (call.time + seconds settings.banSeconds)

/-! ### One call -/

variable {tracker settings : FailureTracker} {addr : UInt32} {now t : ℕ} {call : Call}
  {s s' : Tracked} {event : Event} {log : List Event}

/-- The entry as `RecordFailure` counts into it: the window is opened anew when nothing is counted
or it is over. -/
def opened (tracker : FailureTracker) (now : ℕ) (addr : UInt32) : Entry :=
  if (entryOf tracker addr).failures = 0 ∨
      seconds tracker.windowSeconds < now - (entryOf tracker addr).windowStart then
    { entryOf tracker addr with windowStart := now, failures := 0 }
  else entryOf tracker addr

/-- **What a failure does.** -/
theorem recordFailure_eq (henabled : tracker.enabled = true) (now : ℕ) (addr : UInt32) :
    tracker.recordFailure now addr =
      if ((opened tracker now addr).failures + 1 : ℤ) < tracker.maxFailures then
        (false, tracker.set addr (some { opened tracker now addr with
          failures := (opened tracker now addr).failures + 1 }))
      else
        (true, tracker.set addr (some { opened tracker now addr with
          blockedUntil := now + seconds tracker.banSeconds, failures := 0 })) := by
  rw [recordFailure, if_neg (by simp [henabled])]
  dsimp only [opened, entryOf]
  rw [Nat.cast_succ]
  rfl

/-- The count of the entry that a call opens. -/
theorem opened_failures (tracker : FailureTracker) (now : ℕ) (addr : UInt32) :
    (opened tracker now addr).failures = openCount tracker now addr := by
  rw [opened, openCount]
  split_ifs <;> rfl

/-- A call that opens an entry leaves its block. -/
theorem opened_blockedUntil (tracker : FailureTracker) (now : ℕ) (addr : UInt32) :
    (opened tracker now addr).blockedUntil = (entryOf tracker addr).blockedUntil := by
  rw [opened]
  split_ifs <;> rfl

/-- A call of `IsBlocked` is that function. -/
theorem perform_isBlocked (tracker : FailureTracker) (hkind : call.kind = .isBlocked) :
    perform tracker call = tracker.isBlocked call.time call.addr := by
  rw [perform, hkind]

/-- A call of `RecordFailure` is that function. -/
theorem perform_recordFailure (tracker : FailureTracker) (hkind : call.kind = .recordFailure) :
    perform tracker call = tracker.recordFailure call.time call.addr := by
  rw [perform, hkind]

/-- A call that records no failure leaves the tracker alone, or erases the entry of an address
that is not blocked. -/
theorem perform_snd_of_ne (tracker : FailureTracker) (hkind : call.kind ≠ .recordFailure) :
    (perform tracker call).2 = tracker ∨
      (perform tracker call).2 = tracker.set call.addr none ∧
        (entryOf tracker call.addr).blockedUntil ≤ call.time := by
  cases hcall : call.kind with
  | isBlocked =>
      simp only [perform, hcall, isBlocked, entryOf]
      split_ifs
      · exact .inl rfl
      · cases tracker.entries call.addr with
        | none => exact .inl rfl
        | some entry =>
            dsimp only
            split_ifs with hblocked
            · exact .inl rfl
            · exact .inr ⟨rfl, not_lt.mp hblocked⟩
            · exact .inl rfl
  | recordFailure => exact absurd hcall hkind
  | recordSuccess =>
      simp only [perform, hcall, recordSuccess, entryOf]
      split_ifs
      · exact .inl rfl
      · cases tracker.entries call.addr with
        | none => exact .inl rfl
        | some entry =>
            dsimp only
            split_ifs with hfree
            · exact .inr ⟨rfl, hfree⟩
            · exact .inl rfl

/-- A call replaces or erases the entry of its address, or does nothing. -/
theorem perform_snd (tracker : FailureTracker) (call : Call) :
    (perform tracker call).2 = tracker ∨
      ∃ entry, (perform tracker call).2 = tracker.set call.addr entry := by
  by_cases hkind : call.kind = .recordFailure
  · simp only [perform, hkind, recordFailure]
    split_ifs
    · exact .inl rfl
    all_goals exact .inr ⟨_, rfl⟩
  · exact (perform_snd_of_ne tracker hkind).imp_right fun h => ⟨none, h.1⟩

/-- The tracker is set as it was configured. -/
def SetAs (tracker settings : FailureTracker) : Prop :=
  tracker = { settings with entries := tracker.entries }

/-- A call leaves the settings alone. -/
theorem SetAs.perform (h : SetAs tracker settings) (call : Call) :
    SetAs (perform tracker call).2 settings := by
  rcases perform_snd tracker call with hsame | ⟨entry, hset⟩
  · rwa [hsame]
  · rw [hset, SetAs, FailureTracker.set, h]

/-- A call leaves the entries of the other addresses alone. -/
theorem entries_perform_of_ne (tracker : FailureTracker) (hne : addr ≠ call.addr) :
    (perform tracker call).2.entries addr = tracker.entries addr := by
  rcases perform_snd tracker call with hsame | ⟨entry, hset⟩
  · rw [hsame]
  · rw [hset]
    exact Function.update_of_ne hne _ _

/-- A step makes the call and logs it. -/
theorem step_eq_some (h : step s call = some s') :
    s.now ≤ call.time ∧
      s' = ⟨(perform s.tracker call).2, call.time, eventOf s.tracker call :: s.log⟩ := by
  rw [step] at h
  split_ifs at h with htime
  exact ⟨not_lt.mp htime, (Option.some.inj h).symm⟩

/-- A question about a block is answered by the entry. -/
theorem isBlocked_fst (henabled : tracker.enabled = true) (now : ℕ) (addr : UInt32) :
    (tracker.isBlocked now addr).1 = true ↔ now < (entryOf tracker addr).blockedUntil := by
  rw [isBlocked, if_neg (by simp [henabled]), entryOf]
  cases tracker.entries addr with
  | none => simp
  | some entry =>
      dsimp only [Option.getD_some]
      split_ifs with h <;> simp [h]

/-! ### Blocks are sound -/

/-- The entry of an address says what the log says: how long it is blocked, and that its counter
counts failures since the window was opened, with nothing erased in between. -/
structure Tracks (settings : FailureTracker) (s : Tracked) (addr : UInt32) : Prop where
  of_blockedUntil : (entryOf s.tracker addr).blockedUntil ≠ 0 → ∃ event ∈ s.log,
    event.Blocks addr ∧
      (entryOf s.tracker addr).blockedUntil = event.time + seconds settings.banSeconds
  of_blocks : ∀ event ∈ s.log, event.Blocks addr →
    event.time + seconds settings.banSeconds ≤ s.now ∨
      event.time + seconds settings.banSeconds ≤ (entryOf s.tracker addr).blockedUntil
  time_le : ∀ event ∈ s.log, event.time ≤ s.now
  windowStart_le : (entryOf s.tracker addr).windowStart ≤ s.now
  counted : ∃ recent older, s.log = recent ++ older ∧
    (∀ event ∈ recent, event.isFailure addr = true →
      (entryOf s.tracker addr).windowStart ≤ event.time) ∧
    (∀ event ∈ recent, event.addr = addr → ¬ event.IsClearing) ∧
    (entryOf s.tracker addr).failures ≤ recent.countP fun event => event.isFailure addr

/-- An entry that is set is found. -/
theorem entries_set_self (tracker : FailureTracker) (addr : UInt32) (entry : Option Entry) :
    (tracker.set addr entry).entries addr = entry :=
  Function.update_self _ _ _

/-- An entry that is set is the one of its address. -/
theorem entryOf_set_some (tracker : FailureTracker) (addr : UInt32) (entry : Entry) :
    entryOf (tracker.set addr (some entry)) addr = entry := by
  rw [entryOf, entries_set_self, Option.getD_some]

/-- With one more event the log does not run ahead of the clock. -/
theorem Tracks.time_cons_le (h : Tracks settings s addr) (htime : s.now ≤ event.time) :
    ∀ earlier ∈ event :: s.log, earlier.time ≤ event.time := by
  intro earlier hmem
  rcases List.mem_cons.mp hmem with rfl | hmem
  · exact le_rfl
  · exact (h.time_le earlier hmem).trans htime

/-- A call that leaves the entry of the address as it is, and is no failure of it. -/
theorem Tracks.keep (h : Tracks settings s addr) {tracker' : FailureTracker} (event : Event)
    (htime : s.now ≤ event.time) (hentry : entryOf tracker' addr = entryOf s.tracker addr)
    (hfailure : event.isFailure addr = false) (hclear : event.addr = addr → ¬ event.IsClearing) :
    Tracks settings ⟨tracker', event.time, event :: s.log⟩ addr := by
  obtain ⟨recent, older, hlog, hstart, hbreaks, hcount⟩ := h.counted
  refine ⟨fun hne => ?_, fun failure hmem hblocks => ?_, h.time_cons_le htime, ?_,
    event :: recent, older, ?_, ?_, ?_, ?_⟩
  · rw [hentry] at hne ⊢
    obtain ⟨failure, hmem, hrest⟩ := h.of_blockedUntil hne
    exact ⟨failure, List.mem_cons_of_mem _ hmem, hrest⟩
  · rw [hentry]
    rcases List.mem_cons.mp hmem with rfl | hmem
    · rw [Event.Blocks, hfailure] at hblocks
      exact absurd hblocks.1 Bool.false_ne_true
    · exact (h.of_blocks failure hmem hblocks).imp_left fun hle => hle.trans htime
  · rw [hentry]
    exact h.windowStart_le.trans htime
  · rw [hlog, List.cons_append]
  · rw [hentry]
    intro failure hmem hfail
    rcases List.mem_cons.mp hmem with rfl | hmem
    · rw [hfailure] at hfail
      cases hfail
    · exact hstart failure hmem hfail
  · intro other hmem haddr
    rcases List.mem_cons.mp hmem with rfl | hmem
    · exact hclear haddr
    · exact hbreaks other hmem haddr
  · rw [hentry, List.countP_cons, hfailure]
    exact hcount

/-- A call that erases the entry of the address, whose block is over. -/
theorem Tracks.erase (h : Tracks settings s addr) {tracker' : FailureTracker}
    (htime : s.now ≤ event.time) (hentry : entryOf tracker' addr = {})
    (hfree : (entryOf s.tracker addr).blockedUntil ≤ event.time)
    (hfailure : event.isFailure addr = false) :
    Tracks settings ⟨tracker', event.time, event :: s.log⟩ addr := by
  refine ⟨fun hne => absurd (by rw [hentry]) hne, fun failure hmem hblocks => .inl ?_,
    h.time_cons_le htime, ?_, [], event :: s.log, rfl, (fun _ h => nomatch h),
    (fun _ h => nomatch h), ?_⟩
  · rcases List.mem_cons.mp hmem with rfl | hmem
    · rw [Event.Blocks, hfailure] at hblocks
      exact absurd hblocks.1 Bool.false_ne_true
    · rcases h.of_blocks failure hmem hblocks with hle | hle
      · exact hle.trans htime
      · exact hle.trans hfree
  · rw [hentry]
    exact Nat.zero_le _
  · rw [hentry]
    exact Nat.zero_le _

/-- The window into which a failure is counted holds the failures that are counted in it. -/
theorem Tracks.opened (h : Tracks settings s addr) (hset : SetAs s.tracker settings)
    (htime : s.now ≤ now) :
    (opened s.tracker now addr).windowStart ≤ now ∧ ∃ recent older, s.log = recent ++ older ∧
      (∀ event ∈ recent, event.isFailure addr = true →
        (opened s.tracker now addr).windowStart ≤ event.time ∧
          now ≤ event.time + seconds settings.windowSeconds) ∧
      (∀ event ∈ recent, event.addr = addr → ¬ event.IsClearing) ∧
      (opened s.tracker now addr).failures ≤
        recent.countP fun event => event.isFailure addr := by
  have hwindow : s.tracker.windowSeconds = settings.windowSeconds := by rw [hset]
  rw [Lockout.opened]
  split_ifs with hfresh
  · exact ⟨le_rfl, [], s.log, rfl, (fun _ h => nomatch h), (fun _ h => nomatch h),
      Nat.zero_le _⟩
  · obtain ⟨recent, older, hlog, hstart, hbreaks, hcount⟩ := h.counted
    refine ⟨h.windowStart_le.trans htime, recent, older, hlog, fun event hmem hfail => ?_, hbreaks,
      hcount⟩
    have := hstart event hmem hfail
    rw [hwindow] at hfresh
    exact ⟨this, by omega⟩

/-- A failure of the address itself that is counted, and is not yet too many. -/
theorem Tracks.count (h : Tracks settings s addr) (event : Event) (hset : SetAs s.tracker settings)
    (htime : s.now ≤ event.time) (haddr : event.addr = addr) (hkind : event.kind = .recordFailure)
    (hanswer : event.answer = false) :
    Tracks settings ⟨s.tracker.set addr (some { Lockout.opened s.tracker event.time addr with
      failures := (Lockout.opened s.tracker event.time addr).failures + 1 }),
      event.time, event :: s.log⟩ addr := by
  have hfailure : event.isFailure addr = true := decide_eq_true ⟨hkind, haddr⟩
  obtain ⟨hopen, recent, older, hlog, hstart, hbreaks, hcount⟩ := h.opened hset htime
  have hblocked := opened_blockedUntil s.tracker event.time addr
  have hentry := entryOf_set_some s.tracker addr { Lockout.opened s.tracker event.time addr with
    failures := (Lockout.opened s.tracker event.time addr).failures + 1 }
  refine ⟨fun hne => ?_, fun failure hmem hblocks => ?_, h.time_cons_le htime, ?_,
    event :: recent, older, ?_, ?_, ?_, ?_⟩
  · rw [hentry] at hne ⊢
    dsimp only at hne ⊢
    rw [hblocked] at hne ⊢
    obtain ⟨failure, hmem, hrest⟩ := h.of_blockedUntil hne
    exact ⟨failure, List.mem_cons_of_mem _ hmem, hrest⟩
  · rw [hentry]
    dsimp only
    rw [hblocked]
    rcases List.mem_cons.mp hmem with rfl | hmem
    · rw [Event.Blocks, hanswer] at hblocks
      exact absurd hblocks.2 Bool.false_ne_true
    · exact (h.of_blocks failure hmem hblocks).imp_left fun hle => hle.trans htime
  · rw [hentry]
    exact hopen
  · rw [hlog, List.cons_append]
  · rw [hentry]
    intro failure hmem hfail
    rcases List.mem_cons.mp hmem with rfl | hmem
    · exact hopen
    · exact (hstart failure hmem hfail).1
  · intro other hmem hother
    rcases List.mem_cons.mp hmem with rfl | hmem
    · intro hclear
      rw [Event.IsClearing, hkind] at hclear
      cases hclear.1
    · exact hbreaks other hmem hother
  · rw [hentry, List.countP_cons, if_pos hfailure]
    exact Nat.succ_le_succ hcount

/-- A failure of the address itself that is one too many: the counter starts again, and the
address is blocked. -/
theorem Tracks.block (h : Tracks settings s addr) (event : Event) (hset : SetAs s.tracker settings)
    (htime : s.now ≤ event.time) (haddr : event.addr = addr) (hkind : event.kind = .recordFailure)
    (hanswer : event.answer = true) :
    Tracks settings ⟨s.tracker.set addr (some { Lockout.opened s.tracker event.time addr with
      blockedUntil := event.time + seconds settings.banSeconds, failures := 0 }),
      event.time, event :: s.log⟩ addr := by
  have hfailure : event.isFailure addr = true := decide_eq_true ⟨hkind, haddr⟩
  have hopen := (h.opened hset htime).1
  have hentry := entryOf_set_some s.tracker addr { Lockout.opened s.tracker event.time addr with
    blockedUntil := event.time + seconds settings.banSeconds, failures := 0 }
  refine ⟨fun _ => ?_, fun failure hmem hblocks => .inr ?_, h.time_cons_le htime, ?_,
    [], event :: s.log, rfl, (fun _ h => nomatch h), (fun _ h => nomatch h), ?_⟩
  · rw [hentry]
    exact ⟨event, List.mem_cons_self, ⟨hfailure, hanswer⟩, rfl⟩
  · rw [hentry]
    exact Nat.add_le_add_right (h.time_cons_le htime failure hmem) _
  · rw [hentry]
    exact hopen
  · rw [hentry]
    exact Nat.zero_le _

/-- A failure of the address itself. -/
theorem Tracks.recordFailure (h : Tracks settings s addr) (event : Event)
    (hset : SetAs s.tracker settings) (henabled : s.tracker.enabled = true)
    (htime : s.now ≤ event.time) (haddr : event.addr = addr) (hkind : event.kind = .recordFailure)
    (hanswer : event.answer = (s.tracker.recordFailure event.time addr).1) :
    Tracks settings ⟨(s.tracker.recordFailure event.time addr).2, event.time, event :: s.log⟩
        addr ∧
      (event.answer = true →
        Burst settings.maxFailures settings.windowSeconds Event.IsClearing s.log event.toCall) := by
  have hmax : s.tracker.maxFailures = settings.maxFailures := by rw [hset]
  have hban : s.tracker.banSeconds = settings.banSeconds := by rw [hset]
  rw [recordFailure_eq henabled, hmax, hban] at hanswer ⊢
  split_ifs at hanswer ⊢ with hfew
  · refine ⟨h.count event hset htime haddr hkind hanswer, fun htrue => ?_⟩
    rw [hanswer] at htrue
    cases htrue
  · refine ⟨h.block event hset htime haddr hkind hanswer, fun _ => ?_⟩
    obtain ⟨-, recent, older, hlog, hstart, hbreaks, hcount⟩ := h.opened hset htime
    subst haddr
    exact ⟨recent, older, hlog, fun event hmem hfail => (hstart event hmem hfail).2, hbreaks,
      by omega⟩

/-- **Step lemma**: a call keeps the entry of every address in step with the log. -/
theorem Tracks.step (h : Tracks settings s addr) (hset : SetAs s.tracker settings)
    (henabled : s.tracker.enabled = true) (hstep : Lockout.step s call = some s') :
    Tracks settings s' addr := by
  obtain ⟨htime, rfl⟩ := step_eq_some hstep
  by_cases haddr : call.addr = addr
  · subst haddr
    by_cases hkind : call.kind = .recordFailure
    · have hperform := perform_recordFailure s.tracker hkind
      have htracks := (h.recordFailure (eventOf s.tracker call) hset henabled htime rfl hkind
        (congrArg Prod.fst hperform)).1
      rwa [hperform]
    · have hfailure : (eventOf s.tracker call).isFailure call.addr = false :=
        decide_eq_false fun hfail => hkind hfail.1
      rcases perform_snd_of_ne s.tracker hkind with hsame | ⟨herase, hfree⟩
      · refine h.keep (eventOf s.tracker call) htime (by rw [hsame]) hfailure fun _ hclear => ?_
        have hcleared := hclear.2
        rw [eventOf, hsame] at hcleared
        cases hentry : s.tracker.entries call.addr <;> simp [hentry] at hcleared
      · refine h.erase htime ?_ hfree hfailure
        rw [herase, entryOf, entries_set_self, Option.getD_none]
  · refine h.keep (eventOf s.tracker call) htime ?_
      (decide_eq_false fun hfail => haddr hfail.2) fun heq => absurd heq haddr
    rw [entryOf, entries_perform_of_ne s.tracker (Ne.symm haddr), entryOf]

/-- **Step lemma**: one more answer is sound. -/
theorem Sound.step (hsound : Sound settings s.log) (h : ∀ addr, Tracks settings s addr)
    (hset : SetAs s.tracker settings) (henabled : s.tracker.enabled = true)
    (hstep : Lockout.step s call = some s') : Sound settings s'.log := by
  obtain ⟨htime, rfl⟩ := step_eq_some hstep
  refine ⟨fun later event earlier hlog hkind => ?_, fun later event earlier hlog hkind htrue => ?_⟩
  · rcases List.cons_eq_append_iff.mp hlog with ⟨rfl, hcons⟩ | ⟨later, rfl, hrest⟩
    · obtain ⟨rfl, rfl⟩ := List.cons.inj hcons
      have hanswer : (eventOf s.tracker call).answer =
          (s.tracker.isBlocked call.time call.addr).1 :=
        congrArg Prod.fst (perform_isBlocked s.tracker hkind)
      rw [hanswer, isBlocked_fst henabled]
      constructor
      · intro hlt
        obtain ⟨failure, hmem, hblocks, heq⟩ := (h call.addr).of_blockedUntil (by omega)
        exact ⟨failure, hmem, hblocks, heq ▸ hlt⟩
      · rintro ⟨failure, hmem, hblocks, hlt⟩
        rcases (h call.addr).of_blocks failure hmem hblocks with hle | hle
        · exact absurd (hle.trans htime) (not_le.mpr hlt)
        · exact hlt.trans_le hle
    · exact hsound.isBlocked_iff later event earlier hrest hkind
  · rcases List.cons_eq_append_iff.mp hlog with ⟨rfl, hcons⟩ | ⟨later, rfl, hrest⟩
    · obtain ⟨rfl, rfl⟩ := List.cons.inj hcons
      have hperform : perform s.tracker call = _ := perform_recordFailure s.tracker hkind
      exact ((h call.addr).recordFailure (eventOf s.tracker call) hset henabled htime rfl hkind
        (congrArg Prod.fst hperform)).2 htrue
    · exact hsound.burst later event earlier hrest hkind htrue

/-! ### Other addresses -/

/-- A call looks at the settings and at the entry of its address only. -/
theorem perform_congr {tracker' : FailureTracker} (hset : SetAs tracker settings)
    (hset' : SetAs tracker' settings)
    (hentry : tracker.entries call.addr = tracker'.entries call.addr) :
    (perform tracker call).1 = (perform tracker' call).1 ∧
      (perform tracker call).2.entries call.addr = (perform tracker' call).2.entries call.addr := by
  rw [hset, hset']
  cases hkind : call.kind with
  | isBlocked =>
      simp only [perform, hkind, isBlocked, hentry]
      split_ifs
      · exact ⟨rfl, hentry⟩
      · cases hsome : tracker'.entries call.addr with
        | none => exact ⟨rfl, hentry⟩
        | some entry =>
            dsimp only
            split_ifs
            · exact ⟨rfl, hentry⟩
            · simp [FailureTracker.set]
            · exact ⟨rfl, hentry⟩
  | recordFailure =>
      simp only [perform, hkind, recordFailure, hentry]
      split_ifs
      · exact ⟨rfl, hentry⟩
      all_goals simp [FailureTracker.set]
  | recordSuccess =>
      simp only [perform, hkind, recordSuccess, hentry]
      split_ifs
      · exact ⟨trivial, hentry⟩
      · cases hsome : tracker'.entries call.addr with
        | none => exact ⟨trivial, hentry⟩
        | some entry =>
            dsimp only
            split_ifs
            · simp [FailureTracker.set]
            · exact ⟨trivial, hentry⟩

/-- The calls of one address, made alone, are answered as they are among the others. -/
theorem exec_filter {alone : Tracked} (hset : SetAs s.tracker settings)
    (hset' : SetAs alone.tracker settings) (addr : UInt32)
    (hentry : s.tracker.entries addr = alone.tracker.entries addr) (hnow : alone.now ≤ s.now)
    (hlog : alone.log = s.log.filter fun event => event.addr = addr) {calls : List Call}
    (h : exec step s calls = some s') :
    ∃ alone', exec step alone (calls.filter fun call => call.addr = addr) = some alone' ∧
      alone'.log = s'.log.filter fun event => event.addr = addr := by
  induction calls generalizing s alone with
  | nil =>
      obtain rfl : s = s' := Option.some.inj h
      exact ⟨alone, rfl, hlog⟩
  | cons call calls ih =>
      obtain ⟨t, ht, hrest⟩ := Option.bind_eq_some_iff.mp h
      obtain ⟨htime, rfl⟩ := step_eq_some ht
      rw [List.filter_cons]
      by_cases haddr : call.addr = addr
      · subst haddr
        obtain ⟨hanswer, hafter⟩ := perform_congr hset hset' hentry
        have hstep : step alone call = some ⟨(perform alone.tracker call).2, call.time,
            eventOf alone.tracker call :: alone.log⟩ := by
          rw [step, if_neg (not_lt.mpr (hnow.trans htime))]
        rw [if_pos (decide_eq_true rfl), exec, hstep]
        refine ih (s := ⟨(perform s.tracker call).2, call.time, eventOf s.tracker call :: s.log⟩)
          (hset.perform call) (hset'.perform call) hafter le_rfl ?_ hrest
        simp [hlog, eventOf, hanswer, hafter, hentry]
      · rw [if_neg (by simpa using haddr)]
        refine ih (hset.perform call) hset' ?_ (hnow.trans htime) ?_ hrest
        · rw [entries_perform_of_ne s.tracker (Ne.symm haddr), hentry]
        · simp [hlog, eventOf, haddr]

/-! ### Every run -/

/-- A run of a tracker that is on: the settings stay, and the log and the entries agree. -/
structure Running (settings : FailureTracker) (s : Tracked) : Prop where
  enabled : settings.enabled = true
  setAs : SetAs s.tracker settings
  tracks : ∀ addr, Tracks settings s addr
  sound : Sound settings s.log

/-- The tracker is on while it runs. -/
theorem Running.tracker_enabled (h : Running settings s) : s.tracker.enabled = true := by
  rw [h.setAs]
  exact h.enabled

/-- **Step lemma.** -/
theorem Running.step (h : Running settings s) (hstep : Lockout.step s call = some s') :
    Running settings s' := by
  refine ⟨h.enabled, ?_, fun addr => (h.tracks addr).step h.setAs h.tracker_enabled hstep,
    h.sound.step h.tracks h.setAs h.tracker_enabled hstep⟩
  obtain ⟨-, rfl⟩ := step_eq_some hstep
  exact h.setAs.perform call

/-- A tracker that has just been configured. -/
theorem running_start {maxFailures : Int32} (hmax : 0 < maxFailures.toInt)
    (windowSeconds banSeconds : Int32) :
    Running (configure maxFailures windowSeconds banSeconds)
      (start maxFailures windowSeconds banSeconds) where
  enabled := decide_eq_true hmax
  setAs := rfl
  tracks _ :=
    { of_blockedUntil := fun h => absurd rfl h
      of_blocks := fun _ h => nomatch h
      time_le := fun _ h => nomatch h
      windowStart_le := le_rfl
      counted := ⟨[], [], rfl, (fun _ h => nomatch h), (fun _ h => nomatch h), le_rfl⟩ }
  sound := ⟨fun _ _ _ h => by simp [start] at h, fun _ _ _ h => by simp [start] at h⟩

/-- **Blocks are sound, and each address is on its own**: in every run an address is found blocked
exactly as long as a failure that was one too many says, such a failure completes a burst, and the
calls for an address are answered as they would be without the others. -/
theorem sound_of_exec {maxFailures windowSeconds banSeconds : Int32}
    (hmax : 0 < maxFailures.toInt) {calls : List Call} {s : Tracked}
    (h : exec step (start maxFailures windowSeconds banSeconds) calls = some s) :
    Sound (configure maxFailures windowSeconds banSeconds) s.log ∧
      ∀ addr, ∃ alone,
        exec step (start maxFailures windowSeconds banSeconds)
          (calls.filter fun call => call.addr = addr) = some alone ∧
        alone.log = s.log.filter fun event => event.addr = addr := by
  have hrunning := running_start hmax windowSeconds banSeconds
  exact ⟨(invariant_of_exec (fun _ _ _ hs => hs.step) hrunning h).sound,
    fun addr => exec_filter hrunning.setAs hrunning.setAs addr rfl le_rfl rfl h⟩

/-- Two failed logins block an address, and the next question says so. -/
theorem sound_of_exec_two : ∃ s,
    exec step (start 2 60 300) [⟨.recordFailure, seconds 1, 7⟩, ⟨.recordFailure, seconds 2, 7⟩,
      ⟨.isBlocked, seconds 3, 7⟩] = some s ∧ Sound (configure 2 60 300) s.log ∧
      ∀ addr, ∃ alone,
        exec step (start 2 60 300) ([⟨.recordFailure, seconds 1, 7⟩,
          ⟨.recordFailure, seconds 2, 7⟩, ⟨.isBlocked, seconds 3, 7⟩].filter
            fun call => call.addr = addr) = some alone ∧
        alone.log = s.log.filter fun event => event.addr = addr :=
  ⟨_, rfl, sound_of_exec (by decide) rfl⟩

/-! ### Every burst -/

/-- What makes sure that bursts are caught: the address of each burst stays blocked until the
block of its last failure is over. -/
structure Guarded (settings : FailureTracker) (s : Tracked) : Prop where
  enabled : settings.enabled = true
  banSeconds_pos : 0 < settings.banSeconds
  setAs : SetAs s.tracker settings
  time_le : ∀ event ∈ s.log, event.time ≤ s.now
  blocked : ∀ later event earlier, s.log = later ++ event :: earlier →
    event.kind = .recordFailure →
    Burst settings.maxFailures settings.windowSeconds Event.IsSuccess earlier event.toCall →
    event.time + seconds settings.banSeconds ≤ s.now ∨
      s.tracker.BlockedUntil event.addr (event.time + seconds settings.banSeconds)

/-- The tracker is on while it guards. -/
theorem Guarded.tracker_enabled (h : Guarded settings s) : s.tracker.enabled = true := by
  rw [h.setAs]
  exact h.enabled

/-- Who is guarded is caught. -/
theorem Guarded.caught (h : Guarded settings s) : Caught settings s := by
  intro later event earlier hlog hkind hburst t hnow ht
  rcases h.blocked later event earlier hlog hkind hburst with hover | hblocked
  · omega
  · exact (hblocked.isBlocked ht event.addr).2 rfl

/-- No call shortens a block that is not over and not longer than a new one. -/
theorem blockedUntil_perform (h : tracker.BlockedUntil addr t) (hover : call.time < t)
    (hlong : t ≤ call.time + seconds tracker.banSeconds) :
    (perform tracker call).2.BlockedUntil addr t := by
  rw [perform]
  cases call.kind with
  | isBlocked => exact (h.isBlocked hover call.addr).1
  | recordFailure => exact h.recordFailure hlong call.addr
  | recordSuccess => exact h.recordSuccess hover call.addr

/-- **When a failure blocks**: its address is blocked as long as blocks last exactly when the
failure was one too many, or the address was blocked that long already. -/
theorem blockedUntil_recordFailure_iff (henabled : tracker.enabled = true)
    (hban : 0 < tracker.banSeconds) (now : ℕ) (addr : UInt32) :
    (tracker.recordFailure now addr).2.BlockedUntil addr (now + seconds tracker.banSeconds) ↔
      tracker.maxFailures ≤ openCount tracker now addr + 1 ∨
        tracker.BlockedUntil addr (now + seconds tracker.banSeconds) := by
  constructor
  · intro h
    by_cases hmany : tracker.maxFailures ≤ openCount tracker now addr + 1
    · exact .inl hmany
    · obtain ⟨-, entry, hentry, hle⟩ := h
      rw [recordFailure_eq henabled, opened_failures, if_pos (not_le.mp hmany)] at hentry
      dsimp only at hentry
      rw [entries_set_self] at hentry
      rw [← Option.some.inj hentry] at hle
      dsimp only at hle
      rw [opened_blockedUntil, entryOf] at hle
      have hpos : 0 < seconds tracker.banSeconds := Nat.mul_pos hban (by norm_num)
      refine .inr ⟨henabled, ?_⟩
      cases hold : tracker.entries addr with
      | none =>
          rw [hold] at hle
          simp only [Option.getD_none] at hle
          omega
      | some old => exact ⟨old, rfl, by rwa [hold, Option.getD_some] at hle⟩
  · rintro (hmany | hblocked)
    · refine blockedUntil_recordFailure ?_
      rw [recordFailure_eq henabled, opened_failures, if_neg (not_lt.mpr hmany)]
    · exact hblocked.recordFailure le_rfl addr

/-- A question that is answered with yes as long as a block lasts finds the entry blocked. -/
theorem blockedUntil_of_isBlocked (henabled : tracker.enabled = true)
    (h : (tracker.isBlocked (t - 1) addr).1 = true) : tracker.BlockedUntil addr t := by
  rw [isBlocked_fst henabled, entryOf] at h
  refine ⟨henabled, ?_⟩
  cases hentry : tracker.entries addr with
  | none =>
      rw [hentry] at h
      simp only [Option.getD_none] at h
      omega
  | some entry =>
      rw [hentry, Option.getD_some] at h
      exact ⟨entry, rfl, by omega⟩

/-- **Step lemma**: a call that finds its burst counted keeps the guard. -/
theorem Guarded.step (h : Guarded settings s) (hcounted : Counted settings s call)
    (hstep : Lockout.step s call = some s') : Guarded settings s' := by
  obtain ⟨htime, rfl⟩ := step_eq_some hstep
  have hban : s.tracker.banSeconds = settings.banSeconds := by rw [h.setAs]
  have hmax : s.tracker.maxFailures = settings.maxFailures := by rw [h.setAs]
  have htimes : ∀ event ∈ s.log, event.time ≤ call.time := fun event hmem =>
    (h.time_le event hmem).trans htime
  refine ⟨h.enabled, h.banSeconds_pos, h.setAs.perform call, fun event hmem => ?_,
    fun later event earlier hlog hkind hburst => ?_⟩
  · rcases List.mem_cons.mp hmem with rfl | hmem
    · exact le_rfl
    · exact htimes event hmem
  · rcases List.cons_eq_append_iff.mp hlog with ⟨rfl, hcons⟩ | ⟨later, rfl, hrest⟩
    · obtain ⟨rfl, rfl⟩ := List.cons.inj hcons
      have hperform : perform s.tracker call = _ := perform_recordFailure s.tracker hkind
      right
      rw [hperform, ← hban]
      refine (blockedUntil_recordFailure_iff h.tracker_enabled (hban ▸ h.banSeconds_pos) _ _).mpr ?_
      rw [hmax, hban]
      exact hcounted hkind hburst
    · rcases h.blocked later event earlier hrest hkind hburst with hover | hblocked
      · exact .inl (hover.trans htime)
      · rcases Nat.lt_or_ge call.time (event.time + seconds settings.banSeconds) with hlt | hge
        · have hmem : event ∈ s.log := by rw [hrest]; simp
          exact .inr (blockedUntil_perform hblocked hlt
            (by rw [hban]; exact Nat.add_le_add_right (htimes event hmem) _))
        · exact .inl hge

/-- **A burst that is not counted is not caught.** -/
theorem Guarded.counted (h : Guarded settings s) (hstep : Lockout.step s call = some s')
    (hcaught : Caught settings s') : Counted settings s call := by
  intro hkind hburst
  obtain ⟨htime, rfl⟩ := step_eq_some hstep
  have hban : s.tracker.banSeconds = settings.banSeconds := by rw [h.setAs]
  have hmax : s.tracker.maxFailures = settings.maxFailures := by rw [h.setAs]
  have hpos : 0 < seconds settings.banSeconds := Nat.mul_pos h.banSeconds_pos (by norm_num)
  have hperform := perform_recordFailure s.tracker hkind
  have hyes := hcaught [] (eventOf s.tracker call) s.log rfl hkind hburst
    (call.time + seconds settings.banSeconds - 1) (by dsimp only; omega)
    (by dsimp only [eventOf]; omega)
  have henabled : (perform s.tracker call).2.enabled = true := by
    rw [h.setAs.perform call]
    exact h.enabled
  have hblocked := blockedUntil_of_isBlocked henabled hyes
  rw [hperform, ← hban] at hblocked
  rw [← hmax, ← hban]
  exact (blockedUntil_recordFailure_iff h.tracker_enabled (hban ▸ h.banSeconds_pos) _ _).mp hblocked

/-- A tracker that has just been configured. -/
theorem guarded_start {maxFailures : Int32} (hmax : 0 < maxFailures.toInt)
    (windowSeconds banSeconds : Int32) :
    Guarded (configure maxFailures windowSeconds banSeconds)
      (start maxFailures windowSeconds banSeconds) where
  enabled := decide_eq_true hmax
  banSeconds_pos := by
    rw [configure]
    dsimp only
    split_ifs <;> omega
  setAs := rfl
  time_le _ h := nomatch h
  blocked _ _ _ h := by simp [start] at h

/-- **When every burst is caught**: exactly in the runs in which each failure that completes a
burst finds the others counted in the window that is open, or its address blocked that long
already. -/
theorem always_caught_iff {maxFailures : Int32} (hmax : 0 < maxFailures.toInt)
    (windowSeconds banSeconds : Int32) (calls : List Call) :
    Always step (Caught (configure maxFailures windowSeconds banSeconds))
        (start maxFailures windowSeconds banSeconds) calls ↔
      EveryStep step
        (fun s call _ => Counted (configure maxFailures windowSeconds banSeconds) s call)
        (start maxFailures windowSeconds banSeconds) calls :=
  always_iff_everyStep (fun _ hs => hs.caught) (fun _ _ _ hs hcounted h => hs.step hcounted h)
    (fun _ _ _ hs h hcaught => hs.counted h hcaught)
    (guarded_start hmax windowSeconds banSeconds) calls

/-- Three failures in a minute, none of them forgotten. -/
theorem always_caught_iff_three :
    Always step (Caught (configure 3 60 300)) (start 3 60 300)
        [⟨.recordFailure, seconds 1, 7⟩, ⟨.recordFailure, seconds 2, 7⟩,
          ⟨.recordFailure, seconds 3, 7⟩] ↔
      EveryStep step (fun s call _ => Counted (configure 3 60 300) s call) (start 3 60 300)
        [⟨.recordFailure, seconds 1, 7⟩, ⟨.recordFailure, seconds 2, 7⟩,
          ⟨.recordFailure, seconds 3, 7⟩] :=
  always_caught_iff (by decide) 60 300 _

/-- Failures after 1, 51, 62 and 63 seconds: three of them lie within 12 seconds, but the window
that the first one opened is over at the third, and with it the second one is forgotten. -/
theorem not_always_caught_late :
    ¬ Always step (Caught (configure 3 60 300)) (start 3 60 300)
        [⟨.recordFailure, seconds 1, 7⟩, ⟨.recordFailure, seconds 51, 7⟩,
          ⟨.recordFailure, seconds 62, 7⟩, ⟨.recordFailure, seconds 63, 7⟩] := by
  intro h
  have hblocked := h.last rfl [] _ _ rfl rfl
    ⟨[⟨⟨.recordFailure, seconds 62, 7⟩, false, false⟩,
      ⟨⟨.recordFailure, seconds 51, 7⟩, false, false⟩], _, rfl, by decide, by decide, by decide⟩
    (seconds 63) le_rfl (by decide)
  exact absurd hblocked (by decide)

end RSDWServerAPI.AccessControl.Lockout
