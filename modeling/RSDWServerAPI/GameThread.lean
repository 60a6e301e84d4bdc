import Mathlib.Logic.Function.Basic
import RSDWServerAPI.Transition

/-!
# The game-thread queue

`RunSync` (`engine/process_event.cpp`) hands work to the game thread: it puts a pointer to a
`Job` on its own stack into `g_Queue`, waits for `done` with a timeout, and on a timeout
takes the pointer out of the queue again, if it is still there. `Drain` runs on the game
thread, from `PumpThunk` or `HookedProcessEvent`, and may be entered again from inside a job.

Every section under `g_QueueMutex`, every start and end of a job's work and every timeout is
one action. The game thread is the stack of its `Drain` activations and inline calls,
innermost first. Each `RunSync` call has a number; the state of its caller and of its `Job`
is kept under that number.

## Main results

* `safe_iff_inTime`: **a run is safe all along exactly when each timeout finds its job still
  in the queue or already done.** Safe means that work is started at most once, that `true`
  is returned after the work has finished and `false` only when it has not started, and that
  nothing on the game thread or in the queue refers to the job of a call that has returned.
* `Safe.not_touches`: in a safe state `Drain` accesses no job whose caller has returned.
* `not_safe_timeout_after_pop`: a timeout between the pop and the start of the work.
-/

namespace RSDWServerAPI.GameThread

open Transition

/-- Where a `RunSync` call is. -/
inductive Phase
  /-- Not called yet. -/
  | idle
  /-- In `wait_for`. -/
  | waiting
  /-- Called on the game thread: running the work itself. -/
  | inlined
  | returned (ran : Bool)
  deriving DecidableEq, Repr

/-- A `RunSync` call with its `Job`. -/
structure Caller where
  phase : Phase := .idle
  /-- History: how often the work was started, and whether it has ended. -/
  starts : ℕ := 0
  finished : Bool := false
  /-- `job.done`. -/
  done : Bool := false
  deriving DecidableEq, Repr

/-- An activation on the stack of the game thread. -/
inductive Frame
  /-- `Drain` between two jobs. -/
  | draining
  /-- `Drain` after the pop, before, inside and behind `(*job->work)()`. -/
  | holding (j : ℕ)
  | running (j : ℕ)
  | worked (j : ℕ)
  /-- The work of a `RunSync` call made on the game thread. -/
  | inline (j : ℕ)
  deriving DecidableEq, Repr

/-- The call an activation refers to. -/
def Frame.job : Frame → Option ℕ
  | .draining => none
  | .holding j | .running j | .worked j | .inline j => some j

/-- What the threads share: the queue, the calls that wait, and the frames of the game thread. -/
structure State where
  /-- `g_Ready` and `g_GameThreadKnown`. -/
  ready : Bool
  known : Bool := false
  /-- `g_Queue`. -/
  queue : List ℕ := []
  frames : List Frame := []
  callers : ℕ → Caller := fun _ => {}

/-- What a thread does between two points at which another one may come in. -/
inductive Action
  /-- `RunSync` while `g_Ready` is false. -/
  | refuse (j : ℕ)
  /-- `RunSync` from another thread: the section with `push_back`. -/
  | enqueue (j : ℕ)
  /-- `wait_for` returns because the predicate holds, or because the time is over. -/
  | wake (j : ℕ)
  | timeout (j : ℕ)
  /-- `PumpThunk` (`pump`) or `HookedProcessEvent` looks at the queue and enters `Drain`. -/
  | enter (pump : Bool)
  /-- The steps of `Drain`. -/
  | pop
  | start
  | finish
  | markDone
  /-- `RunSync` on the game thread: the work starts and ends. -/
  | inlineStart (j : ℕ)
  | inlineFinish
  deriving DecidableEq, Repr

/-- Replace the record of one call. -/
def State.setCaller (s : State) (j : ℕ) (c : Caller) : State :=
  { s with callers := Function.update s.callers j c }

/-- The game thread is running game code: outside `Drain`, or inside some work. -/
def State.inGameCode (s : State) : Bool :=
  match s.frames with
  | [] | .running _ :: _ | .inline _ :: _ => true
  | _ => false

/-- One atomic action. -/
def step (s : State) : Action → Option State
  | .refuse j =>
      if (s.callers j).phase = .idle ∧ s.ready = false then
        some (s.setCaller j { s.callers j with phase := .returned false })
      else none
  | .enqueue j =>
      if (s.callers j).phase = .idle ∧ s.ready = true then
        some ({ s with queue := s.queue ++ [j] }.setCaller j
          { s.callers j with phase := .waiting })
      else none
  | .wake j =>
      if (s.callers j).phase = .waiting ∧ (s.callers j).done = true then
        some (s.setCaller j { s.callers j with phase := .returned true })
      else none
  | .timeout j =>
      if (s.callers j).phase = .waiting then
        -- `wait_for` looks at the predicate once more before it gives up
        if (s.callers j).done then
          some (s.setCaller j { s.callers j with phase := .returned true })
        else
          some ({ s with queue := s.queue.erase j }.setCaller j
            { s.callers j with phase := .returned false })
      else none
  | .enter pump =>
      if s.inGameCode then
        let s := { s with known := s.known || pump }
        some (if s.queue = [] then s else { s with frames := .draining :: s.frames })
      else none
  | .pop =>
      match s.frames with
      | .draining :: frames =>
          match s.queue with
          | [] => some { s with frames }
          | j :: queue => some { s with queue, frames := .holding j :: frames }
      | _ => none
  | .start =>
      match s.frames with
      | .holding j :: frames =>
          some ({ s with frames := .running j :: frames }.setCaller j
            { s.callers j with starts := (s.callers j).starts + 1 })
      | _ => none
  | .finish =>
      match s.frames with
      | .running j :: frames =>
          some ({ s with frames := .worked j :: frames }.setCaller j
            { s.callers j with finished := true })
      | _ => none
  | .markDone =>
      match s.frames with
      | .worked j :: frames =>
          some ({ s with frames := .draining :: frames }.setCaller j
            { s.callers j with done := true })
      | _ => none
  | .inlineStart j =>
      if (s.callers j).phase = .idle ∧ s.ready = true ∧ s.known = true ∧ s.inGameCode then
        some ({ s with frames := .inline j :: s.frames }.setCaller j
          { s.callers j with phase := .inlined, starts := (s.callers j).starts + 1 })
      else none
  | .inlineFinish =>
      match s.frames with
      | .inline j :: frames =>
          some ({ s with frames }.setCaller j
            { s.callers j with phase := .returned true, finished := true })
      | _ => none

/-! ### What a safe state is -/

/-- The guarantee of `RunSync`, for every call. -/
structure Safe (s : State) : Prop where
  /-- Work is started at most once. -/
  once : ∀ j, (s.callers j).starts ≤ 1
  /-- `true` is returned after the work has finished. -/
  ran : ∀ j, (s.callers j).phase = .returned true → (s.callers j).finished = true
  /-- `false` is returned only for work that has not started. -/
  cancelled : ∀ j, (s.callers j).phase = .returned false → (s.callers j).starts = 0
  /-- The job of a call that has returned is referred to neither by the queue, from which it
  could still be started, nor by an activation on the game thread. -/
  released : ∀ j ran, (s.callers j).phase = .returned ran →
    j ∉ s.queue ∧ ∀ f ∈ s.frames, f.job ≠ some j

/-- The job that a step of `Drain` accesses: its `work` pointer, the variables its work has
captured, or its `done` flag. -/
def touches (s : State) : Action → Option ℕ
  | .start => match s.frames with | .holding j :: _ => some j | _ => none
  | .finish => match s.frames with | .running j :: _ => some j | _ => none
  | .markDone => match s.frames with | .worked j :: _ => some j | _ => none
  | _ => none

/-- In a safe state no step of `Drain` accesses a job whose caller has returned. -/
theorem Safe.not_touches {s : State} (hs : Safe s) {a : Action} {j : ℕ}
    (h : touches s a = some j) (ran : Bool) : (s.callers j).phase ≠ .returned ran := by
  intro hret
  obtain ⟨-, hframes⟩ := hs.released j ran hret
  cases a with
  | start | finish | markDone =>
      simp only [touches] at h
      split at h
      · next hf =>
          obtain rfl := Option.some.inj h
          exact hframes _ (hf ▸ List.mem_cons_self) rfl
      · cases h
  | refuse | enqueue | wake | timeout | enter | pop | inlineStart | inlineFinish => cases h

/-- The condition on a step: a wait that times out finds its job done or still queued. -/
def InTime (s : State) : Action → Prop
  | .timeout j => (s.callers j).done = true ∨ j ∈ s.queue
  | _ => True

instance (s : State) (a : Action) : Decidable (InTime s a) := by
  unfold InTime
  split <;> infer_instance

/-! ### The invariant -/

/-- The activations that refer to a call. -/
def jobFrames (j : ℕ) (frames : List Frame) : List Frame :=
  frames.filter fun f => f.job = some j

/-- A frame that is about a call counts for it. -/
theorem jobFrames_cons_self {j : ℕ} {f : Frame} (h : f.job = some j) (frames : List Frame) :
    jobFrames j (f :: frames) = f :: jobFrames j frames := by
  simp [jobFrames, h]

/-- A frame about another call, or about none, does not count. -/
theorem jobFrames_cons_other {j : ℕ} {f : Frame} (h : f.job ≠ some j) (frames : List Frame) :
    jobFrames j (f :: frames) = jobFrames j frames := by
  simp [jobFrames, h]

/-- **The life of a job**: in each stage, what the record of the call says, how often the
queue lists it and which activations on the game thread refer to it. -/
inductive Life (j : ℕ) : Caller → ℕ → List Frame → Prop
  /-- Not called: nothing refers to it. -/
  | idle : Life j {} 0 []
  /-- Waiting in the queue. -/
  | queued : Life j { phase := .waiting } 1 []
  /-- Taken by one activation of `Drain`, which has come so far. -/
  | holding : Life j { phase := .waiting } 0 [.holding j]
  | running : Life j { phase := .waiting, starts := 1 } 0 [.running j]
  | worked : Life j { phase := .waiting, starts := 1, finished := true } 0 [.worked j]
  | done : Life j { phase := .waiting, starts := 1, finished := true, done := true } 0 []
  | inlined : Life j { phase := .inlined, starts := 1 } 0 [.inline j]
  /-- Returned: nothing refers to it any more. -/
  | ran (done : Bool) : Life j { phase := .returned true, starts := 1, finished := true, done } 0 []
  | cancelled : Life j { phase := .returned false } 0 []

section Life

variable {j n : ℕ} {c : Caller} {fs : List Frame}

/-- The work of a call is started once at most. -/
theorem Life.starts_le (h : Life j c n fs) : c.starts ≤ 1 := by
  cases h <;> simp

/-- When `RunSync` has returned `true`, the work is finished. -/
theorem Life.finished_of_ran (h : Life j c n fs) (hc : c.phase = .returned true) :
    c.finished = true := by
  cases h <;> simp_all

/-- When the job was taken out of the queue again, the work has not been started. -/
theorem Life.starts_of_cancelled (h : Life j c n fs) (hc : c.phase = .returned false) :
    c.starts = 0 := by
  cases h <;> simp_all

/-- A call that has returned has left neither a job nor a frame behind. -/
theorem Life.absent_of_returned {ran : Bool} (h : Life j c n fs)
    (hc : c.phase = .returned ran) : n = 0 ∧ fs = [] := by
  cases h <;> simp_all

/-- Nothing has happened to a call that has not been made. -/
theorem Life.of_idle (h : Life j c n fs) (hc : c.phase = .idle) : c = {} ∧ n = 0 ∧ fs = [] := by
  cases h <;> simp_all

/-- A call that waits and whose job is done finds its work finished. -/
theorem Life.of_done (h : Life j c n fs) (hw : c.phase = .waiting) (hd : c.done = true) :
    c = { phase := .waiting, starts := 1, finished := true, done := true } ∧ n = 0 ∧ fs = [] := by
  cases h <;> simp_all

/-- A call that waits for a job that is not done has it in the queue or on the stack. -/
theorem Life.of_waiting (h : Life j c n fs) (hw : c.phase = .waiting) (hd : c.done = false) :
    (c = { phase := .waiting } ∧ n = 1 ∧ fs = []) ∨ (n = 0 ∧ fs ≠ []) := by
  cases h <;> simp_all

/-- A job in the queue has not been started, and nobody holds it. -/
theorem Life.of_queued (h : Life j c (n + 1) fs) :
    c = { phase := .waiting } ∧ n = 0 ∧ fs = [] := by
  cases h
  exact ⟨rfl, rfl, rfl⟩

/-- A job that has been popped has not been started. -/
theorem Life.of_holding (h : Life j c n (.holding j :: fs)) :
    c = { phase := .waiting } ∧ n = 0 ∧ fs = [] := by
  cases h
  exact ⟨rfl, rfl, rfl⟩

/-- A job that runs has been started and is not finished. -/
theorem Life.of_running (h : Life j c n (.running j :: fs)) :
    c = { phase := .waiting, starts := 1 } ∧ n = 0 ∧ fs = [] := by
  cases h
  exact ⟨rfl, rfl, rfl⟩

/-- A job that has run is finished and not yet marked as done. -/
theorem Life.of_worked (h : Life j c n (.worked j :: fs)) :
    c = { phase := .waiting, starts := 1, finished := true } ∧ n = 0 ∧ fs = [] := by
  cases h
  exact ⟨rfl, rfl, rfl⟩

/-- A call from the game thread itself has no job in the queue. -/
theorem Life.of_inlined (h : Life j c n (.inline j :: fs)) :
    c = { phase := .inlined, starts := 1 } ∧ n = 0 ∧ fs = [] := by
  cases h
  exact ⟨rfl, rfl, rfl⟩

end Life

/-- Every job is in one of the stages of its life. -/
def Sound (s : State) : Prop :=
  ∀ j, Life j (s.callers j) (s.queue.count j) (jobFrames j s.frames)

/-- The invariant holds before the first call. -/
theorem sound_start (ready : Bool) : Sound { ready } :=
  fun _ => Life.idle

/-- Every stage of a life is safe. -/
theorem Sound.safe {s : State} (hs : Sound s) : Safe s where
  once j := (hs j).starts_le
  ran j h := (hs j).finished_of_ran h
  cancelled j h := (hs j).starts_of_cancelled h
  released j ran h := by
    obtain ⟨hq, hf⟩ := (hs j).absent_of_returned h
    refine ⟨List.count_eq_zero.mp hq, fun f hmem hjob => ?_⟩
    have hmem' : f ∈ jobFrames j s.frames := List.mem_filter.mpr ⟨hmem, by simpa using hjob⟩
    rw [hf] at hmem'
    cases hmem'

/-- A step that concerns one call only: the others stay where they are. -/
theorem Sound.of_update {s t : State} (hs : Sound s) (j : ℕ)
    (hcaller : ∀ k ≠ j, t.callers k = s.callers k)
    (hqueue : ∀ k ≠ j, t.queue.count k = s.queue.count k)
    (hframes : ∀ k ≠ j, jobFrames k t.frames = jobFrames k s.frames)
    (hj : Life j (t.callers j) (t.queue.count j) (jobFrames j t.frames)) : Sound t := by
  intro k
  by_cases hk : k = j
  · subst hk
    exact hj
  · rw [hcaller k hk, hqueue k hk, hframes k hk]
    exact hs k

/-- A step that moves the record of one call and leaves queue and stack alone. -/
theorem Sound.setCaller {s : State} (hs : Sound s) (j : ℕ) (c : Caller)
    (hj : Life j c (s.queue.count j) (jobFrames j s.frames)) : Sound (s.setCaller j c) := by
  refine hs.of_update j (fun k hk => ?_) (fun _ _ => rfl) (fun _ _ => rfl) ?_
  · simp [State.setCaller, hk]
  · simpa [State.setCaller] using hj

/-- A step of the innermost activation, from one stage of the life of `j` to the next. -/
theorem Sound.setFrame {s : State} (hs : Sound s) (j : ℕ) (c : Caller) {f g : Frame}
    {frames : List Frame} (hf : s.frames = f :: frames) (hfj : f.job = some j)
    (hg : g.job = some j ∨ g.job = none)
    (hj : Life j c (s.queue.count j) (jobFrames j (g :: frames))) :
    Sound ({ s with frames := g :: frames }.setCaller j c) := by
  refine hs.of_update j (fun k hk => ?_) (fun _ _ => rfl) (fun k hk => ?_) ?_
  · simp [State.setCaller, hk]
  · have hfk : f.job ≠ some k := by
      rw [hfj]
      exact fun h => hk (Option.some.inj h).symm
    have hgk : g.job ≠ some k := by
      rcases hg with hg | hg
      · exact hg ▸ hfj ▸ hfk
      · simp [hg]
    simp only [State.setCaller, hf]
    rw [jobFrames_cons_other hfk, jobFrames_cons_other hgk]
  · simpa [State.setCaller] using hj

/-- What the invariant says about the job of the innermost activation. -/
theorem Sound.life_head {s : State} (hs : Sound s) {j : ℕ} {f : Frame} {frames : List Frame}
    (hf : s.frames = f :: frames) (hfj : f.job = some j) :
    Life j (s.callers j) (s.queue.count j) (f :: jobFrames j frames) := by
  have h := hs j
  rwa [hf, jobFrames_cons_self hfj] at h

/-- A call that is not made yet is put into the queue. -/
theorem Sound.enqueue {s : State} (hs : Sound s) {j : ℕ} (hj : (s.callers j).phase = .idle) :
    Sound ({ s with queue := s.queue ++ [j] }.setCaller j
      { s.callers j with phase := .waiting }) := by
  obtain ⟨hcaller, hn, hfs⟩ := (hs j).of_idle hj
  refine hs.of_update j (fun k hk => ?_) (fun k hk => ?_) (fun _ _ => rfl) ?_
  · simp [State.setCaller, hk]
  · simp [State.setCaller, Ne.symm hk]
  · simp only [State.setCaller, Function.update_self, List.count_append, hn, hcaller]
    rw [hfs]
    simpa using Life.queued

/-- A call that waits for a job that is done returns `true`. -/
theorem Sound.wake {s : State} (hs : Sound s) {j : ℕ} (hj : (s.callers j).phase = .waiting)
    (hdone : (s.callers j).done = true) :
    Sound (s.setCaller j { s.callers j with phase := .returned true }) := by
  obtain ⟨hcaller, hn, hfs⟩ := (hs j).of_done hj hdone
  refine hs.setCaller j _ ?_
  rw [hcaller, hn, hfs]
  exact Life.ran true

/-- A call that waits for a queued job takes it out of the queue and returns `false`. -/
theorem Sound.giveUp {s : State} (hs : Sound s) {j : ℕ} (hj : (s.callers j).phase = .waiting)
    (hdone : (s.callers j).done = false) (hmem : j ∈ s.queue) :
    Sound ({ s with queue := s.queue.erase j }.setCaller j
      { s.callers j with phase := .returned false }) := by
  have hpos : s.queue.count j ≠ 0 := fun h0 => List.count_eq_zero.mp h0 hmem
  rcases (hs j).of_waiting hj hdone with ⟨hcaller, hn, hfs⟩ | ⟨hn, -⟩
  · refine hs.of_update j (fun k hk => ?_) (fun k hk => ?_) (fun _ _ => rfl) ?_
    · simp [State.setCaller, hk]
    · simp [State.setCaller, List.count_erase_of_ne hk]
    · simp only [State.setCaller, Function.update_self, List.count_erase_self, hn, hcaller]
      rw [hfs]
      exact Life.cancelled
  · exact absurd hn hpos

/-- `Drain` takes the first job of the queue. -/
theorem Sound.pop {s : State} (hs : Sound s) {j : ℕ} {queue : List ℕ} {frames : List Frame}
    (hf : s.frames = .draining :: frames) (hq : s.queue = j :: queue) :
    Sound { s with queue, frames := .holding j :: frames } := by
  have hother : ∀ k, jobFrames k s.frames = jobFrames k frames := fun k => by
    rw [hf, jobFrames_cons_other (by simp [Frame.job])]
  have hj := hs j
  rw [hq, List.count_cons_self, hother j] at hj
  obtain ⟨hcaller, hn, hfs⟩ := hj.of_queued
  refine hs.of_update j (fun _ _ => rfl) (fun k hk => ?_) (fun k hk => ?_) ?_
  · simp [hq, Ne.symm hk]
  · rw [hother k, jobFrames_cons_other (by simpa [Frame.job] using Ne.symm hk)]
  · rw [jobFrames_cons_self rfl, hcaller, hn, hfs]
    exact Life.holding

/-- A call on the game thread starts its work. -/
theorem Sound.inlineStart {s : State} (hs : Sound s) {j : ℕ}
    (hj : (s.callers j).phase = .idle) :
    Sound ({ s with frames := .inline j :: s.frames }.setCaller j
      { s.callers j with phase := .inlined, starts := (s.callers j).starts + 1 }) := by
  obtain ⟨hcaller, hn, hfs⟩ := (hs j).of_idle hj
  refine hs.of_update j (fun k hk => ?_) (fun _ _ => rfl) (fun k hk => ?_) ?_
  · simp [State.setCaller, hk]
  · simp only [State.setCaller]
    rw [jobFrames_cons_other (by simpa [Frame.job] using Ne.symm hk)]
  · simp only [State.setCaller, Function.update_self, hn, hcaller]
    rw [jobFrames_cons_self rfl, hfs]
    exact Life.inlined

/-- A call on the game thread ends its work and returns `true`. -/
theorem Sound.inlineFinish {s : State} (hs : Sound s) {j : ℕ} {frames : List Frame}
    (hf : s.frames = .inline j :: frames) :
    Sound ({ s with frames }.setCaller j
      { s.callers j with phase := .returned true, finished := true }) := by
  obtain ⟨hcaller, hn, hfs⟩ := (hs.life_head hf rfl).of_inlined
  refine hs.of_update j (fun k hk => ?_) (fun _ _ => rfl) (fun k hk => ?_) ?_
  · simp [State.setCaller, hk]
  · simp only [State.setCaller, hf]
    rw [jobFrames_cons_other (by simpa [Frame.job] using Ne.symm hk)]
  · simp only [State.setCaller, Function.update_self, hn, hcaller, hfs]
    exact Life.ran false

/-- **Step lemma**: a step in time moves one job to the next stage of its life. -/
theorem sound_step {s t : State} {a : Action} (hs : Sound s) (hok : InTime s a)
    (h : step s a = some t) : Sound t := by
  cases a with
  | refuse j =>
      simp only [step, Option.ite_none_right_eq_some, Option.some.injEq] at h
      obtain ⟨hc, rfl⟩ := h
      obtain ⟨hcaller, hn, hfs⟩ := (hs j).of_idle hc.1
      refine hs.setCaller j _ ?_
      rw [hcaller, hn, hfs]
      exact Life.cancelled
  | enqueue j =>
      simp only [step, Option.ite_none_right_eq_some, Option.some.injEq] at h
      obtain ⟨hc, rfl⟩ := h
      exact hs.enqueue hc.1
  | wake j =>
      simp only [step, Option.ite_none_right_eq_some, Option.some.injEq] at h
      obtain ⟨hc, rfl⟩ := h
      exact hs.wake hc.1 hc.2
  | timeout j =>
      simp only [step, Option.ite_none_right_eq_some] at h
      obtain ⟨hw, h⟩ := h
      split at h
      · next hd =>
          obtain rfl := Option.some.inj h
          exact hs.wake hw hd
      · next hd =>
          obtain rfl := Option.some.inj h
          exact hs.giveUp hw (by simpa using hd) (hok.resolve_left hd)
  | enter pump =>
      simp only [step, Option.ite_none_right_eq_some, Option.some.injEq] at h
      obtain ⟨-, rfl⟩ := h
      intro k
      split
      · exact hs k
      · rw [jobFrames_cons_other (by simp [Frame.job])]
        exact hs k
  | pop =>
      simp only [step] at h
      split at h
      · next frames hf =>
          split at h
          · obtain rfl := Option.some.inj h
            intro k
            have hk := hs k
            rwa [hf, jobFrames_cons_other (by simp [Frame.job])] at hk
          · next j queue hq =>
              obtain rfl := Option.some.inj h
              exact hs.pop hf hq
      · cases h
  | start =>
      simp only [step] at h
      split at h
      · next j frames hf =>
          obtain rfl := Option.some.inj h
          obtain ⟨hcaller, hn, hfs⟩ := (hs.life_head hf rfl).of_holding
          refine hs.setFrame j _ hf rfl (Or.inl rfl) ?_
          rw [jobFrames_cons_self rfl, hcaller, hn, hfs]
          exact Life.running
      · cases h
  | finish =>
      simp only [step] at h
      split at h
      · next j frames hf =>
          obtain rfl := Option.some.inj h
          obtain ⟨hcaller, hn, hfs⟩ := (hs.life_head hf rfl).of_running
          refine hs.setFrame j _ hf rfl (Or.inl rfl) ?_
          rw [jobFrames_cons_self rfl, hcaller, hn, hfs]
          exact Life.worked
      · cases h
  | markDone =>
      simp only [step] at h
      split at h
      · next j frames hf =>
          obtain rfl := Option.some.inj h
          obtain ⟨hcaller, hn, hfs⟩ := (hs.life_head hf rfl).of_worked
          refine hs.setFrame j _ hf rfl (Or.inr rfl) ?_
          rw [jobFrames_cons_other (by simp [Frame.job]), hcaller, hn, hfs]
          exact Life.done
      · cases h
  | inlineStart j =>
      simp only [step, Option.ite_none_right_eq_some, Option.some.injEq] at h
      obtain ⟨hc, rfl⟩ := h
      exact hs.inlineStart hc.1
  | inlineFinish =>
      simp only [step] at h
      split at h
      · next j frames hf =>
          obtain rfl := Option.some.inj h
          exact hs.inlineFinish hf
      · cases h

/-- A timeout that finds its job neither done nor queued returns `false` while an activation
of `Drain` refers to the job. -/
theorem inTime_of_safe {s t : State} {a : Action} (hs : Sound s) (h : step s a = some t)
    (ht : Safe t) : InTime s a := by
  cases a with
  | timeout j =>
      by_contra hlate
      obtain ⟨hd, hq⟩ : (s.callers j).done = false ∧ j ∉ s.queue := by
        simpa [InTime] using hlate
      simp only [step] at h
      split at h
      · next hw =>
          simp only [hd, Bool.false_eq_true, if_false] at h
          obtain rfl := Option.some.inj h
          have hrel := (ht.released j false (by simp [State.setCaller])).2
          rcases (hs j).of_waiting hw hd with ⟨-, hn, -⟩ | ⟨-, hfs⟩
          · have hpos : s.queue.count j = 0 := List.count_eq_zero.mpr hq
            omega
          · obtain ⟨f, hf⟩ := List.exists_mem_of_ne_nil _ hfs
            obtain ⟨hmem, hjob⟩ := List.mem_filter.mp hf
            exact hrel f hmem (by simpa using hjob)
      · cases h
  | refuse | enqueue | wake | enter | pop | start | finish | markDone | inlineStart
  | inlineFinish => trivial

/-- **Exactly which runs of the queue are safe.** For every number of `RunSync` calls and
every interleaving of their sections and timeouts with the game thread, `Drain` re-entered
from inside jobs included, every state of the run is safe precisely when each timeout finds
its job done or still in the queue. -/
theorem safe_iff_inTime (ready : Bool) (as : List Action) :
    Always step Safe { ready } as ↔ EveryStep step (fun s a _ => InTime s a) { ready } as := by
  refine always_iff_everyStep (I := Sound) ?_ ?_ ?_ (sound_start ready) as
  · intro s hs
    exact hs.safe
  · intro s a t hs hok h
    exact sound_step hs hok h
  · intro s a t hs h ht
    exact inTime_of_safe hs h ht

/-- The timeout falls between the pop and the start of the work: `RunSync` returns `false`,
and then the work is started. -/
theorem not_safe_timeout_after_pop :
    ¬ ∀ (ready : Bool) (as : List Action), Always step Safe { ready } as := by
  intro hall
  have h := (hall true [.enqueue 0, .enter true, .pop, .timeout 0, .start]).last rfl
  exact absurd (h.cancelled 0 rfl) (by decide)

end RSDWServerAPI.GameThread
