import RSDWServerAPI.Bytes
import RSDWServerAPI.Transition

/-!
# The queue of a Discord webhook

`Sender::Post` (`discord/webhook.cpp`) appends a line to the queue of its webhook, from any
thread, and drops the oldest line first when 200 are queued. The worker in `Sender::Run` takes
lines off the front under the same lock, joins them to one batch of at most 1900 bytes or one
line, and hands the batch to `Send`.

Every locked section and every `Send` is one action. The sender is running: `enabled` and
`running` are true.

## Main results

* `delivered`: **lines are sent in order and once, and dropped only when the queue is full**,
  in every interleaving of posts with the worker.
* `takeBatch_spec`: the loop of `Run` joins a run of lines from the front of the queue.
* `takeBatch_length`: a batch of more than one line keeps to the limit.
* `limited_iff_firstFits`: **batches keep to the limit exactly when every line at the front
  does**, and `limited_of_posted` for runs that post no longer line.
-/

namespace RSDWServerAPI.WebhookQueue

open Transition

/-- The number of queued lines at which `Post` drops one. -/
def queueLimit : ℕ := 200

/-- The number of bytes in a batch. -/
def batchLimit : ℕ := 1900

/-- `if (!batch.empty()) batch += "\n"; batch += next;` -/
def appendLine (batch next : Bytes) : Bytes :=
  (if batch ≠ [] then batch ++ [10] else batch) ++ next

/-- The loop of `Run` under the lock: the batch, and what stays queued. -/
def takeBatch (batch : Bytes) : List Bytes → Bytes × List Bytes
  | [] => (batch, [])
  | next :: queue =>
      if batch ≠ [] ∧ batch.length + next.length + 1 > batchLimit then (batch, next :: queue)
      else takeBatch (appendLine batch next) queue

/-- Where the worker is. -/
inductive Worker
  /-- In `wait_for`, or on the way to it. -/
  | waiting
  /-- Behind the locked section, with its batch. -/
  | holding (batch : Bytes)
  /-- In `Send`, or in the pause behind it. -/
  | pausing
  deriving DecidableEq, Repr

/-- How lines left the front of the queue. -/
inductive Departure
  /-- A `Post` dropped the line. -/
  | evicted (line : Bytes)
  /-- The worker took the lines, at least one, in one locked section. -/
  | batch (lines : List Bytes)
  deriving DecidableEq, Repr

/-- The lines of a departure, the oldest first. -/
def Departure.lines : Departure → List Bytes
  | .evicted line => [line]
  | .batch lines => lines

/-- What `Post` and the sending thread share, with the history of the lines. -/
structure State where
  queue : List Bytes := []
  worker : Worker := .waiting
  /-- History: the non-empty lines posted. -/
  posted : List Bytes := []
  /-- History: what has left the queue. -/
  departures : List Departure := []
  /-- History: the texts handed to `Send`. -/
  sent : List Bytes := []
  deriving DecidableEq, Repr

/-- What a thread does under the lock, or between two locks. -/
inductive Action
  | post (line : Bytes)
  /-- The locked section of `Run`; with an empty queue `wait_for` has run out of time. -/
  | dequeue
  | send
  /-- The pause is over. -/
  | resume
  deriving DecidableEq, Repr

/-- One atomic action. -/
def step (s : State) : Action → Option State
  | .post line =>
      if line = [] then some s
      else
        let (queue, departures) :=
          match s.queue with
          | oldest :: rest =>
              if queueLimit ≤ s.queue.length then (rest, s.departures ++ [.evicted oldest])
              else (s.queue, s.departures)
          | [] => (s.queue, s.departures)
        some { s with queue := queue ++ [line], departures, posted := s.posted ++ [line] }
  | .dequeue =>
      match s.worker with
      | .waiting =>
          let (batch, queue) := takeBatch [] s.queue
          let lines := s.queue.take (s.queue.length - queue.length)
          some { s with
            queue
            worker := .holding batch
            departures := if lines = [] then s.departures else s.departures ++ [.batch lines] }
      | _ => none
  | .send =>
      match s.worker with
      | .holding batch =>
          some { s with
            worker := .pausing
            sent := if batch ≠ [] then s.sent ++ [batch] else s.sent }
      | _ => none
  | .resume =>
      match s.worker with
      | .pausing => some { s with worker := .waiting }
      | _ => none

/-! ### What delivery means -/

/-- The batches dequeued so far. -/
def State.batches (s : State) : List (List Bytes) :=
  s.departures.filterMap fun
    | .evicted _ => none
    | .batch lines => some lines

/-- The lines dropped so far. -/
def State.evicted (s : State) : List Bytes :=
  s.departures.filterMap fun
    | .evicted line => some line
    | .batch _ => none

/-- The batch that the worker is about to hand to `Send`. -/
def State.inHand (s : State) : List Bytes :=
  match s.worker with
  | .holding batch => if batch ≠ [] then [batch] else []
  | .waiting | .pausing => []

/-- What holds all along a run. -/
structure Delivered (s : State) : Prop where
  /-- The non-empty lines posted are, in order, the lines that left the queue and those in it.
  A batch is a run of them, and without the evicted ones the batches and the queue are left. -/
  conserved : s.posted = s.departures.flatMap Departure.lines ++ s.queue
  /-- Each batch is handed to `Send` once, joined with newlines, in the order dequeued. -/
  handed : s.sent ++ s.inHand = s.batches.map [10].intercalate
  batch_ne_nil : ∀ lines ∈ s.batches, lines ≠ []
  bounded : s.queue.length ≤ queueLimit

/-- The line that an action brings to the queue: that of a post, unless it is empty. -/
def postedBy : Action → List Bytes
  | .post line => if line ≠ [] then [line] else []
  | .dequeue | .send | .resume => []

/-- Where an action can be taken: a post anywhere, and each of the worker's where the worker is
there. -/
def State.Enabled (s : State) : Action → Prop
  | .post _ => True
  | .dequeue => s.worker = .waiting
  | .send => ∃ batch, s.worker = .holding batch
  | .resume => s.worker = .pausing

/-- The line that a step drops: the oldest, where a post of a non-empty line finds the queue
full. -/
def evictedBy (s : State) : Action → List Bytes
  | .post line => if line ≠ [] ∧ s.queue.length = queueLimit then s.queue.take 1 else []
  | .dequeue | .send | .resume => []

/-- What an action does to the queue, to the batch in hand and to what is sent, with the history of
it: a post brings its line to the end and drops what `evictedBy` says; the locked section of `Run`
takes a run of lines from the front, which is in hand from then on, joined with newlines; a send
hands over what is in hand. -/
def Accounted (s t : State) : Action → Prop
  | .post line =>
      s.queue ++ postedBy (.post line) = evictedBy s (.post line) ++ t.queue ∧
      t = { s with
        queue := t.queue
        posted := s.posted ++ postedBy (.post line)
        departures := s.departures ++ (evictedBy s (.post line)).map .evicted }
  | .dequeue =>
      ∃ lines, s.queue = lines ++ t.queue ∧ (lines = [] → s.queue = []) ∧
        t = { s with
          queue := t.queue
          worker := .holding ([10].intercalate lines)
          departures := s.departures ++ if lines = [] then [] else [.batch lines] }
  | .send => t = { s with worker := .pausing, sent := s.sent ++ s.inHand }
  | .resume => t = { s with worker := .waiting }

/-- The lines posted are those that the actions bring. -/
theorem Accounted.posted_eq {s t : State} {a : Action} (h : Accounted s t a) :
    t.posted = s.posted ++ postedBy a := by
  cases a with
  | post line =>
      obtain ⟨-, ht⟩ := h
      rw [ht]
  | dequeue =>
      obtain ⟨lines, -, -, ht⟩ := h
      rw [ht]
      simp [postedBy]
  | send | resume =>
      obtain rfl := h
      simp [postedBy]

/-! ### Batches -/

/-- Behind another line stands a line end. -/
theorem appendLine_of_ne_nil {batch : Bytes} (h : batch ≠ []) (next : Bytes) :
    appendLine batch next = batch ++ 10 :: next := by
  simp [appendLine, h]

/-- Joining onto a batch that has a line already. -/
theorem foldl_appendLine (batch : Bytes) (h : batch ≠ []) (lines : List Bytes) :
    lines.foldl appendLine batch = batch ++ lines.flatMap fun line => 10 :: line := by
  induction lines generalizing batch with
  | nil => simp
  | cons line lines ih =>
      rw [List.foldl_cons, appendLine_of_ne_nil h, ih _ (by simp)]
      simp

/-- Lines with line ends between them. -/
theorem intercalate_cons (line : Bytes) (lines : List Bytes) :
    [10].intercalate (line :: lines) = line ++ lines.flatMap fun line => 10 :: line := by
  induction lines generalizing line with
  | nil => simp
  | cons next lines ih =>
      rw [List.intercalate_cons_cons, ih]
      simp

/-- The empty batch marks the first line, which is right for lines that are not empty. -/
theorem foldl_appendLine_nil {lines : List Bytes} (h : ∀ line ∈ lines, line ≠ []) :
    lines.foldl appendLine [] = [10].intercalate lines := by
  cases lines with
  | nil => rfl
  | cons line lines =>
      have hline : line ≠ [] := h line List.mem_cons_self
      have hfirst : appendLine [] line = line := rfl
      rw [List.foldl_cons, hfirst, foldl_appendLine line hline, intercalate_cons]

/-- The loop takes lines from the front and joins them to the batch. -/
theorem takeBatch_append (batch : Bytes) (queue : List Bytes) :
    ∃ lines, queue = lines ++ (takeBatch batch queue).2 ∧
      (takeBatch batch queue).1 = lines.foldl appendLine batch := by
  induction queue generalizing batch with
  | nil => exact ⟨[], rfl, rfl⟩
  | cons next queue ih =>
      rw [takeBatch]
      split
      · exact ⟨[], rfl, rfl⟩
      · obtain ⟨lines, hqueue, hbatch⟩ := ih (appendLine batch next)
        exact ⟨next :: lines, congrArg (next :: ·) hqueue, hbatch⟩

/-- **What the locked section of `Run` does**: the batch is a run of lines from the front of
the queue, joined with newlines; the other lines stay. -/
theorem takeBatch_spec {queue : List Bytes} (h : ∀ line ∈ queue, line ≠ []) :
    ∃ lines, queue = lines ++ (takeBatch [] queue).2 ∧
      (takeBatch [] queue).1 = [10].intercalate lines := by
  obtain ⟨lines, hqueue, hbatch⟩ := takeBatch_append [] queue
  have hlines : ∀ line ∈ lines, line ≠ [] := fun line hline =>
    h line (hqueue ▸ List.mem_append_left _ hline)
  exact ⟨lines, hqueue, hbatch.trans (foldl_appendLine_nil hlines)⟩

/-- The worker makes progress: it leaves fewer lines than it found. -/
theorem takeBatch_lt {queue : List Bytes} (h : queue ≠ []) :
    (takeBatch [] queue).2.length < queue.length := by
  cases queue with
  | nil => exact absurd rfl h
  | cons next queue =>
      obtain ⟨lines, hqueue, -⟩ := takeBatch_append (appendLine [] next) queue
      have hlength := congrArg List.length hqueue
      rw [List.length_append] at hlength
      simp only [takeBatch, ne_eq, not_true_eq_false, false_and, if_false, List.length_cons]
      omega

/-- A batch stays below the limit once it does not begin empty. -/
theorem takeBatch_length_le {batch : Bytes} (h : batch.length ≤ batchLimit) (hne : batch ≠ [])
    (queue : List Bytes) : (takeBatch batch queue).1.length ≤ batchLimit := by
  induction queue generalizing batch with
  | nil => exact h
  | cons next queue ih =>
      rw [takeBatch]
      split
      · exact h
      · next hfit =>
          have hroom : batch.length + next.length + 1 ≤ batchLimit := by
            have := not_and.mp hfit hne
            omega
          rw [appendLine_of_ne_nil hne]
          exact ih (by simp only [List.length_append, List.length_cons]; omega) (by simp)

/-- A line that is too long is taken all the same when it is the first, and alone. -/
theorem takeBatch_of_long {line : Bytes} (hlong : batchLimit < line.length)
    (queue : List Bytes) : takeBatch [] (line :: queue) = (line, queue) := by
  have hne : line ≠ [] := List.ne_nil_of_length_pos (by omega)
  have hfirst : takeBatch [] (line :: queue) = takeBatch line queue := rfl
  rw [hfirst]
  cases queue with
  | nil => rfl
  | cons next queue => rw [takeBatch, if_pos ⟨hne, by omega⟩]

/-- **The limit of a batch**: it is passed only by a line that is too long on its own. -/
theorem takeBatch_length (line : Bytes) (queue : List Bytes) (hne : line ≠ []) :
    (takeBatch [] (line :: queue)).1.length ≤ batchLimit ∨
      batchLimit < line.length ∧ takeBatch [] (line :: queue) = (line, queue) := by
  by_cases hle : line.length ≤ batchLimit
  · exact .inl (takeBatch_length_le hle hne queue)
  · exact .inr ⟨by omega, takeBatch_of_long (by omega) queue⟩

/-- A batch keeps to the limit exactly when its first line does. -/
theorem takeBatch_length_le_iff {line : Bytes} (hne : line ≠ []) (queue : List Bytes) :
    (takeBatch [] (line :: queue)).1.length ≤ batchLimit ↔ line.length ≤ batchLimit := by
  constructor
  · intro hle
    by_contra hlong
    rw [takeBatch_of_long (by omega)] at hle
    exact hlong hle
  · intro hle
    exact takeBatch_length_le hle hne queue

/-! ### The invariant -/

/-- What delivery rests on: no empty line is queued. -/
structure Sound (s : State) : Prop extends Delivered s where
  queue_ne_nil : ∀ line ∈ s.queue, line ≠ []

/-- The invariant holds before the first line. -/
theorem sound_start : Sound {} where
  conserved := rfl
  handed := rfl
  batch_ne_nil _ h := nomatch h
  bounded := Nat.zero_le _
  queue_ne_nil _ h := nomatch h

/-- The state after a post, by what it finds. -/
inductive Posts (s : State) (line : Bytes) : State → Prop
  | empty (hline : line = []) : Posts s line s
  | room (hline : line ≠ []) (hroom : s.queue.length < queueLimit) :
      Posts s line { s with queue := s.queue ++ [line], posted := s.posted ++ [line] }
  | full (hline : line ≠ []) {oldest : Bytes} {rest : List Bytes}
      (hqueue : s.queue = oldest :: rest) (hfull : queueLimit ≤ s.queue.length) :
      Posts s line { s with
        queue := rest ++ [line]
        departures := s.departures ++ [.evicted oldest]
        posted := s.posted ++ [line] }

/-- What `Post` does, as a step. -/
theorem step_post {s t : State} {line : Bytes} (h : step s (.post line) = some t) :
    Posts s line t := by
  simp only [step] at h
  split at h
  · next hline =>
      obtain rfl := Option.some.inj h
      exact .empty hline
  · next hline =>
      obtain rfl := Option.some.inj h
      split
      · next oldest rest hqueue =>
          split
          · next hfull => exact .full hline hqueue hfull
          · next hroom => exact .room hline (Nat.lt_of_not_le hroom)
      · next hqueue => exact .room hline (by simp [hqueue, queueLimit])

/-- What has been taken from the front. -/
theorem take_of_append {queue lines rest : List Bytes} (h : queue = lines ++ rest) :
    queue.take (queue.length - rest.length) = lines := by
  subst h
  simp

/-- The state after the locked section of `Run`. -/
theorem step_dequeue {s t : State} (hs : Sound s) (h : step s .dequeue = some t) :
    s.worker = .waiting ∧ ∃ lines, s.queue = lines ++ t.queue ∧
      t = { s with
        queue := t.queue
        worker := .holding ([10].intercalate lines)
        departures := if lines = [] then s.departures else s.departures ++ [.batch lines] } := by
  simp only [step] at h
  split at h
  · next hworker =>
      obtain rfl := Option.some.inj h
      obtain ⟨lines, hqueue, hbatch⟩ := takeBatch_spec hs.queue_ne_nil
      refine ⟨hworker, lines, hqueue, ?_⟩
      rw [take_of_append hqueue, hbatch]
  · cases h

/-- What the locked section of `Run` leaves in the queue. -/
theorem dequeue_queue {s t : State} (h : step s .dequeue = some t) :
    t.queue = (takeBatch [] s.queue).2 := by
  simp only [step] at h
  split at h
  · obtain rfl := Option.some.inj h
    rfl
  · cases h

/-- A line posted onto a queue with room for it. -/
theorem Sound.post {s t : State} (hs : Sound s) {line : Bytes} (h : Posts s line t) :
    Sound t := by
  cases h with
  | empty => exact hs
  | room hline hroom =>
      refine { conserved := ?_, handed := hs.handed, batch_ne_nil := hs.batch_ne_nil,
               bounded := ?_, queue_ne_nil := ?_ }
      · simp [hs.conserved]
      · simpa using hroom
      · simpa [or_imp, forall_and, hline] using hs.queue_ne_nil
  | @full hline oldest rest hqueue hfull =>
      have hbounded := hs.bounded
      have hne := hs.queue_ne_nil
      rw [hqueue] at hbounded hne
      refine { conserved := ?_, handed := ?_, batch_ne_nil := ?_, bounded := ?_,
               queue_ne_nil := ?_ }
      · simp [hs.conserved, hqueue, Departure.lines]
      · simpa [State.batches, State.inHand] using hs.handed
      · simpa [State.batches] using hs.batch_ne_nil
      · simpa using hbounded
      · simp only [List.mem_cons, forall_eq_or_imp] at hne
        simpa [or_imp, forall_and, hline] using hne.2

/-- A joined run of non-empty lines is empty for no lines only. -/
theorem intercalate_ne_nil {lines : List Bytes} (h : ∀ line ∈ lines, line ≠ [])
    (hne : lines ≠ []) : [10].intercalate lines ≠ [] := by
  cases lines with
  | nil => exact absurd rfl hne
  | cons line lines =>
      rw [intercalate_cons]
      exact List.append_ne_nil_of_left_ne_nil (h line List.mem_cons_self) _

/-- The locked section of `Run`. -/
theorem Sound.dequeue {s t : State} (hs : Sound s) (h : step s .dequeue = some t) : Sound t := by
  obtain ⟨hworker, lines, hqueue, ht⟩ := step_dequeue hs h
  have hhanded : s.sent = s.batches.map [10].intercalate := by
    simpa [State.inHand, hworker] using hs.handed
  have hne := hs.queue_ne_nil
  have hbounded := hs.bounded
  simp only [hqueue, List.mem_append, or_imp, forall_and] at hne
  rw [hqueue, List.length_append] at hbounded
  generalize t.queue = queue at hqueue ht hne hbounded
  subst ht
  refine { conserved := ?_, handed := ?_, batch_ne_nil := ?_, bounded := by dsimp only; omega,
           queue_ne_nil := hne.2 }
  · rw [hs.conserved, hqueue]
    split
    · next hnil => simp [hnil]
    · simp [Departure.lines]
  · by_cases hnil : lines = []
    · simpa [hnil, State.inHand, State.batches] using hhanded
    · have hjoined := intercalate_ne_nil hne.1 hnil
      simp only [State.inHand, hjoined, hnil, if_false, ne_eq, not_false_eq_true, if_true,
        hhanded, State.batches]
      simp
  · by_cases hnil : lines = []
    · simpa [hnil, State.batches] using hs.batch_ne_nil
    · have hbatches := hs.batch_ne_nil
      simp only [State.batches] at hbatches
      simp only [State.batches, hnil, if_false, List.filterMap_append, List.mem_append, or_imp,
        forall_and]
      exact ⟨hbatches, by simpa using hnil⟩

/-- **Step lemma**: every step keeps the invariant and drops a line only as `Post` does. -/
theorem sound_step {s t : State} {a : Action} (hs : Sound s) (h : step s a = some t) :
    Sound t ∧ t.evicted = s.evicted ++ evictedBy s a := by
  cases a with
  | post line =>
      have hpost := step_post h
      refine ⟨hs.post hpost, ?_⟩
      cases hpost with
      | empty hline => simp [evictedBy, hline]
      | room hline hroom => simp [State.evicted, evictedBy, hroom.ne]
      | full hline hqueue hfull =>
          have heq : s.queue.length = queueLimit := Nat.le_antisymm hs.bounded hfull
          rw [evictedBy, if_pos ⟨hline, heq⟩, hqueue]
          simp [State.evicted]
  | dequeue =>
      refine ⟨hs.dequeue h, ?_⟩
      obtain ⟨-, lines, -, ht⟩ := step_dequeue hs h
      rw [ht]
      simp only [State.evicted, evictedBy, List.append_nil]
      split
      · rfl
      · simp
  | send =>
      simp only [step] at h
      split at h
      · next batch hworker =>
          obtain rfl := Option.some.inj h
          refine ⟨{ hs with handed := ?_ }, by simp [State.evicted, evictedBy]⟩
          have hhanded := hs.handed
          simp only [State.inHand, hworker] at hhanded
          simp only [State.inHand, State.batches, List.append_nil]
          split
          · next hne => simpa [hne, State.batches] using hhanded
          · next hnil => simpa [hnil, State.batches] using hhanded
      · cases h
  | resume =>
      simp only [step] at h
      split at h
      · next hworker =>
          obtain rfl := Option.some.inj h
          refine ⟨{ hs with handed := ?_ }, by simp [State.evicted, evictedBy]⟩
          simpa [State.inHand, hworker, State.batches] using hs.handed
      · cases h

/-- **What one step does** is what its action is for. -/
theorem accounted_step {s t : State} {a : Action} (hs : Sound s) (h : step s a = some t) :
    Accounted s t a := by
  cases a with
  | post line =>
      cases step_post h with
      | empty hline => simp [Accounted, postedBy, evictedBy, hline]
      | room hline hroom => simp [Accounted, postedBy, evictedBy, hline, hroom.ne]
      | full hline hqueue hfull =>
          have heq : s.queue.length = queueLimit := Nat.le_antisymm hs.bounded hfull
          have hevicted : evictedBy s (.post line) = s.queue.take 1 := if_pos ⟨hline, heq⟩
          simp [Accounted, postedBy, hevicted, hline, hqueue]
  | dequeue =>
      obtain ⟨-, lines, hqueue, ht⟩ := step_dequeue hs h
      refine ⟨lines, hqueue, ?_, ?_⟩
      · rintro rfl
        by_contra hne
        have hlt := takeBatch_lt hne
        have hrest : t.queue = (takeBatch [] s.queue).2 := dequeue_queue h
        rw [← hrest, hqueue, List.nil_append] at hlt
        exact lt_irrefl _ hlt
      · rw [ht]
        split <;> simp
  | send =>
      simp only [step] at h
      split at h
      · next batch hworker =>
          obtain rfl := Option.some.inj h
          by_cases hne : batch = [] <;> simp [Accounted, State.inHand, hworker, hne]
      · cases h
  | resume =>
      simp only [step] at h
      split at h
      · exact (Option.some.inj h).symm
      · cases h

/-- **An action can be taken where it is enabled.** -/
theorem step_isSome_iff (s : State) (a : Action) : (step s a).isSome ↔ s.Enabled a := by
  cases a with
  | post line =>
      by_cases hline : line = [] <;> simp [step, State.Enabled, hline]
  | dequeue | send | resume =>
      cases hworker : s.worker <;> simp [step, State.Enabled, hworker]

/-- The lines that a run posts. -/
theorem posted_of_exec {s t : State} {as : List Action} (hs : Sound s)
    (h : exec step s as = some t) : t.posted = s.posted ++ as.flatMap postedBy := by
  induction as generalizing s with
  | nil =>
      obtain rfl : s = t := Option.some.inj h
      simp
  | cons a as ih =>
      obtain ⟨u, hu, hrest⟩ := Option.bind_eq_some_iff.mp h
      have hposted := (accounted_step hs hu).posted_eq
      rw [ih (sound_step hs hu).1 hrest, hposted, List.flatMap_cons, List.append_assoc]

/-- **Lines are sent in order, once, and dropped only when the queue is full.** For every
interleaving of posts with the locked sections and sends of the worker: the lines posted are the
non-empty lines of the posts of the run, and they are accounted for in every state; each action can
be taken where it is enabled and does what it is for; and a line is dropped exactly by a post that
finds the queue full, which drops the oldest. -/
theorem delivered (as : List Action) :
    (∀ t, exec step {} as = some t → t.posted = as.flatMap postedBy) ∧
      Always step Delivered {} as ∧
      EveryStep step (fun s a t => t.evicted = s.evicted ++ evictedBy s a ∧ Accounted s t a)
        {} as ∧
      ∀ s a, (step s a).isSome ↔ s.Enabled a := by
  refine ⟨fun t ht => posted_of_exec sound_start ht, ?_, ?_, step_isSome_iff⟩
  · have hsound : Always step Sound {} as :=
      Always.of_invariant (fun s a t hs h => (sound_step hs h).1) sound_start as
    exact hsound.mono fun s hs => hs.toDelivered
  · refine EveryStep.of_invariant (I := Sound) ?_ sound_start as
    intro s a t hs h
    exact ⟨(sound_step hs h).1, (sound_step hs h).2, accounted_step hs h⟩

/-- Lines posted onto a queue with room for them are queued in order. -/
theorem exec_posts {lines : List Bytes} (hne : ∀ line ∈ lines, line ≠ []) {s : State}
    (hroom : s.queue.length + lines.length ≤ queueLimit) (rest : List Action) :
    exec step s (lines.map .post ++ rest) =
      exec step { s with queue := s.queue ++ lines, posted := s.posted ++ lines } rest := by
  induction lines generalizing s with
  | nil => simp
  | cons line lines ih =>
      rw [List.length_cons] at hroom
      have hline : line ≠ [] := hne line List.mem_cons_self
      have hpost : step s (.post line) = some { s with
          queue := s.queue ++ [line], posted := s.posted ++ [line] } := by
        obtain ⟨t, ht⟩ := Option.isSome_iff_exists.mp ((step_isSome_iff s (.post line)).mpr trivial)
        rw [ht]
        cases step_post ht with
        | empty hnil => exact absurd hnil hline
        | room => rfl
        | full _ _ hfull => omega
      rw [List.map_cons, List.cons_append, exec, hpost, Option.bind_some,
        ih (fun l hl => hne l (List.mem_cons_of_mem _ hl)) (by simp; omega)]
      simp

/-- As many lines as the queue holds, of 200 bytes each. -/
def busyLines : List Bytes :=
  (List.range 200).map fun n => List.replicate 200 (UInt8.ofNat n)

/-- A run that fills the queue, posts one more line, and lets the worker go round once. -/
def busyRun : List Action :=
  busyLines.map .post ++ [.post (bytes "one more"), .dequeue, .post (bytes "late"), .send, .resume]

/-- In that run the oldest line is dropped, the next nine are sent in one batch, and the others
stay. -/
theorem delivered_busyRun : ∃ t, exec step {} busyRun = some t ∧
    t.posted = busyRun.flatMap postedBy ∧ t.evicted = [List.replicate 200 0] ∧
    t.batches.map List.length = [9] ∧ t.sent.map List.length = [1808] ∧
    t.queue.length = 192 := by
  have hfilled : exec step {} busyRun = exec step { queue := busyLines, posted := busyLines }
      [.post (bytes "one more"), .dequeue, .post (bytes "late"), .send, .resume] := by
    have hne : ∀ line ∈ busyLines, line ≠ [] := by simp [busyLines]
    exact exec_posts hne (by simp [busyLines, queueLimit]) _
  have hrun : (exec step {} busyRun).any (fun t => t.evicted = [List.replicate 200 0] ∧
      t.batches.map List.length = [9] ∧ t.sent.map List.length = [1808] ∧
      t.queue.length = 192) = true := by
    rw [hfilled]
    decide +kernel
  obtain ⟨t, ht, hlines⟩ := (Option.any_eq_true _ _).mp hrun
  exact ⟨t, ht, (delivered busyRun).1 t ht, of_decide_eq_true hlines⟩

/-! ### The size of what is sent -/

/-- Every batch that `Run` has assembled, the one that it is about to hand to `Send` included,
keeps to the limit. -/
def Limited (s : State) : Prop :=
  ∀ batch ∈ s.sent ++ s.inHand, batch.length ≤ batchLimit

/-- The worker does not find a line at the front that is too long for a batch. -/
def FirstFits (s : State) : Action → Prop
  | .dequeue => ∀ line ∈ s.queue.head?, line.length ≤ batchLimit
  | .post _ | .send | .resume => True

/-- A post leaves the worker and its batches alone. -/
theorem Posts.limited_iff {s t : State} {line : Bytes} (h : Posts s line t) :
    Limited t ↔ Limited s := by
  cases h with
  | empty | room | full => exact Iff.rfl

/-- With a batch in the hands of the worker; an empty one is not sent and not too long. -/
theorem limited_holding_iff {s : State} {batch : Bytes} (h : s.worker = .holding batch) :
    Limited s ↔ (∀ b ∈ s.sent, b.length ≤ batchLimit) ∧ batch.length ≤ batchLimit := by
  by_cases hne : batch = []
  · simp [Limited, State.inHand, h, hne]
  · simp [Limited, State.inHand, h, hne, or_imp, forall_and]

/-- The locked section of `Run` adds one batch, which is too long with its first line. -/
theorem limited_dequeue_iff {s t : State} (hs : Sound s) (hl : Limited s)
    (h : step s .dequeue = some t) : Limited t ↔ FirstFits s .dequeue := by
  simp only [step] at h
  split at h
  · next hworker =>
      obtain rfl := Option.some.inj h
      have hsent : ∀ batch ∈ s.sent, batch.length ≤ batchLimit := by
        simpa [Limited, State.inHand, hworker] using hl
      rw [limited_holding_iff rfl, and_iff_right hsent]
      cases hqueue : s.queue with
      | nil => simp [FirstFits, hqueue, takeBatch]
      | cons line queue =>
          have hne : line ≠ [] := hs.queue_ne_nil line (by simp [hqueue])
          rw [takeBatch_length_le_iff hne]
          simp [FirstFits, hqueue]
  · cases h

/-- **What one step does to the limit**: only a locked section of `Run` that finds a line too
long at the front breaks it. -/
theorem limited_step_iff {s t : State} {a : Action} (hs : Sound s) (hl : Limited s)
    (h : step s a = some t) : Limited t ↔ FirstFits s a := by
  cases a with
  | post line => simpa [FirstFits] using (step_post h).limited_iff.mpr hl
  | dequeue => exact limited_dequeue_iff hs hl h
  | send =>
      simp only [step] at h
      split at h
      · next batch hworker =>
          obtain rfl := Option.some.inj h
          obtain ⟨hsent, hbatch⟩ := (limited_holding_iff hworker).mp hl
          simp only [Limited, State.inHand, List.append_nil, FirstFits, iff_true]
          split
          · simpa [or_imp, forall_and] using ⟨hsent, hbatch⟩
          · exact hsent
      · cases h
  | resume =>
      simp only [step] at h
      split at h
      · next hworker =>
          obtain rfl := Option.some.inj h
          simpa [Limited, State.inHand, hworker, FirstFits] using hl
      · cases h

/-- **Batches keep to the limit exactly when every line at the front does.** For every
interleaving of posts with the worker: each batch that `Run` assembles and hands to `Send` has
1900 bytes at most if and only if the locked section of `Run` never finds a longer line at the
front of the queue. -/
theorem limited_iff_firstFits (as : List Action) :
    Always step Limited {} as ↔ EveryStep step (fun s a _ => FirstFits s a) {} as := by
  refine always_iff_everyStep (I := fun s => Sound s ∧ Limited s) (fun s hs => hs.2) ?_ ?_
    ⟨sound_start, by simp [Limited, State.inHand]⟩ as
  · intro s a t hs hfits h
    exact ⟨(sound_step hs.1 h).1, (limited_step_iff hs.1 hs.2 h).mpr hfits⟩
  · intro s a t hs h hlimited
    exact (limited_step_iff hs.1 hs.2 h).mp hlimited

/-- A line that is too long, posted to a queue with nothing in it, breaks the limit. -/
theorem not_limited_of_long {line : Bytes} (hlong : batchLimit < line.length) :
    ¬ Always step Limited {} [.post line, .dequeue] := by
  have hne : line ≠ [] := List.ne_nil_of_length_pos (by omega)
  have hpost : step {} (.post line) = some { queue := [line], posted := [line] } := by
    simp [step, hne]
  intro h
  obtain ⟨hlimited, hnext⟩ := h.2 _ hpost
  have hsound := (sound_step sound_start hpost).1
  have hdequeue : step { queue := [line], posted := [line] } .dequeue = some _ := rfl
  have hfits := (limited_step_iff hsound hlimited hdequeue).mp (hnext _ hdequeue).head
  have hle : line.length ≤ batchLimit := hfits line rfl
  omega

/-- The line of the chat listener in `InitThread`. -/
def chatLine (senderName body : Bytes) : Bytes :=
  let sender := if senderName = [] then bytes "Unknown" else senderName
  bytes "**" ++ sender ++ bytes "**: " ++ body

/-- A chat message of 1900 letters is handed to `Send` in a batch of 1909 bytes. -/
theorem not_limited_long_message :
    (chatLine (bytes "Ada") (List.replicate 1900 97)).length = 1909 ∧
      ¬ Always step Limited {}
        [.post (chatLine (bytes "Ada") (List.replicate 1900 97)), .dequeue] := by
  have hfront : (chatLine (bytes "Ada") []).length = 9 := by decide
  have hlength : (chatLine (bytes "Ada") (List.replicate 1900 97)).length = 1909 := by
    have hsplit : chatLine (bytes "Ada") (List.replicate 1900 97) =
        chatLine (bytes "Ada") [] ++ List.replicate 1900 97 := by
      simp only [chatLine, List.append_nil]
    rw [hsplit, List.length_append, List.length_replicate, hfront]
  have hlong : batchLimit < (chatLine (bytes "Ada") (List.replicate 1900 97)).length :=
    hlength.symm ▸ by decide
  exact ⟨hlength, not_limited_of_long hlong⟩

/-- A post of a line that keeps to the limit, or any other step, queues no line that does not. -/
theorem queue_fits_step {s t : State} {a : Action} (hs : Sound s)
    (hqueue : ∀ line ∈ s.queue, line.length ≤ batchLimit)
    (ha : ∀ line, a = .post line → line.length ≤ batchLimit) (h : step s a = some t) :
    ∀ line ∈ t.queue, line.length ≤ batchLimit := by
  cases a with
  | post line =>
      have hline := ha line rfl
      cases step_post h with
      | empty => exact hqueue
      | room => simpa [or_imp, forall_and] using ⟨hqueue, hline⟩
      | full _ hfront _ =>
          rw [hfront] at hqueue
          simp only [List.mem_cons, forall_eq_or_imp] at hqueue
          simpa [or_imp, forall_and] using ⟨hqueue.2, hline⟩
  | dequeue =>
      obtain ⟨-, lines, hsplit, -⟩ := step_dequeue hs h
      exact fun line hline => hqueue line (hsplit ▸ List.mem_append_right _ hline)
  | send =>
      simp only [step] at h
      split at h
      · obtain rfl := Option.some.inj h
        exact hqueue
      · cases h
  | resume =>
      simp only [step] at h
      split at h
      · obtain rfl := Option.some.inj h
        exact hqueue
      · cases h

/-- **Lines that keep to the limit make batches that do**: a run that posts no longer line
breaks the limit nowhere. -/
theorem limited_of_posted {as : List Action}
    (h : ∀ line, .post line ∈ as → line.length ≤ batchLimit) :
    Always step Limited {} as := by
  have hposts : EveryStep step
      (fun _ a _ => ∀ line, a = .post line → line.length ≤ batchLimit) {} as :=
    EveryStep.of_forall fun a ha _ _ line hline => h line (hline ▸ ha)
  refine (always_of_everyStep (I := fun s => Sound s ∧ Limited s ∧
    ∀ line ∈ s.queue, line.length ≤ batchLimit) ?_ ⟨sound_start, by simp [Limited, State.inHand],
      by simp⟩ hposts).mono fun s hs => hs.2.1
  rintro s a t ⟨hs, hlimited, hqueue⟩ hline h
  refine ⟨(sound_step hs h).1, (limited_step_iff hs hlimited h).mpr ?_,
    queue_fits_step hs hqueue hline h⟩
  cases a with
  | dequeue => exact fun line hfront => hqueue line (List.mem_of_mem_head? hfront)
  | post _ | send | resume => trivial

end RSDWServerAPI.WebhookQueue
