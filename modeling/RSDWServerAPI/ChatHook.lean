import Mathlib.Logic.Function.Basic
import RSDWServerAPI.Transition

/-!
# The chat component hook

`DomChat::Poll` (`engine/chat.cpp`) lets `GameThread::HookVTable` replace the ProcessEvent
slot of each vtable it meets by `HookedChatProcessEvent`, and afterwards records what the slot
held in `g_HookedVTables`. `HookedChatProcessEvent` runs on the game thread: it looks the
vtable of its object up in that map and forwards the call to what it finds, if anything.

Every write of a slot, every section under `g_VTableMutex` and every entry into
`HookedChatProcessEvent` is one action. `Poll` is called from one thread only, so that its
place in the loop is one phase; the game thread is the stack of its calls, innermost first.

## Main results

* `safe_iff_settled`: **a run is safe all along exactly when every lookup can read its object
  and does not fall between the write of its slot and the record of it.** Safe means that every
  call is forwarded exactly once, to what its slot held before the hook.
* `not_safe_between_write_and_record`: a call that comes between the two is dropped.
-/

namespace RSDWServerAPI.ChatHook

open Transition

/-- An address. -/
abbrev Ptr := UInt64

/-- The game as `Poll` finds it: the vtable of each object, and what the ProcessEvent slot of
each vtable holds. -/
structure World where
  vtableOf : Ptr → Ptr
  original : Ptr → Ptr
  /-- `&HookedChatProcessEvent`, which is in no slot yet. -/
  hook : Ptr
  original_ne : ∀ v, original v ≠ hook

/-- How far a call of `HookedChatProcessEvent` is. -/
inductive Stage
  | entered
  /-- Behind the locked lookup, with `previous`. -/
  | looked (previous : Option Ptr)
  /-- In `previous(self, function, params)`, or behind it. -/
  | forwarding
  deriving DecidableEq, Repr

/-- A call of `HookedChatProcessEvent`. -/
structure Call where
  self : Ptr
  stage : Stage := .entered
  /-- History: the functions the call was forwarded to. -/
  forwards : List Ptr := []
  deriving DecidableEq, Repr

/-- Where `Poll` is in its loop over the players. -/
inductive PollPhase
  | idle
  /-- The component has a vtable. -/
  | read (component : Ptr)
  /-- `g_HookedVTables.count(vtable)` was 0. -/
  | unhooked (component : Ptr)
  /-- `HookVTable` has written the slot. -/
  | wrote (component previous : Ptr)
  deriving DecidableEq, Repr

/-- What the tables and the maps of the hook hold. -/
structure State where
  /-- The ProcessEvent slot of each vtable. -/
  slots : Ptr → Ptr
  /-- `g_HookedVTables`. -/
  hooked : Ptr → Option Ptr := fun _ => none
  poll : PollPhase := .idle
  /-- The stack of the game thread. -/
  calls : List Call := []
  /-- History: the calls that have returned. -/
  returned : List Call := []

/-- Nothing is hooked yet. -/
def start (w : World) : State :=
  { slots := w.original }

/-- What the poller and the game do between two points at which another thread may come in. -/
inductive Action
  /-- `Poll` reads the chat component of the next player. -/
  | pollRead (component : Ptr)
  /-- The locked `count`. -/
  | pollCheck
  /-- `HookVTable`; `ok` is false where the object, its vtable or `mprotect` fails. -/
  | pollHook (ok : Bool)
  /-- The locked `g_HookedVTables[vtable] = previous`. -/
  | pollRecord
  /-- The game thread calls ProcessEvent of an object through its vtable. -/
  | call (self : Ptr)
  /-- The locked lookup; `Mem::ReadPtr` gives 0 for an object that is not `Readable`. -/
  | lookup (readable : Bool)
  | forward
  | ret
  deriving DecidableEq, Repr

/-- One atomic action. -/
def step (w : World) (s : State) : Action → Option State
  | .pollRead component =>
      match s.poll with
      | .idle => some (if w.vtableOf component = 0 then s else { s with poll := .read component })
      | _ => none
  | .pollCheck =>
      match s.poll with
      | .read component =>
          some { s with
            poll := if (s.hooked (w.vtableOf component)).isSome then .idle
              else .unhooked component }
      | _ => none
  | .pollHook ok =>
      match s.poll with
      | .unhooked component =>
          let vtable := w.vtableOf component
          let previous := s.slots vtable
          if ok = false ∨ previous = 0 then some { s with poll := .idle }
          -- `outPrevious` is null, and `Poll` goes on with the next player
          else if previous = w.hook then some { s with poll := .idle }
          else some { s with
            slots := Function.update s.slots vtable w.hook
            poll := .wrote component previous }
      | _ => none
  | .pollRecord =>
      match s.poll with
      | .wrote component previous =>
          some { s with
            hooked := Function.update s.hooked (w.vtableOf component) (some previous)
            poll := .idle }
      | _ => none
  | .call self =>
      match s.calls with
      | ⟨_, .entered, _⟩ :: _ => none
      | _ =>
          -- a slot without the hook leads to the game's own function at once
          some (if s.slots (w.vtableOf self) = w.hook then { s with calls := { self } :: s.calls }
            else s)
  | .lookup readable =>
      match s.calls with
      | ⟨self, .entered, forwards⟩ :: calls =>
          let vtable := if readable then w.vtableOf self else 0
          some { s with calls := ⟨self, .looked (s.hooked vtable), forwards⟩ :: calls }
      | _ => none
  | .forward =>
      match s.calls with
      | ⟨self, .looked (some previous), forwards⟩ :: calls =>
          some { s with calls := ⟨self, .forwarding, forwards ++ [previous]⟩ :: calls }
      | _ => none
  | .ret =>
      match s.calls with
      | ⟨self, .looked none, forwards⟩ :: calls =>
          some { s with calls, returned := ⟨self, .looked none, forwards⟩ :: s.returned }
      | ⟨self, .forwarding, forwards⟩ :: calls =>
          some { s with calls, returned := ⟨self, .forwarding, forwards⟩ :: s.returned }
      | _ => none

/-! ### What a safe state is -/

/-- What the slot of an object held before the hook was written. -/
def World.target (w : World) (self : Ptr) : Ptr :=
  w.original (w.vtableOf self)

/-- **A call that is not lost**: it has found the original of its slot once it has looked, and
has gone there exactly once when it is past the forwarding. -/
inductive Intact (w : World) : Call → Prop
  | entered (self : Ptr) : Intact w { self }
  | looked (self : Ptr) : Intact w { self, stage := .looked (some (w.target self)) }
  | forwarding (self : Ptr) :
      Intact w { self, stage := .forwarding, forwards := [w.target self] }

/-- No call of `HookedChatProcessEvent` is lost. -/
structure Safe (w : World) (s : State) : Prop where
  calls : ∀ c ∈ s.calls, Intact w c
  /-- Every call that has returned was forwarded exactly once, to the original. -/
  returned : ∀ c ∈ s.returned, c.forwards = [w.target c.self]

/-- The vtable whose slot `Poll` has written and not recorded yet. -/
def pending (w : World) (s : State) : Option Ptr :=
  match s.poll with
  | .wrote component _ => some (w.vtableOf component)
  | _ => none

/-- The condition on a step: the call that looks its vtable up can read its object, and
`Poll` is not between the write and the record of that vtable. -/
def Settled (w : World) (s : State) : Action → Prop
  | .lookup readable =>
      readable = true ∧ ∀ c ∈ s.calls.head?, pending w s ≠ some (w.vtableOf c.self)
  | _ => True

/-! ### The invariant -/

/-- What `Poll` knows in each phase of its loop. -/
inductive Polling (w : World) (hooked : Ptr → Option Ptr) : PollPhase → Prop
  | idle : Polling w hooked .idle
  | read {component : Ptr} (hne : w.vtableOf component ≠ 0) : Polling w hooked (.read component)
  | unhooked {component : Ptr} (hne : w.vtableOf component ≠ 0)
      (hnone : hooked (w.vtableOf component) = none) : Polling w hooked (.unhooked component)
  | wrote {component : Ptr} (hne : w.vtableOf component ≠ 0)
      (hnone : hooked (w.vtableOf component) = none) :
      Polling w hooked (.wrote component (w.target component))

/-- A slot is as the game left it, or holds the hook; then its original is recorded, or `Poll`
is about to record it. -/
structure Sound (w : World) (s : State) : Prop extends Safe w s where
  poll : Polling w s.hooked s.poll
  zero : s.hooked 0 = none
  slot : ∀ v, s.slots v = w.original v ∨
    s.slots v = w.hook ∧ (s.hooked v = some (w.original v) ∨ pending w s = some v)
  /-- A call is there because its slot holds the hook. -/
  through : ∀ c ∈ s.calls, s.slots (w.vtableOf c.self) = w.hook

/-- The invariant holds before the first hook. -/
theorem sound_start (w : World) : Sound w (start w) where
  calls _ h := nomatch h
  returned _ h := nomatch h
  poll := .idle
  zero := rfl
  slot _ := .inl rfl
  through _ h := nomatch h

/-- The slot of a call on the stack is recorded or about to be. -/
theorem Sound.recorded {w : World} {s : State} (hs : Sound w s) {c : Call} (hc : c ∈ s.calls) :
    s.hooked (w.vtableOf c.self) = some (w.target c.self) ∨
      pending w s = some (w.vtableOf c.self) := by
  rcases hs.slot (w.vtableOf c.self) with horig | ⟨-, hrec⟩
  · exact absurd (horig.symm.trans (hs.through c hc)) (w.original_ne _)
  · exact hrec

/-- What `Poll` is about to record is not in the map. -/
theorem Sound.hooked_of_pending {w : World} {s : State} (hs : Sound w s) {v : Ptr}
    (h : pending w s = some v) : s.hooked v = none := by
  simp only [pending] at h
  split at h
  · next component previous hpoll =>
      obtain rfl := Option.some.inj h
      have hp := hs.poll
      rw [hpoll] at hp
      cases hp with
      | wrote _ hnone => exact hnone
  · cases h

/-- While `Poll` is not between the write and the record, every slot that holds the hook is
recorded. -/
theorem Sound.slot_of_pending_none {w : World} {s : State} (hs : Sound w s)
    (hpend : pending w s = none) (v : Ptr) : s.slots v = w.original v ∨
      s.slots v = w.hook ∧ s.hooked v = some (w.original v) := by
  rcases hs.slot v with horig | ⟨hhook, hrec | hrec⟩
  · exact .inl horig
  · exact .inr ⟨hhook, hrec⟩
  · rw [hpend] at hrec
    cases hrec

/-- A step of `Poll` that leaves slots and map alone. -/
theorem Sound.setPoll {w : World} {s : State} (hs : Sound w s) {p : PollPhase}
    (hp : Polling w s.hooked p) (hpend : pending w s = none) :
    Sound w { s with poll := p } where
  calls := hs.calls
  returned := hs.returned
  poll := hp
  zero := hs.zero
  slot v := by
    rcases hs.slot_of_pending_none hpend v with horig | ⟨hhook, hrec⟩
    · exact .inl horig
    · exact .inr ⟨hhook, .inl hrec⟩
  through := hs.through

/-- A step of the game thread, which changes its own stack and the history only. -/
theorem Sound.setCalls {w : World} {s : State} (hs : Sound w s) {calls returned : List Call}
    (hcalls : ∀ c ∈ calls, Intact w c ∧ s.slots (w.vtableOf c.self) = w.hook)
    (hreturned : ∀ c ∈ returned, c.forwards = [w.target c.self]) :
    Sound w { s with calls, returned } where
  calls c hc := (hcalls c hc).1
  returned := hreturned
  poll := hs.poll
  zero := hs.zero
  slot := hs.slot
  through c hc := (hcalls c hc).2

/-- The innermost call moves on. -/
theorem Sound.setHead {w : World} {s : State} (hs : Sound w s) {c d : Call} {calls : List Call}
    (hstack : s.calls = c :: calls) (hself : d.self = c.self) (hd : Intact w d) :
    Sound w { s with calls := d :: calls } := by
  refine hs.setCalls (fun e he => ?_) hs.returned
  rcases List.mem_cons.mp he with rfl | he
  · rw [hself]
    exact ⟨hd, hs.through c (hstack ▸ List.mem_cons_self)⟩
  · have hmem : e ∈ s.calls := hstack ▸ List.mem_cons_of_mem c he
    exact ⟨hs.calls e hmem, hs.through e hmem⟩

/-- The innermost call returns. -/
theorem Sound.popHead {w : World} {s : State} (hs : Sound w s) {c : Call} {calls : List Call}
    (hstack : s.calls = c :: calls) (hc : c.forwards = [w.target c.self]) :
    Sound w { s with calls, returned := c :: s.returned } := by
  refine hs.setCalls (fun e he => ?_) (fun e he => ?_)
  · have hmem : e ∈ s.calls := hstack ▸ List.mem_cons_of_mem c he
    exact ⟨hs.calls e hmem, hs.through e hmem⟩
  · rcases List.mem_cons.mp he with rfl | he
    · exact hc
    · exact hs.returned e he

/-- What the invariant says about the innermost call. -/
theorem Sound.head {w : World} {s : State} (hs : Sound w s) {c : Call} {calls : List Call}
    (hstack : s.calls = c :: calls) : Intact w c :=
  hs.calls c (hstack ▸ List.mem_cons_self)

/-- `HookVTable` writes a slot that `Poll` has found unhooked. -/
theorem Sound.writeSlot {w : World} {s : State} (hs : Sound w s) {component : Ptr}
    (hpoll : s.poll = .unhooked component)
    (hslot : s.slots (w.vtableOf component) ≠ w.hook) :
    Sound w { s with
      slots := Function.update s.slots (w.vtableOf component) w.hook
      poll := .wrote component (s.slots (w.vtableOf component)) } := by
  have horig : s.slots (w.vtableOf component) = w.target component := by
    rcases hs.slot (w.vtableOf component) with horig | ⟨hhook, -⟩
    · exact horig
    · exact absurd hhook hslot
  have hp := hs.poll
  rw [hpoll] at hp
  have hpend : pending w s = none := by
    simp [pending, hpoll]
  rw [horig]
  refine { calls := hs.calls, returned := hs.returned, poll := ?_, zero := hs.zero, slot := ?_,
           through := ?_ }
  · cases hp with
    | unhooked hne hnone => exact .wrote hne hnone
  · intro v
    by_cases hv : v = w.vtableOf component
    · subst hv
      exact .inr ⟨Function.update_self .., .inr rfl⟩
    · simp only [Function.update_of_ne hv]
      rcases hs.slot_of_pending_none hpend v with horig | ⟨hhook, hrec⟩
      · exact .inl horig
      · exact .inr ⟨hhook, .inl hrec⟩
  · intro c hc
    have hthrough := hs.through c hc
    by_cases hv : w.vtableOf c.self = w.vtableOf component
    · exact absurd (hv ▸ hthrough) hslot
    · simpa only [Function.update_of_ne hv] using hthrough

/-- `Poll` records the slot it has written. -/
theorem Sound.record {w : World} {s : State} (hs : Sound w s) {component previous : Ptr}
    (hpoll : s.poll = .wrote component previous) :
    Sound w { s with
      hooked := Function.update s.hooked (w.vtableOf component) (some previous)
      poll := .idle } := by
  have hp := hs.poll
  rw [hpoll] at hp
  cases hp with
  | wrote hne hnone =>
      refine { calls := hs.calls, returned := hs.returned, poll := .idle, zero := ?_, slot := ?_,
               through := hs.through }
      · simp only [Function.update_of_ne hne.symm]
        exact hs.zero
      · intro v
        by_cases hv : v = w.vtableOf component
        · subst hv
          rcases hs.slot (w.vtableOf component) with horig | ⟨hhook, -⟩
          · exact .inl horig
          · exact .inr ⟨hhook, .inl (Function.update_self ..)⟩
        · simp only [Function.update_of_ne hv]
          rcases hs.slot v with horig | ⟨hhook, hrec | hrec⟩
          · exact .inl horig
          · exact .inr ⟨hhook, .inl hrec⟩
          · have hpend : pending w s = some (w.vtableOf component) := by
              simp [pending, hpoll]
            rw [hpend] at hrec
            exact absurd (Option.some.inj hrec).symm hv

/-- **Step lemma**: a settled step loses no call. -/
theorem sound_step {w : World} {s t : State} {a : Action} (hs : Sound w s)
    (hok : Settled w s a) (h : step w s a = some t) : Sound w t := by
  cases a with
  | pollRead component =>
      simp only [step] at h
      split at h
      · next hpoll =>
          obtain rfl := Option.some.inj h
          split
          · exact hs
          · next hne => exact hs.setPoll (.read hne) (by simp [pending, hpoll])
      · cases h
  | pollCheck =>
      simp only [step] at h
      split at h
      · next component hpoll =>
          obtain rfl := Option.some.inj h
          have hp := hs.poll
          rw [hpoll] at hp
          cases hp with
          | read hne =>
              refine hs.setPoll ?_ (by simp [pending, hpoll])
              split
              · exact .idle
              · next hnone => exact .unhooked hne (by simpa using hnone)
      · cases h
  | pollHook ok =>
      simp only [step] at h
      split at h
      · next component hpoll =>
          have hidle : Sound w { s with poll := .idle } :=
            hs.setPoll .idle (by simp [pending, hpoll])
          split at h
          · obtain rfl := Option.some.inj h
            exact hidle
          · split at h
            · obtain rfl := Option.some.inj h
              exact hidle
            · next hslot =>
                obtain rfl := Option.some.inj h
                exact hs.writeSlot hpoll hslot
      · cases h
  | pollRecord =>
      simp only [step] at h
      split at h
      · next component previous hpoll =>
          obtain rfl := Option.some.inj h
          exact hs.record hpoll
      · cases h
  | call self =>
      simp only [step] at h
      split at h
      · cases h
      · obtain rfl := Option.some.inj h
        split
        · next hhook =>
            refine hs.setCalls (fun c hc => ?_) hs.returned
            rcases List.mem_cons.mp hc with rfl | hc
            · exact ⟨.entered self, hhook⟩
            · exact ⟨hs.calls c hc, hs.through c hc⟩
        · exact hs
  | lookup readable =>
      obtain ⟨rfl, hpend⟩ := hok
      simp only [step] at h
      split at h
      · next self forwards calls hstack =>
          obtain rfl := Option.some.inj h
          refine hs.setHead hstack rfl ?_
          have hfound : s.hooked (w.vtableOf self) = some (w.target self) :=
            (hs.recorded (hstack ▸ List.mem_cons_self)).resolve_right
              (hpend _ (by simp [hstack]))
          simp only [if_true, hfound]
          cases hs.head hstack with
          | entered => exact .looked self
      · cases h
  | forward =>
      simp only [step] at h
      split at h
      · next self previous forwards calls hstack =>
          obtain rfl := Option.some.inj h
          refine hs.setHead hstack rfl ?_
          cases hs.head hstack with
          | looked => exact .forwarding self
      · cases h
  | ret =>
      simp only [step] at h
      split at h
      · next self forwards calls hstack => cases hs.head hstack
      · next self forwards calls hstack =>
          obtain rfl := Option.some.inj h
          refine hs.popHead hstack ?_
          cases hs.head hstack with
          | forwarding => rfl
      · cases h

/-- Any other lookup finds nothing, and the call is lost. -/
theorem settled_of_safe {w : World} {s t : State} {a : Action} (hs : Sound w s)
    (h : step w s a = some t) (ht : Safe w t) : Settled w s a := by
  cases a with
  | lookup readable =>
      simp only [step] at h
      split at h
      · next self forwards calls hstack =>
          obtain rfl := Option.some.inj h
          have hintact := ht.calls _ List.mem_cons_self
          cases readable with
          | false =>
              simp only [Bool.false_eq_true, if_false, hs.zero] at hintact
              cases hintact
          | true =>
              refine ⟨rfl, fun c hc hpend => ?_⟩
              obtain rfl : ⟨self, .entered, forwards⟩ = c := by simpa [hstack] using hc
              simp only [if_true, hs.hooked_of_pending hpend] at hintact
              cases hintact
      · cases h
  | pollRead | pollCheck | pollHook | pollRecord | call | forward | ret => trivial

/-- **Exactly which runs of the hook lose no call.** For every game, every interleaving of
`Poll`, on any roster, with ProcessEvent calls of the game thread on any objects, nested calls
included, is safe all along precisely when no lookup finds its object unreadable or falls
between the write of its slot and the record of it. -/
theorem safe_iff_settled (w : World) (as : List Action) :
    Always (step w) (Safe w) (start w) as ↔
      EveryStep (step w) (fun s a _ => Settled w s a) (start w) as := by
  refine always_iff_everyStep (I := Sound w) ?_ ?_ ?_ (sound_start w) as
  · intro s hs
    exact hs.toSafe
  · intro s a t hs hok h
    exact sound_step hs hok h
  · intro s a t hs h ht
    exact settled_of_safe hs h ht

/-- One vtable, with the function 2 in its slot; the hook is 3. -/
def oneVTable : World where
  vtableOf _ := 1
  original _ := 2
  hook := 3
  original_ne _ := by decide

/-- The game thread calls ProcessEvent of a component after its slot is written and before the
original is recorded: the call returns without having been forwarded. -/
theorem not_safe_between_write_and_record :
    ¬ ∀ (w : World) (as : List Action), Always (step w) (Safe w) (start w) as := by
  intro hall
  have h := (hall oneVTable
    [.pollRead 10, .pollCheck, .pollHook true, .call 10, .lookup true, .ret]).last rfl
  exact absurd (h.returned _ List.mem_cons_self) (by decide)

end RSDWServerAPI.ChatHook
