import RSDWServerAPI.Bytes
import RSDWServerAPI.Transition

/-!
# How `UObject::ProcessEvent` is found

`engine/process_event.cpp` has two ways to the address of `ProcessEvent`. `Initialize` looks the
symbol up, finds its slot in the vtable of an object and hooks that slot. Where this fails,
`InstallExecPump` replaces the thunk of a server RPC, and the first `PumpThunk` derives the address
from the return addresses on the stack (`DeriveProcessEvent`), unless `g_ProcessEvent` is set.
What can send to players asks `HasProcessEvent`.

A run is any list of calls, each with the world that it finds: the engine, the memory of the game,
and the result of the symbol search.

## Main results

* `gameThreadInitialize_of_failsLate`: what an `Initialize` leaves behind that finds the symbol and
  then fails.
* `deriveProcessEvent_spec`: what the derivation stores.
* `usable_iff_clean`: **the globals are set together, and a failing `Initialize` leaves them as they
  were, exactly in the runs without a late failure that changes them**.
* `noLateFailure_iff_clean`: as long as the thunk runs only where it is installed, those are the
  runs without a late failure.
* `stuck_initThread`, `always_not_hasProcessEvent`: how the server gets into a half-set state, and
  that it stays there.
-/

namespace RSDWServerAPI.ProcessEvent

open Transition

/-! ### Data -/

/-- `uintptr_t`. -/
abbrev Ptr := UInt64

/-- What a call finds. -/
structure World where
  /-- `g_Engine` is set and `IsInitialized`. -/
  initialized : Bool := true
  /-- `FindBySymbol`: the address, `0` if there is none, and `outSource`. -/
  symbol : Ptr := 0
  source : Bytes := []
  /-- The arguments of `Initialize`. -/
  moduleBase : Ptr := 0
  moduleEnd : Ptr := 0
  /-- `g_ImageStart` and `g_ImageEnd`. -/
  imageStart : Ptr := 0
  imageEnd : Ptr := 0
  /-- `GetObjectByIndex` and `FindFunction`. -/
  getObjectByIndex : ℕ → Ptr := fun _ => 0
  findFunction : Bytes → Bytes → Ptr := fun _ _ => 0
  /-- `Mem::ReadPtr` and `Mem::ReadI32`. -/
  readPtr : Ptr → Ptr := fun _ => 0
  readI32 : Ptr → Int32 := fun _ => 0
  /-- `sysconf(_SC_PAGESIZE)`, and whether `mprotect` makes so many bytes there writable. -/
  pageSize : Ptr := 4096
  mprotect : Ptr → Ptr → Bool := fun _ _ => true
  /-- The words of the stack, from `marker` on. -/
  stack : ℕ → Ptr := fun _ => 0

/-- The functions that are put in the place of others. -/
inductive Hook
  | hookedProcessEvent
  | pumpThunk
  deriving DecidableEq, Repr

/-- The globals. -/
structure State where
  /-- `g_Original`, null to begin with. -/
  original : Ptr := 0
  processEvent : Ptr := 0
  vtableIndex : ℤ := -1
  ready : Bool := false
  status : Bytes := bytes "not initialised"
  pumpOriginal : Ptr := 0
  pumpFunction : Ptr := 0
  deriveAttempted : Bool := false
  /-- History: where a hook was stored in the memory of the game. -/
  stores : List (Ptr × Hook) := []
  deriving DecidableEq, Repr

/-- `HasProcessEvent`. -/
def hasProcessEvent (s : State) : Bool :=
  s.processEvent ≠ 0 ∧ s.original ≠ 0

/-! ### Vtables -/

namespace World

variable (w : World)

/-- `Mem::InImage`. -/
def inImage (addr : Ptr) : Bool :=
  w.imageStart ≠ 0 ∧ w.imageStart ≤ addr ∧ addr < w.imageEnd

/-- The entry of a vtable in a slot. -/
def entry (vtable : Ptr) (slot : ℕ) : Ptr :=
  w.readPtr (vtable + UInt64.ofNat slot * 8)

/-- `FindVTableIndex`. -/
def findVTableIndex (vtable target : Ptr) : ℤ :=
  match ((List.range 200).takeWhile fun i => w.entry vtable i ≠ 0).find?
      fun i => w.entry vtable i = target with
  | some i => i
  | none => -1

/-- The body of the first loop of `MatchSharedVTableSlot`. -/
def addVTable (vtables : List Ptr) (i : ℕ) : List Ptr :=
  let object := w.getObjectByIndex i
  let vtable := w.readPtr object
  if 4 ≤ vtables.length ∨ object = 0 ∨ vtable = 0 ∨ ¬ w.inImage vtable ∨ vtable ∈ vtables then
    vtables
  else vtables ++ [vtable]

/-- The vtables that `MatchSharedVTableSlot` compares, at most four. -/
def vtables : List Ptr :=
  (List.range' 1 399).foldl w.addVTable []

/-- The slots that `MatchSharedVTableSlot` looks at: up to the first one that has no function. -/
def slots (first : Ptr) : List ℕ :=
  (List.range' 4 196).takeWhile fun slot =>
    w.entry first slot ≠ 0 ∧ w.inImage (w.entry first slot)

/-- The other vtables have the same entry, and `address` is in a function that begins there. -/
def accepts (address first : Ptr) (others : List Ptr) (slot : ℕ) : Bool :=
  let entry := w.entry first slot
  others.all (fun vtable => w.entry vtable slot = entry) ∧
    entry ≤ address ∧ address - entry ≤ 0x8000 ∧ 0x40 ≤ address - entry

/-- The body of the second loop of `MatchSharedVTableSlot`, with `best` and `bestIndex`. -/
def pick (address first : Ptr) (others : List Ptr) (best : Ptr × ℤ) (slot : ℕ) : Ptr × ℤ :=
  if ¬ w.accepts address first others slot ∨ best.1 ≠ 0 ∧ w.entry first slot ≤ best.1 then best
  else (w.entry first slot, slot)

/-- `MatchSharedVTableSlot` behind the first loop: with one vtable there is nothing to compare. -/
def matchSlot (address : Ptr) : List Ptr → Ptr × ℤ
  | first :: second :: others =>
      (w.slots first).foldl (w.pick address first (second :: others)) (0, -1)
  | _ => (0, -1)

/-- `MatchSharedVTableSlot`, with `outIndex`. -/
def matchSharedVTableSlot (address : Ptr) : Ptr × ℤ :=
  w.matchSlot address w.vtables

/-- The step of the loop of `DeriveProcessEvent` over the stack. -/
def candidate (i : ℕ) : Option (Ptr × ℤ) :=
  let value := w.stack i
  if value = 0 ∨ ¬ w.inImage value then none
  else
    let found := w.matchSharedVTableSlot value
    if found.1 = 0 then none else some found

end World

/-! ### The calls -/

/-- `DeriveProcessEvent`. -/
def deriveProcessEvent (w : World) (s : State) : State :=
  if s.processEvent ≠ 0 ∨ s.deriveAttempted then s
  else if !w.initialized then s
  else
    let s := { s with deriveAttempted := true }
    match (List.range 256).findSome? w.candidate with
    | none => s
    | some (candidate, index) =>
        { s with processEvent := candidate, original := candidate, vtableIndex := index }

/-- `PumpThunk`, as far as it concerns `ProcessEvent`. -/
def pumpThunk (w : World) (s : State) : State :=
  deriveProcessEvent w s

/-- `kPumpCandidates`. -/
def pumpCandidates : List Bytes :=
  [bytes "ServerUpdateCamera", bytes "ServerUpdateLevelVisibility",
    bytes "ServerAcknowledgePossession", bytes "ServerCheckClientPossession"]

/-- The function of a candidate and its thunk, if the pump can take its place. -/
def World.pumpTarget (w : World) (name : Bytes) : Option (Ptr × Ptr) :=
  let function := w.findFunction (bytes "PlayerController") name
  let flags := (w.readI32 (function + 0xB0)).toUInt32
  let original := w.readPtr (function + 0xD8)
  if function = 0 ∨ flags &&& 0x400 = 0 ∨ original = 0 ∨ ¬ w.inImage original then none
  else some (function, original)

/-- `InstallExecPump`. -/
def installExecPump (w : World) (s : State) : Bool × State :=
  if s.ready then (true, s)
  else if !w.initialized then (false, { s with status := bytes "engine not initialised" })
  else
    match pumpCandidates.findSome? fun name => (w.pumpTarget name).map (name, ·) with
    | some (name, function, original) =>
        (true,
          { s with
            pumpFunction := function
            pumpOriginal := original
            stores := s.stores ++ [(function + 0xD8, .pumpThunk)]
            ready := true
            status := bytes "exec-pump on PlayerController." ++ name })
    | none =>
        (false, { s with status := bytes "no native server RPC available to pump from" })

/-- `GameThread::Initialize`. -/
def gameThreadInitialize (w : World) (s : State) : Bool × State :=
  if s.ready then (true, s)
  else if !w.initialized then (false, { s with status := bytes "engine not initialised" })
  else if w.symbol ≠ 0 ∧ w.moduleBase ≤ w.symbol ∧ w.symbol < w.moduleEnd then
    let s := { s with processEvent := w.symbol, status := w.source }
    let sample := w.getObjectByIndex 1
    if sample = 0 then
      (false, { s with status := bytes "no sample object to read a vtable from" })
    else
      let vtable := w.readPtr sample
      if vtable = 0 ∨ ¬ w.inImage vtable then
        (false, { s with status := bytes "sample object vtable is not in the image" })
      else
        let s := { s with vtableIndex := w.findVTableIndex vtable s.processEvent }
        if s.vtableIndex < 0 then
          (false, { s with status := bytes "ProcessEvent not present in the UObject vtable" })
        else
          let slotAddress := vtable + UInt64.ofNat s.vtableIndex.toNat * 8
          let s := { s with original := s.processEvent }
          let page := slotAddress &&& ~~~(w.pageSize - 1)
          if !w.mprotect page (w.pageSize * 2) then
            (false, { s with status := bytes "could not make the vtable page writable" })
          else
            (true,
              { s with
                stores := s.stores ++ [(slotAddress, .hookedProcessEvent)]
                ready := true
                status := bytes "ready (" ++ s.status ++ bytes ", vtable slot " ++
                  decimal s.vtableIndex ++ bytes ")" })
  else
    (false, { s with status := bytes "ProcessEvent not found in .dynsym or .symtab" })

/-- The start of `InitThread`: the exec pump if `Initialize` fails. The two calls may find different
worlds. -/
def initThread (w v : World) (s : State) : Bool × State :=
  match gameThreadInitialize w s with
  | (true, s) => (true, s)
  | (false, s) => installExecPump v s

/-! ### Runs -/

/-- The calls, each with the world that it finds. -/
inductive Action
  | gameThreadInitialize (w : World)
  | installExecPump (w : World)
  | pumpThunk (w : World)

/-- Every call can be made at any time. -/
def step (s : State) : Action → Option State
  | .gameThreadInitialize w => some (gameThreadInitialize w s).2
  | .installExecPump w => some (installExecPump w s).2
  | .pumpThunk w => some (pumpThunk w s)

/-- The address and the function to call are set together. -/
def Consistent (s : State) : Prop :=
  s.processEvent ≠ 0 ↔ s.original ≠ 0

instance (s : State) : Decidable (Consistent s) :=
  inferInstanceAs (Decidable (_ ↔ _))

/-- The three globals are the same. -/
def SameGlobals (s t : State) : Prop :=
  t.processEvent = s.processEvent ∧ t.original = s.original ∧ t.vtableIndex = s.vtableIndex

/-- The call leaves the three globals as they were if it is an `Initialize` that returns false. -/
def Restores (s : State) (a : Action) (t : State) : Prop :=
  ∀ w, a = .gameThreadInitialize w → (gameThreadInitialize w s).1 = false → SameGlobals s t

/-! ### When a call fails late -/

namespace World

variable (w : World)

/-- `FindBySymbol` returns an address inside the image. -/
def FindsSymbol : Prop :=
  w.symbol ≠ 0 ∧ w.moduleBase ≤ w.symbol ∧ w.symbol < w.moduleEnd

/-- The first object has a vtable in the image. -/
def HasVTable : Prop :=
  w.getObjectByIndex 1 ≠ 0 ∧ w.readPtr (w.getObjectByIndex 1) ≠ 0 ∧
    w.inImage (w.readPtr (w.getObjectByIndex 1))

/-- The slot of the symbol in that vtable. -/
def slot : ℤ :=
  w.findVTableIndex (w.readPtr (w.getObjectByIndex 1)) w.symbol

/-- The address of that slot. -/
def slotAddress : Ptr :=
  w.readPtr (w.getObjectByIndex 1) + UInt64.ofNat w.slot.toNat * 8

/-- The page of the slot can be made writable. -/
def CanWrite : Prop :=
  w.mprotect (w.slotAddress &&& ~~~(w.pageSize - 1)) (w.pageSize * 2)

/-- The symbol is found, and a later check fails. -/
def FailsLate : Prop :=
  w.initialized ∧ w.FindsSymbol ∧ ¬ (w.HasVTable ∧ 0 ≤ w.slot ∧ w.CanWrite)

instance : Decidable w.FindsSymbol :=
  inferInstanceAs (Decidable (_ ∧ _))

instance : Decidable w.HasVTable :=
  inferInstanceAs (Decidable (_ ∧ _))

instance : Decidable w.CanWrite :=
  inferInstanceAs (Decidable (_ = true))

instance : Decidable w.FailsLate :=
  inferInstanceAs (Decidable (_ ∧ _))

end World

/-- An `Initialize` that is not answered at once and fails late finds the values in the globals that
it stores before it fails: the address, and the slot if there is a vtable to look in. -/
def Clean (s : State) (a : Action) (_ : State) : Prop :=
  ∀ w, a = .gameThreadInitialize w → s.ready = false → w.FailsLate →
    s.processEvent = w.symbol ∧ (w.HasVTable → s.vtableIndex = w.slot)

/-! ### The derivation -/

namespace World

variable {w : World}

/-- The scan of the slots ends with what it began with, or with an accepted slot. -/
theorem foldl_pick_cases (address first : Ptr) (others : List Ptr) (l : List ℕ)
    (best : Ptr × ℤ) :
    l.foldl (w.pick address first others) best = best ∨
      ∃ slot ∈ l, w.accepts address first others slot ∧
        l.foldl (w.pick address first others) best = (w.entry first slot, (slot : ℤ)) := by
  induction l generalizing best with
  | nil => exact .inl rfl
  | cons slot l ih =>
      rw [List.foldl_cons]
      rcases ih (w.pick address first others best slot) with heq | ⟨i, hi, hacc, heq⟩
      · rw [heq]
        by_cases hskip : ¬ w.accepts address first others slot ∨
            best.1 ≠ 0 ∧ w.entry first slot ≤ best.1
        · exact .inl (if_pos hskip)
        · refine .inr ⟨slot, List.mem_cons_self, ?_, if_neg hskip⟩
          exact not_not.mp (not_or.mp hskip).1
      · exact .inr ⟨i, List.mem_cons_of_mem _ hi, hacc, heq⟩

/-- A step of the scan does not go down. -/
theorem le_pick (address first : Ptr) (others : List Ptr) (best : Ptr × ℤ) (slot : ℕ) :
    best.1 ≤ (w.pick address first others best slot).1 := by
  rw [pick]
  split
  · exact UInt64.le_refl _
  next hkeep =>
    by_cases hzero : best.1 = 0
    · rw [hzero]
      exact UInt64.zero_le
    · have hlt : ¬ w.entry first slot ≤ best.1 := fun hle => hkeep (.inr ⟨hzero, hle⟩)
      exact UInt64.le_of_lt (UInt64.not_le.mp hlt)

/-- The scan ends at no lower entry than any that it accepts. -/
theorem le_foldl_pick (address first : Ptr) (others : List Ptr) (l : List ℕ) (best : Ptr × ℤ) :
    best.1 ≤ (l.foldl (w.pick address first others) best).1 ∧
      ∀ slot ∈ l, w.accepts address first others slot →
        w.entry first slot ≤ (l.foldl (w.pick address first others) best).1 := by
  induction l generalizing best with
  | nil => exact ⟨UInt64.le_refl _, fun _ h => absurd h List.not_mem_nil⟩
  | cons slot l ih =>
      obtain ⟨hle, hall⟩ := ih (w.pick address first others best slot)
      refine ⟨UInt64.le_trans (le_pick address first others best slot) hle, fun i hi hacc => ?_⟩
      rcases List.mem_cons.mp hi with rfl | hi
      · refine UInt64.le_trans ?_ hle
        rw [pick]
        split
        next hskip =>
          rcases hskip with hno | ⟨-, hle⟩
          · exact absurd hacc hno
          · exact hle
        next => exact UInt64.le_refl _
      · exact hall i hi hacc

/-- The slots that are looked at. -/
theorem mem_slots {first : Ptr} {slot : ℕ} (h : slot ∈ w.slots first) :
    4 ≤ slot ∧ slot < 200 := by
  have hsub : List.Sublist (w.slots first) (List.range' 4 196) := List.takeWhile_sublist _
  have hmem := List.mem_range'_1.mp (hsub.subset h)
  omega

/-- **What the comparison finds**: the highest entry, in front of the first slot without a function,
that all vtables have in the same slot and that lies 0x40 to 0x8000 bytes in front of the
address. -/
theorem matchSlot_spec {address : Ptr} {vtables : List Ptr}
    (h : (w.matchSlot address vtables).1 ≠ 0) :
    ∃ first others, vtables = first :: others ∧ others ≠ [] ∧
      ∃ slot ∈ w.slots first, w.accepts address first others slot ∧
        w.matchSlot address vtables = (w.entry first slot, (slot : ℤ)) ∧
        ∀ i ∈ w.slots first, w.accepts address first others i →
          w.entry first i ≤ w.entry first slot := by
  match vtables with
  | [] | [_] => exact absurd rfl h
  | first :: second :: others =>
      rw [matchSlot] at h ⊢
      refine ⟨first, second :: others, rfl, List.cons_ne_nil _ _, ?_⟩
      rcases foldl_pick_cases address first (second :: others) (w.slots first) (0, -1) with
        heq | ⟨slot, hslot, hacc, heq⟩
      · rw [heq] at h
        exact absurd rfl h
      · obtain ⟨-, hle⟩ :=
          le_foldl_pick (w := w) address first (second :: others) (w.slots first) (0, -1)
        rw [heq] at hle
        exact ⟨slot, hslot, hacc, heq, hle⟩

/-- A candidate is an address with its slot. -/
theorem candidate_spec {i : ℕ} {found : Ptr × ℤ} (h : w.candidate i = some found) :
    found.1 ≠ 0 ∧ 0 ≤ found.2 := by
  rw [candidate] at h
  simp only [Option.ite_none_left_eq_some, Option.some.injEq] at h
  obtain ⟨-, hzero, rfl⟩ := h
  rw [matchSharedVTableSlot] at hzero ⊢
  obtain ⟨_, _, -, -, slot, -, -, heq, -⟩ := matchSlot_spec hzero
  refine ⟨hzero, ?_⟩
  rw [heq]
  exact Int.natCast_nonneg slot

end World

/-- What a derivation can do: nothing to the three globals, or, with the address not known yet,
store a candidate and its slot. -/
theorem deriveProcessEvent_cases (w : World) (s : State) :
    (∃ attempted, deriveProcessEvent w s = { s with deriveAttempted := attempted }) ∨
      s.processEvent = 0 ∧ ∃ candidate index, candidate ≠ 0 ∧ 0 ≤ index ∧
        deriveProcessEvent w s =
          { s with
            deriveAttempted := true, processEvent := candidate, original := candidate
            vtableIndex := index } := by
  rw [deriveProcessEvent]
  split
  · exact .inl ⟨s.deriveAttempted, rfl⟩
  next hopen =>
    split
    · exact .inl ⟨s.deriveAttempted, rfl⟩
    · dsimp only
      split
      · exact .inl ⟨true, rfl⟩
      next candidate index hfound =>
        obtain ⟨i, -, hi⟩ := List.exists_of_findSome?_eq_some hfound
        obtain ⟨hne, hle⟩ := World.candidate_spec hi
        exact .inr ⟨not_not.mp (not_or.mp hopen).1, candidate, index, hne, hle, rfl⟩

/-- **The fallback**: with nothing stored and no attempt made, a derivation makes `ProcessEvent`
known exactly when some word on the stack leads to a candidate. -/
theorem deriveProcessEvent_spec {w : World} {s : State} (hready : w.initialized = true)
    (hzero : s.processEvent = 0) (hattempt : s.deriveAttempted = false) :
    hasProcessEvent (deriveProcessEvent w s) = true ↔ ∃ i < 256, (w.candidate i).isSome := by
  rw [deriveProcessEvent, if_neg (by simp [hzero, hattempt]), if_neg (by simp [hready])]
  dsimp only
  split
  next hnone =>
    rw [List.findSome?_eq_none_iff] at hnone
    simp only [hasProcessEvent, hzero, decide_eq_true_eq]
    refine ⟨fun h => absurd rfl h.1, fun ⟨i, hi, hsome⟩ => ?_⟩
    rw [hnone i (List.mem_range.mpr hi)] at hsome
    exact absurd hsome Bool.false_ne_true
  next candidate index hfound =>
    obtain ⟨i, hi, hsome⟩ := List.exists_of_findSome?_eq_some hfound
    have hne := (World.candidate_spec hsome).1
    simp only [hasProcessEvent, decide_eq_true_eq]
    exact ⟨fun _ => ⟨i, List.mem_range.mp hi, by simp [hsome]⟩, fun _ => ⟨hne, hne⟩⟩

/-! ### `Initialize` -/

section Initialize

variable {w : World} {s : State}

/-- A call that is answered at once, or finds no engine or no symbol. -/
theorem gameThreadInitialize_of_early (h : ¬ (s.ready = false ∧ w.initialized ∧ w.FindsSymbol)) :
    ∃ status, gameThreadInitialize w s = (s.ready, { s with status := status }) := by
  rw [gameThreadInitialize]
  by_cases hready : s.ready = true
  · rw [if_pos hready, hready]
    exact ⟨s.status, by rw [← hready]⟩
  · have hready : s.ready = false := Bool.eq_false_iff.mpr hready
    rw [if_neg (by simp [hready]), hready]
    by_cases hinit : w.initialized = true
    · have hsymbol : ¬ w.FindsSymbol := fun hsymbol => h ⟨hready, hinit, hsymbol⟩
      rw [World.FindsSymbol] at hsymbol
      rw [if_neg (by simp [hinit]), if_neg hsymbol]
      exact ⟨_, by rw [← hready]⟩
    · rw [if_pos (by simpa using hinit)]
      exact ⟨_, by rw [← hready]⟩

/-- **What a late failure leaves behind**: the address, the slot if there is a vtable, and the
function to call if only the page could not be written. -/
theorem gameThreadInitialize_of_failsLate (hready : s.ready = false) (h : w.FailsLate) :
    ∃ status, gameThreadInitialize w s =
      (false,
        { s with
          processEvent := w.symbol
          vtableIndex := if w.HasVTable then w.slot else s.vtableIndex
          original := if w.HasVTable ∧ 0 ≤ w.slot then w.symbol else s.original
          status := status }) := by
  obtain ⟨hinit, hsymbol, hlate⟩ := h
  rw [World.FindsSymbol] at hsymbol
  rw [gameThreadInitialize, if_neg (by simp [hready]), if_neg (by simp [hinit]),
    if_pos hsymbol]
  dsimp only
  rw [← World.slot, ← World.slotAddress]
  by_cases hsample : w.getObjectByIndex 1 = 0
  · have hno : ¬ w.HasVTable := fun h => h.1 hsample
    rw [if_pos hsample, if_neg hno, if_neg fun h => hno h.1]
    exact ⟨_, rfl⟩
  rw [if_neg hsample]
  by_cases hvtable : w.HasVTable
  · rw [if_neg (by simpa using hvtable.2), if_pos hvtable]
    by_cases hslot : 0 ≤ w.slot
    · have hwrite : ¬ w.CanWrite := fun hwrite => hlate ⟨hvtable, hslot, hwrite⟩
      rw [if_neg (Int.not_lt.mpr hslot), if_pos (by simpa [World.CanWrite] using hwrite),
        if_pos ⟨hvtable, hslot⟩]
      exact ⟨_, rfl⟩
    · rw [if_pos (Int.not_le.mp hslot), if_neg fun h => hslot h.2]
      exact ⟨_, rfl⟩
  · have hbad : w.readPtr (w.getObjectByIndex 1) = 0 ∨
        ¬ w.inImage (w.readPtr (w.getObjectByIndex 1)) := by
      by_contra hgood
      exact hvtable ⟨hsample, not_or.mp hgood |>.1, not_not.mp (not_or.mp hgood).2⟩
    rw [if_pos hbad, if_neg hvtable, if_neg fun h => hvtable h.1]
    exact ⟨_, rfl⟩

/-- A call that passes all checks. -/
theorem gameThreadInitialize_of_succeeds (hready : s.ready = false) (hinit : w.initialized)
    (hsymbol : w.FindsSymbol) (hvtable : w.HasVTable) (hslot : 0 ≤ w.slot)
    (hwrite : w.CanWrite) :
    ∃ status, gameThreadInitialize w s =
      (true,
        { s with
          processEvent := w.symbol
          vtableIndex := w.slot
          original := w.symbol
          ready := true
          status := status
          stores := s.stores ++ [(w.slotAddress, .hookedProcessEvent)] }) := by
  rw [World.FindsSymbol] at hsymbol
  rw [gameThreadInitialize, if_neg (by simp [hready]), if_neg (by simp [hinit]),
    if_pos hsymbol]
  dsimp only
  rw [← World.slot, ← World.slotAddress]
  rw [if_neg hvtable.1, if_neg (by simpa using hvtable.2), if_neg (Int.not_lt.mpr hslot),
    if_neg (by simpa [World.CanWrite] using hwrite)]
  exact ⟨_, rfl⟩

/-- **Inversion**: a call changes the status at most, fails late, or passes all checks. -/
theorem gameThreadInitialize_cases (w : World) (s : State) :
    (∃ status, gameThreadInitialize w s = (s.ready, { s with status := status })) ∨
      (s.ready = false ∧ w.FailsLate) ∨
      0 ≤ w.slot ∧ ∃ status, gameThreadInitialize w s =
        (true,
          { s with
            processEvent := w.symbol
            vtableIndex := w.slot
            original := w.symbol
            ready := true
            status := status
            stores := s.stores ++ [(w.slotAddress, .hookedProcessEvent)] }) := by
  by_cases hearly : s.ready = false ∧ w.initialized ∧ w.FindsSymbol
  · obtain ⟨hready, hinit, hsymbol⟩ := hearly
    by_cases hpass : w.HasVTable ∧ 0 ≤ w.slot ∧ w.CanWrite
    · obtain ⟨hvtable, hslot, hwrite⟩ := hpass
      exact .inr (.inr ⟨hslot,
        gameThreadInitialize_of_succeeds hready hinit hsymbol hvtable hslot hwrite⟩)
    · exact .inr (.inl ⟨hready, hinit, hsymbol, hpass⟩)
  · exact .inl (gameThreadInitialize_of_early hearly)

end Initialize

/-- `InstallExecPump` changes the status at most, or puts the pump in place. -/
theorem installExecPump_cases (w : World) (s : State) :
    (∃ status, installExecPump w s = (s.ready, { s with status := status })) ∨
      ∃ name function original, installExecPump w s =
        (true,
          { s with
            pumpFunction := function
            pumpOriginal := original
            stores := s.stores ++ [(function + 0xD8, .pumpThunk)]
            ready := true
            status := bytes "exec-pump on PlayerController." ++ name }) := by
  rw [installExecPump]
  cases hready : s.ready with
  | true => exact .inl ⟨s.status, by rw [if_pos rfl, ← hready]⟩
  | false =>
      rw [if_neg Bool.false_ne_true]
      split
      · exact .inl ⟨_, by rw [← hready]⟩
      · split
        next name function original _ => exact .inr ⟨name, function, original, rfl⟩
        next => exact .inl ⟨_, by rw [← hready]⟩

/-! ### Clean runs -/

/-- What clean runs keep: the function to call is at the address, and its slot is known. -/
structure Sound (s : State) : Prop where
  original : s.original = s.processEvent
  slot : s.processEvent ≠ 0 → 0 ≤ s.vtableIndex

/-- At the start nothing is known. -/
theorem sound_start : Sound {} where
  original := rfl
  slot h := absurd rfl h

/-- In a sound state the two are set together. -/
theorem Sound.consistent {s : State} (h : Sound s) : Consistent s := by
  rw [Consistent, h.original]

/-- Soundness is about the three globals. -/
theorem Sound.of_sameGlobals {s t : State} (h : Sound s) (hsame : SameGlobals s t) : Sound t where
  original := by rw [hsame.1, hsame.2.1, h.original]
  slot := by rw [hsame.1, hsame.2.2]; exact h.slot

section Step

variable {s t : State} {a : Action}

/-- In a sound state the clean calls are those that restore the globals when they fail. -/
theorem restores_iff_clean (hs : Sound s) (h : step s a = some t) :
    Restores s a t ↔ Clean s a t := by
  cases a with
  | gameThreadInitialize w =>
      obtain rfl : (gameThreadInitialize w s).2 = t := Option.some.inj h
      by_cases hlate : s.ready = false ∧ w.FailsLate
      · obtain ⟨hready, hlate⟩ := hlate
        obtain ⟨status, heq⟩ := gameThreadInitialize_of_failsLate hready hlate
        have hrestores : Restores s (.gameThreadInitialize w) (gameThreadInitialize w s).2 ↔
            SameGlobals s (gameThreadInitialize w s).2 :=
          ⟨fun h => h w rfl (by rw [heq]), fun h _ _ _ => h⟩
        have hclean : Clean s (.gameThreadInitialize w) (gameThreadInitialize w s).2 ↔
            s.processEvent = w.symbol ∧ (w.HasVTable → s.vtableIndex = w.slot) :=
          ⟨fun h => h w rfl hready hlate, fun h v hv _ _ => by cases hv; exact h⟩
        rw [hrestores, hclean, heq, SameGlobals]
        refine ⟨fun ⟨hsymbol, _, hindex⟩ => ⟨hsymbol.symm, fun hvtable => ?_⟩,
          fun ⟨hsymbol, hindex⟩ => ⟨hsymbol.symm, ?_, ?_⟩⟩
        · exact (ite_eq_right_iff.mp hindex hvtable).symm
        · exact ite_eq_right_iff.mpr fun _ => (hs.original.trans hsymbol).symm
        · exact ite_eq_right_iff.mpr fun hvtable => (hindex hvtable).symm
      · refine iff_of_true (fun v hv hfalse => ?_) fun v hv hready h => ?_
        · cases hv
          rcases gameThreadInitialize_cases w s with ⟨status, heq⟩ | h | ⟨-, status, heq⟩
          · rw [heq]
            exact ⟨rfl, rfl, rfl⟩
          · exact absurd h hlate
          · rw [heq] at hfalse
            exact absurd hfalse.symm Bool.false_ne_true
        · cases hv
          exact absurd ⟨hready, h⟩ hlate
  | installExecPump w => exact iff_of_true (fun _ hv => by cases hv) (fun _ hv => by cases hv)
  | pumpThunk w => exact iff_of_true (fun _ hv => by cases hv) (fun _ hv => by cases hv)

/-- **Step**: a clean call keeps soundness. -/
theorem sound_step (hs : Sound s) (hclean : Clean s a t) (h : step s a = some t) : Sound t := by
  cases a with
  | gameThreadInitialize w =>
      have hrestores := (restores_iff_clean hs h).mpr hclean
      obtain rfl : (gameThreadInitialize w s).2 = t := Option.some.inj h
      rcases gameThreadInitialize_cases w s with
        ⟨status, heq⟩ | ⟨hready, hlate⟩ | ⟨hslot, status, heq⟩
      · rw [heq]
        exact hs.of_sameGlobals ⟨rfl, rfl, rfl⟩
      · obtain ⟨status, heq⟩ := gameThreadInitialize_of_failsLate hready hlate
        exact hs.of_sameGlobals (hrestores w rfl (by rw [heq]))
      · rw [heq]
        exact ⟨rfl, fun _ => hslot⟩
  | installExecPump w =>
      obtain rfl : (installExecPump w s).2 = t := Option.some.inj h
      rcases installExecPump_cases w s with ⟨status, heq⟩ | ⟨name, function, original, heq⟩
      · rw [heq]
        exact hs.of_sameGlobals ⟨rfl, rfl, rfl⟩
      · rw [heq]
        exact hs.of_sameGlobals ⟨rfl, rfl, rfl⟩
  | pumpThunk w =>
      obtain rfl : pumpThunk w s = t := Option.some.inj h
      rw [pumpThunk]
      rcases deriveProcessEvent_cases w s with ⟨attempted, heq⟩ | ⟨-, c, i, -, hindex, heq⟩
      · rw [heq]
        exact hs.of_sameGlobals ⟨rfl, rfl, rfl⟩
      · rw [heq]
        exact ⟨rfl, fun _ => hindex⟩

end Step

/-- **The globals are set together, and a failing call leaves them as they were, exactly in the
clean runs.** -/
theorem usable_iff_clean (as : List Action) :
    Always step Consistent {} as ∧ EveryStep step Restores {} as ↔ EveryStep step Clean {} as := by
  constructor
  · rintro ⟨-, h⟩
    refine everyStep_of_invariant (fun s a t hs hq ht => ?_)
      (fun s a t hs hq ht => (restores_iff_clean hs ht).mp hq) sound_start h
    exact sound_step hs ((restores_iff_clean hs ht).mp hq) ht
  · intro h
    have hstep : ∀ s a t, Sound s → Clean s a t → step s a = some t → Sound t :=
      fun s a t hs hq ht => sound_step hs hq ht
    refine ⟨(always_of_everyStep hstep sound_start h).mono fun s hs => hs.consistent, ?_⟩
    exact everyStep_of_invariant hstep
      (fun s a t hs hq ht => (restores_iff_clean hs ht).mpr hq) sound_start h

/-- A server whose symbol table has `ProcessEvent`, with a first object that does not have it in its
vtable and an RPC that can be pumped from. -/
def missingSlot : World where
  symbol := 0x401000
  source := bytes "elf-symtab"
  moduleBase := 0x400000
  moduleEnd := 0x500000
  imageStart := 0x400000
  imageEnd := 0x500000
  getObjectByIndex i := if i = 1 then 0x7000 else 0
  findFunction _ name := if name = bytes "ServerUpdateCamera" then 0x8000 else 0
  readPtr addr :=
    if addr = 0x7000 then 0x410000 else if addr = 0x410000 then 0x402000
    else if addr = 0x80D8 then 0x403000 else 0
  readI32 addr := if addr = 0x80B0 then 0x400 else 0

example : missingSlot.FailsLate ∧ missingSlot.HasVTable ∧ missingSlot.slot = -1 := by decide

/-- `InitThread` falls back on the exec pump, and the first thunk has nothing left to derive. -/
def missingSlotRun : List Action :=
  [.gameThreadInitialize missingSlot, .installExecPump missingSlot, .pumpThunk missingSlot]

/-- `Initialize` returns false and leaves the address behind, without the function to call. -/
theorem not_usable_missingSlotRun :
    ¬ (Always step Consistent {} missingSlotRun ∧ EveryStep step Restores {} missingSlotRun) := by
  rintro ⟨h, -⟩
  have hlast : Consistent (pumpThunk missingSlot (installExecPump missingSlot
      (gameThreadInitialize missingSlot {}).2).2) := h.last rfl
  exact absurd hlast (by decide)

/-! ### The thunk where it is installed -/

/-- The thunk runs behind `InstallExecPump` only. -/
def Installed (s : State) (a : Action) (_ : State) : Prop :=
  ∀ w, a = .pumpThunk w → s.pumpFunction ≠ 0

/-- An `Initialize` that is not answered at once does not fail late. -/
def NoLateFailure (s : State) (a : Action) (_ : State) : Prop :=
  ∀ w, a = .gameThreadInitialize w → s.ready = false → ¬ w.FailsLate

/-- Without a pump nothing is known yet. -/
structure Waiting (s : State) : Prop where
  processEvent : s.ready = false → s.processEvent = 0
  pumpFunction : s.ready = false → s.pumpFunction = 0

/-- While nothing is known yet, a clean call does not fail late. -/
theorem Waiting.noLateFailure {s t : State} {a : Action} (h : Waiting s) (hclean : Clean s a t) :
    NoLateFailure s a t := by
  intro w hw hready hlate
  obtain ⟨hsymbol, -⟩ := hclean w hw hready hlate
  exact hlate.2.1.1 (hsymbol.symm.trans (h.processEvent hready))

/-- **Step**: without a late failure and with the thunk in its place, nothing is known before a pump
is there. -/
theorem Waiting.step {s t : State} {a : Action} (h : Waiting s) (hinstalled : Installed s a t)
    (hlate : NoLateFailure s a t) (ht : step s a = some t) : Waiting t := by
  cases a with
  | gameThreadInitialize w =>
      obtain rfl : (gameThreadInitialize w s).2 = t := Option.some.inj ht
      rcases gameThreadInitialize_cases w s with
        ⟨status, heq⟩ | ⟨hready, hfails⟩ | ⟨-, status, heq⟩
      · rw [heq]
        exact ⟨h.processEvent, h.pumpFunction⟩
      · exact absurd hfails (hlate w rfl hready)
      · rw [heq]
        exact ⟨fun hready => absurd hready.symm Bool.false_ne_true,
          fun hready => absurd hready.symm Bool.false_ne_true⟩
  | installExecPump w =>
      obtain rfl : (installExecPump w s).2 = t := Option.some.inj ht
      rcases installExecPump_cases w s with ⟨status, heq⟩ | ⟨name, function, original, heq⟩
      · rw [heq]
        exact ⟨h.processEvent, h.pumpFunction⟩
      · rw [heq]
        exact ⟨fun hready => absurd hready.symm Bool.false_ne_true,
          fun hready => absurd hready.symm Bool.false_ne_true⟩
  | pumpThunk w =>
      obtain rfl : pumpThunk w s = t := Option.some.inj ht
      have hready : ¬ s.ready = false := fun hready =>
        hinstalled w rfl (h.pumpFunction hready)
      have hsame : (pumpThunk w s).ready = s.ready := by
        rw [pumpThunk]
        rcases deriveProcessEvent_cases w s with ⟨attempted, heq⟩ | ⟨-, c, i, -, -, heq⟩
        · rw [heq]
        · rw [heq]
      rw [← hsame] at hready
      exact ⟨fun h => absurd h hready, fun h => absurd h hready⟩

/-- As long as the thunk runs only where it is installed, the clean runs are those without a late
failure. -/
theorem noLateFailure_iff_clean {as : List Action} (h : EveryStep step Installed {} as) :
    EveryStep step NoLateFailure {} as ↔ EveryStep step Clean {} as := by
  have hstart : Waiting {} := ⟨fun _ => rfl, fun _ => rfl⟩
  constructor
  · intro hlate
    exact everyStep_of_invariant (I := Waiting)
      (fun s a t hs hq ht => hs.step hq.1 hq.2 ht)
      (fun s a t hs hq ht w hw hready hfails => absurd hfails (hq.2 w hw hready)) hstart
      (h.and hlate)
  · intro hclean
    exact everyStep_of_invariant (I := Waiting)
      (fun s a t hs hq ht => hs.step hq.1 (hs.noLateFailure hq.2) ht)
      (fun s a t hs hq ht => hs.noLateFailure hq.2) hstart (h.and hclean)

/-! ### The half-set state -/

/-- A pump is there and the address is set, but not the function to call. -/
structure Stuck (s : State) : Prop where
  ready : s.ready = true
  processEvent : s.processEvent ≠ 0
  original : s.original = 0

/-- **Step**: no call gets out of the half-set state. -/
theorem Stuck.step {s t : State} {a : Action} (h : Stuck s) (ht : step s a = some t) :
    Stuck t := by
  cases a with
  | gameThreadInitialize w =>
      obtain rfl : (gameThreadInitialize w s).2 = t := Option.some.inj ht
      rw [gameThreadInitialize, if_pos h.ready]
      exact h
  | installExecPump w =>
      obtain rfl : (installExecPump w s).2 = t := Option.some.inj ht
      rw [installExecPump, if_pos h.ready]
      exact h
  | pumpThunk w =>
      obtain rfl : pumpThunk w s = t := Option.some.inj ht
      rw [pumpThunk, deriveProcessEvent, if_pos (.inl h.processEvent)]
      exact h

/-- **A half-set state stays so for ever**: `HasProcessEvent` is false whatever is called. -/
theorem always_not_hasProcessEvent {s : State} (h : Stuck s) (as : List Action) :
    Always step (fun t => hasProcessEvent t = false) s as := by
  refine (Always.of_invariant (fun s a t hs ht => hs.step ht) h as).mono fun t ht => ?_
  simp [hasProcessEvent, ht.original]

/-- `InitThread` gets into the half-set state when there is no vtable or no slot, but a pump. -/
theorem stuck_initThread {w v : World} (hlate : w.FailsLate)
    (hslot : ¬ (w.HasVTable ∧ 0 ≤ w.slot)) (hpump : (initThread w v {}).1 = true) :
    Stuck (initThread w v {}).2 := by
  obtain ⟨status, heq⟩ := gameThreadInitialize_of_failsLate (s := {}) rfl hlate
  rw [if_neg hslot] at heq
  rw [initThread, heq] at hpump ⊢
  dsimp only at hpump ⊢
  have hsymbol : w.symbol ≠ 0 := hlate.2.1.1
  rcases installExecPump_cases v _ with ⟨status, hexec⟩ | ⟨name, function, original, hexec⟩
  · rw [hexec] at hpump
    exact absurd hpump Bool.false_ne_true
  · rw [hexec]
    exact ⟨rfl, hsymbol, rfl⟩

end RSDWServerAPI.ProcessEvent
