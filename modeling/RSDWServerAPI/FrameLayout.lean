import RSDWServerAPI.Loops
import RSDWServerAPI.ProcessMemory

/-!
# Calls of native functions

`NativeCall::Invoke` of `engine/native_call.cpp` calls the thunk of a native function with a frame
of its own. Where the fields of an `FFrame` are is not known beforehand: `PumpThunk` of
`engine/process_event.cpp` looks for values that it knows in the frames that the game calls it with
(`LearnFrameLayout`), until it has found them once.

A run is the list of the calls of `PumpThunk`, each with the memory that it finds.

## Main results

* `learned_spec`: **the layout is that of the first frame in which the function and its properties
  are found**, and stays so.
* `invoke_spec`: **`Invoke` never leaves its frame**, and the thunk finds there what it is given if
  the frame that was learned from was tidy.
-/

namespace RSDWServerAPI.FrameLayout

open Loops Mem RawMemory

/-! ### `process_event.cpp` -/

/-- `kFunctionFlags`. -/
def kFunctionFlags : Ptr := 0xB0

/-- `kExecFunction`. -/
def kExecFunction : Ptr := 0xD8

/-- `kFuncNative`. -/
def kFuncNative : UInt32 := 0x00000400

/-- `kChildProperties`. -/
def kChildProperties : Ptr := 0x50

/-- `g_OffNode` and the other offsets, when `g_LayoutReady` is set. -/
structure Layout where
  node : ℕ
  object : ℕ
  code : ℕ
  locals : ℕ
  propertyChain : ℕ
  deriving DecidableEq, Repr

/-- A call of `PumpThunk`: the game at that moment, `g_PumpFunction`, and the arguments. -/
structure PumpCall where
  process : Process
  pumpFunction : Ptr
  frame : Ptr
  context : Ptr

/-- The locals of the loop of `LearnFrameLayout`. -/
structure Slots where
  node : ℕ := 0
  object : ℕ := 0
  propertyChain : ℕ := 0
  deriving DecidableEq, Repr

/-- The offsets that are looked at. -/
def offsets : List ℕ :=
  (List.range 48).map (· * 8)

/-- The body of the loop. -/
def noteSlot (c : PumpCall) (chain : Ptr) (s : Slots) (offset : ℕ) : Except Fault Slots := do
  let value ← c.process.readPtr (c.frame + UInt64.ofNat offset)
  if value = 0 then return s
  return {
    node := if s.node = 0 ∧ value = c.pumpFunction then offset else s.node
    object := if s.object = 0 ∧ c.context ≠ 0 ∧ value = c.context then offset else s.object
    propertyChain :=
      if s.propertyChain = 0 ∧ chain ≠ 0 ∧ value = chain then offset else s.propertyChain }

/-- `LearnFrameLayout`. -/
def learnFrameLayout (layout : Option Layout) (c : PumpCall) : Except Fault (Option Layout) :=
  if layout.isSome ∨ c.frame = 0 ∨ c.pumpFunction = 0 then return layout
  else do
    let chain ← c.process.readPtr (c.pumpFunction + kChildProperties)
    let s ← offsets.foldlM (noteSlot c chain) {}
    if s.node = 0 ∨ s.propertyChain = 0 then return none
    return some {
      node := s.node
      object := if s.object ≠ 0 then s.object else s.node + 0x08
      code := s.node + 0x10
      locals := s.node + 0x18
      propertyChain := s.propertyChain }

/-- The layout after a run. -/
def learned (run : List PumpCall) : Except Fault (Option Layout) :=
  run.foldlM learnFrameLayout none

/-! ### `native_call.cpp` -/

/-- A call of a thunk: the function, and its arguments. -/
structure ThunkCall where
  exec : Ptr
  context : Ptr
  frame : ByteMemory
  result : Ptr

/-- `NativeCall::IsNative`. -/
def isNative (p : Process) (function : Ptr) : Except Fault Bool :=
  if function = 0 ∨ p.readable function 0xE0 = false then return false
  else do
    let flags ← p.readI32 (function + kFunctionFlags)
    return flags.toUInt32 &&& kFuncNative != 0

/-- The frame that `Invoke` fills in. -/
def frameOf (l : Layout) (context function params chain : Ptr) : Except Fault ByteMemory := do
  let frame := buffer (List.replicate 0x200 0)
  let frame ← store frame l.node (bytesOf 8 function.toNat)
  let frame ← store frame l.object (bytesOf 8 context.toNat)
  let frame ← store frame l.code (bytesOf 8 0)
  let frame ← store frame l.locals (bytesOf 8 params.toNat)
  store frame l.propertyChain (bytesOf 8 chain.toNat)

/-- `NativeCall::Invoke`: the call of the thunk, `none` for the result `false`. -/
def invoke (p : Process) (layout : Option Layout)
    (context function params returnValueOffset : Ptr) : Except Fault (Option ThunkCall) :=
  if context = 0 ∨ function = 0 ∨ params = 0 then return none
  else if p.readable function 0xE0 = false then return none
  else do
    let flags ← p.readI32 (function + kFunctionFlags)
    if flags.toUInt32 &&& kFuncNative = 0 then return none
    let exec ← p.readPtr (function + kExecFunction)
    if exec = 0 ∨ p.inImage exec = false then return none
    match layout with
    | none => return none
    | some l =>
      let chain ← p.readPtr (function + kChildProperties)
      if chain = 0 then return none
      let frame ← frameOf l context function params chain
      return some ⟨exec, context, frame, params + returnValueOffset⟩

/-! ### What is learned -/

namespace PumpCall

variable (c : PumpCall)

/-- A word of the frame. -/
def word (offset : ℕ) : Ptr :=
  c.process.ptr (c.frame + UInt64.ofNat offset)

/-- The properties of the pump function. -/
def chain : Ptr :=
  c.process.ptr (c.pumpFunction + kChildProperties)

/-- The first word of the frame, but for the word at `0`, that is the value. -/
structure IsFirstAt (value : Ptr) (offset : ℕ) : Prop where
  value_ne : value ≠ 0
  mem : offset ∈ offsets
  pos : 0 < offset
  word_eq : c.word offset = value
  first : ∀ earlier ∈ offsets, 0 < earlier → earlier < offset → c.word earlier ≠ value

/-- Where a value is found, `0` if it is not. -/
def slotFor (value : Ptr) : ℕ :=
  (offsets.find? fun offset => offset ≠ 0 ∧ value ≠ 0 ∧ c.word offset = value).getD 0

/-- The layout that the frame shows. -/
def layout : Option Layout :=
  if c.frame = 0 ∨ c.pumpFunction = 0 ∨ c.slotFor c.pumpFunction = 0 ∨ c.slotFor c.chain = 0 then
    none
  else some {
    node := c.slotFor c.pumpFunction
    object := if c.slotFor c.context ≠ 0 then c.slotFor c.context
      else c.slotFor c.pumpFunction + 0x08
    code := c.slotFor c.pumpFunction + 0x10
    locals := c.slotFor c.pumpFunction + 0x18
    propertyChain := c.slotFor c.chain }

variable {c}

/-- The offsets are the places of the 48 words. -/
theorem mem_offsets {offset : ℕ} : offset ∈ offsets ↔ ∃ k < 48, offset = k * 8 := by
  rw [offsets, List.mem_map]
  simp only [List.mem_range, eq_comm]

/-- The offsets are looked at in ascending order. -/
theorem offsets_sorted : offsets.Pairwise (· < ·) := by
  rw [offsets, List.pairwise_map]
  exact List.pairwise_lt_range.imp fun h => by omega

/-- A value is found at its first place. -/
theorem isFirstAt_slotFor {value : Ptr} (h : c.slotFor value ≠ 0) :
    c.IsFirstAt value (c.slotFor value) := by
  rw [slotFor] at h ⊢
  cases hfind : offsets.find? fun offset => offset ≠ 0 ∧ value ≠ 0 ∧ c.word offset = value with
  | none =>
      rw [hfind] at h
      exact absurd rfl h
  | some offset =>
      obtain ⟨hfits, before, after, hsplit, hbefore⟩ := List.find?_eq_some_iff_append.mp hfind
      obtain ⟨hpos, hvalue, hword⟩ := of_decide_eq_true hfits
      rw [Option.getD_some]
      refine ⟨hvalue, List.mem_of_find?_eq_some hfind, by omega, hword, ?_⟩
      intro earlier hearlier hpos' hlt heq
      have hsorted := offsets_sorted
      rw [hsplit, List.pairwise_append, List.pairwise_cons] at hsorted
      rw [hsplit, List.mem_append, List.mem_cons] at hearlier
      rcases hearlier with hin | rfl | hin
      · have hno := hbefore earlier hin
        simp only [Bool.not_eq_true', decide_eq_false_iff_not] at hno
        exact hno ⟨by omega, hvalue, heq⟩
      · omega
      · have := hsorted.2.1.1 earlier hin
        omega

/-- The body of the loop does not fault. -/
theorem noteSlot_eq (chain : Ptr) (s : Slots) (offset : ℕ) :
    noteSlot c chain s offset = .ok {
      node := keepFirst 0 (fun o => c.pumpFunction ≠ 0 ∧ c.word o = c.pumpFunction) s.node offset
      object := keepFirst 0 (fun o => c.context ≠ 0 ∧ c.word o = c.context) s.object offset
      propertyChain := keepFirst 0 (fun o => chain ≠ 0 ∧ c.word o = chain) s.propertyChain
        offset } := by
  have hword : c.process.ptr (c.frame + UInt64.ofNat offset) = c.word offset := rfl
  rw [noteSlot, readPtr_eq, ok_bind, hword]
  have hkeep : ∀ (value : Ptr) (slot : ℕ), c.word offset = 0 →
      keepFirst 0 (fun o => decide (value ≠ 0 ∧ c.word o = value)) slot offset = slot := by
    intro value slot hnull
    rw [keepFirst, if_neg]
    rintro ⟨-, hfits⟩
    obtain ⟨hne, heq⟩ := of_decide_eq_true hfits
    exact hne (heq.symm.trans hnull)
  by_cases hnull : c.word offset = 0
  · rw [if_pos hnull, hkeep _ _ hnull, hkeep _ _ hnull, hkeep _ _ hnull]
    rfl
  · rw [if_neg hnull]
    by_cases hpump : c.pumpFunction = 0
    · simp [keepFirst, hpump, hnull]
    · simp [keepFirst, hpump]

/-- A loop over the slots is one loop for each of them. -/
theorem foldl_slots (f g h : ℕ → ℕ → ℕ) (l : List ℕ) (s : Slots) :
    l.foldl (fun s offset => {
        node := f s.node offset
        object := g s.object offset
        propertyChain := h s.propertyChain offset }) s =
      { node := l.foldl f s.node
        object := l.foldl g s.object
        propertyChain := l.foldl h s.propertyChain } := by
  induction l generalizing s with
  | nil => rfl
  | cons offset l ih => rw [List.foldl_cons, ih, List.foldl_cons, List.foldl_cons, List.foldl_cons]

/-- The loop finds each of the values. -/
theorem foldlM_noteSlot (chain : Ptr) :
    offsets.foldlM (noteSlot c chain) {} = .ok {
      node := c.slotFor c.pumpFunction
      object := c.slotFor c.context
      propertyChain := c.slotFor chain } := by
  have hslot : ∀ value, offsets.foldl
      (keepFirst 0 fun o => decide (value ≠ 0 ∧ c.word o = value)) 0 = c.slotFor value := by
    intro value
    rw [foldl_keepFirst, slotFor]
    simp only [decide_eq_true_eq]
  rw [foldlM_eq_ok fun offset _ s => noteSlot_eq chain s offset]
  refine congrArg Except.ok ?_
  rw [foldl_slots, hslot, hslot, hslot]

/-- **What `LearnFrameLayout` does**: a layout that is known stays, and otherwise it is the one that
the frame shows. -/
theorem learnFrameLayout_eq (layout : Option Layout) :
    learnFrameLayout layout c = .ok (layout.or c.layout) := by
  cases layout with
  | some l => rfl
  | none =>
      rw [learnFrameLayout, Option.none_or, PumpCall.layout]
      by_cases hnull : c.frame = 0 ∨ c.pumpFunction = 0
      · have hno : c.frame = 0 ∨ c.pumpFunction = 0 ∨ c.slotFor c.pumpFunction = 0 ∨
            c.slotFor c.chain = 0 := hnull.imp_right .inl
        rw [if_pos (.inr hnull), if_pos hno]
        rfl
      rw [if_neg (by simpa using hnull), readPtr_eq, ok_bind, foldlM_noteSlot, ok_bind]
      have hchain : c.process.ptr (c.pumpFunction + kChildProperties) = c.chain := rfl
      rw [hchain]
      dsimp only
      by_cases hslots : c.slotFor c.pumpFunction = 0 ∨ c.slotFor c.chain = 0
      · rw [if_pos hslots, if_pos (.inr (.inr hslots))]
        rfl
      · have hyes : ¬ (c.frame = 0 ∨ c.pumpFunction = 0 ∨ c.slotFor c.pumpFunction = 0 ∨
            c.slotFor c.chain = 0) := by
          rw [← or_assoc]
          exact not_or.mpr ⟨hnull, hslots⟩
        rw [if_neg hslots, if_neg hyes]
        rfl

/-- A value is found where there is a place for it. -/
theorem slotFor_eq_zero {value : Ptr} : c.slotFor value = 0 ↔
    value = 0 ∨ ∀ offset ∈ offsets, 0 < offset → c.word offset ≠ value := by
  constructor
  · intro h
    by_cases hvalue : value = 0
    · exact .inl hvalue
    refine .inr fun offset hmem hpos hword => ?_
    rw [slotFor] at h
    cases hfind : offsets.find? fun offset => offset ≠ 0 ∧ value ≠ 0 ∧ c.word offset = value with
    | none =>
        have hno := List.find?_eq_none.mp hfind offset hmem
        exact hno (decide_eq_true ⟨by omega, hvalue, hword⟩)
    | some found =>
        rw [hfind, Option.getD_some] at h
        have hfits := List.find?_some hfind
        exact (of_decide_eq_true hfits).1 h
  · intro h
    by_contra hne
    obtain ⟨hvalue, hmem, hpos, hword, -⟩ := isFirstAt_slotFor hne
    rcases h with hnull | hno
    · exact hvalue hnull
    · exact hno _ hmem hpos hword

/-- A frame that the layout can be learned from: the function and its properties are in it. -/
structure Shows (c : PumpCall) : Prop where
  frame_ne : c.frame ≠ 0
  pumpFunction_ne : c.pumpFunction ≠ 0
  chain_ne : c.chain ≠ 0
  node : ∃ offset ∈ offsets, 0 < offset ∧ c.word offset = c.pumpFunction
  propertyChain : ∃ offset ∈ offsets, 0 < offset ∧ c.word offset = c.chain

/-- The layout that belongs to a frame. -/
structure LearnedFrom (c : PumpCall) (l : Layout) : Prop where
  node : c.IsFirstAt c.pumpFunction l.node
  propertyChain : c.IsFirstAt c.chain l.propertyChain
  object : c.IsFirstAt c.context l.object ∨
    l.object = l.node + 0x08 ∧ (c.context = 0 ∨ ∀ offset ∈ offsets, 0 < offset →
      c.word offset ≠ c.context)
  code : l.code = l.node + 0x10
  locals : l.locals = l.node + 0x18

/-- A layout that was learned has its offsets from the frame. -/
theorem learnedFrom_of_layout {l : Layout} (h : c.layout = some l) : c.LearnedFrom l := by
  rw [layout] at h
  split at h
  · cases h
  next hshown =>
  simp only [not_or] at hshown
  obtain ⟨-, -, hnode, hchain⟩ := hshown
  obtain rfl := Option.some.inj h
  refine ⟨?_, ?_, ?_, rfl, rfl⟩
  · exact isFirstAt_slotFor hnode
  · dsimp only
    exact isFirstAt_slotFor hchain
  · dsimp only
    by_cases hobject : c.slotFor c.context = 0
    · rw [if_neg (not_not.mpr hobject)]
      exact .inr ⟨rfl, slotFor_eq_zero.mp hobject⟩
    · rw [if_pos hobject]
      exact .inl (isFirstAt_slotFor hobject)

/-- The layout can be learned from a frame if its two values are in it. -/
theorem layout_isSome_iff : c.layout.isSome = true ↔ c.Shows := by
  have hslot : ∀ value, c.slotFor value ≠ 0 ↔
      value ≠ 0 ∧ ∃ offset ∈ offsets, 0 < offset ∧ c.word offset = value := by
    intro value
    rw [ne_eq, slotFor_eq_zero, not_or]
    push Not
    rfl
  constructor
  · intro h
    rw [layout] at h
    split at h
    · cases h
    next hshown =>
    simp only [not_or] at hshown
    obtain ⟨hframe, hpump, hnode, hchain⟩ := hshown
    obtain ⟨hchain', hprops⟩ := (hslot _).mp hchain
    exact ⟨hframe, hpump, hchain', ((hslot _).mp hnode).2, hprops⟩
  · rintro ⟨hframe, hpump, hchain, hnode, hprops⟩
    have hyes : ¬ (c.frame = 0 ∨ c.pumpFunction = 0 ∨ c.slotFor c.pumpFunction = 0 ∨
        c.slotFor c.chain = 0) :=
      not_or.mpr ⟨hframe, not_or.mpr ⟨hpump, not_or.mpr
        ⟨(hslot _).mpr ⟨hpump, hnode⟩, (hslot _).mpr ⟨hchain, hprops⟩⟩⟩⟩
    rw [layout, if_neg hyes]
    rfl

end PumpCall

/-- A layout is learned once. -/
theorem learned_eq (run : List PumpCall) : learned run = .ok (run.findSome? PumpCall.layout) := by
  rw [learned, foldlM_eq_ok fun c _ layout => PumpCall.learnFrameLayout_eq layout, foldl_or,
    Option.none_or]

/-- **The layout after a run.** It is not known as long as no frame has shown the function and its
properties; and from the first such frame on it is the one that this frame shows, whatever the
frames show that follow. -/
theorem learned_spec (run : List PumpCall) :
    (learned run = .ok none ∧ ∀ c ∈ run, ¬ c.Shows) ∨
      ∃ before c after l, run = before ++ c :: after ∧ (∀ b ∈ before, ¬ b.Shows) ∧ c.Shows ∧
        c.LearnedFrom l ∧ ∀ rest, learned (run ++ rest) = .ok (some l) := by
  have hnone : ∀ c : PumpCall, c.layout = none ↔ ¬ c.Shows := fun c => by
    rw [← PumpCall.layout_isSome_iff, Bool.not_eq_true, Option.isSome_eq_false_iff,
      Option.isNone_iff_eq_none]
  cases hfind : run.findSome? PumpCall.layout with
  | none =>
      refine .inl ⟨by rw [learned_eq, hfind], fun c hc => ?_⟩
      exact (hnone c).mp (List.findSome?_eq_none_iff.mp hfind c hc)
  | some l =>
      obtain ⟨before, c, after, hsplit, hlayout, hbefore⟩ := List.findSome?_eq_some_iff.mp hfind
      refine .inr ⟨before, c, after, l, hsplit, fun b hb => (hnone b).mp (hbefore b hb),
        PumpCall.layout_isSome_iff.mp (by rw [hlayout]; rfl),
        PumpCall.learnedFrom_of_layout hlayout, fun rest => ?_⟩
      rw [learned_eq, List.findSome?_append, hfind, Option.some_or]

/-! ### The frame of a call -/

/-- A word of a frame. -/
def wordOf (frame : ByteMemory) (offset : ℕ) : Except Fault Ptr := do
  return ptrOf (← load frame offset 8)

/-- A pointer is read back as it was stored. -/
theorem ptrOf_bytesOf (value : Ptr) : ptrOf (bytesOf 8 value.toNat) = value := by
  rw [ptrOf, number_bytesOf, Nat.mod_eq_of_lt (show value.toNat < 256 ^ 8 from value.toNat_lt),
    UInt64.ofNat_toNat]

/-- A word that is stored is read back, and the other aligned words stay. -/
theorem wordOf_overlay {frame : ByteMemory} {a b : ℕ} {value : Ptr} (hmapped : Mapped frame a 8)
    (ha : 8 ∣ a) (hb : 8 ∣ b) :
    wordOf (overlay frame a (bytesOf 8 value.toNat)) b =
      if a = b then .ok value else wordOf frame b := by
  have hlength := length_bytesOf 8 value.toNat
  rw [wordOf]
  by_cases heq : a = b
  · have hread := @load_overlay frame a (bytesOf 8 value.toNat) (by rwa [hlength])
    rw [hlength] at hread
    rw [if_pos heq, ← heq, hread, ok_bind, ptrOf_bytesOf]
    rfl
  · rw [if_neg heq, load_overlay_of_disjoint (by omega), wordOf]

/-- Words that are stored one after the other. -/
def storeWords (frame : ByteMemory) (stores : List (ℕ × Ptr)) : Except Fault ByteMemory :=
  stores.foldlM (fun frame w => store frame w.1 (bytesOf 8 w.2.toNat)) frame

/-- A frame after some stores: the words that have been stored are there, the last one where there
are several for a place, and all other words are as before. -/
def Stored (frame : ByteMemory) (n : ℕ) (done : List (ℕ × Ptr)) (frame' : ByteMemory) : Prop :=
  Mapped frame' 0 n ∧ ∀ b, 8 ∣ b → wordOf frame' b =
    ((done.reverse.find? fun w => w.1 = b).map fun w => Except.ok w.2).getD (wordOf frame b)

/-- **Words are stored inside a frame** without a fault. -/
theorem runs_storeWords {frame : ByteMemory} {n : ℕ} (hmapped : Mapped frame 0 n)
    {stores : List (ℕ × Ptr)} (h : ∀ w ∈ stores, 8 ∣ w.1 ∧ w.1 + 8 ≤ n) :
    Runs (storeWords frame stores) (Stored frame n stores) := by
  refine Runs.foldlM ⟨hmapped, fun b _ => rfl⟩ ?_
  rintro done w frame' hw ⟨hmapped', hwords⟩
  obtain ⟨haligned, hfits⟩ := h w hw
  have hplace : Mapped frame' w.1 8 := by
    have hsub := @Mapped.sub frame' 0 n hmapped' w.1 8 hfits
    rwa [Nat.zero_add] at hsub
  rw [store_of_mapped (by rwa [length_bytesOf]), runs_ok]
  refine ⟨hmapped'.overlay, fun b hb => ?_⟩
  rw [wordOf_overlay hplace haligned hb, hwords b hb, List.reverse_append, List.reverse_singleton,
    List.singleton_append, List.find?_cons]
  by_cases heq : w.1 = b
  · simp [heq]
  · simp [heq]

/-- The stores into the frame of a call. -/
def storesOf (l : Layout) (context function params chain : Ptr) : List (ℕ × Ptr) :=
  [(l.node, function), (l.object, context), (l.code, 0), (l.locals, params),
    (l.propertyChain, chain)]

/-- A frame is the empty one with four words stored in it. -/
theorem frameOf_eq (l : Layout) (context function params chain : Ptr) :
    frameOf l context function params chain =
      storeWords (buffer (List.replicate 0x200 0)) (storesOf l context function params chain) := by
  simp only [frameOf, storeWords, storesOf, List.foldlM_cons, List.foldlM_nil, bind_pure]
  rfl

/-- No field of the frame is stored over another one. -/
def Layout.Distinct (l : Layout) : Prop :=
  [l.node, l.object, l.code, l.locals, l.propertyChain].Nodup

/-- The fields of a layout that is learned are inside the frame. -/
theorem PumpCall.LearnedFrom.inside {c : PumpCall} {l : Layout} (h : c.LearnedFrom l)
    (context function params chain : Ptr) :
    ∀ w ∈ storesOf l context function params chain, 8 ∣ w.1 ∧ w.1 + 8 ≤ 0x200 := by
  obtain ⟨n, hn, hnode⟩ := PumpCall.mem_offsets.mp h.node.mem
  obtain ⟨k, hk, hchain⟩ := PumpCall.mem_offsets.mp h.propertyChain.mem
  have hcode := h.code
  have hlocals := h.locals
  have hobject : 8 ∣ l.object ∧ l.object + 8 ≤ 0x200 := by
    rcases h.object with hfirst | ⟨hbehind, -⟩
    · obtain ⟨m, hm, hobject⟩ := PumpCall.mem_offsets.mp hfirst.mem
      omega
    · omega
  intro w hw
  simp only [storesOf, List.mem_cons, List.not_mem_nil, or_false] at hw
  rcases hw with rfl | rfl | rfl | rfl | rfl
  · dsimp only
    omega
  · exact hobject
  · dsimp only
    omega
  · dsimp only
    omega
  · dsimp only
    omega

/-- A frame in which the values that are looked for are three, and are not found in the place of
another field. -/
structure PumpCall.Tidy (c : PumpCall) (l : Layout) : Prop where
  values : [c.pumpFunction, c.context, c.chain].Nodup
  object : c.word (l.node + 0x08) ≠ c.chain
  code : c.word (l.node + 0x10) ∉ [c.context, c.chain]
  locals : c.word (l.node + 0x18) ∉ [c.context, c.chain]

/-- The layout of a tidy frame has its fields apart. -/
theorem PumpCall.LearnedFrom.distinct {c : PumpCall} {l : Layout} (h : c.LearnedFrom l)
    (htidy : c.Tidy l) : l.Distinct := by
  have hapart : ∀ {a b : ℕ}, c.word a ≠ c.word b → a ≠ b := fun hne heq => hne (by rw [heq])
  have hvalues := htidy.values
  simp only [List.nodup_cons, List.mem_cons, List.not_mem_nil, or_false, not_or, List.nodup_nil,
    not_false_eq_true, and_true] at hvalues
  obtain ⟨⟨hpump, hpump'⟩, hcontext⟩ := hvalues
  have hcode := htidy.code
  have hlocals := htidy.locals
  simp only [List.mem_cons, List.not_mem_nil, or_false, not_or] at hcode hlocals
  have hcodeAt := h.code
  have hlocalsAt := h.locals
  have hnodeChain : l.node ≠ l.propertyChain :=
    hapart (by rw [h.node.word_eq, h.propertyChain.word_eq]; exact hpump')
  have hcodeChain : l.code ≠ l.propertyChain :=
    hapart (by rw [h.code, h.propertyChain.word_eq]; exact hcode.2)
  have hlocalsChain : l.locals ≠ l.propertyChain :=
    hapart (by rw [h.locals, h.propertyChain.word_eq]; exact hlocals.2)
  have hobject : l.node ≠ l.object ∧ l.object ≠ l.code ∧ l.object ≠ l.locals ∧
      l.object ≠ l.propertyChain := by
    rcases h.object with hfirst | ⟨hbehind, -⟩
    · refine ⟨hapart ?_, hapart ?_, hapart ?_, hapart ?_⟩
      · rw [h.node.word_eq, hfirst.word_eq]
        exact hpump
      · rw [hfirst.word_eq, h.code]
        exact Ne.symm hcode.1
      · rw [hfirst.word_eq, h.locals]
        exact Ne.symm hlocals.1
      · rw [hfirst.word_eq, h.propertyChain.word_eq]
        exact hcontext
    · refine ⟨by omega, by omega, by omega, hapart ?_⟩
      rw [hbehind, h.propertyChain.word_eq]
      exact htidy.object
  have hcodeLocals : l.code ≠ l.locals := by omega
  have hnode : l.node ≠ l.code ∧ l.node ≠ l.locals := by omega
  simp only [Layout.Distinct, List.nodup_cons, List.mem_cons, List.not_mem_nil, or_false, not_or,
    List.nodup_nil, not_false_eq_true, and_true]
  exact ⟨⟨hobject.1, hnode.1, hnode.2, hnodeChain⟩, ⟨hobject.2.1, hobject.2.2.1, hobject.2.2.2⟩,
    ⟨hcodeLocals, hcodeChain⟩, hlocalsChain⟩

/-- The fields of the frame of a call. -/
theorem words_of_stored {l : Layout} {context function params chain : Ptr}
    {empty frame : ByteMemory} {c : PumpCall} (hlearned : c.LearnedFrom l)
    (h : Stored empty 0x200 (storesOf l context function params chain) frame) :
    wordOf frame l.propertyChain = .ok chain ∧
      (l.Distinct → wordOf frame l.node = .ok function ∧ wordOf frame l.object = .ok context ∧
        wordOf frame l.code = .ok 0 ∧ wordOf frame l.locals = .ok params) := by
  have hinside := hlearned.inside context function params chain
  have haligned : 8 ∣ l.node ∧ 8 ∣ l.object ∧ 8 ∣ l.code ∧ 8 ∣ l.locals ∧ 8 ∣ l.propertyChain :=
    ⟨(hinside (l.node, function) (by simp [storesOf])).1,
      (hinside (l.object, context) (by simp [storesOf])).1,
      (hinside (l.code, 0) (by simp [storesOf])).1,
      (hinside (l.locals, params) (by simp [storesOf])).1,
      (hinside (l.propertyChain, chain) (by simp [storesOf])).1⟩
  obtain ⟨hnode, hobject, hcode, hlocals, hchain⟩ := haligned
  have hwords := h.2
  simp only [storesOf, List.reverse_cons, List.reverse_nil, List.nil_append, List.cons_append,
    List.find?_cons, List.find?_nil] at hwords
  refine ⟨by simp [hwords _ hchain], fun hdistinct => ?_⟩
  simp only [Layout.Distinct, List.nodup_cons, List.mem_cons, List.not_mem_nil, or_false, not_or,
    List.nodup_nil, not_false_eq_true, and_true] at hdistinct
  obtain ⟨⟨hno, hnc, hnl, hnp⟩, ⟨hoc, hol, hop⟩, ⟨hcl, hcp⟩, hlp⟩ := hdistinct
  refine ⟨?_, ?_, ?_, ?_⟩
  · simp [hwords _ hnode, Ne.symm hno, Ne.symm hnc, Ne.symm hnl, Ne.symm hnp]
  · simp [hwords _ hobject, Ne.symm hoc, Ne.symm hol, Ne.symm hop]
  · simp [hwords _ hcode, Ne.symm hcl, Ne.symm hcp]
  · simp [hwords _ hlocals, Ne.symm hlp]

/-- **A call of a native function.** Whatever frames the layout has been learned from, and whatever
memory and arguments `Invoke` finds, it reads and writes nothing that is not mapped and stays inside
its frame. Where it calls a thunk, the thunk is in the image, the layout is that of a frame of the
run, and the properties of the function are in their place; and if that frame was tidy, so are the
function, the object and the parameters, and there is no code. -/
theorem invoke_spec (run : List PumpCall) (p : Process)
    (context function params returnValueOffset : Ptr) :
    ∃ layout called, learned run = .ok layout ∧
      invoke p layout context function params returnValueOffset = .ok called ∧
      ∀ call ∈ called, p.inImage call.exec = true ∧ call.context = context ∧
        call.result = params + returnValueOffset ∧
        ∃ l c, layout = some l ∧ c ∈ run ∧ c.LearnedFrom l ∧
          wordOf call.frame l.propertyChain = .ok (p.ptr (function + kChildProperties)) ∧
          (c.Tidy l → wordOf call.frame l.node = .ok function ∧
            wordOf call.frame l.object = .ok context ∧ wordOf call.frame l.code = .ok 0 ∧
            wordOf call.frame l.locals = .ok params) := by
  have hinvoke : ∀ layout, learned run = .ok layout →
      Runs (invoke p layout context function params returnValueOffset) fun called =>
        ∀ call ∈ called, p.inImage call.exec = true ∧ call.context = context ∧
          call.result = params + returnValueOffset ∧
          ∃ l c, layout = some l ∧ c ∈ run ∧ c.LearnedFrom l ∧
            wordOf call.frame l.propertyChain = .ok (p.ptr (function + kChildProperties)) ∧
            (c.Tidy l → wordOf call.frame l.node = .ok function ∧
              wordOf call.frame l.object = .ok context ∧ wordOf call.frame l.code = .ok 0 ∧
              wordOf call.frame l.locals = .ok params) := by
    intro layout hlayout
    have hrefuse : ∀ {Q : ThunkCall → Prop},
        Runs (.ok none : Except Fault (Option ThunkCall)) fun called => ∀ call ∈ called, Q call :=
      runs_ok.mpr fun call hcall => by cases hcall
    rw [invoke]
    refine Runs.ite (fun _ => hrefuse) fun _ => Runs.ite (fun _ => hrefuse) fun _ => ?_
    rw [readI32_eq, ok_bind]
    refine Runs.ite (fun _ => hrefuse) fun _ => ?_
    rw [readPtr_eq, ok_bind]
    refine Runs.ite (fun _ => hrefuse) fun hexec => ?_
    cases layout with
    | none => exact hrefuse
    | some l =>
        dsimp only
        rw [readPtr_eq, ok_bind]
        refine Runs.ite (fun _ => hrefuse) fun _ => ?_
        have hfind : run.findSome? PumpCall.layout = some l :=
          Except.ok.inj ((learned_eq run).symm.trans hlayout)
        obtain ⟨c, hc, hshown⟩ := List.exists_of_findSome?_eq_some hfind
        have hlearned := PumpCall.learnedFrom_of_layout hshown
        rw [frameOf_eq]
        refine (runs_storeWords (mapped_buffer (by rw [List.length_replicate]))
          (hlearned.inside _ _ _ _)).bind fun frame hframe => ?_
        rw [pure_eq_ok, runs_ok]
        intro call hcall
        obtain rfl := Option.some.inj hcall
        obtain ⟨hchain, hfields⟩ := words_of_stored hlearned hframe
        have himage : p.inImage (p.ptr (function + kExecFunction)) = true := by
          simpa using (not_or.mp hexec).2
        exact ⟨himage, rfl, rfl, l, c, rfl, hc, hlearned, hchain,
          fun htidy => hfields (hlearned.distinct htidy)⟩
  obtain ⟨called, hcalled, hspec⟩ := hinvoke _ (learned_eq run)
  exact ⟨_, called, learned_eq run, hcalled, hspec⟩

end RSDWServerAPI.FrameLayout
