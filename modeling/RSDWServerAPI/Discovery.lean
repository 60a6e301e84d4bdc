import RSDWServerAPI.GameObjects
import RSDWServerAPI.Transition

/-!
# Finding the engine in memory

`Engine::Initialize` (`engine/engine_core.cpp`) looks for the name pool and for the object array of
the game: at the offsets of a known build first, and when what is there does not look right, in
every eighth address of the writable segments of the executable. The scans read the segments
directly, and most addresses are turned down by one or two of these reads before the whole check
is made.

The initialisation thread calls it again and again until it succeeds, each time on the memory as
it is then.

## Main results

* `tryObjectArray_eq`, `tryNamePool_eq`: what the scans turn down early is no object array, and no
  name pool whose first block is at a multiple of eight; `scans_spec`: **so they return the first
  address that passes the check**.
* `engineInitialize_eq_true_iff`: **when the initialisation succeeds, and with which addresses**.
* `attempts_spec`: the attempts stop at the first memory with the engine in it.
* `discovered_spec`: what the checks say about the names and the objects.
-/

namespace RSDWServerAPI.DomEngine

open Mem RawMemory Transition

/-! ### The image -/

/-- `ImageInfo`. -/
structure ImageInfo where
  start : Ptr := 0
  stop : Ptr := 0
  writableSegments : List Phdr := []
  found : Bool := false
  deriving DecidableEq, Repr

/-- `CollectImage`, for the object at which it stops the iteration. -/
def collectImage (object : LoadedObject) : ImageInfo :=
  let (start, stop, first) := boundsOf object.phdrs
  { start, stop, writableSegments := object.phdrs.filter (·.writable), found := !first }

/-- What `dl_iterate_phdr` with `CollectImage` leaves. -/
def imageInfo (p : Process) : ImageInfo :=
  match p.objects.find? (·.name = []) with
  | none => {}
  | some object => collectImage object

/-- The addresses of the loop over a segment, for values of a size. -/
def segmentAddresses (size : ℕ) (segment : Phdr) : List Ptr :=
  let count :=
    if segment.begin.toNat + size ≤ segment.stop.toNat then
      (segment.stop.toNat - size - segment.begin.toNat) / 8 + 1
    else 0
  (List.range' segment.begin.toNat count 8).map UInt64.ofNat

/-- The addresses of both loops of a scan. -/
def scanAddresses (p : Process) (size : ℕ) : List Ptr :=
  (imageInfo p).writableSegments.flatMap (segmentAddresses size)

namespace Engine

variable (p : Process)

/-! ### The object array -/

/-- `ValidateObjectArray`. -/
def validateObjectArray (candidate : Ptr) : Except Fault Bool := do
  if !p.readable candidate 0x20 then return false
  let chunks ← p.readPtr (candidate + Offsets.objArrayObjects)
  let maxElements ← p.readI32 (candidate + Offsets.objArrayMaxElements)
  let numElements ← p.readI32 (candidate + Offsets.objArrayNumElements)
  let maxChunks ← p.readI32 (candidate + Offsets.objArrayMaxChunks)
  let numChunks ← p.readI32 (candidate + Offsets.objArrayNumChunks)
  if chunks = 0 then return false
  if numElements.toInt < 1000 ∨ 20000000 < numElements.toInt then return false
  if maxElements.toInt < numElements.toInt then return false
  if numChunks.toInt < 1 ∨ 512 < numChunks.toInt then return false
  if maxChunks.toInt < numChunks.toInt ∨ 512 < maxChunks.toInt then return false
  if numChunks.toInt * Offsets.objectsPerChunk < numElements.toInt then return false
  if !p.readable chunks (8 * numChunks.toInt.toNat) then return false
  let firstChunk ← p.readPtr chunks
  if firstChunk = 0 ∨ p.readable firstChunk 0x18 = false then return false
  let firstObject ← p.readPtr firstChunk
  if firstObject = 0 ∨ p.readable firstObject 0x28 = false then return false
  let vtable ← p.readPtr firstObject
  return p.inImage vtable

/-- The body of the loop of `ScanForObjectArray`, which reads the segment directly. -/
def tryObjectArray (addr : Ptr) : Except Fault (Option Ptr) := do
  let numElements := i32Of (← load p.mem (addr + Offsets.objArrayNumElements).toNat 4)
  if numElements.toInt < 1000 ∨ 20000000 < numElements.toInt then return none
  let numChunks := i32Of (← load p.mem (addr + Offsets.objArrayNumChunks).toNat 4)
  if numChunks.toInt < 1 ∨ 512 < numChunks.toInt then return none
  return if ← validateObjectArray p addr then some addr else none

/-- `ScanForObjectArray`. -/
def scanForObjectArray : Except Fault Ptr := do
  if !(imageInfo p).found then return 0
  return (← (scanAddresses p 0x20).findSomeM? (tryObjectArray p)).getD 0

/-- `ResolveObjectArray`. -/
def resolveObjectArray (e : Engine) : Except Fault (Engine × Bool) := do
  let candidate := e.moduleBase + Offsets.gObjects
  if ← validateObjectArray p candidate then
    return ({ e with gObjects := candidate, gObjectsSource := bytes "sdk-offset" }, true)
  let candidate ← scanForObjectArray p
  if candidate = 0 then return (e, false)
  return ({ e with gObjects := candidate, gObjectsSource := bytes "segment-scan" }, true)

/-! ### The name pool -/

/-- `ValidateNamePool`. -/
def validateNamePool (candidate : Ptr) : Except Fault Bool := do
  if !p.readable candidate (Offsets.namePoolBlocks.toNat + 8) then return false
  let currentBlock ← p.readI32 (candidate + Offsets.namePoolCurrentBlock)
  if Offsets.namePoolMaxBlocks ≤ currentBlock.toUInt32 then return false
  let firstBlock ← p.readPtr (candidate + Offsets.namePoolBlocks)
  if firstBlock = 0 ∨ p.readable firstBlock 0x40 = false then return false
  match ← p.read firstBlock 2 with
  | none => return false
  | some bs =>
      let header := u16Of bs
      if header &&& 1 ≠ 0 ∨ (header >>> 6).toNat ≠ 4 then return false
      if !p.readable (firstBlock + 2) 4 then return false
      let text ← load p.mem (firstBlock + 2).toNat 4
      return cStr text == bytes "None"

/-- The body of the loop of `ResolveNamePool`, which reads the segment directly. -/
def tryNamePool (addr : Ptr) : Except Fault (Option Ptr) := do
  let currentBlock := u32Of (← load p.mem (addr + Offsets.namePoolCurrentBlock).toNat 4)
  if Offsets.namePoolMaxBlocks ≤ currentBlock then return none
  let firstBlock := ptrOf (← load p.mem (addr + Offsets.namePoolBlocks).toNat 8)
  if firstBlock = 0 ∨ firstBlock &&& 7 ≠ 0 then return none
  return if ← validateNamePool p addr then some addr else none

/-- The scan of `ResolveNamePool`. -/
def scanForNamePool : Except Fault (Option Ptr) :=
  (scanAddresses p (Offsets.namePoolBlocks.toNat + 8)).findSomeM? (tryNamePool p)

/-- `ResolveNamePool`. -/
def resolveNamePool (e : Engine) : Except Fault (Engine × Bool) := do
  let candidate := e.moduleBase + Offsets.gNames
  if ← validateNamePool p candidate then
    return ({ e with gNames := candidate, gNamesSource := bytes "sdk-offset" }, true)
  match ← scanForNamePool p with
  | none => return (e, false)
  | some addr => return ({ e with gNames := addr, gNamesSource := bytes "segment-scan" }, true)

/-! ### `Initialize` -/

/-- `LooksLikeText`. -/
def looksLikeText (value : Bytes) : Bool :=
  isPrintable value

/-- `ResolveModule`. -/
def resolveModule (e : Engine) : Engine × Bool :=
  let image := imageInfo p
  if !image.found ∨ image.start = 0 then (e, false)
  else ({ e with moduleBase := image.start, moduleEnd := image.stop }, true)

/-- The end of `Initialize`: the cross-check of the first object. -/
def checkFirstObject (e : Engine) : Except Fault (Engine × Bool) := do
  let firstObject ← e.getObjectByIndex p 0
  let firstName ← e.getObjectName p firstObject
  if !looksLikeText firstName ∨ afterFirst (bytes "CoreUObject") firstName = none then
    return (e, false)
  return ({ e with initialized := true }, true)

/-- `if (!first) return false;` with the rest behind it. -/
def andThen (first : Except Fault (Engine × Bool))
    (rest : Engine → Except Fault (Engine × Bool)) : Except Fault (Engine × Bool) :=
  first >>= fun r => if r.2 then rest r.1 else .ok (r.1, false)

/-- `Initialize`. -/
def engineInitialize (e : Engine) : Except Fault (Engine × Bool) :=
  andThen (.ok (resolveModule p e)) fun e =>
    andThen (resolveNamePool p e) fun e =>
      andThen (resolveObjectArray p e) fun e =>
        checkFirstObject p e

/-! ### What the checks accept -/

variable {p}

/-- `ValidateObjectArray` does not fault. -/
theorem runs_validateObjectArray (candidate : Ptr) :
    Runs (validateObjectArray p candidate) fun _ => True := by
  have hfalse : Runs (pure false : Except Fault Bool) fun _ => True := runs_ok.mpr trivial
  rw [validateObjectArray]
  refine Runs.ite (fun _ => hfalse) fun _ => ?_
  rw [readPtr_eq, ok_bind, readI32_eq, ok_bind, readI32_eq, ok_bind, readI32_eq, ok_bind,
    readI32_eq, ok_bind]
  refine Runs.ite (fun _ => hfalse) fun _ => Runs.ite (fun _ => hfalse) fun _ => ?_
  refine Runs.ite (fun _ => hfalse) fun _ => Runs.ite (fun _ => hfalse) fun _ => ?_
  refine Runs.ite (fun _ => hfalse) fun _ => Runs.ite (fun _ => hfalse) fun _ => ?_
  refine Runs.ite (fun _ => hfalse) fun _ => ?_
  rw [readPtr_eq, ok_bind]
  refine Runs.ite (fun _ => hfalse) fun _ => ?_
  rw [readPtr_eq, ok_bind]
  refine Runs.ite (fun _ => hfalse) fun _ => ?_
  rw [readPtr_eq, ok_bind]
  exact runs_ok.mpr trivial

/-- `ValidateNamePool` does not fault. -/
theorem runs_validateNamePool (candidate : Ptr) :
    Runs (validateNamePool p candidate) fun _ => True := by
  rw [validateNamePool]
  simp only [readPtr_eq, readI32_eq, read_eq, ok_bind, pure_eq_ok]
  refine Runs.ite (fun _ => runs_ok.mpr trivial) fun _ => ?_
  refine Runs.ite (fun _ => runs_ok.mpr trivial) fun _ => ?_
  refine Runs.ite (fun _ => runs_ok.mpr trivial) fun _ => ?_
  cases p.peek (p.ptr (candidate + Offsets.namePoolBlocks)) 2 with
  | none => exact runs_ok.mpr trivial
  | some bs =>
      refine Runs.ite (fun _ => runs_ok.mpr trivial) fun _ => ?_
      refine Runs.ite (fun _ => runs_ok.mpr trivial) fun htext => ?_
      rw [load_of_readable (by simpa using htext)]
      exact runs_ok.mpr trivial

variable (p)

/-- The address passes the check of an object array. -/
def isObjectArray (candidate : Ptr) : Bool :=
  result (validateObjectArray p candidate)

/-- `ValidateObjectArray` says whether the address is taken for the array. -/
@[simp] theorem validateObjectArray_eq (candidate : Ptr) :
    validateObjectArray p candidate = .ok (isObjectArray p candidate) :=
  (runs_validateObjectArray candidate).eq_ok

/-- The address passes the check of a name pool. -/
def isNamePool (candidate : Ptr) : Bool :=
  result (validateNamePool p candidate)

/-- `ValidateNamePool` says whether the address is taken for the pool. -/
@[simp] theorem validateNamePool_eq (candidate : Ptr) :
    validateNamePool p candidate = .ok (isNamePool p candidate) :=
  (runs_validateNamePool candidate).eq_ok

/-- What `ValidateObjectArray` accepts. -/
structure ObjectArray (a : Ptr) : Prop where
  header : p.readable a 0x20 = true
  chunks : p.ptr (a + Offsets.objArrayObjects) ≠ 0
  elements : 1000 ≤ (p.i32 (a + Offsets.objArrayNumElements)).toInt ∧
    (p.i32 (a + Offsets.objArrayNumElements)).toInt ≤ 20000000
  maxElements : (p.i32 (a + Offsets.objArrayNumElements)).toInt ≤
    (p.i32 (a + Offsets.objArrayMaxElements)).toInt
  numChunks : 1 ≤ (p.i32 (a + Offsets.objArrayNumChunks)).toInt ∧
    (p.i32 (a + Offsets.objArrayNumChunks)).toInt ≤ 512
  maxChunks : (p.i32 (a + Offsets.objArrayNumChunks)).toInt ≤
      (p.i32 (a + Offsets.objArrayMaxChunks)).toInt ∧
    (p.i32 (a + Offsets.objArrayMaxChunks)).toInt ≤ 512
  fits : (p.i32 (a + Offsets.objArrayNumElements)).toInt ≤
    (p.i32 (a + Offsets.objArrayNumChunks)).toInt * Offsets.objectsPerChunk
  table : p.readable (p.ptr (a + Offsets.objArrayObjects))
    (8 * (p.i32 (a + Offsets.objArrayNumChunks)).toInt.toNat) = true
  firstChunk : p.readable (p.ptr (p.ptr (a + Offsets.objArrayObjects))) 0x18 = true
  firstObject : p.readable (p.ptr (p.ptr (p.ptr (a + Offsets.objArrayObjects)))) 0x28 = true
  vtable : p.inImage (p.ptr (p.ptr (p.ptr (p.ptr (a + Offsets.objArrayObjects))))) = true

variable {p}

/-- What the checks for an object array ask for. -/
theorem isObjectArray_iff {a : Ptr} : isObjectArray p a = true ↔ ObjectArray p a := by
  have hok : isObjectArray p a = true ↔ validateObjectArray p a = .ok true := by
    rw [validateObjectArray_eq, Except.ok.injEq]
  rw [hok, validateObjectArray, guard_eq_ok_true, readPtr_eq, ok_bind, readI32_eq, ok_bind,
    readI32_eq, ok_bind, readI32_eq, ok_bind, readI32_eq, ok_bind, guard_eq_ok_true,
    guard_eq_ok_true, guard_eq_ok_true, guard_eq_ok_true, guard_eq_ok_true, guard_eq_ok_true,
    guard_eq_ok_true, readPtr_eq, ok_bind, guard_eq_ok_true, readPtr_eq, ok_bind, guard_eq_ok_true,
    readPtr_eq, ok_bind, pure_eq_ok, Except.ok.injEq, Bool.not_eq_true', Bool.not_eq_true',
    Bool.not_eq_false, Bool.not_eq_false]
  constructor
  · rintro ⟨header, chunks, elements, maxElements, numChunks, maxChunks, fits, table, firstChunk,
      firstObject, vtable⟩
    exact ⟨header, chunks, by omega, by omega, by omega, by omega, by omega, table,
      Bool.not_eq_false _ ▸ (not_or.mp firstChunk).2,
      Bool.not_eq_false _ ▸ (not_or.mp firstObject).2, vtable⟩
  · rintro ⟨header, chunks, elements, maxElements, numChunks, maxChunks, fits, table, firstChunk,
      firstObject, vtable⟩
    refine ⟨header, chunks, by omega, by omega, by omega, by omega, by omega, table, ?_, ?_, vtable⟩
    · exact not_or.mpr ⟨ne_zero_of_readable firstChunk, Bool.not_eq_false _ ▸ firstChunk⟩
    · exact not_or.mpr ⟨ne_zero_of_readable firstObject, Bool.not_eq_false _ ▸ firstObject⟩

/-- What `ValidateNamePool` accepts. -/
structure NamePool (p : Process) (a : Ptr) : Prop where
  header : p.readable a 0x10 = true
  currentBlock : (p.i32 (a + Offsets.namePoolCurrentBlock)).toUInt32 < Offsets.namePoolMaxBlocks
  block : p.readable (p.ptr (a + Offsets.namePoolBlocks)) 0x40 = true
  length : (u16Of (contents p.mem (p.ptr (a + Offsets.namePoolBlocks)).toNat 2) >>> 6).toNat = 4
  narrow : u16Of (contents p.mem (p.ptr (a + Offsets.namePoolBlocks)).toNat 2) &&& 1 = 0
  text : contents p.mem ((p.ptr (a + Offsets.namePoolBlocks)).toNat + 2) 4 = bytes "None"

/-- The text in front of a NUL is `None` exactly if that is all of the four bytes. -/
theorem cStr_eq_none_iff {bs : Bytes} (h : bs.length = 4) :
    cStr bs = bytes "None" ↔ bs = bytes "None" := by
  constructor
  · intro hc
    have hinitial : cStr bs <+: bs := List.takeWhile_prefix _
    rw [hc] at hinitial
    exact (hinitial.eq_of_length (by rw [h]; decide)).symm
  · rintro rfl
    decide

/-- What the checks for a name pool ask for. -/
theorem isNamePool_iff {a : Ptr} : isNamePool p a = true ↔ NamePool p a := by
  have hok : isNamePool p a = true ↔ validateNamePool p a = .ok true := by
    rw [validateNamePool_eq, Except.ok.injEq]
  rw [hok, validateNamePool, guard_eq_ok_true, readI32_eq, ok_bind, guard_eq_ok_true, readPtr_eq,
    ok_bind, guard_eq_ok_true, read_eq, ok_bind, Bool.not_eq_true', Bool.not_eq_false,
    UInt32.not_le]
  have htext : p.readable (p.ptr (a + Offsets.namePoolBlocks)) 0x40 = true →
      p.readable (p.ptr (a + Offsets.namePoolBlocks) + 2) 4 = true ∧
        (p.ptr (a + Offsets.namePoolBlocks) + 2).toNat =
          (p.ptr (a + Offsets.namePoolBlocks)).toNat + 2 :=
    fun hblock => ⟨readable_sub hblock (by omega) (by decide),
      toNat_add_of_readable hblock (by decide)⟩
  constructor
  · rintro ⟨header, currentBlock, hblock, h⟩
    have block : p.readable (p.ptr (a + Offsets.namePoolBlocks)) 0x40 = true :=
      Bool.not_eq_false _ ▸ (not_or.mp hblock).2
    obtain ⟨hread, haddr⟩ := htext block
    rw [peek_of_readable (readable_mono block (by omega) (by omega))] at h
    dsimp only at h
    rw [guard_eq_ok_true, guard_eq_ok_true, load_of_readable hread, ok_bind, pure_eq_ok,
      Except.ok.injEq, beq_iff_eq, haddr, cStr_eq_none_iff (length_contents _ _ _)] at h
    obtain ⟨hheader, -, text⟩ := h
    obtain ⟨narrow, length⟩ := not_or.mp hheader
    exact ⟨header, currentBlock, block, not_ne_iff.mp length, not_ne_iff.mp narrow, text⟩
  · rintro ⟨header, currentBlock, block, length, narrow, text⟩
    obtain ⟨hread, haddr⟩ := htext block
    refine ⟨header, currentBlock, not_or.mpr ⟨ne_zero_of_readable block, by simp [block]⟩, ?_⟩
    rw [peek_of_readable (readable_mono block (by omega) (by omega))]
    dsimp only
    rw [guard_eq_ok_true, guard_eq_ok_true, load_of_readable hread, ok_bind, pure_eq_ok,
      Except.ok.injEq, beq_iff_eq, haddr, cStr_eq_none_iff (length_contents _ _ _)]
    exact ⟨not_or.mpr ⟨not_ne_iff.mpr narrow, not_ne_iff.mpr length⟩, by simp [hread], text⟩

/-! ### The scans -/

/-- The loader has mapped the writable segments of the executable. -/
def SegmentsMapped (p : Process) : Prop :=
  ∀ segment ∈ (imageInfo p).writableSegments, segment.stop.toNat ≤ 0x0000800000000000 ∧
    Mapped p.mem segment.begin.toNat (segment.stop.toNat - segment.begin.toNat)

instance (p : Process) : Decidable (SegmentsMapped p) :=
  inferInstanceAs (Decidable (∀ segment ∈ _, _ ∧ _))

/-- The addresses of a scan are mapped. -/
theorem mapped_of_mem_scanAddresses (h : SegmentsMapped p) {size : ℕ} {a : Ptr}
    (ha : a ∈ scanAddresses p size) :
    Mapped p.mem a.toNat size ∧ a.toNat + size ≤ 0x0000800000000000 := by
  obtain ⟨segment, hsegment, ha⟩ := List.mem_flatMap.mp ha
  obtain ⟨hstop, hmapped⟩ := h segment hsegment
  rw [segmentAddresses, List.mem_map] at ha
  obtain ⟨n, hn, rfl⟩ := ha
  rw [List.mem_range'] at hn
  obtain ⟨i, hi, rfl⟩ := hn
  have hend : segment.begin.toNat + 8 * i + size ≤ segment.stop.toNat := by
    split at hi
    · omega
    · omega
  have haddr : (UInt64.ofNat (segment.begin.toNat + 8 * i)).toNat =
      segment.begin.toNat + 8 * i := UInt64.toNat_ofNat_of_lt' (by change _ < 2 ^ 64; omega)
  rw [haddr]
  exact ⟨hmapped.sub (by omega), by omega⟩

/-- A direct read in a mapped range. -/
theorem load_of_mapped_sub {a : Ptr} {size : ℕ} (h : Mapped p.mem a.toNat size)
    (huser : a.toNat + size ≤ 0x0000800000000000) {offset : Ptr} {k : ℕ}
    (hoffset : offset.toNat + k ≤ size) :
    load p.mem (a + offset).toNat k =
      .ok (((contents p.mem a.toNat size).drop offset.toNat).take k) := by
  have haddr : (a + offset).toNat = a.toNat + offset.toNat := by
    rw [UInt64.toNat_add]
    omega
  rw [haddr, load_sub h hoffset]

/-- **The early reads turn down no object array.** -/
theorem tryObjectArray_eq {a : Ptr} (h : Mapped p.mem a.toNat 0x20)
    (huser : a.toNat + 0x20 ≤ 0x0000800000000000) :
    tryObjectArray p a = .ok (if isObjectArray p a then some a else none) := by
  rw [tryObjectArray, load_of_mapped_sub h huser (by decide), ok_bind]
  by_cases hvalid : isObjectArray p a = true
  · obtain ⟨header, -, elements, -, numChunks, -, -, -, -, -, -⟩ := isObjectArray_iff.mp hvalid
    have helements : p.i32 (a + Offsets.objArrayNumElements) = _ :=
      peekAs_within header (by omega) (by decide) i32Of 0
    have hchunks : p.i32 (a + Offsets.objArrayNumChunks) = _ :=
      peekAs_within header (by omega) (by decide) i32Of 0
    rw [helements] at elements
    rw [hchunks] at numChunks
    rw [if_neg (by omega), load_of_mapped_sub h huser (by decide), ok_bind, if_neg (by omega),
      validateObjectArray_eq, ok_bind, hvalid]
    rfl
  · rw [if_neg hvalid, load_of_mapped_sub h huser (by decide), ok_bind]
    dsimp only
    split
    · rfl
    · split
      · rfl
      · rw [validateObjectArray_eq, ok_bind, if_neg hvalid]
        rfl

/-- **The early reads turn down no name pool**, unless its first block is at an odd address. -/
theorem tryNamePool_eq {a : Ptr} (h : Mapped p.mem a.toNat 0x10)
    (huser : a.toNat + 0x10 ≤ 0x0000800000000000) :
    tryNamePool p a =
      .ok (if isNamePool p a && (p.ptr (a + Offsets.namePoolBlocks) &&& 7 == 0) then some a
        else none) := by
  rw [tryNamePool, load_of_mapped_sub h huser (by decide), ok_bind]
  by_cases hvalid : isNamePool p a = true
  · obtain ⟨header, currentBlock, block, -, -, -⟩ := isNamePool_iff.mp hvalid
    have hcurrent : p.i32 (a + Offsets.namePoolCurrentBlock) = _ :=
      peekAs_within header (by omega) (by decide) i32Of 0
    have hblock : p.ptr (a + Offsets.namePoolBlocks) = _ :=
      peekAs_within header (by omega) (by decide) ptrOf 0
    have hzero := ne_zero_of_readable block
    rw [hcurrent, i32Of, UInt32.toUInt32_toInt32] at currentBlock
    rw [hblock] at hzero
    rw [if_neg (UInt32.not_le.mpr currentBlock), load_of_mapped_sub h huser (by decide), ok_bind,
      hblock, hvalid, Bool.true_and]
    by_cases haligned : ptrOf (((contents p.mem a.toNat 0x10).drop
        Offsets.namePoolBlocks.toNat).take 8) &&& 7 = 0
    · rw [if_neg (by simp [hzero, haligned]), validateNamePool_eq, ok_bind, hvalid, haligned]
      rfl
    · rw [if_pos (Or.inr haligned), if_neg (by simpa using haligned)]
      rfl
  · have hnot : ¬ (isNamePool p a && (p.ptr (a + Offsets.namePoolBlocks) &&& 7 == 0)) = true := by
      simp [hvalid]
    rw [if_neg hnot, load_of_mapped_sub h huser (by decide), ok_bind]
    dsimp only
    split
    · rfl
    · split
      · rfl
      · rw [validateNamePool_eq, ok_bind, if_neg hvalid]
        rfl

/-- A search that returns the elements it tries. -/
theorem findSomeM?_try {l : List Ptr} {f : Ptr → Except Fault (Option Ptr)} {c : Ptr → Bool}
    (h : ∀ a ∈ l, f a = .ok (if c a then some a else none)) :
    l.findSomeM? f = .ok (l.find? c) := by
  rw [findSomeM?_eq_ok h, List.find?_eq_findSome?_guard]
  rfl

/-- **`ScanForObjectArray` returns the first address that passes the check.** -/
theorem scanForObjectArray_eq (h : SegmentsMapped p) :
    scanForObjectArray p = .ok (if (imageInfo p).found then
      ((scanAddresses p 0x20).find? (isObjectArray p)).getD 0 else 0) := by
  rw [scanForObjectArray]
  cases hfound : (imageInfo p).found with
  | false => rfl
  | true =>
      have htry : ∀ a ∈ scanAddresses p 0x20,
          tryObjectArray p a = .ok (if isObjectArray p a then some a else none) := by
        intro a ha
        obtain ⟨hmapped, huser⟩ := mapped_of_mem_scanAddresses h ha
        exact tryObjectArray_eq hmapped huser
      rw [findSomeM?_try htry]
      rfl

/-- **The scan for the name pool returns the first address that passes the check**, and whose first
block is at a multiple of eight. -/
theorem scanForNamePool_eq (h : SegmentsMapped p) :
    scanForNamePool p = .ok ((scanAddresses p 0x10).find? fun a =>
      isNamePool p a && (p.ptr (a + Offsets.namePoolBlocks) &&& 7 == 0)) := by
  refine findSomeM?_try fun a ha => ?_
  obtain ⟨hmapped, huser⟩ := mapped_of_mem_scanAddresses h ha
  exact tryNamePool_eq hmapped huser

/-! ### What `Initialize` finds -/

variable (p)

/-- The name pool that is found, and how. -/
def namePoolOf (moduleBase : Ptr) : Option (Ptr × Bytes) :=
  if isNamePool p (moduleBase + Offsets.gNames) then
    some (moduleBase + Offsets.gNames, bytes "sdk-offset")
  else
    ((scanAddresses p 0x10).find? fun a =>
      isNamePool p a && (p.ptr (a + Offsets.namePoolBlocks) &&& 7 == 0)).map fun a =>
        (a, bytes "segment-scan")

/-- The object array that is found, and how. -/
def objectArrayOf (moduleBase : Ptr) : Option (Ptr × Bytes) :=
  if isObjectArray p (moduleBase + Offsets.gObjects) then
    some (moduleBase + Offsets.gObjects, bytes "sdk-offset")
  else if (imageInfo p).found then
    ((scanAddresses p 0x20).find? (isObjectArray p)).map fun a => (a, bytes "segment-scan")
  else none

/-- The cross-check of the first object. -/
def crossCheck (e : Engine) : Bool :=
  looksLikeText (e.name p (e.objectAt p 0)) &&
    (afterFirst (bytes "CoreUObject") (e.name p (e.objectAt p 0))).isSome

/-- The addresses are those that are found in the memory. -/
structure Resolved (e : Engine) : Prop where
  image : (imageInfo p).found = true ∧ (imageInfo p).start ≠ 0
  moduleBase : e.moduleBase = (imageInfo p).start
  moduleEnd : e.moduleEnd = (imageInfo p).stop
  names : namePoolOf p (imageInfo p).start = some (e.gNames, e.gNamesSource)
  objects : objectArrayOf p (imageInfo p).start = some (e.gObjects, e.gObjectsSource)

/-- The engine has been found in the memory. -/
structure Discovered (e : Engine) : Prop extends Resolved p e where
  firstObject : crossCheck p e = true
  initialized : e.initialized = true

variable {p}

/-- What `ResolveNamePool` changes. -/
def withNames (e : Engine) (found : Ptr × Bytes) : Engine :=
  { e with gNames := found.1, gNamesSource := found.2 }

/-- What `ResolveObjectArray` changes. -/
def withObjects (e : Engine) (found : Ptr × Bytes) : Engine :=
  { e with gObjects := found.1, gObjectsSource := found.2 }

/-- The name pool is looked for without a fault. -/
theorem resolveNamePool_eq (h : SegmentsMapped p) (e : Engine) :
    resolveNamePool p e =
      .ok ((namePoolOf p e.moduleBase).elim (e, false) fun found => (withNames e found, true)) := by
  rw [resolveNamePool, validateNamePool_eq, ok_bind, namePoolOf]
  by_cases hoffset : isNamePool p (e.moduleBase + Offsets.gNames) = true
  · rw [if_pos hoffset, if_pos hoffset]
    rfl
  · rw [if_neg hoffset, if_neg hoffset, scanForNamePool_eq h, ok_bind]
    cases (scanAddresses p 0x10).find? fun a =>
        isNamePool p a && (p.ptr (a + Offsets.namePoolBlocks) &&& 7 == 0) with
    | none => rfl
    | some a => rfl

/-- The object array is looked for without a fault. -/
theorem resolveObjectArray_eq (h : SegmentsMapped p) (e : Engine) :
    resolveObjectArray p e =
      .ok ((objectArrayOf p e.moduleBase).elim (e, false) fun found =>
        (withObjects e found, true)) := by
  rw [resolveObjectArray, validateObjectArray_eq, ok_bind, objectArrayOf]
  by_cases hoffset : isObjectArray p (e.moduleBase + Offsets.gObjects) = true
  · rw [if_pos hoffset, if_pos hoffset]
    rfl
  · rw [if_neg hoffset, if_neg hoffset, scanForObjectArray_eq h, ok_bind]
    by_cases hfound : (imageInfo p).found = true
    · rw [if_pos hfound, if_pos hfound]
      cases hscan : (scanAddresses p 0x20).find? (isObjectArray p) with
      | none => rfl
      | some a =>
          have harray := isObjectArray_iff.mp (List.find?_some hscan)
          rw [Option.getD_some, if_neg (ne_zero_of_readable harray.header)]
          rfl
    · rw [if_neg hfound, if_neg hfound]
      rfl

/-- The cross-check is made without a fault. -/
theorem checkFirstObject_eq (e : Engine) :
    checkFirstObject p e =
      .ok (if crossCheck p e then ({ e with initialized := true }, true) else (e, false)) := by
  rw [checkFirstObject, getObjectByIndex_eq, ok_bind, getObjectName_eq, ok_bind, crossCheck]
  by_cases htext : looksLikeText (e.name p (e.objectAt p 0)) = true
  · cases hfind : afterFirst (bytes "CoreUObject") (e.name p (e.objectAt p 0)) with
    | none => simp
    | some rest => simp [htext]
  · simp [htext]

/-- How an attempt ends. -/
inductive Attempt (p : Process) (e : Engine) : Engine × Bool → Prop
  | noImage (h : ¬ ((imageInfo p).found = true ∧ (imageInfo p).start ≠ 0)) :
      Attempt p e (e, false)
  | noNames {e' : Engine} (hinitialized : e'.initialized = e.initialized)
      (h : namePoolOf p (imageInfo p).start = none) : Attempt p e (e', false)
  | noObjects {e' : Engine} (hinitialized : e'.initialized = e.initialized)
      (h : objectArrayOf p (imageInfo p).start = none) : Attempt p e (e', false)
  | refused {e' : Engine} (hinitialized : e'.initialized = e.initialized) (h : Resolved p e')
      (hcheck : crossCheck p e' = false) : Attempt p e (e', false)
  | found {e' : Engine} (h : Discovered p e') : Attempt p e (e', true)

/-- The next step is made if the last one went through. -/
theorem andThen_ok (e : Engine) (ok : Bool) (rest : Engine → Except Fault (Engine × Bool)) :
    andThen (.ok (e, ok)) rest = if ok then rest e else .ok (e, false) :=
  rfl

/-- **`Initialize` does not fault**, and finds what the checks accept. -/
theorem runs_engineInitialize (h : SegmentsMapped p) (e : Engine) :
    Runs (engineInitialize p e) (Attempt p e) := by
  rw [engineInitialize, resolveModule]
  by_cases himage : (imageInfo p).found = true ∧ (imageInfo p).start ≠ 0
  · have hcond : ¬ ((!(imageInfo p).found) = true ∨ (imageInfo p).start = 0) := by
      rw [himage.1]
      exact not_or.mpr ⟨Bool.false_ne_true, himage.2⟩
    rw [if_neg hcond, andThen_ok, if_pos rfl, resolveNamePool_eq h]
    cases hnames : namePoolOf p (imageInfo p).start with
    | none => exact runs_ok.mpr (.noNames rfl hnames)
    | some names =>
        rw [Option.elim_some, andThen_ok, if_pos rfl, resolveObjectArray_eq h]
        change Runs (andThen (.ok ((objectArrayOf p (imageInfo p).start).elim _ _)) _) _
        cases hobjects : objectArrayOf p (imageInfo p).start with
        | none => exact runs_ok.mpr (.noObjects rfl hobjects)
        | some objects =>
            rw [Option.elim_some, andThen_ok, if_pos rfl, checkFirstObject_eq]
            split
            · next hcheck =>
                exact runs_ok.mpr (.found ⟨⟨himage, rfl, rfl, hnames, hobjects⟩, hcheck, rfl⟩)
            · next hcheck =>
                exact runs_ok.mpr (.refused rfl ⟨himage, rfl, rfl, hnames, hobjects⟩
                  (Bool.eq_false_iff.mpr hcheck))
  · have hcond : (!(imageInfo p).found) = true ∨ (imageInfo p).start = 0 := by
      rcases not_and_or.mp himage with hfound | hstart
      · exact Or.inl (by simpa using hfound)
      · exact Or.inr (not_ne_iff.mp hstart)
    rw [if_pos hcond]
    exact runs_ok.mpr (.noImage himage)

/-- One memory has one set of addresses. -/
theorem Resolved.unique {e e' : Engine} (h : Resolved p e) (h' : Resolved p e') :
    e' = { e with initialized := e'.initialized } := by
  have hnames := Option.some.inj (h.names.symm.trans h'.names)
  have hobjects := Option.some.inj (h.objects.symm.trans h'.objects)
  have hbase := h.moduleBase.trans h'.moduleBase.symm
  have hend := h.moduleEnd.trans h'.moduleEnd.symm
  obtain ⟨hgNames, hgNamesSource⟩ := Prod.mk.inj hnames
  obtain ⟨hgObjects, hgObjectsSource⟩ := Prod.mk.inj hobjects
  rw [hbase, hend, hgNames, hgNamesSource, hgObjects, hgObjectsSource]

/-- **When `Initialize` succeeds, and with which addresses**: with the ones that are found in this
memory, whatever earlier attempts have left. -/
theorem engineInitialize_eq_true_iff (h : SegmentsMapped p) {e e' : Engine} :
    engineInitialize p e = .ok (e', true) ↔ Discovered p e' := by
  obtain ⟨r, hr, hattempt⟩ := runs_engineInitialize h e
  rw [hr, Except.ok.injEq]
  constructor
  · rintro rfl
    cases hattempt with
    | found h => exact h
  · intro hfound
    cases hattempt with
    | noImage himage => exact absurd hfound.image himage
    | noNames _ hnames => exact absurd (hnames.symm.trans hfound.names) (by simp)
    | noObjects _ hobjects => exact absurd (hobjects.symm.trans hfound.objects) (by simp)
    | refused _ hresolved hcheck =>
        have hsame := hresolved.unique hfound.toResolved
        have hpass := hfound.firstObject
        rw [hsame] at hpass
        exact absurd (hcheck.symm.trans hpass) Bool.false_ne_true
    | found h =>
        rw [h.toResolved.unique hfound.toResolved, hfound.initialized, ← h.initialized]

/-! ### What an initialised engine can rely on -/

/-- The name pool that is found passes the check. -/
theorem isNamePool_of_namePoolOf {base a : Ptr} {source : Bytes}
    (h : namePoolOf p base = some (a, source)) : isNamePool p a = true := by
  rw [namePoolOf] at h
  split at h
  · next hoffset =>
      obtain ⟨rfl, -⟩ := Prod.mk.inj (Option.some.inj h)
      exact hoffset
  · obtain ⟨b, hb, hpair⟩ := Option.map_eq_some_iff.mp h
    obtain ⟨rfl, -⟩ := Prod.mk.inj hpair
    have hpass := List.find?_some hb
    exact (Bool.and_eq_true_iff.mp hpass).1

/-- The object array that is found passes the check. -/
theorem isObjectArray_of_objectArrayOf {base a : Ptr} {source : Bytes}
    (h : objectArrayOf p base = some (a, source)) : isObjectArray p a = true := by
  rw [objectArrayOf] at h
  split at h
  · next hoffset =>
      obtain ⟨rfl, -⟩ := Prod.mk.inj (Option.some.inj h)
      exact hoffset
  · split at h
    · obtain ⟨b, hb, hpair⟩ := Option.map_eq_some_iff.mp h
      obtain ⟨rfl, -⟩ := Prod.mk.inj hpair
      exact List.find?_some hb
    · exact absurd h (by simp)

/-- A pool that passes the check holds the name `None` first. -/
theorem poolHolds_none {e : Engine} (h : isNamePool p e.gNames = true) :
    e.PoolHolds p 0 (.narrow (bytes "None")) := by
  obtain ⟨header, -, block, length, narrow, text⟩ := isNamePool_iff.mp h
  obtain ⟨n, hn, probe, hprobe, isWide, hbytes⟩ :=
    exists_header (length_contents p.mem (p.ptr (e.gNames + Offsets.namePoolBlocks)).toNat 2)
  obtain ⟨hlength, hwide⟩ := @header_spec _ _ isWide hn hprobe
  rw [hbytes, hlength] at length
  rw [hbytes] at narrow
  obtain rfl : isWide = false := by
    rw [← hwide, narrow]
    rfl
  subst length
  have hslot : e.blockSlot 0 = e.gNames + Offsets.namePoolBlocks := by
    rw [blockSlot]
    exact UInt64.add_zero _
  have hentry : entryOf (p.ptr (e.gNames + Offsets.namePoolBlocks)) 0 =
      p.ptr (e.gNames + Offsets.namePoolBlocks) := UInt64.add_zero _
  refine ⟨ne_zero_of_readable header, by decide, ?_, by decide, by decide, probe, hprobe, ?_⟩
  · rw [hslot]
    exact ne_zero_of_readable block
  · have hstored : NameEntry.stored (.narrow (bytes "None")) probe =
        contents p.mem (p.ptr (e.gNames + Offsets.namePoolBlocks)).toNat (2 + 4) := by
      rw [contents_append, hbytes, text]
      rfl
    rw [hslot, hentry, hstored, length_contents,
      peek_of_readable (readable_mono block (by omega) (by omega))]

/-- The number of objects that an array with a check has. -/
theorem objectCount_of_array {e : Engine} (h : isObjectArray p e.gObjects = true) :
    e.objectCount p = p.i32 (e.gObjects + Offsets.objArrayNumElements) ∧
      1000 ≤ (e.objectCount p).toInt ∧ (e.objectCount p).toInt ≤ 20000000 := by
  have harray := isObjectArray_iff.mp h
  have hcount : e.objectCount p = p.i32 (e.gObjects + Offsets.objArrayNumElements) := by
    rw [objectCount, getObjectCount, if_neg (ne_zero_of_readable harray.header), readI32_eq,
      result_ok]
  rw [hcount]
  exact ⟨rfl, harray.elements⟩

/-- **In an array that passes the check every index has its place**: the test for the number of
chunks turns down no index below the number of objects, and the table of chunks can be read
there. -/
theorem objectAt_of_array {e : Engine} (h : isObjectArray p e.gObjects = true) {i : ℤ}
    (hnonneg : 0 ≤ i) (hi : i < (e.objectCount p).toInt) :
    let slot := p.ptr (e.gObjects + Offsets.objArrayObjects) +
      UInt64.ofInt (i / Offsets.objectsPerChunk) * 8
    p.readable slot 8 = true ∧
      e.objectAt p i = if p.ptr slot = 0 then 0
        else p.ptr (p.ptr slot + UInt64.ofInt (i % Offsets.objectsPerChunk) *
          Offsets.objectItemSize) := by
  have harray := isObjectArray_iff.mp h
  rw [(objectCount_of_array h).1] at hi
  have hchunk : i / Offsets.objectsPerChunk <
      (p.i32 (e.gObjects + Offsets.objArrayNumChunks)).toInt :=
    Int.ediv_lt_of_lt_mul (by decide) (lt_of_lt_of_le hi harray.fits)
  have hdiv : 0 ≤ i / Offsets.objectsPerChunk := Int.ediv_nonneg hnonneg (by decide)
  have hoffset : (UInt64.ofInt (i / Offsets.objectsPerChunk) * 8).toNat =
      (i / Offsets.objectsPerChunk).toNat * 8 := by
    have hsmall := harray.numChunks.2
    rw [UInt64.toNat_mul, UInt64.ofInt, UInt64.toNat_ofNat']
    change (((i / Offsets.objectsPerChunk) % 2 ^ 64).toNat % 2 ^ 64) * 8 % 2 ^ 64 = _
    omega
  constructor
  · refine readable_sub harray.table (by omega) ?_
    rw [hoffset]
    omega
  · rw [objectAt, getObjectByIndex,
      if_neg (not_or.mpr ⟨ne_zero_of_readable harray.header, by omega⟩), readI32_eq, ok_bind,
      readI32_eq, ok_bind, if_neg (by omega)]
    dsimp only
    rw [if_neg (by omega), readPtr_eq, ok_bind, if_neg harray.chunks, readPtr_eq, ok_bind]
    split
    · rfl
    · rw [readPtr_eq, result_ok]

/-! ### The attempts of the initialisation thread -/

/-- An attempt on the memory as it is; there is none any more when the engine is initialised. -/
def attempt (e : Engine) (p : Process) : Option Engine :=
  if e.initialized then none
  else match engineInitialize p e with
    | .ok (e', _) => some e'
    | .error _ => none

/-- What an attempt does to an engine that is not initialised. -/
theorem attempt_cases (h : SegmentsMapped p) {e e' : Engine} (hstep : attempt e p = some e') :
    e.initialized = false ∧ (Discovered p e' ∨
      e'.initialized = false ∧ ∀ e'', ¬ Discovered p e'') := by
  rw [attempt] at hstep
  split at hstep
  · exact absurd hstep (by simp)
  next hinitialized =>
  refine ⟨Bool.eq_false_iff.mpr hinitialized, ?_⟩
  obtain ⟨⟨found, ok⟩, hr, hattempt⟩ := runs_engineInitialize h e
  rw [hr] at hstep
  obtain rfl := Option.some.inj hstep
  cases ok with
  | true => exact Or.inl ((engineInitialize_eq_true_iff h).mp hr)
  | false =>
      refine Or.inr ⟨?_, fun e'' hfound => ?_⟩
      · have hkept : found.initialized = e.initialized := by
          cases hattempt with
          | noImage _ => rfl
          | noNames hkept _ => exact hkept
          | noObjects hkept _ => exact hkept
          | refused hkept _ _ => exact hkept
        rw [hkept]
        exact Bool.eq_false_iff.mpr hinitialized
      · have hok := (engineInitialize_eq_true_iff (e := e) h).mpr hfound
        rw [hr] at hok
        exact absurd (congrArg Prod.snd (Except.ok.inj hok)) Bool.false_ne_true

/-- No attempt on an engine that is not initialised ends the process. -/
theorem exists_attempt (h : SegmentsMapped p) {e : Engine} (he : e.initialized = false) :
    ∃ e', attempt e p = some e' := by
  obtain ⟨r, hr, -⟩ := runs_engineInitialize h e
  rw [attempt, he, if_neg Bool.false_ne_true, hr]
  exact ⟨r.1, rfl⟩

/-- The attempts go on until there is a memory with the engine in it. -/
theorem exec_attempt {ps : List Process} (h : ∀ p ∈ ps, SegmentsMapped p) {e : Engine}
    (he : e.initialized = false) :
    ((exec attempt e ps).isSome = true ↔ ∀ p ∈ ps.dropLast, ∀ e', ¬ Discovered p e') ∧
      ∀ e', exec attempt e ps = some e' →
        (e'.initialized = true ↔ ∃ p, ps.getLast? = some p ∧ Discovered p e') := by
  induction ps generalizing e with
  | nil =>
      refine ⟨by simp [exec], ?_⟩
      rintro e' hexec
      obtain rfl := Option.some.inj hexec
      simp [he]
  | cons p ps ih =>
      obtain ⟨e₁, hstep⟩ := exists_attempt (h p List.mem_cons_self) he
      have hexec : exec attempt e (p :: ps) = exec attempt e₁ ps := by
        rw [exec, hstep, Option.bind_some]
      rw [hexec]
      obtain ⟨-, hfound | ⟨hkept, hnone⟩⟩ := attempt_cases (h p List.mem_cons_self) hstep
      · cases ps with
        | nil =>
            refine ⟨by simp [exec], ?_⟩
            rintro e' hlast
            obtain rfl := Option.some.inj hlast
            exact ⟨fun _ => ⟨p, rfl, hfound⟩, fun _ => hfound.initialized⟩
        | cons q ps =>
            have hstop : exec attempt e₁ (q :: ps) = none := by
              rw [exec, attempt, if_pos hfound.initialized, Option.bind_none]
            rw [hstop]
            refine ⟨⟨fun hfalse => absurd hfalse Bool.false_ne_true, fun hall => ?_⟩,
              fun e' hnone => absurd hnone.symm (Option.some_ne_none e')⟩
            exact absurd hfound (hall p (by simp) e₁)
      · obtain ⟨hsome, hlast⟩ := ih (fun q hq => h q (List.mem_cons_of_mem p hq)) hkept
        rw [hsome]
        cases ps with
        | nil =>
            refine ⟨by simp, ?_⟩
            rintro e' hend
            obtain rfl := Option.some.inj hend
            constructor
            · intro hinitialized
              exact absurd (hkept.symm.trans hinitialized) Bool.false_ne_true
            · rintro ⟨q, hq, hfound⟩
              obtain rfl : p = q := Option.some.inj hq
              exact absurd hfound (hnone e₁)
        | cons q ps =>
            refine ⟨?_, ?_⟩
            · simp only [List.dropLast_cons_cons, List.mem_cons, forall_eq_or_imp]
              exact ⟨fun hrest => ⟨hnone, hrest⟩, fun hall => hall.2⟩
            · simpa only [List.getLast?_cons_cons] using hlast

/-! ### A game -/

/-- A game with the name pool and the object array at the offsets of the known build. -/
def sampleGame : Process :=
  .ofChunks
    [(0xDF72FB8, bytesOf 8 0 ++ bytesOf 8 0x20000),
      (0x20000, NameEntry.stored (.narrow (bytes "None")) 0 ++
        NameEntry.stored (.narrow (bytes "/Script/CoreUObject")) 0 ++ .replicate 37 0),
      (0xE02E4D0, bytesOf 8 0x30000 ++ bytesOf 8 0 ++ bytesOf 4 1000 ++ bytesOf 4 1000 ++
        bytesOf 4 1 ++ bytesOf 4 1),
      (0x30000, bytesOf 8 0x40000),
      (0x40000, bytesOf 8 0x50000 ++ bytesOf 16 0),
      (0x50000, bytesOf 8 0x400100 ++ bytesOf 16 0 ++ bytesOf 4 3 ++ bytesOf 12 0),
      (0x500000, bytesOf 16 0)]
    [⟨[], [⟨0x400000, 0x10000000, false⟩, ⟨0x500000, 0x500010, true⟩]⟩] (by decide)

/-- The engine in that game. -/
def sampleEngine : Engine where
  moduleBase := 0x400000
  moduleEnd := 0x10000000
  gObjects := 0xE02E4D0
  gNames := 0xDF72FB8
  initialized := true
  gObjectsSource := bytes "sdk-offset"
  gNamesSource := bytes "sdk-offset"

/-- The segments of the sample are mapped. -/
theorem segmentsMapped_sampleGame : ∀ p ∈ [sampleGame], SegmentsMapped p := by
  decide +kernel

/-- The sample is a game that is discovered. -/
theorem discovered_sampleGame : Discovered sampleGame sampleEngine := by
  have hmapped := segmentsMapped_sampleGame sampleGame List.mem_cons_self
  refine (engineInitialize_eq_true_iff (e := {}) hmapped).mp ?_
  decide +kernel

/-! ### What the server can rely on -/

/-- **The scans return the first address of the writable segments that passes the whole check**;
for the name pool, the first whose first block is at a multiple of eight as well. -/
theorem scans_spec (h : SegmentsMapped p) :
    scanForObjectArray p = .ok (if (imageInfo p).found then
        ((scanAddresses p 0x20).find? (isObjectArray p)).getD 0 else 0) ∧
      scanForNamePool p = .ok ((scanAddresses p 0x10).find? fun a =>
        isNamePool p a && (p.ptr (a + Offsets.namePoolBlocks) &&& 7 == 0)) :=
  ⟨scanForObjectArray_eq h, scanForNamePool_eq h⟩

/-- Another build of the game, with the object array and the name pool in a writable segment. -/
def movedGame : Process :=
  .ofChunks
    [(0x20000, NameEntry.stored (.narrow (bytes "None")) 0 ++
        NameEntry.stored (.narrow (bytes "/Script/CoreUObject")) 0 ++ .replicate 37 0),
      (0x30000, bytesOf 8 0x40000),
      (0x40000, bytesOf 8 0x50000 ++ bytesOf 16 0),
      (0x50000, bytesOf 8 0x400100 ++ bytesOf 16 0 ++ bytesOf 4 3 ++ bytesOf 12 0),
      (0x500000, bytesOf 8 0 ++ (bytesOf 8 0x30000 ++ bytesOf 8 0 ++ bytesOf 4 1000 ++
        bytesOf 4 1000 ++ bytesOf 4 1 ++ bytesOf 4 1) ++ (bytesOf 8 0 ++ bytesOf 8 0x20000))]
    [⟨[], [⟨0x400000, 0x10000000, false⟩, ⟨0x500000, 0x500038, true⟩]⟩] (by decide)

/-- In that game both scans find what they look for, behind addresses that do not pass. -/
theorem scans_spec_movedGame :
    scanForObjectArray movedGame = .ok 0x500008 ∧
      scanForNamePool movedGame = .ok (some 0x500028) := by
  have hmapped : ∀ p ∈ [movedGame], SegmentsMapped p := by decide +kernel
  obtain ⟨harray, hpool⟩ := scans_spec (hmapped movedGame List.mem_cons_self)
  rw [harray, hpool]
  decide +kernel

/-- **The initialisation thread stops at the first memory with the engine in it**, and with the
addresses that are found there: attempts are made for as long as there has been none, and the
engine is initialised exactly when the last of them has found it. -/
theorem attempts_spec {ps : List Process} (h : ∀ p ∈ ps, SegmentsMapped p) :
    ((exec attempt {} ps).isSome = true ↔ ∀ p ∈ ps.dropLast, ∀ e, ¬ Discovered p e) ∧
      ∀ e, exec attempt {} ps = some e →
        (e.initialized = true ↔ ∃ p, ps.getLast? = some p ∧ Discovered p e) :=
  exec_attempt h rfl

/-- A process that has no image of the game yet. -/
def emptyGame : Process :=
  .ofChunks [] [] (by decide)

/-- Of the attempts on that process and on the game above the second finds the engine. -/
theorem attempts_spec_games :
    (∀ e, ¬ Discovered emptyGame e) ∧
      exec attempt {} [emptyGame, sampleGame] = some sampleEngine ∧
      Discovered sampleGame sampleEngine := by
  have hmapped : ∀ p ∈ [emptyGame, sampleGame], SegmentsMapped p := by decide +kernel
  have hexec : exec attempt {} [emptyGame, sampleGame] = some sampleEngine := by decide +kernel
  obtain ⟨hgoes, hlast⟩ := attempts_spec hmapped
  refine ⟨hgoes.mp (by rw [hexec]; rfl) emptyGame List.mem_cons_self, hexec, ?_⟩
  obtain ⟨p, hp, hfound⟩ := (hlast sampleEngine hexec).mp rfl
  obtain rfl : sampleGame = p := Option.some.inj hp
  exact hfound

/-- **In the memory that it has been found in**, the engine reads the name `None` first, there are
between a thousand and twenty million objects, and every index has its place: none is turned down
for the number of chunks, and the table of chunks can be read there. -/
theorem discovered_spec {e : Engine} (h : Discovered p e) :
    (∀ number, e.nameText p 0 number = bytes "None" ++ numberSuffix number) ∧
      1000 ≤ (e.objectCount p).toInt ∧ (e.objectCount p).toInt ≤ 20000000 ∧
      ∀ i : ℤ, 0 ≤ i → i < (e.objectCount p).toInt →
        let slot := p.ptr (e.gObjects + Offsets.objArrayObjects) +
          UInt64.ofInt (i / Offsets.objectsPerChunk) * 8
        p.readable slot 8 = true ∧
          e.objectAt p i = if p.ptr slot = 0 then 0
            else p.ptr (p.ptr slot + UInt64.ofInt (i % Offsets.objectsPerChunk) *
              Offsets.objectItemSize) := by
  have harray := isObjectArray_of_objectArrayOf h.objects
  have hpool := isNamePool_of_namePoolOf h.names
  obtain ⟨-, hmin, hmax⟩ := objectCount_of_array harray
  exact ⟨fun number => nameText_of_poolHolds (poolHolds_none hpool) number, hmin, hmax,
    fun i hnonneg hi => objectAt_of_array harray hnonneg hi⟩

/-- The engine of the game above. -/
theorem discovered_spec_sampleGame :
    Discovered sampleGame sampleEngine ∧
      sampleEngine.nameText sampleGame 0 3 = bytes "None" ++ numberSuffix 3 :=
  ⟨discovered_sampleGame, (discovered_spec discovered_sampleGame).1 3⟩

end Engine

end RSDWServerAPI.DomEngine
