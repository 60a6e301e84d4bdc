import RSDWServerAPI.GameText
import RSDWServerAPI.Loops
import RSDWServerAPI.ProcessMemory

/-!
# The objects of the game

`engine/uobject.cpp` finds its way through the memory of the game: `GObjects` is an array of
chunks of object pointers, `GNames` a pool of blocks of names, and an object has its class, its
name and its outer object at fixed offsets. All the rest of the engine code is loops over these
objects.

The functions are computations in `Except Fault`, read by read as in the source. None of them
faults, whatever the memory holds, so that each has a result; and the loops compute what can be
said of the list `objects` and of the names in it.

## Main results

* `getObjectByIndex_eq`, `nameToString_eq`, `getObjectName_eq`: **no read of these faults**.
* `nameText_of_poolHolds`, `exists_poolHolds`: **an entry of the name pool is read back**, and there
  is no other name.
* `isA_iff`: `IsA` is a search among the class and its next 31 ancestors.
* `sweeps_spec`: **the sweeps return the first object that is asked for**.
-/

namespace RSDWServerAPI.DomEngine

open GameText Loops Mem RawMemory

/-! ### `dom_engine.h` -/

namespace Offsets

/-- `GObjects`. -/
def gObjects : Ptr := 0x0DC2E4D0

/-- `GNames`. -/
def gNames : Ptr := 0x0DB72FB8

/-- `GWorld`. -/
def gWorld : Ptr := 0x0DD525F8

/-- `ObjArray_Objects`. -/
def objArrayObjects : Ptr := 0x00

/-- `ObjArray_MaxElements`. -/
def objArrayMaxElements : Ptr := 0x10

/-- `ObjArray_NumElements`. -/
def objArrayNumElements : Ptr := 0x14

/-- `ObjArray_MaxChunks`. -/
def objArrayMaxChunks : Ptr := 0x18

/-- `ObjArray_NumChunks`. -/
def objArrayNumChunks : Ptr := 0x1C

/-- `ObjectsPerChunk`. -/
def objectsPerChunk : ℤ := 0x10000

/-- `ObjectItem_Size`. -/
def objectItemSize : Ptr := 0x18

/-- `NamePool_CurrentBlock`. -/
def namePoolCurrentBlock : Ptr := 0x00

/-- `NamePool_Blocks`. -/
def namePoolBlocks : Ptr := 0x08

/-- `NameBlockOffsetBits`. -/
def nameBlockOffsetBits : UInt32 := 16

/-- `NameEntryStride`. -/
def nameEntryStride : Ptr := 2

/-- `NamePool_MaxBlocks`. -/
def namePoolMaxBlocks : UInt32 := 0x2000

/-- `UObject_Class`. -/
def uObjectClass : Ptr := 0x10

/-- `UObject_Name`. -/
def uObjectName : Ptr := 0x18

/-- `UObject_Outer`. -/
def uObjectOuter : Ptr := 0x20

/-- `UStruct_SuperStruct`. -/
def uStructSuperStruct : Ptr := 0x40

/-- `World_PersistentLevel`. -/
def worldPersistentLevel : Ptr := 0x30

/-- `World_GameState`. -/
def worldGameState : Ptr := 0x1E0

end Offsets

/-- `DomEngine::Engine`, without the count of attempts, which only the log reads. `worldSource` is
what `GetWorld` returns beside the world. -/
structure Engine where
  moduleBase : Ptr := 0
  moduleEnd : Ptr := 0
  gObjects : Ptr := 0
  gNames : Ptr := 0
  initialized : Bool := false
  gObjectsSource : Bytes := []
  gNamesSource : Bytes := []
  deriving DecidableEq, Repr

/-- The body that `LooksLikeText` of `engine_core.cpp` and `IsPrintableAscii` of `uobject.cpp`
share. -/
def isPrintable (value : Bytes) : Bool :=
  value ≠ [] && value.all fun c => !(c < 0x20 || 0x7E < c)

namespace Engine

variable (e : Engine) (p : Process)

/-! ### The object array -/

/-- `GetObjectCount`. -/
def getObjectCount : Except Fault Int32 :=
  if e.gObjects = 0 then .ok 0 else p.readI32 (e.gObjects + Offsets.objArrayNumElements)

/-- `GetObjectByIndex`. -/
def getObjectByIndex (index : ℤ) : Except Fault Ptr := do
  if e.gObjects = 0 ∨ index < 0 then return 0
  let numElements ← p.readI32 (e.gObjects + Offsets.objArrayNumElements)
  let numChunks ← p.readI32 (e.gObjects + Offsets.objArrayNumChunks)
  if numElements.toInt ≤ index then return 0
  let chunkIndex := index / Offsets.objectsPerChunk
  let inChunk := index % Offsets.objectsPerChunk
  if numChunks.toInt ≤ chunkIndex then return 0
  let chunks ← p.readPtr (e.gObjects + Offsets.objArrayObjects)
  if chunks = 0 then return 0
  let chunk ← p.readPtr (chunks + UInt64.ofInt chunkIndex * 8)
  if chunk = 0 then return 0
  p.readPtr (chunk + UInt64.ofInt inChunk * Offsets.objectItemSize)

/-! ### Names -/

/-- A `uint16_t` from its bytes. -/
def u16Of (bs : Bytes) : UInt16 :=
  UInt16.ofNat (number bs)

/-- The elements of an array of `char16_t`. -/
def unitsOf : Bytes → List UInt16
  | low :: high :: bs => u16Of [low, high] :: unitsOf bs
  | _ => []

/-- The text of an entry of the name pool, when it can be read. -/
def entryText (entry : Ptr) (isWide : Bool) (length : ℕ) : Except Fault (Option Bytes) := do
  if isWide then
    if !p.readable (entry + 2) (length * 2) then return none
    let data ← load p.mem (entry + 2).toNat (length * 2)
    return some (utf16ToUtf8 (unitsOf data))
  else
    if !p.readable (entry + 2) length then return none
    let data ← load p.mem (entry + 2).toNat length
    return some data

/-- What `NameToString` appends for the number of a name. -/
def numberSuffix (number : UInt32) : Bytes :=
  if 0 < number then bytes "_" ++ decimal (number - 1).toNat else []

/-- The address of the entry of a comparison index in its block. -/
def entryOf (block : Ptr) (comparisonIndex : UInt32) : Ptr :=
  block + (comparisonIndex &&& ((1 <<< Offsets.nameBlockOffsetBits) - 1)).toUInt64 *
    Offsets.nameEntryStride

/-- The place in the pool where the block of a comparison index is. -/
def blockSlot (comparisonIndex : UInt32) : Ptr :=
  e.gNames + Offsets.namePoolBlocks +
    (comparisonIndex >>> Offsets.nameBlockOffsetBits).toUInt64 * 8

/-- `NameToString`. -/
def nameToString (comparisonIndex number : UInt32) : Except Fault Bytes := do
  if e.gNames = 0 then return []
  if Offsets.namePoolMaxBlocks ≤ comparisonIndex >>> Offsets.nameBlockOffsetBits then return []
  let block ← p.readPtr (e.blockSlot comparisonIndex)
  if block = 0 then return []
  let entry := entryOf block comparisonIndex
  match ← p.read entry 2 with
  | none => return []
  | some bs =>
      let header := u16Of bs
      let length := (header >>> 6).toNat
      if length = 0 ∨ 1024 < length then return []
      match ← entryText p entry (header &&& 1 != 0) length with
      | none => return []
      | some result => return result ++ numberSuffix number

/-- `GetObjectName`. -/
def getObjectName (object : Ptr) : Except Fault Bytes := do
  if object = 0 ∨ p.readable object 0x28 = false then return []
  let comparisonIndex ← p.readI32 (object + Offsets.uObjectName)
  let number ← p.readI32 (object + Offsets.uObjectName + 4)
  e.nameToString p comparisonIndex.toUInt32 number.toUInt32

/-- `GetObjectClassName`. -/
def getObjectClassName (object : Ptr) : Except Fault Bytes := do
  if object = 0 ∨ p.readable object 0x28 = false then return []
  let classPtr ← p.readPtr (object + Offsets.uObjectClass)
  e.getObjectName p classPtr

/-! ### Classes and sweeps -/

/-- The loop of `IsA`. -/
def isALoop (className : Bytes) : ℕ → Ptr → Except Fault Bool
  | 0, _ => .ok false
  | depth + 1, classPtr => do
      if classPtr = 0 then return false
      if (← e.getObjectName p classPtr) = className then return true
      isALoop className depth (← p.readPtr (classPtr + Offsets.uStructSuperStruct))

/-- `IsA`. -/
def isA (object : Ptr) (className : Bytes) : Except Fault Bool := do
  if object = 0 then return false
  e.isALoop p className 32 (← p.readPtr (object + Offsets.uObjectClass))

/-- The indexes of a loop up to `GetObjectCount`. -/
def indexes (count : Int32) : List ℤ :=
  (List.range count.toInt.toNat).map Int.ofNat

/-- A loop over the objects that returns from its body. -/
def sweep {α : Type} (body : Ptr → Except Fault (Option α)) : Except Fault (Option α) := do
  let count ← e.getObjectCount p
  (indexes count).findSomeM? fun i => do
    let object ← e.getObjectByIndex p i
    if object = 0 then return none
    body object

/-- `rfind("Default__", 0) == 0`. -/
def isDefaultName (name : Bytes) : Bool :=
  decide (bytes "Default__" <+: name)

/-- `FindObject`. -/
def findObject (className : Bytes) (wantDefaultObject : Bool) : Except Fault Ptr := do
  let found ← e.sweep p fun object => do
    if (← e.getObjectClassName p object) ≠ className then return none
    let isDefault := isDefaultName (← e.getObjectName p object)
    if isDefault ≠ wantDefaultObject then return none
    return some object
  return found.getD 0

/-- `FindFunction`. -/
def findFunction (className functionName : Bytes) : Except Fault Ptr := do
  let found ← e.sweep p fun object => do
    if (← e.getObjectClassName p object) ≠ bytes "Function" then return none
    if (← e.getObjectName p object) ≠ functionName then return none
    let outer ← p.readPtr (object + Offsets.uObjectOuter)
    if (← e.getObjectName p outer) ≠ className then return none
    return some object
  return found.getD 0

/-- The condition that `GetWorld` has for what `GWorld` points to. -/
def isLoadedWorld (world : Ptr) : Except Fault Bool := do
  if world = 0 then return false
  if (← e.getObjectClassName p world) ≠ bytes "World" then return false
  return (← p.readPtr (world + Offsets.worldPersistentLevel)) != 0

/-- `GetWorld`, with what it leaves in `worldSource`. -/
def getWorld : Except Fault (Ptr × Bytes) := do
  let world ← p.readPtr (e.moduleBase + Offsets.gWorld)
  if ← e.isLoadedWorld p world then return (world, bytes "gworld")
  let found ← e.sweep p fun candidate => do
    if (← e.getObjectClassName p candidate) ≠ bytes "World" then return none
    if isDefaultName (← e.getObjectName p candidate) then return none
    if (← p.readPtr (candidate + Offsets.worldPersistentLevel)) = 0 then return none
    return some candidate
  match found with
  | some candidate => return (candidate, bytes "gobjects-sweep")
  | none => return (0, [])

/-- `GetGameState`. -/
def getGameState : Except Fault Ptr := do
  let (world, _) ← e.getWorld p
  if world = 0 then return 0
  p.readPtr (world + Offsets.worldGameState)

/-! ### None of this faults -/

variable {e p}

/-- `GetObjectCount` does not fault. -/
theorem runs_getObjectCount : Runs (e.getObjectCount p) fun _ => True := by
  rw [getObjectCount, readI32_eq]
  exact Runs.ite (fun _ => runs_ok.mpr trivial) fun _ => runs_ok.mpr trivial

/-- `GetObjectByIndex` does not fault. -/
theorem runs_getObjectByIndex (index : ℤ) :
    Runs (e.getObjectByIndex p index) fun _ => True := by
  rw [getObjectByIndex]
  simp only [readPtr_eq, readI32_eq, ok_bind, pure_eq_ok]
  split_ifs <;> exact runs_ok.mpr trivial

/-- The text of an entry of the name pool is read without a fault. -/
theorem runs_entryText (entry : Ptr) (isWide : Bool) (length : ℕ) :
    Runs (entryText p entry isWide length) fun _ => True := by
  rw [entryText]
  cases isWide with
  | true =>
      cases h : p.readable (entry + 2) (length * 2) with
      | false => exact runs_ok.mpr trivial
      | true =>
          simp only [load_of_readable h]
          exact runs_ok.mpr trivial
  | false =>
      cases h : p.readable (entry + 2) length with
      | false => exact runs_ok.mpr trivial
      | true =>
          simp only [load_of_readable h]
          exact runs_ok.mpr trivial

/-- `NameToString` does not fault. -/
theorem runs_nameToString (comparisonIndex number : UInt32) :
    Runs (e.nameToString p comparisonIndex number) fun _ => True := by
  rw [nameToString]
  simp only [readPtr_eq, read_eq, ok_bind, pure_eq_ok]
  refine Runs.ite (fun _ => runs_ok.mpr trivial) fun _ => ?_
  refine Runs.ite (fun _ => runs_ok.mpr trivial) fun _ => ?_
  refine Runs.ite (fun _ => runs_ok.mpr trivial) fun _ => ?_
  cases p.peek (entryOf (p.ptr (e.blockSlot comparisonIndex)) comparisonIndex) 2 with
  | none => exact runs_ok.mpr trivial
  | some bs =>
      refine Runs.ite (fun _ => runs_ok.mpr trivial) fun _ => ?_
      refine (runs_entryText _ _ _).bind fun text _ => ?_
      cases text with
      | none => exact runs_ok.mpr trivial
      | some result => exact runs_ok.mpr trivial

variable (e p)

/-- The text of a name. -/
def nameText (comparisonIndex number : UInt32) : Bytes :=
  result (e.nameToString p comparisonIndex number)

/-- **`NameToString` does not fault.** -/
@[simp] theorem nameToString_eq (comparisonIndex number : UInt32) :
    e.nameToString p comparisonIndex number = .ok (e.nameText p comparisonIndex number) :=
  (runs_nameToString comparisonIndex number).eq_ok

/-- The number of objects. -/
def objectCount : Int32 :=
  result (e.getObjectCount p)

/-- `GetObjectCount` returns the number of objects. -/
@[simp] theorem getObjectCount_eq : e.getObjectCount p = .ok (e.objectCount p) :=
  runs_getObjectCount.eq_ok

/-- The object with an index. -/
def objectAt (index : ℤ) : Ptr :=
  result (e.getObjectByIndex p index)

/-- **`GetObjectByIndex` does not fault.** -/
@[simp] theorem getObjectByIndex_eq (index : ℤ) :
    e.getObjectByIndex p index = .ok (e.objectAt p index) :=
  (runs_getObjectByIndex index).eq_ok

/-- The name of an object. -/
def name (object : Ptr) : Bytes :=
  result (e.getObjectName p object)

/-- **`GetObjectName` does not fault.** -/
@[simp] theorem getObjectName_eq (object : Ptr) :
    e.getObjectName p object = .ok (e.name p object) := by
  refine Runs.eq_ok (Q := fun _ => True) ?_
  rw [getObjectName]
  simp only [readI32_eq, nameToString_eq, ok_bind, pure_eq_ok]
  exact Runs.ite (fun _ => runs_ok.mpr trivial) fun _ => runs_ok.mpr trivial

/-- The name of the class of an object. -/
def className (object : Ptr) : Bytes :=
  result (e.getObjectClassName p object)

/-- `GetObjectClassName` returns the name of the class. -/
@[simp] theorem getObjectClassName_eq (object : Ptr) :
    e.getObjectClassName p object = .ok (e.className p object) := by
  refine Runs.eq_ok (Q := fun _ => True) ?_
  rw [getObjectClassName]
  simp only [readPtr_eq, getObjectName_eq, ok_bind, pure_eq_ok]
  exact Runs.ite (fun _ => runs_ok.mpr trivial) fun _ => runs_ok.mpr trivial

/-! ### Names are read back -/

/-- The header of an entry: the length from bit 6 on, five bits that the server does not look at,
and whether the text is UTF-16. -/
def entryHeader (length probe : ℕ) (isWide : Bool) : ℕ :=
  length * 64 + probe * 2 + if isWide then 1 else 0

/-- The elements of an array of `char16_t`, as bytes. -/
def unitBytes (units : List UInt16) : Bytes :=
  units.flatMap fun unit => bytesOf 2 unit.toNat

/-- The text of an entry of the name pool. -/
inductive NameEntry
  | narrow (text : Bytes)
  | wide (units : List UInt16)

namespace NameEntry

/-- The text is UTF-16. -/
def isWide : NameEntry → Bool
  | narrow _ => false
  | wide _ => true

/-- The length that the header has. -/
def length : NameEntry → ℕ
  | narrow text => text.length
  | wide units => units.length

/-- The text as it lies behind the header. -/
def data : NameEntry → Bytes
  | narrow text => text
  | wide units => unitBytes units

/-- The text in UTF-8. -/
def text : NameEntry → Bytes
  | narrow text => text
  | wide units => utf16ToUtf8 units

/-- The entry as it lies in memory. -/
def stored (entry : NameEntry) (probe : ℕ) : Bytes :=
  bytesOf 2 (entryHeader entry.length probe entry.isWide) ++ entry.data

end NameEntry

/-- The name pool has an entry for a comparison index. -/
structure PoolHolds (comparisonIndex : UInt32) (entry : NameEntry) : Prop where
  pool : e.gNames ≠ 0
  block : comparisonIndex >>> Offsets.nameBlockOffsetBits < Offsets.namePoolMaxBlocks
  filled : p.ptr (e.blockSlot comparisonIndex) ≠ 0
  nonempty : 0 < entry.length
  bounded : entry.length < 1024
  stored : ∃ probe < 32, p.peek (entryOf (p.ptr (e.blockSlot comparisonIndex)) comparisonIndex)
    (entry.stored probe).length = some (entry.stored probe)

variable {e p}

/-- A unit is two bytes. -/
theorem length_unitBytes (units : List UInt16) : (unitBytes units).length = units.length * 2 := by
  induction units with
  | nil => rfl
  | cons unit units ih =>
      rw [unitBytes, List.flatMap_cons, List.length_append, length_bytesOf, ← unitBytes, ih,
        List.length_cons]
      omega

/-- Code units are read back as they were stored. -/
theorem unitsOf_unitBytes (units : List UInt16) : unitsOf (unitBytes units) = units := by
  induction units with
  | nil => rfl
  | cons unit units ih =>
      have hunit : u16Of (bytesOf 2 unit.toNat) = unit := by
        have hlt := unit.toNat_lt
        rw [u16Of, number_bytesOf, Nat.mod_eq_of_lt (by simpa using hlt), UInt16.ofNat_toNat]
      rw [unitBytes, List.flatMap_cons, ← unitBytes]
      change u16Of (bytesOf 2 unit.toNat) :: unitsOf (unitBytes units) = unit :: units
      rw [hunit, ih]

/-- An even number of bytes is stored for the code units that are read from it. -/
theorem unitBytes_unitsOf {n : ℕ} {bs : Bytes} (h : bs.length = n * 2) :
    unitBytes (unitsOf bs) = bs ∧ (unitsOf bs).length = n := by
  induction n generalizing bs with
  | zero =>
      obtain rfl := List.length_eq_zero_iff.mp (by omega : bs.length = 0)
      exact ⟨rfl, rfl⟩
  | succ n ih =>
      obtain ⟨low, bs, rfl⟩ := List.exists_cons_of_length_pos (by omega : 0 < bs.length)
      rw [List.length_cons] at h
      obtain ⟨high, rest, rfl⟩ := List.exists_cons_of_length_pos (by omega : 0 < bs.length)
      rw [List.length_cons] at h
      have hrest : rest.length = n * 2 := by omega
      obtain ⟨hbytes, hlen⟩ := ih hrest
      have hunit : bytesOf 2 (u16Of [low, high]).toNat = [low, high] := by
        have hlt : number [low, high] < 256 ^ 2 := number_lt [low, high]
        rw [u16Of, UInt16.toNat_ofNat', Nat.mod_eq_of_lt (by simpa using hlt)]
        exact bytesOf_number [low, high]
      refine ⟨?_, by rw [unitsOf, List.length_cons, hlen]⟩
      rw [unitsOf, unitBytes, List.flatMap_cons, ← unitBytes, hbytes, hunit]
      rfl

/-- What `NameToString` takes from a header. -/
theorem header_spec {length probe : ℕ} {isWide : Bool} (hlength : length < 1024)
    (hprobe : probe < 32) :
    (u16Of (bytesOf 2 (entryHeader length probe isWide)) >>> 6).toNat = length ∧
      (u16Of (bytesOf 2 (entryHeader length probe isWide)) &&& 1 != 0) = isWide := by
  have hbound : entryHeader length probe isWide < 2 ^ 16 := by
    rw [entryHeader]
    split <;> omega
  have hheader : (u16Of (bytesOf 2 (entryHeader length probe isWide))).toNat =
      entryHeader length probe isWide := by
    rw [u16Of, number_bytesOf, UInt16.toNat_ofNat', Nat.mod_mod_of_dvd _ (by norm_num)]
    exact Nat.mod_eq_of_lt hbound
  constructor
  · rw [UInt16.toNat_shiftRight, hheader]
    change entryHeader length probe isWide >>> 6 = length
    rw [Nat.shiftRight_eq_div_pow, entryHeader]
    split <;> omega
  · have hand : (u16Of (bytesOf 2 (entryHeader length probe isWide)) &&& 1).toNat =
        if isWide then 1 else 0 := by
      rw [UInt16.toNat_and, hheader]
      change entryHeader length probe isWide &&& 1 = _
      rw [Nat.and_one_is_mod, entryHeader]
      split <;> omega
    cases isWide with
    | false =>
        have hzero : u16Of (bytesOf 2 (entryHeader length probe false)) &&& 1 = 0 :=
          UInt16.toNat.inj hand
        rw [hzero]
        rfl
    | true =>
        have hone : u16Of (bytesOf 2 (entryHeader length probe true)) &&& 1 = 1 :=
          UInt16.toNat.inj hand
        rw [hone]
        rfl

/-- A header is that of the length and the bits that are taken from it. -/
theorem exists_header {bs : Bytes} (h : bs.length = 2) :
    ∃ length < 1024, ∃ probe < 32, ∃ isWide, bs = bytesOf 2 (entryHeader length probe isWide) := by
  have hlt : number bs < 256 ^ 2 := by
    have hbound := number_lt bs
    rwa [h] at hbound
  have hbytes := bytesOf_number bs
  rw [h] at hbytes
  refine ⟨number bs / 64, by omega, number bs / 2 % 32, by omega, decide (number bs % 2 = 1), ?_⟩
  have hsplit : entryHeader (number bs / 64) (number bs / 2 % 32) (decide (number bs % 2 = 1)) =
      number bs := by
    rw [entryHeader]
    split
    · next hodd =>
        have := of_decide_eq_true hodd
        omega
    · next heven =>
        have : number bs % 2 ≠ 1 := fun hodd => heven (decide_eq_true hodd)
        omega
  rw [hsplit, hbytes]

/-- Bytes of the length that a header says are the text of an entry. -/
theorem exists_entry {length : ℕ} {isWide : Bool} {data : Bytes}
    (h : data.length = if isWide then length * 2 else length) :
    ∃ entry : NameEntry, entry.length = length ∧ entry.isWide = isWide ∧ entry.data = data := by
  cases isWide with
  | false => exact ⟨.narrow data, h, rfl, rfl⟩
  | true =>
      obtain ⟨hback, hunits⟩ := unitBytes_unitsOf h
      exact ⟨.wide (unitsOf data), hunits, rfl, hback⟩

/-- The range of an entry can be read if its header and its text can. -/
theorem readable_join {addr : Ptr} {m n : ℕ} (hm : p.readable addr m = true)
    (hn : p.readable (addr + UInt64.ofNat m) n = true) (hsmall : m < 2 ^ 64) :
    p.readable addr (m + n) = true := by
  have hshift : (addr + UInt64.ofNat m).toNat = addr.toNat + m := by
    have hoffset : (UInt64.ofNat m).toNat = m := UInt64.toNat_ofNat_of_lt' hsmall
    rw [toNat_add_of_readable hm (by omega), hoffset]
  have huser := readable_user hn
  obtain ⟨⟨hlow, hhigh, hpos, -⟩, hfirst⟩ := readable_eq_true.mp hm
  obtain ⟨-, hsecond⟩ := readable_eq_true.mp hn
  rw [hshift] at huser hsecond
  refine readable_eq_true.mpr ⟨⟨hlow, hhigh, by omega, by omega⟩, fun i hi => ?_⟩
  by_cases him : i < m
  · exact hfirst i him
  · have hbyte := hsecond (i - m) (by omega)
    rwa [Nat.add_assoc, Nat.add_sub_cancel' (by omega)] at hbyte

/-- What `entryText` copies. -/
theorem entryText_eq {entry : Ptr} {isWide : Bool} {length : ℕ} :
    entryText p entry isWide length =
      .ok ((p.peek (entry + 2) (if isWide then length * 2 else length)).map fun data =>
        if isWide then utf16ToUtf8 (unitsOf data) else data) := by
  rw [entryText]
  cases isWide with
  | true =>
      cases h : p.readable (entry + 2) (length * 2) with
      | false => simp [peek_eq_none h]
      | true =>
          simp only [if_true, Bool.false_eq_true, if_false, Bool.not_true, load_of_readable h,
            peek_of_readable h, ok_bind, pure_eq_ok, Option.map_some]
  | false =>
      cases h : p.readable (entry + 2) length with
      | false => simp [peek_eq_none h]
      | true =>
          simp only [Bool.false_eq_true, if_false, Bool.not_true, load_of_readable h,
            peek_of_readable h, ok_bind, pure_eq_ok, Option.map_some]

/-- **An entry of the name pool is read back**, with the number of the name behind it. -/
theorem nameText_of_poolHolds {comparisonIndex : UInt32} {entry : NameEntry}
    (h : e.PoolHolds p comparisonIndex entry) (number : UInt32) :
    e.nameText p comparisonIndex number = entry.text ++ numberSuffix number := by
  obtain ⟨hpool, hblock, hfilled, hpos, hbound, probe, hprobe, hstored⟩ := h
  obtain ⟨hlength, hwide⟩ := @header_spec _ _ entry.isWide hbound hprobe
  have hdata : entry.data.length = if entry.isWide then entry.length * 2 else entry.length := by
    cases entry with
    | narrow text => rfl
    | wide units => exact length_unitBytes units
  have hread : p.readable (entryOf (p.ptr (e.blockSlot comparisonIndex)) comparisonIndex)
      (entry.stored probe).length = true := by
    by_contra hno
    rw [peek_eq_none (Bool.eq_false_iff.mpr hno)] at hstored
    simp at hstored
  have hlen : (entry.stored probe).length = 2 + entry.data.length := by
    rw [NameEntry.stored, List.length_append, length_bytesOf]
  have hdatapos : 0 < entry.data.length := by
    rw [hdata]
    split <;> omega
  rw [peek_of_readable hread, Option.some.injEq, hlen, contents_append, NameEntry.stored] at hstored
  obtain ⟨hheader, hbody⟩ := List.append_inj hstored (by simp)
  rw [hlen] at hread
  have hpeek := peek_of_readable (readable_mono hread (k := 2) (by omega) (by omega))
  have hpeekdata := peek_of_readable
    (@readable_sub p _ _ hread 2 _ hdatapos (by simp))
  rw [toNat_add_of_readable hread (by simp)] at hpeekdata
  rw [hheader] at hpeek
  change p.peek _ _ = some (contents p.mem (_ + 2) _) at hpeekdata
  rw [hbody] at hpeekdata
  rw [nameText, nameToString, if_neg hpool, if_neg (UInt32.not_le.mpr hblock)]
  simp only [readPtr_eq, ok_bind, if_neg hfilled, read_eq, hpeek, hlength, hwide, entryText_eq,
    ← hdata, hpeekdata, Option.map_some, pure_eq_ok]
  rw [if_neg (by omega)]
  cases entry with
  | narrow text => rfl
  | wide units => simp [NameEntry.isWide, NameEntry.data, unitsOf_unitBytes, NameEntry.text]

/-- **There is no other name**: what is not an entry of the name pool has no text. -/
theorem exists_poolHolds {comparisonIndex number : UInt32}
    (h : e.nameText p comparisonIndex number ≠ []) :
    ∃ entry, e.PoolHolds p comparisonIndex entry := by
  rw [nameText, nameToString] at h
  split at h
  · exact absurd rfl h
  next hpool =>
  split at h
  · exact absurd rfl h
  next hblock =>
  simp only [readPtr_eq, ok_bind, read_eq, entryText_eq, pure_eq_ok] at h
  split at h
  · exact absurd rfl h
  next hfilled =>
  cases hheader : p.readable (entryOf (p.ptr (e.blockSlot comparisonIndex)) comparisonIndex) 2 with
  | false =>
      rw [peek_eq_none hheader] at h
      exact absurd rfl h
  | true =>
      obtain ⟨length, hlength, probe, hprobe, isWide, hbytes⟩ :=
        exists_header (length_contents p.mem
          (entryOf (p.ptr (e.blockSlot comparisonIndex)) comparisonIndex).toNat 2)
      obtain ⟨htake, hbit⟩ := @header_spec _ _ isWide hlength hprobe
      rw [peek_of_readable hheader, hbytes] at h
      simp only [htake, hbit] at h
      split at h
      · exact absurd rfl h
      next hrange =>
      cases hdata : p.readable
          (entryOf (p.ptr (e.blockSlot comparisonIndex)) comparisonIndex + 2)
          (if isWide then length * 2 else length) with
      | false =>
          rw [peek_eq_none hdata] at h
          exact absurd rfl h
      | true =>
          have hall := readable_join hheader hdata (by omega)
          have hcontents := contents_append p.mem
            (entryOf (p.ptr (e.blockSlot comparisonIndex)) comparisonIndex).toNat 2
            (if isWide then length * 2 else length)
          rw [hbytes] at hcontents
          obtain ⟨entry, rfl, rfl, hentry⟩ := exists_entry (length_contents p.mem
            ((entryOf (p.ptr (e.blockSlot comparisonIndex)) comparisonIndex).toNat + 2)
            (if isWide then length * 2 else length))
          refine ⟨entry, hpool, UInt32.not_le.mp hblock, hfilled, by omega, hlength, probe, hprobe,
            ?_⟩
          have hstored : entry.stored probe = contents p.mem
              (entryOf (p.ptr (e.blockSlot comparisonIndex)) comparisonIndex).toNat
              (2 + if entry.isWide then entry.length * 2 else entry.length) := by
            rw [NameEntry.stored, hentry, hcontents]
          rw [hstored, length_contents, peek_of_readable hall]

/-- **What `NameToString` returns**: the text of the entry that the pool has for the comparison
index, with the number behind it, and nothing if there is no entry. -/
theorem nameToString_spec (comparisonIndex number : UInt32) :
    (∀ entry, e.PoolHolds p comparisonIndex entry →
        e.nameToString p comparisonIndex number = .ok (entry.text ++ numberSuffix number)) ∧
      ((∀ entry, ¬ e.PoolHolds p comparisonIndex entry) →
        e.nameToString p comparisonIndex number = .ok []) := by
  constructor
  · intro entry h
    rw [nameToString_eq, nameText_of_poolHolds h]
  · intro h
    rw [nameToString_eq]
    by_contra hne
    obtain ⟨entry, hentry⟩ := exists_poolHolds fun hnil => hne (congrArg Except.ok hnil)
    exact h entry hentry

/-! ### Classes -/

/-- A pointer that is not null. -/
def nonNull (addr : Ptr) : Option Ptr :=
  if addr = 0 then none else some addr

/-- The class that a class is derived from. -/
def superOf (p : Process) (classPtr : Ptr) : Option Ptr :=
  nonNull (p.ptr (classPtr + Offsets.uStructSuperStruct))

/-- The class of an object. -/
def classOf (p : Process) (object : Ptr) : Option Ptr :=
  nonNull (p.ptr (object + Offsets.uObjectClass))

/-- One of the classes that the loop of `IsA` visits has the name. -/
theorem isALoop_eq (className : Bytes) (depth : ℕ) (classPtr : Ptr) :
    e.isALoop p className depth classPtr =
      .ok ((chain (superOf p) depth (nonNull classPtr)).any fun c => e.name p c == className) := by
  induction depth generalizing classPtr with
  | zero => rfl
  | succ depth ih =>
      rw [isALoop, nonNull]
      by_cases hnull : classPtr = 0
      · rw [if_pos hnull, if_pos hnull]
        rfl
      · rw [if_neg hnull, if_neg hnull, chain, List.any_cons]
        simp only [getObjectName_eq, readPtr_eq, ok_bind, pure_eq_ok, ih, superOf]
        by_cases hname : e.name p classPtr = className
        · simp [hname]
        · simp [hname]

variable (e p) in
/-- The object is of the class. -/
def isKind (object : Ptr) (className : Bytes) : Bool :=
  result (e.isA p object className)

/-- **`IsA` does not fault.** -/
@[simp] theorem isA_eq (object : Ptr) (className : Bytes) :
    e.isA p object className = .ok (e.isKind p object className) := by
  refine Runs.eq_ok (Q := fun _ => True) ?_
  rw [isA]
  simp only [readPtr_eq, ok_bind, isALoop_eq]
  exact Runs.ite (fun _ => runs_ok.mpr trivial) fun _ => runs_ok.mpr trivial

/-- **`IsA` is a search among the class and its next 31 ancestors.** -/
theorem isA_iff {object : Ptr} {className : Bytes} :
    e.isA p object className = .ok true ↔
      object ≠ 0 ∧ ∃ k < 32, ∃ c, reach (superOf p) k (classOf p object) = some c ∧
        e.name p c = className := by
  rw [isA]
  by_cases hnull : object = 0
  · simp [hnull]
  · rw [if_neg hnull]
    simp only [readPtr_eq, ok_bind, isALoop_eq, Except.ok.injEq, List.any_eq_true,
      beq_iff_eq, ne_eq, hnull, not_false_eq_true, true_and, classOf, mem_chain_iff]
    constructor
    · rintro ⟨c, ⟨k, hk, hreach⟩, hname⟩
      exact ⟨k, hk, c, hreach, hname⟩
    · rintro ⟨k, hk, c, hreach, hname⟩
      exact ⟨c, ⟨k, hk, hreach⟩, hname⟩

/-! ### The sweeps over the objects -/

variable (e p) in
/-- The objects in the order of `GObjects`. -/
def objects : List Ptr :=
  ((indexes (e.objectCount p)).map (e.objectAt p)).filter (· ≠ 0)

/-- A sweep is a search in that list. -/
theorem sweep_eq {α : Type} {body : Ptr → Except Fault (Option α)} {g : Ptr → Option α}
    (h : ∀ object, body object = .ok (g object)) :
    e.sweep p body = .ok ((e.objects p).findSome? g) := by
  rw [sweep, getObjectCount_eq, ok_bind]
  have hbody : ∀ i ∈ indexes (e.objectCount p),
      (do
        let object ← e.getObjectByIndex p i
        if object = 0 then return none
        body object) =
        (.ok (if e.objectAt p i = 0 then none else g (e.objectAt p i)) : Except Fault _) := by
    intro i _
    rw [getObjectByIndex_eq, ok_bind, h]
    by_cases hnull : e.objectAt p i = 0
    · rw [if_pos hnull, if_pos hnull]
      rfl
    · rw [if_neg hnull, if_neg hnull]
  refine (findSomeM?_eq_ok hbody).trans ?_
  rw [objects]
  congr 1
  induction indexes (e.objectCount p) with
  | nil => rfl
  | cons i is ih =>
      rw [List.findSome?_cons, List.map_cons]
      by_cases hnull : e.objectAt p i = 0
      · rw [if_pos hnull, List.filter_cons_of_neg (by simpa using hnull)]
        exact ih
      · rw [if_neg hnull, List.filter_cons_of_pos (by simpa using hnull), List.findSome?_cons, ih]

/-- A sweep that returns the first object of a kind. -/
theorem sweep_find {body : Ptr → Except Fault (Option Ptr)} {c : Ptr → Bool}
    (h : ∀ object, body object = .ok (if c object then some object else none)) :
    e.sweep p body = .ok ((e.objects p).find? c) := by
  rw [sweep_eq h, List.find?_eq_findSome?_guard]
  rfl

/-- **`FindObject` returns the first object of the class** that is a default object, or that is
none. -/
theorem findObject_eq (className : Bytes) (wantDefaultObject : Bool) :
    e.findObject p className wantDefaultObject =
      .ok (((e.objects p).find? fun object =>
        e.className p object == className &&
          isDefaultName (e.name p object) == wantDefaultObject).getD 0) := by
  rw [findObject, sweep_find]
  · rfl
  · intro object
    simp only [getObjectClassName_eq, getObjectName_eq, ok_bind, pure_eq_ok]
    by_cases hclass : e.className p object = className
    · by_cases hdefault : isDefaultName (e.name p object) = wantDefaultObject
      · simp [hclass, hdefault]
      · simp [hclass, hdefault]
    · simp [hclass]

/-- **`FindFunction` returns the first function of that name in a class of that name.** -/
theorem findFunction_eq (className functionName : Bytes) :
    e.findFunction p className functionName =
      .ok (((e.objects p).find? fun object =>
        e.className p object == bytes "Function" && e.name p object == functionName &&
          e.name p (p.ptr (object + Offsets.uObjectOuter)) == className).getD 0) := by
  rw [findFunction, sweep_find]
  · rfl
  · intro object
    simp only [getObjectClassName_eq, getObjectName_eq, readPtr_eq, ok_bind, pure_eq_ok]
    by_cases hclass : e.className p object = bytes "Function"
    · by_cases hname : e.name p object = functionName
      · by_cases houter : e.name p (p.ptr (object + Offsets.uObjectOuter)) = className
        · simp [hclass, hname, houter]
        · simp [hclass, hname, houter]
      · simp [hclass, hname]
    · simp [hclass]

/-! ### The world -/

variable (e p) in
/-- A world with a level. -/
def isWorld (object : Ptr) : Bool :=
  e.className p object == bytes "World" && p.ptr (object + Offsets.worldPersistentLevel) != 0

variable (e p) in
/-- What `GWorld` points to. -/
def gWorld : Ptr :=
  p.ptr (e.moduleBase + Offsets.gWorld)

variable (e p) in
/-- The world and where it has been found. -/
def world : Ptr × Bytes :=
  result (e.getWorld p)

/-- **`GetWorld`** returns what `GWorld` points to if it is a world with a level, and otherwise the
first such object whose name is not that of a default object. -/
theorem getWorld_eq :
    e.getWorld p =
      .ok (let gWorld := p.ptr (e.moduleBase + Offsets.gWorld)
        if gWorld ≠ 0 ∧ e.isWorld p gWorld then (gWorld, bytes "gworld")
        else match (e.objects p).find? fun object =>
            e.isWorld p object && !isDefaultName (e.name p object) with
          | some candidate => (candidate, bytes "gobjects-sweep")
          | none => (0, [])) := by
  have hloaded : ∀ w, e.isLoadedWorld p w = .ok (decide (w ≠ 0 ∧ e.isWorld p w)) := by
    intro w
    rw [isLoadedWorld]
    simp only [getObjectClassName_eq, readPtr_eq, ok_bind, pure_eq_ok, isWorld]
    by_cases hnull : w = 0
    · simp [hnull]
    · by_cases hclass : e.className p w = bytes "World"
      · by_cases hlevel : p.ptr (w + Offsets.worldPersistentLevel) = 0
        · simp [hnull, hclass, hlevel]
        · simp [hnull, hclass, hlevel]
      · simp [hnull, hclass]
  rw [getWorld, readPtr_eq, ok_bind, hloaded, ok_bind]
  dsimp only
  by_cases hgworld : p.ptr (e.moduleBase + Offsets.gWorld) ≠ 0 ∧
      e.isWorld p (p.ptr (e.moduleBase + Offsets.gWorld)) = true
  · rw [if_pos (decide_eq_true hgworld), if_pos hgworld]
    rfl
  · rw [if_neg (by simpa using hgworld), if_neg hgworld,
      sweep_find (c := fun object => e.isWorld p object && !isDefaultName (e.name p object)),
      ok_bind]
    · split <;> rfl
    · intro object
      simp only [getObjectClassName_eq, getObjectName_eq, readPtr_eq, ok_bind, pure_eq_ok, isWorld]
      by_cases hclass : e.className p object = bytes "World"
      · by_cases hdefault : isDefaultName (e.name p object) = true
        · simp [hclass, hdefault]
        · by_cases hlevel : p.ptr (object + Offsets.worldPersistentLevel) = 0
          · simp [hclass, hdefault, hlevel]
          · simp [hclass, hdefault, hlevel]
      · simp [hclass]

/-! ### What a search finds -/

/-- What a search over the objects returns: the first one that is wanted, or null if none is. -/
def IsFirst (objects : List Ptr) (wanted : Ptr → Bool) (found : Ptr) : Prop :=
  (found = 0 ∧ ∀ object ∈ objects, wanted object = false) ∨
    ∃ before after, objects = before ++ found :: after ∧ wanted found = true ∧
      ∀ object ∈ before, wanted object = false

/-- A search from the front finds the first one. -/
theorem isFirst_find (objects : List Ptr) (wanted : Ptr → Bool) :
    IsFirst objects wanted ((objects.find? wanted).getD 0) := by
  cases hfind : objects.find? wanted with
  | none =>
      refine .inl ⟨rfl, fun object hobject => ?_⟩
      exact Bool.not_eq_true _ ▸ List.find?_eq_none.mp hfind object hobject
  | some found =>
      obtain ⟨hwanted, before, after, hsplit, hbefore⟩ := List.find?_eq_some_iff_append.mp hfind
      exact .inr ⟨before, after, hsplit, hwanted, fun object hobject =>
        Bool.not_eq_true' _ ▸ hbefore object hobject⟩

/-- **The searches over the objects** fault for no memory. Each returns the first object in the
order of `GObjects` that it looks for, and null if there is none: a default object of the class, or
one that is none; a function of the name in a class of the name. `GetWorld` returns what `GWorld`
points to if that is a world with a level, and the first such object that is no default object
otherwise. -/
theorem sweeps_spec (e : Engine) (p : Process) :
    0 ∉ e.objects p ∧
      (∀ className wantDefaultObject, ∃ found,
        e.findObject p className wantDefaultObject = .ok found ∧
          IsFirst (e.objects p) (fun object => e.className p object == className &&
            isDefaultName (e.name p object) == wantDefaultObject) found) ∧
      (∀ className functionName, ∃ found, e.findFunction p className functionName = .ok found ∧
        IsFirst (e.objects p) (fun object => e.className p object == bytes "Function" &&
          e.name p object == functionName &&
            e.name p (p.ptr (object + Offsets.uObjectOuter)) == className) found) ∧
      ∃ found source, e.getWorld p = .ok (found, source) ∧
        (e.gWorld p ≠ 0 ∧ e.isWorld p (e.gWorld p) = true →
          found = e.gWorld p ∧ source = bytes "gworld") ∧
        (¬ (e.gWorld p ≠ 0 ∧ e.isWorld p (e.gWorld p) = true) →
          IsFirst (e.objects p) (fun object =>
            e.isWorld p object && !isDefaultName (e.name p object)) found ∧
          source = if found = 0 then [] else bytes "gobjects-sweep") := by
  have hnull : 0 ∉ e.objects p := fun h => by simpa using (List.mem_filter.mp h).2
  refine ⟨hnull,
    fun className wantDefaultObject => ⟨_, findObject_eq _ _, isFirst_find _ _⟩,
    fun className functionName => ⟨_, findFunction_eq _ _, isFirst_find _ _⟩, ?_⟩
  by_cases hgworld : e.gWorld p ≠ 0 ∧ e.isWorld p (e.gWorld p) = true
  · refine ⟨e.gWorld p, bytes "gworld", ?_, fun _ => ⟨rfl, rfl⟩, fun h => absurd hgworld h⟩
    rw [getWorld_eq]
    exact congrArg Except.ok (if_pos hgworld)
  · have hfirst := isFirst_find (e.objects p) fun object =>
      e.isWorld p object && !isDefaultName (e.name p object)
    rw [getWorld_eq]
    dsimp only
    rw [gWorld] at hgworld ⊢
    rw [if_neg hgworld]
    cases hfind : (e.objects p).find? fun object =>
        e.isWorld p object && !isDefaultName (e.name p object) with
    | none =>
        rw [hfind] at hfirst
        exact ⟨0, [], rfl, fun h => absurd h hgworld, fun _ => ⟨hfirst, rfl⟩⟩
    | some candidate =>
        rw [hfind] at hfirst
        have hne : candidate ≠ 0 := fun h => hnull (h ▸ List.mem_of_find?_eq_some hfind)
        exact ⟨candidate, bytes "gobjects-sweep", rfl, fun h => absurd h hgworld,
          fun _ => ⟨hfirst, (if_neg hne).symm⟩⟩

end Engine

end RSDWServerAPI.DomEngine
