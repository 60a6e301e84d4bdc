import RSDWServerAPI.FloatText
import RSDWServerAPI.Memory
import RSDWServerAPI.RawMemory
import RSDWServerAPI.Roster

/-!
# Reading the memory of the game process

The server lives in the game process and follows its pointers. A read of an address where nothing
is mapped would end the game, so that the readers of `utils/memory.h` ask `Mem::Readable` first.
Everything here that touches memory is a computation in `Except Fault`, with `load` for the
`memcpy` and the dereferenced pointers of the source.

`Process` is the process at one moment: its memory, the addresses that the index of `memory.cpp`
covers, and the objects that the loader reports. What the index covers is mapped; a range that has
gone since the listing was read is outside the model.

## Main results

* `readable_ofListing`: **for the index of a listing, `Process.readable` is `Mem::Readable`**.
* `readable_sub`: what can be read can be read in parts.
* `read_eq`, `readAs_eq`: **`Mem::Read` and the readers made from it never fault**.
* `load_of_readable`: a range that has been checked is loaded.
* `imagePhdrCallback_spec`: the bounds of the image enclose its segments.
-/

namespace RSDWServerAPI.Mem

open RawMemory

/-! ### The process -/

/-- A `PT_LOAD` header of an object, with `dlpi_addr` added to its address. -/
structure Phdr where
  begin : Ptr
  stop : Ptr
  writable : Bool
  deriving DecidableEq, Repr

/-- What `dl_iterate_phdr` reports of an object. -/
structure LoadedObject where
  name : Bytes
  phdrs : List Phdr
  deriving DecidableEq, Repr

/-- The game process at one moment. -/
structure Process where
  mem : ByteMemory
  /-- The addresses in the regions that `Readable` looks up. -/
  indexed : ℕ → Bool
  mapped_of_indexed : ∀ a, indexed a = true → (mem a).isSome = true
  /-- The first address behind the part of the address space that a process has. -/
  indexed_user : indexed 0x0000800000000000 = false
  objects : List LoadedObject

/-- The memory that consists of some ranges. -/
def chunkMemory (chunks : List (ℕ × Bytes)) : ByteMemory := fun a =>
  chunks.findSome? fun (base, bs) => if base ≤ a then bs[a - base]? else none

/-- A process that can read all its memory. -/
def Process.ofChunks (chunks : List (ℕ × Bytes)) (objects : List LoadedObject)
    (h : chunkMemory chunks 0x0000800000000000 = none) : Process where
  mem := chunkMemory chunks
  indexed a := (chunkMemory chunks a).isSome
  mapped_of_indexed _ ha := ha
  indexed_user := by rw [h, Option.isSome_none]
  objects

/-! ### `memory.cpp` -/

instance (value size : ℕ) : Decidable (Accepted value size) :=
  inferInstanceAs (Decidable (_ ∧ _))

/-- `Readable`, without the change of the index. -/
def Process.readable (p : Process) (addr : Ptr) (size : ℕ) : Bool :=
  decide (Accepted addr.toNat size ∧ ∀ i < size, p.indexed (addr.toNat + i) = true)

/-- The loop of `ImagePhdrCallback`, and of `CollectImage`: `first` is false once there has been a
segment. -/
def widenBounds (bounds : Ptr × Ptr × Bool) (phdr : Phdr) : Ptr × Ptr × Bool :=
  let (lowest, highest, first) := bounds
  (if first || phdr.begin < lowest then phdr.begin else lowest,
    if first || highest < phdr.stop then phdr.stop else highest, false)

/-- The bounds that the loop ends with. -/
def boundsOf (phdrs : List Phdr) : Ptr × Ptr × Bool :=
  phdrs.foldl widenBounds (0, 0, true)

/-- `ImagePhdrCallback`, the two bounds that it leaves. -/
def imagePhdrCallback (object : LoadedObject) : Option (Ptr × Ptr) :=
  if object.name ≠ [] then none
  else
    let (lowest, highest, first) := boundsOf object.phdrs
    if first then none else some (lowest, highest)

/-- `g_ImageStart` and `g_ImageEnd`, as `Init` leaves them. -/
def Process.imageBounds (p : Process) : Ptr × Ptr :=
  (p.objects.findSome? imagePhdrCallback).getD (0, 0)

/-- `InImage`. -/
def Process.inImage (p : Process) (addr : Ptr) : Bool :=
  p.imageBounds.1 ≠ 0 && p.imageBounds.1 ≤ addr && addr < p.imageBounds.2

/-! ### `memory.h` -/

/-- `Read`: the bytes of the value that is written to `out`, `none` for the result `false`. -/
def Process.read (p : Process) (addr : Ptr) (size : ℕ) : Except Fault (Option Bytes) :=
  if addr = 0 ∨ p.readable addr size = false then .ok none
  else do return some (← load p.mem addr.toNat size)

/-- The body of the readers that return a value: what `Read` has copied, or the fallback. -/
def Process.readAs {α : Type} (p : Process) (size : ℕ) (decode : Bytes → α) (addr : Ptr)
    (fallback : α) : Except Fault α := do
  match ← p.read addr size with
  | none => return fallback
  | some bs => return decode bs

/-- A `uintptr_t` from its bytes. -/
def ptrOf (bs : Bytes) : Ptr :=
  UInt64.ofNat (number bs)

/-- A `uint32_t` from its bytes. -/
def u32Of (bs : Bytes) : UInt32 :=
  UInt32.ofNat (number bs)

/-- An `int32_t` from its bytes. -/
def i32Of (bs : Bytes) : Int32 :=
  (u32Of bs).toInt32

/-- A `float` from its bytes. -/
def floatOf (bs : Bytes) : CFloat :=
  ⟨u32Of bs⟩

/-- A `double` from its bytes. -/
def doubleOf (bs : Bytes) : CDouble :=
  ⟨ptrOf bs⟩

/-- A `uint8_t` from its byte. -/
def u8Of (bs : Bytes) : UInt8 :=
  UInt8.ofNat (number bs)

/-- `ReadPtr`. -/
def Process.readPtr (p : Process) (addr : Ptr) : Except Fault Ptr :=
  p.readAs 8 ptrOf addr 0

/-- `ReadFloat`. -/
def Process.readFloat (p : Process) (addr : Ptr) (fallback : CFloat := {}) : Except Fault CFloat :=
  p.readAs 4 floatOf addr fallback

/-- `ReadI32`. -/
def Process.readI32 (p : Process) (addr : Ptr) (fallback : Int32 := 0) : Except Fault Int32 :=
  p.readAs 4 i32Of addr fallback

/-- `ReadU8`. -/
def Process.readU8 (p : Process) (addr : Ptr) (fallback : UInt8 := 0) : Except Fault UInt8 :=
  p.readAs 1 u8Of addr fallback

/-! ### What can be read -/

/-- A range can be read if it is acceptable and every byte of it is indexed. -/
theorem readable_eq_true {p : Process} {addr : Ptr} {size : ℕ} :
    p.readable addr size = true ↔
      Accepted addr.toNat size ∧ ∀ i < size, p.indexed (addr.toNat + i) = true :=
  decide_eq_true_iff

/-- A range that can be read is mapped. -/
theorem mapped_of_readable {p : Process} {addr : Ptr} {size : ℕ}
    (h : p.readable addr size = true) : Mapped p.mem addr.toNat size :=
  fun i hi => p.mapped_of_indexed _ ((readable_eq_true.mp h).2 i hi)

/-- A range that can be read ends in the part of the address space that a process has. -/
theorem readable_user {p : Process} {addr : Ptr} {size : ℕ} (h : p.readable addr size = true) :
    addr.toNat + size ≤ 0x0000800000000000 := by
  obtain ⟨⟨-, hhigh, -, -⟩, hindexed⟩ := readable_eq_true.mp h
  by_contra hcross
  have hhole := hindexed (0x0000800000000000 - addr.toNat) (by omega)
  rw [Nat.add_sub_cancel' (by omega), p.indexed_user] at hhole
  exact Bool.noConfusion hhole

/-- Nothing can be read at null. -/
theorem ne_zero_of_readable {p : Process} {addr : Ptr} {size : ℕ}
    (h : p.readable addr size = true) : addr ≠ 0 := by
  rintro rfl
  obtain ⟨⟨hlow, -, -, -⟩, -⟩ := readable_eq_true.mp h
  exact absurd hlow (by decide)

/-- An address in a range that can be read. -/
theorem toNat_add_of_readable {p : Process} {addr : Ptr} {size : ℕ}
    (h : p.readable addr size = true) {offset : Ptr} (hoffset : offset.toNat ≤ size) :
    (addr + offset).toNat = addr.toNat + offset.toNat := by
  have huser := readable_user h
  rw [UInt64.toNat_add]
  omega

/-- **What can be read can be read in parts.** -/
theorem readable_sub {p : Process} {addr : Ptr} {size : ℕ} (h : p.readable addr size = true)
    {offset : Ptr} {k : ℕ} (hk : 0 < k) (hoffset : offset.toNat + k ≤ size) :
    p.readable (addr + offset) k = true := by
  have huser := readable_user h
  obtain ⟨⟨hlow, -, -, -⟩, hindexed⟩ := readable_eq_true.mp h
  rw [readable_eq_true, toNat_add_of_readable h (by omega)]
  refine ⟨⟨by omega, by omega, hk, by omega⟩, fun j hj => ?_⟩
  rw [Nat.add_assoc]
  exact hindexed (offset.toNat + j) (by omega)

/-- A shorter range at the same address. -/
theorem readable_mono {p : Process} {addr : Ptr} {size : ℕ} (h : p.readable addr size = true)
    {k : ℕ} (hk : 0 < k) (hle : k ≤ size) : p.readable addr k = true := by
  have hsub : p.readable (addr + 0) k = true := readable_sub h hk (by simpa using hle)
  rwa [UInt64.add_zero] at hsub

/-- A range that has been checked is loaded. -/
theorem load_of_readable {p : Process} {addr : Ptr} {size : ℕ} (h : p.readable addr size = true) :
    load p.mem addr.toNat size = .ok (contents p.mem addr.toNat size) :=
  load_of_mapped (mapped_of_readable h)

/-! ### What the readers return -/

/-- What `Read` copies. -/
def Process.peek (p : Process) (addr : Ptr) (size : ℕ) : Option Bytes :=
  if p.readable addr size then some (contents p.mem addr.toNat size) else none

/-- What a reader returns. -/
def Process.peekAs {α : Type} (p : Process) (size : ℕ) (decode : Bytes → α) (addr : Ptr)
    (fallback : α) : α :=
  ((p.peek addr size).map decode).getD fallback

/-- The pointer at an address. -/
def Process.ptr (p : Process) (addr : Ptr) : Ptr :=
  p.peekAs 8 ptrOf addr 0

/-- The integer at an address. -/
def Process.i32 (p : Process) (addr : Ptr) : Int32 :=
  p.peekAs 4 i32Of addr 0

/-- The `float` at an address. -/
def Process.float (p : Process) (addr : Ptr) : CFloat :=
  p.peekAs 4 floatOf addr {}

/-- The byte at an address. -/
def Process.u8 (p : Process) (addr : Ptr) : UInt8 :=
  p.peekAs 1 u8Of addr 0

/-- What can be read is seen. -/
theorem peek_of_readable {p : Process} {addr : Ptr} {size : ℕ} (h : p.readable addr size = true) :
    p.peek addr size = some (contents p.mem addr.toNat size) :=
  if_pos h

/-- What cannot be read is not seen. -/
theorem peek_eq_none {p : Process} {addr : Ptr} {size : ℕ} (h : p.readable addr size = false) :
    p.peek addr size = none := by
  rw [Process.peek, h, if_neg Bool.false_ne_true]

/-- **`Read` never faults.** -/
theorem read_eq (p : Process) (addr : Ptr) (size : ℕ) :
    p.read addr size = .ok (p.peek addr size) := by
  cases h : p.readable addr size with
  | false => rw [Process.read, if_pos (Or.inr h), peek_eq_none h]
  | true =>
      have hzero := ne_zero_of_readable h
      rw [Process.read, if_neg (by simp [h, hzero]), load_of_readable h, peek_of_readable h]
      rfl

/-- A value is read without a fault. -/
theorem readAs_eq {α : Type} (p : Process) (size : ℕ) (decode : Bytes → α) (addr : Ptr)
    (fallback : α) :
    p.readAs size decode addr fallback = .ok (p.peekAs size decode addr fallback) := by
  rw [Process.readAs, read_eq, ok_bind, Process.peekAs]
  cases p.peek addr size with
  | none => rfl
  | some bs => rfl

/-- `ReadPtr` does not fault. -/
@[simp] theorem readPtr_eq (p : Process) (addr : Ptr) : p.readPtr addr = .ok (p.ptr addr) :=
  readAs_eq p 8 ptrOf addr 0

/-- `ReadI32` does not fault. -/
@[simp] theorem readI32_eq (p : Process) (addr : Ptr) : p.readI32 addr = .ok (p.i32 addr) :=
  readAs_eq p 4 i32Of addr 0

/-- `ReadFloat` does not fault. -/
@[simp] theorem readFloat_eq (p : Process) (addr : Ptr) : p.readFloat addr = .ok (p.float addr) :=
  readAs_eq p 4 floatOf addr {}

/-- `ReadU8` does not fault. -/
@[simp] theorem readU8_eq (p : Process) (addr : Ptr) : p.readU8 addr = .ok (p.u8 addr) :=
  readAs_eq p 1 u8Of addr 0

/-- The value at a place in a range that can be read. -/
theorem peekAs_within {α : Type} {p : Process} {addr : Ptr} {size : ℕ}
    (h : p.readable addr size = true) {offset : Ptr} {k : ℕ} (hk : 0 < k)
    (hoffset : offset.toNat + k ≤ size) (decode : Bytes → α) (fallback : α) :
    p.peekAs k decode (addr + offset) fallback =
      decode (((contents p.mem addr.toNat size).drop offset.toNat).take k) := by
  rw [Process.peekAs, peek_of_readable (readable_sub h hk hoffset),
    toNat_add_of_readable h (by omega), contents_sub p.mem addr.toNat hoffset]
  rfl

/-! ### The index of a listing -/

instance (listing : List Mapping) (addr : ℕ) : Decidable (ReadableAt listing addr) :=
  inferInstanceAs (Decidable (∃ m ∈ listing, _ ∧ _ ∧ _))

/-- **`Process.readable` is `Readable`**, for a process whose index is that of a listing, as long as
the listing is not read again. -/
theorem readable_ofListing {listing : List Mapping} (h : Listed listing) {p : Process}
    (hindexed : ∀ a, p.indexed a = true ↔ ReadableAt listing a) (loadedAt : ℕ) (s : State)
    (reads : Reads) (hpause : reads.now < loadedAt + refreshPause) (addr : Ptr) {size : ℕ}
    (hsize : size < 2 ^ 64) :
    (readable reads addr.toNat size (loadRegionsLocked (some (mapsText listing)) loadedAt s)).1 =
      p.readable addr size := by
  by_cases haccepted : Accepted addr.toNat size
  · have hpos := haccepted.2.2.1
    have hwrap := haccepted.2.2.2
    rw [Bool.eq_iff_iff, readable_of_accepted haccepted reads rfl,
      containsLocked_iff h loadedAt s hpos hwrap, readable_eq_true]
    have hlater : ¬ (loadRegionsLocked (some (mapsText listing)) loadedAt s).lastRefresh +
        refreshPause ≤ reads.now := Nat.not_le.mpr hpause
    simp only [hlater, false_and, or_false, haccepted, true_and, hindexed]
    constructor
    · exact fun hall i hi => hall _ (by omega) (by omega)
    · intro hall byte hle hlt
      have hbyte := hall (byte - addr.toNat) (by omega)
      rwa [Nat.add_sub_cancel' hle] at hbyte
  · rw [readable_of_not_accepted addr.toNat_lt hsize haccepted, eq_comm, Bool.eq_false_iff]
    exact fun hreadable => haccepted (readable_eq_true.mp hreadable).1

/-! ### The bounds of the image -/

/-- The bounds after some segments enclose each of them. -/
theorem boundsOf_encloses (phdrs : List Phdr) :
    ∀ phdr ∈ phdrs, (boundsOf phdrs).2.2 = false ∧ (boundsOf phdrs).1 ≤ phdr.begin ∧
      phdr.stop ≤ (boundsOf phdrs).2.1 := by
  induction phdrs using List.reverseRecOn with
  | nil => simp
  | append_singleton phdrs last ih =>
      intro phdr hphdr
      have hconcat : boundsOf (phdrs ++ [last]) = widenBounds (boundsOf phdrs) last := by
        rw [boundsOf, List.foldl_append]
        rfl
      rw [hconcat]
      simp only [widenBounds, true_and]
      rcases List.mem_append.mp hphdr with hold | hnew
      · obtain ⟨hfirst, hlow, hhigh⟩ := ih phdr hold
        simp only [hfirst, Bool.false_or, decide_eq_true_eq]
        constructor
        · split
          · next hlt => exact UInt64.le_trans (UInt64.le_of_lt hlt) hlow
          · exact hlow
        · split
          · next hlt => exact UInt64.le_trans hhigh (UInt64.le_of_lt hlt)
          · exact hhigh
      · obtain rfl : phdr = last := List.mem_singleton.mp hnew
        constructor
        · split
          · exact UInt64.le_refl _
          · next hnot => exact UInt64.not_lt.mp fun hlt => hnot (by simp [hlt])
        · split
          · exact UInt64.le_refl _
          · next hnot => exact UInt64.not_lt.mp fun hlt => hnot (by simp [hlt])

/-- The bounds of the image enclose its segments. -/
theorem imagePhdrCallback_spec {object : LoadedObject} {bounds : Ptr × Ptr}
    (h : imagePhdrCallback object = some bounds) :
    ∀ phdr ∈ object.phdrs, bounds.1 ≤ phdr.begin ∧ phdr.stop ≤ bounds.2 := by
  intro phdr hphdr
  rw [imagePhdrCallback] at h
  obtain ⟨hfirst, hlow, hhigh⟩ := boundsOf_encloses object.phdrs phdr hphdr
  split at h
  · simp at h
  · simp only [hfirst, Bool.false_eq_true, if_false, Option.some.injEq] at h
    rw [← h]
    exact ⟨hlow, hhigh⟩

end RSDWServerAPI.Mem
