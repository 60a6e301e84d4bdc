import RSDWServerAPI.GameObjects
import RSDWServerAPI.Serialize

/-!
# Texts, GUIDs and net ids in memory

`ReadFString`, `ReadGuid` and `ReadUniqueNetId` (`engine/uobject.cpp`) turn what lies in the memory
of the game into the texts that the server works with. An `FString` is a pointer to UTF-16 code
units and two lengths; a GUID is sixteen bytes; a net id is the `FString` member of an object that
has its virtual table in the image of the game, at one of two places.

## Main results

* `readFString_eq_gameText`: **`ReadFString` on memory is `ReadFString` on the value that lies
  there**.
* `guid_spec`: **the text of a GUID** is 32 upper-case hexadecimal digits, and two GUIDs have one
  text exactly if they are the same.
* `netId_good`: a net id is printable ASCII of at most 128 bytes, or there is none.
-/

namespace RSDWServerAPI.DomEngine

open GameText Mem RawMemory

/-! ### `uobject.cpp` -/

namespace Offsets

/-- `NetIdRepl_SharedPtrA`. -/
def netIdReplSharedPtrA : Ptr := 0x00

/-- `NetIdRepl_SharedPtrB`. -/
def netIdReplSharedPtrB : Ptr := 0x08

/-- `NetIdRepl_Size`. -/
def netIdReplSize : ℕ := 0x30

/-- `NetId_FirstMember`. -/
def netIdFirstMember : Ptr := 0x18

end Offsets

/-- `sizeof(FString)`. -/
def sizeofFString : ℕ :=
  16

variable (p : Process)

/-- `ReadFString`. -/
def readFString (address : Ptr) : Except Fault Bytes := do
  if address = 0 ∨ p.readable address sizeofFString = false then return []
  let value ← load p.mem address.toNat sizeofFString
  let data := ptrOf (value.take 8)
  let num := (i32Of ((value.drop 8).take 4)).toInt
  let max := (i32Of ((value.drop 12).take 4)).toInt
  if data = 0 ∨ num ≤ 1 ∨ 8192 < num then return []
  if max < num then return []
  if !p.readable data (num.toNat * 2) then return []
  let units ← load p.mem data.toNat ((num - 1).toNat * 2)
  return utf16ToUtf8 (Engine.unitsOf units)

/-- The conversion `%08X`. -/
def hex8 (n : UInt32) : Bytes :=
  (List.range 8).map fun i => Serialize.upperHexDigit (n.toNat / 16 ^ (7 - i) % 16)

/-- The four elements of `parts`. -/
def guidParts (bs : Bytes) : List UInt32 :=
  [u32Of (bs.take 4), u32Of ((bs.drop 4).take 4), u32Of ((bs.drop 8).take 4),
    u32Of ((bs.drop 12).take 4)]

/-- A GUID has four parts. -/
@[simp] theorem length_guidParts (bs : Bytes) : (guidParts bs).length = 4 :=
  rfl

/-- `ReadGuid`. -/
def readGuid (address : Ptr) : Except Fault Bytes := do
  if address = 0 ∨ p.readable address 16 = false then return []
  let parts := guidParts (← load p.mem address.toNat 16)
  if parts.all (· = 0) then return []
  return parts.flatMap hex8

/-- `IsPrintableAscii`. -/
def isPrintableAscii (value : Bytes) : Bool :=
  isPrintable value

/-- The body of the loop of `ReadUniqueNetId`. -/
def tryNetId (netIdRepl candidate : Ptr) : Except Fault (Option Bytes) := do
  let netId ← p.readPtr (netIdRepl + candidate)
  if netId = 0 ∨ p.readable netId (Offsets.netIdFirstMember.toNat + sizeofFString) = false then
    return none
  if !p.inImage (← p.readPtr netId) then return none
  let value ← readFString p (netId + Offsets.netIdFirstMember)
  if !isPrintableAscii value ∨ 128 < value.length then return none
  return some value

/-- `ReadUniqueNetId`, with `outSource`. -/
def readUniqueNetId (netIdRepl : Ptr) : Except Fault (Bytes × Bytes) := do
  if netIdRepl = 0 ∨ p.readable netIdRepl Offsets.netIdReplSize = false then return ([], [])
  match ← [Offsets.netIdReplSharedPtrA, Offsets.netIdReplSharedPtrB].findSomeM?
      (tryNetId p netIdRepl) with
  | some value => return (value, bytes "net-id-string")
  | none => return ([], [])

/-! ### `ReadFString` -/

/-- The units at an address. -/
def unitsAt (data : Ptr) (n : ℕ) : List UInt16 :=
  Engine.unitsOf (contents p.mem data.toNat (n * 2))

/-- The `FString` that some bytes are. -/
def fstringAt (value : Bytes) : FString where
  data :=
    if ptrOf (value.take 8) = 0 then none
    else some (unitsAt p (ptrOf (value.take 8)) (i32Of ((value.drop 8).take 4)).toInt.toNat)
  num := i32Of ((value.drop 8).take 4)
  max := i32Of ((value.drop 12).take 4)

variable {p}

/-- The first units of an array of bytes. -/
theorem unitsOf_take {n k : ℕ} {bs : Bytes} (hlen : bs.length = n * 2) (hk : k ≤ n) :
    Engine.unitsOf (bs.take (k * 2)) = (Engine.unitsOf bs).take k := by
  induction k generalizing n bs with
  | zero =>
      rw [Nat.zero_mul, List.take_zero, List.take_zero]
      rfl
  | succ k ih =>
      obtain ⟨n, rfl⟩ : ∃ m, n = m + 1 := ⟨n - 1, by omega⟩
      obtain ⟨low, bs, rfl⟩ := List.exists_cons_of_length_pos (by omega : 0 < bs.length)
      rw [List.length_cons] at hlen
      obtain ⟨high, bs, rfl⟩ := List.exists_cons_of_length_pos (by omega : 0 < bs.length)
      rw [List.length_cons] at hlen
      have htake : (low :: high :: bs).take ((k + 1) * 2) = low :: high :: bs.take (k * 2) := by
        rw [Nat.add_mul, List.take_succ_cons, List.take_succ_cons]
      have hunits : Engine.unitsOf (low :: high :: bs) =
          Engine.u16Of [low, high] :: Engine.unitsOf bs := by
        rw [Engine.unitsOf]
      rw [htake, hunits, List.take_succ_cons, ← ih (n := n) (by omega) (by omega), Engine.unitsOf]

/-- An `FString` that can be read. -/
theorem readFString_of_readable {address : Ptr} (h : p.readable address sizeofFString = true) :
    readFString p address =
      .ok (GameText.readFString
        (p.readable (ptrOf ((contents p.mem address.toNat 16).take 8))
          ((i32Of (((contents p.mem address.toNat 16).drop 8).take 4)).toInt.toNat * 2))
        (fstringAt p (contents p.mem address.toNat 16))) := by
  rw [readFString, if_neg (not_or.mpr ⟨ne_zero_of_readable h, by simp [h]⟩), load_of_readable h,
    ok_bind, GameText.readFString, fstringAt, sizeofFString]
  generalize contents p.mem address.toNat 16 = value
  dsimp only
  by_cases hnull : ptrOf (value.take 8) = 0
  · rw [if_pos hnull, if_pos (Or.inl hnull)]
    rfl
  · rw [if_neg hnull]
    dsimp only
    by_cases hnum : (i32Of ((value.drop 8).take 4)).toInt ≤ 1 ∨
        8192 < (i32Of ((value.drop 8).take 4)).toInt
    · rw [if_pos (Or.inr hnum), if_pos hnum]
      rfl
    · rw [if_neg (not_or.mpr ⟨hnull, hnum⟩), if_neg hnum]
      by_cases hmax : (i32Of ((value.drop 12).take 4)).toInt <
          (i32Of ((value.drop 8).take 4)).toInt
      · rw [if_pos hmax, if_pos hmax]
        rfl
      · rw [if_neg hmax, if_neg hmax]
        cases hread : p.readable (ptrOf (value.take 8))
            ((i32Of ((value.drop 8).take 4)).toInt.toNat * 2) with
        | false => rfl
        | true =>
            have hload := load_sub (mapped_of_readable hread) (i := 0)
              (k := ((i32Of ((value.drop 8).take 4)).toInt - 1).toNat * 2) (by omega)
            rw [Nat.add_zero, List.drop_zero] at hload
            rw [if_neg (by simp), hload, ok_bind, if_neg (by simp), unitsAt,
              unitsOf_take (length_contents _ _ _) (by omega)]
            rfl

variable (p)

/-- The text of the `FString` at an address. -/
def textAt (address : Ptr) : Bytes :=
  result (readFString p address)

/-- **`ReadFString` does not fault.** -/
@[simp] theorem readFString_eq (address : Ptr) :
    readFString p address = .ok (textAt p address) := by
  refine Runs.eq_ok (Q := fun _ => True) ?_
  cases h : p.readable address sizeofFString with
  | false =>
      rw [readFString, if_pos (Or.inr h)]
      exact runs_ok.mpr trivial
  | true =>
      rw [readFString_of_readable h]
      exact runs_ok.mpr trivial

/-- **`ReadFString` on memory is `ReadFString` on the value that lies there**, and empty where there
is none. -/
theorem readFString_eq_gameText (address : Ptr) :
    readFString p address =
      .ok (if p.readable address sizeofFString then
          GameText.readFString
            (p.readable (ptrOf ((contents p.mem address.toNat 16).take 8))
              ((i32Of (((contents p.mem address.toNat 16).drop 8).take 4)).toInt.toNat * 2))
            (fstringAt p (contents p.mem address.toNat 16))
        else []) := by
  cases h : p.readable address sizeofFString with
  | false =>
      rw [readFString, if_pos (Or.inr h)]
      rfl
  | true => rw [if_pos rfl, readFString_of_readable h]

/-! ### `ReadGuid` -/

/-- The text of the GUID at an address. -/
def guid (address : Ptr) : Bytes :=
  result (readGuid p address)

/-- **`ReadGuid` does not fault.** -/
@[simp] theorem readGuid_eq (address : Ptr) : readGuid p address = .ok (guid p address) := by
  refine Runs.eq_ok (Q := fun _ => True) ?_
  rw [readGuid]
  cases h : p.readable address 16 with
  | false =>
      rw [if_pos (Or.inr rfl)]
      exact runs_ok.mpr trivial
  | true =>
      rw [if_neg (not_or.mpr ⟨ne_zero_of_readable h, Bool.noConfusion⟩), load_of_readable h,
        ok_bind]
      exact Runs.ite (fun _ => runs_ok.mpr trivial) fun _ => runs_ok.mpr trivial

/-- A digit of `%X` is a decimal digit or one of the first six letters. -/
theorem upperHexDigit_inj {d d' : ℕ} (hd : d < 16) (hd' : d' < 16)
    (h : Serialize.upperHexDigit d = Serialize.upperHexDigit d') : d = d' := by
  have hall : ∀ a < 16, ∀ b < 16,
      Serialize.upperHexDigit a = Serialize.upperHexDigit b → a = b := by decide
  exact hall d hd d' hd' h

/-- A part is written with eight digits. -/
@[simp] theorem length_hex8 (n : UInt32) : (hex8 n).length = 8 := by
  rw [hex8, List.length_map, List.length_range]

/-- Eight digits of `%08X` are those of one number. -/
theorem hex8_inj {m n : UInt32} (h : hex8 m = hex8 n) : m = n := by
  have hdigit : ∀ i < 8, m.toNat / 16 ^ i % 16 = n.toNat / 16 ^ i % 16 := by
    intro i hi
    have hat := congrArg (fun l => l[7 - i]?) h
    simp only [hex8, List.getElem?_map, List.getElem?_range (show 7 - i < 8 by omega),
      Option.map_some, Option.some.injEq, Nat.sub_sub_self (show i ≤ 7 by omega)] at hat
    exact upperHexDigit_inj (Nat.mod_lt _ (by omega)) (Nat.mod_lt _ (by omega)) hat
  have hmod : ∀ k ≤ 8, m.toNat % 16 ^ k = n.toNat % 16 ^ k := by
    intro k
    induction k with
    | zero => exact fun _ => by rw [Nat.pow_zero, Nat.mod_one, Nat.mod_one]
    | succ k ih =>
        intro hk
        rw [Nat.mod_pow_succ, Nat.mod_pow_succ, ih (by omega), hdigit k (by omega)]
  have hall : m.toNat % 2 ^ 32 = n.toNat % 2 ^ 32 := hmod 8 le_rfl
  rw [Nat.mod_eq_of_lt m.toNat_lt, Nat.mod_eq_of_lt n.toNat_lt] at hall
  exact UInt32.toNat.inj hall

/-- Texts of four numbers are those of the same numbers. -/
theorem flatMap_hex8_inj {ms ns : List UInt32} (hlen : ms.length = ns.length)
    (h : ms.flatMap hex8 = ns.flatMap hex8) : ms = ns := by
  induction ms generalizing ns with
  | nil => exact (List.length_eq_zero_iff.mp hlen.symm).symm
  | cons m ms ih =>
      obtain ⟨n, ns, rfl⟩ := List.exists_cons_of_length_pos (by rw [← hlen]; simp)
      rw [List.flatMap_cons, List.flatMap_cons] at h
      obtain ⟨hhead, htail⟩ := List.append_inj h (by simp)
      rw [hex8_inj hhead, ih (Nat.succ.inj hlen) htail]

/-- The four parts are those of one GUID. -/
theorem guidParts_inj {as bs : Bytes} (ha : as.length = 16) (hb : bs.length = 16)
    (h : guidParts as = guidParts bs) : as = bs := by
  have hpart : ∀ {xs ys : Bytes}, xs.length = 4 → ys.length = 4 → u32Of xs = u32Of ys →
      xs = ys := by
    intro xs ys hxs hys heq
    have hx := number_lt xs
    have hy := number_lt ys
    rw [hxs] at hx
    rw [hys] at hy
    refine number_inj (hxs.trans hys.symm) ?_
    have hnat := congrArg UInt32.toNat heq
    rw [u32Of, u32Of, UInt32.toNat_ofNat', UInt32.toNat_ofNat'] at hnat
    omega
  have hsplit : ∀ {xs : Bytes}, xs.length = 16 →
      xs = xs.take 4 ++ ((xs.drop 4).take 4 ++ ((xs.drop 8).take 4 ++ (xs.drop 12).take 4)) := by
    intro xs hxs
    have hlast : (xs.drop 12).take 4 = xs.drop 12 := List.take_of_length_le (by simp; omega)
    have hjoin : ∀ i, (xs.drop i).take 4 ++ xs.drop (i + 4) = xs.drop i := by
      intro i
      rw [← List.drop_drop, List.take_append_drop]
    rw [hlast, hjoin 8, hjoin 4, List.take_append_drop]
  simp only [guidParts, List.cons.injEq, and_true] at h
  obtain ⟨h0, h1, h2, h3⟩ := h
  rw [hsplit ha, hsplit hb, hpart (by simp; omega) (by simp; omega) h0,
    hpart (by simp; omega) (by simp; omega) h1, hpart (by simp; omega) (by simp; omega) h2,
    hpart (by simp; omega) (by simp; omega) h3]

variable {p}

/-- What `ReadGuid` returns for a GUID that can be read. -/
theorem guid_of_readable {address : Ptr} (h : p.readable address 16 = true) :
    guid p address = if (guidParts (contents p.mem address.toNat 16)).all (· = 0) then []
      else (guidParts (contents p.mem address.toNat 16)).flatMap hex8 := by
  rw [guid, readGuid, if_neg (not_or.mpr ⟨ne_zero_of_readable h, by simp [h]⟩),
    load_of_readable h, ok_bind]
  dsimp only
  split <;> rfl

/-- A GUID with a text can be read, and is not zero. -/
theorem guid_ne_nil {address : Ptr} (h : guid p address ≠ []) :
    p.readable address 16 = true ∧
      guid p address = (guidParts (contents p.mem address.toNat 16)).flatMap hex8 := by
  cases hread : p.readable address 16 with
  | false =>
      rw [guid, readGuid, if_pos (Or.inr hread)] at h
      exact absurd rfl h
  | true =>
      refine ⟨rfl, ?_⟩
      rw [guid_of_readable hread] at h ⊢
      split
      · next hzero =>
          rw [if_pos hzero] at h
          exact absurd rfl h
      · rfl

/-- A GUID has no text, or 32 digits. -/
theorem guid_length (address : Ptr) : guid p address = [] ∨ (guid p address).length = 32 := by
  by_cases h : guid p address = []
  · exact Or.inl h
  · rw [(guid_ne_nil h).2]
    exact Or.inr (by simp [guidParts])

/-- The upper-case hexadecimal digits. -/
def upperHexDigits : Bytes :=
  bytes "0123456789ABCDEF"

/-- A text is made of the digits. -/
theorem mem_upperHexDigits {address : Ptr} {c : UInt8} (hc : c ∈ guid p address) :
    c ∈ upperHexDigits := by
  have hall : ∀ d < 16, Serialize.upperHexDigit d ∈ upperHexDigits := by decide
  rw [(guid_ne_nil (List.ne_nil_of_mem hc)).2] at hc
  obtain ⟨part, -, hpart⟩ := List.mem_flatMap.mp hc
  obtain ⟨i, -, rfl⟩ := List.mem_map.mp hpart
  exact hall _ (Nat.mod_lt _ (by omega))

/-- The four parts are zero for the zero GUID only. -/
theorem guidParts_all_zero {bs : Bytes} (h : bs.length = 16) :
    (guidParts bs).all (· = 0) = true ↔ bs = List.replicate 16 0 := by
  constructor
  · intro hall
    refine guidParts_inj h rfl ?_
    simp only [guidParts, List.all_cons, List.all_nil, Bool.and_true, Bool.and_eq_true,
      decide_eq_true_eq] at hall
    obtain ⟨h0, h1, h2, h3⟩ := hall
    rw [guidParts, h0, h1, h2, h3]
    decide
  · rintro rfl
    decide

/-- **There is a text** exactly for sixteen bytes that can be read and are not all zero. -/
theorem guid_ne_nil_iff {address : Ptr} : guid p address ≠ [] ↔
    p.readable address 16 = true ∧ contents p.mem address.toNat 16 ≠ List.replicate 16 0 := by
  constructor
  · intro h
    refine ⟨(guid_ne_nil h).1, fun hzero => h ?_⟩
    rw [guid_of_readable (guid_ne_nil h).1,
      if_pos ((guidParts_all_zero (length_contents _ _ _)).mpr hzero)]
  · rintro ⟨hread, hzero⟩ hnil
    rw [guid_of_readable hread,
      if_neg fun h => hzero ((guidParts_all_zero (length_contents _ _ _)).mp h)] at hnil
    have hlength := congrArg List.length hnil
    simp [guidParts] at hlength

/-- A text is that of one GUID. -/
theorem guid_eq_iff {p' : Process} {address address' : Ptr} (h : guid p address ≠ []) :
    guid p' address' = guid p address ↔ p'.readable address' 16 = true ∧
      contents p'.mem address'.toNat 16 = contents p.mem address.toNat 16 := by
  obtain ⟨hread, htext⟩ := guid_ne_nil h
  refine ⟨fun heq => ?_, fun ⟨hread', hbytes⟩ => ?_⟩
  · obtain ⟨hread', htext'⟩ := guid_ne_nil (heq ▸ h : guid p' address' ≠ [])
    rw [htext, htext'] at heq
    exact ⟨hread', guidParts_inj (length_contents _ _ _) (length_contents _ _ _)
      (flatMap_hex8_inj (by simp) heq)⟩
  · rw [guid_of_readable hread', guid_of_readable hread, hbytes]

/-- **The text of a GUID names it**: whatever the memory is, there is one exactly for sixteen bytes
that can be read and are not all zero, and it is 32 upper-case hexadecimal digits; and another GUID,
in this memory or in another, has the same text exactly if it can be read and is the same sixteen
bytes. -/
theorem guid_spec (p p' : Process) (address address' : Ptr) :
    (guid p address ≠ [] ↔ p.readable address 16 = true ∧
        contents p.mem address.toNat 16 ≠ List.replicate 16 0) ∧
      (guid p address = [] ∨ (guid p address).length = 32) ∧
      (∀ c ∈ guid p address, c ∈ upperHexDigits) ∧
      (guid p address ≠ [] → (guid p' address' = guid p address ↔
        p'.readable address' 16 = true ∧
          contents p'.mem address'.toNat 16 = contents p.mem address.toNat 16)) :=
  ⟨guid_ne_nil_iff, guid_length address, fun _ => mem_upperHexDigits, guid_eq_iff⟩

/-! ### `ReadUniqueNetId` -/

variable (p)

/-- The net id that one of the two places has. -/
def netIdIn (netIdRepl candidate : Ptr) : Option Bytes :=
  result (tryNetId p netIdRepl candidate)

/-- A candidate is looked at without a fault. -/
@[simp] theorem tryNetId_eq (netIdRepl candidate : Ptr) :
    tryNetId p netIdRepl candidate = .ok (netIdIn p netIdRepl candidate) := by
  refine Runs.eq_ok (Q := fun _ => True) ?_
  have hnone : Runs (pure none : Except Fault (Option Bytes)) fun _ => True := runs_ok.mpr trivial
  rw [tryNetId, readPtr_eq, ok_bind]
  refine Runs.ite (fun _ => hnone) fun _ => ?_
  rw [readPtr_eq, ok_bind]
  refine Runs.ite (fun _ => hnone) fun _ => ?_
  rw [readFString_eq, ok_bind]
  exact Runs.ite (fun _ => hnone) fun _ => runs_ok.mpr trivial

/-- The net id at an address, and its source. -/
def netId (netIdRepl : Ptr) : Bytes × Bytes :=
  result (readUniqueNetId p netIdRepl)

/-- **`ReadUniqueNetId` does not fault.** -/
@[simp] theorem readUniqueNetId_eq (netIdRepl : Ptr) :
    readUniqueNetId p netIdRepl = .ok (netId p netIdRepl) := by
  refine Runs.eq_ok (Q := fun _ => True) ?_
  rw [readUniqueNetId, findSomeM?_eq_ok fun candidate _ => tryNetId_eq p netIdRepl candidate,
    ok_bind]
  refine Runs.ite (fun _ => runs_ok.mpr trivial) fun _ => ?_
  split
  · exact runs_ok.mpr trivial
  · exact runs_ok.mpr trivial

variable {p}

/-- A net id that is taken is printable and short. -/
theorem netIdIn_eq_some {netIdRepl candidate : Ptr} {value : Bytes}
    (h : netIdIn p netIdRepl candidate = some value) :
    isPrintable value = true ∧ value.length ≤ 128 := by
  have hok : tryNetId p netIdRepl candidate = .ok (some value) := by rw [tryNetId_eq, h]
  rw [tryNetId, readPtr_eq, ok_bind] at hok
  split at hok
  · exact absurd (Except.ok.inj hok) (by simp)
  · rw [readPtr_eq, ok_bind] at hok
    split at hok
    · exact absurd (Except.ok.inj hok) (by simp)
    · rw [readFString_eq, ok_bind] at hok
      split at hok
      · exact absurd (Except.ok.inj hok) (by simp)
      · next hgood =>
          obtain rfl := Option.some.inj (Except.ok.inj hok)
          obtain ⟨hprint, hlen⟩ := not_or.mp hgood
          exact ⟨by simpa [isPrintableAscii] using hprint, by omega⟩

/-- What a net id that has been read looks like. -/
structure GoodNetId (id source : Bytes) : Prop where
  printable : id ≠ [] → isPrintable id = true
  short : id.length ≤ 128
  source : source = if id = [] then [] else bytes "net-id-string"

/-- **A net id is printable ASCII of at most 128 bytes**, with its source beside it, or both are
empty. -/
theorem netId_good (netIdRepl : Ptr) :
    GoodNetId (netId p netIdRepl).1 (netId p netIdRepl).2 := by
  have hnil : GoodNetId [] [] := ⟨fun h => absurd rfl h, by simp, rfl⟩
  rw [netId, readUniqueNetId,
    findSomeM?_eq_ok fun candidate _ => tryNetId_eq p netIdRepl candidate, ok_bind]
  split
  · exact hnil
  · split
    · next value hvalue =>
        obtain ⟨candidate, -, htaken⟩ := List.exists_of_findSome?_eq_some hvalue
        obtain ⟨hprint, hlen⟩ := netIdIn_eq_some htaken
        have hne : value ≠ [] := by
          rintro rfl
          exact absurd hprint (by decide)
        exact ⟨fun _ => hprint, hlen, (if_neg hne).symm⟩
    · exact hnil

end RSDWServerAPI.DomEngine
