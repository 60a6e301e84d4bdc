import RSDWServerAPI.Loops
import RSDWServerAPI.Memory
import RSDWServerAPI.RawMemory
import RSDWServerAPI.Serialize

/-!
# Symbols of the executable

Where `dlsym` does not know `ProcessEvent`, `FindInElfFile` of `engine/process_event.cpp` reads the
section headers of `/proc/self/exe` and searches the symbol tables itself. `LogImageSymbolReport`
of `engine/native_call.cpp` reads the same headers to tell what there is. Both trust the file: the
tables are copied into buffers whose sizes the file gives, and are read at positions that the file
gives. A read behind the end of a buffer is a `Fault`.

## Main results

* `findInElfFile_eq`: **in a well-formed file the search stays in its buffers** and is one in the
  symbols that the file has.
* `findBySymbol_spec`: what `FindBySymbol` makes of a well-formed file.
* `logImageSymbolReport_spec`: the report is right even for an index that is out of range, for which
  the search reads outside its buffers.
-/

namespace RSDWServerAPI.Elf

open Loops RawMemory

/-! ### The file -/

/-- What the functions find: the content of `/proc/self/exe`, `none` if it cannot be opened, and
which sizes `malloc` gives a buffer for. -/
structure Exe where
  file : Option Bytes
  malloc : ℕ → Bool

/-- The fields of `Elf64_Ehdr` that are looked at. -/
structure Header where
  shoff : ℕ
  shentsize : ℕ
  shnum : ℕ
  shstrndx : ℕ
  deriving DecidableEq, Repr

/-- The number in some bytes of a text. -/
def numberAt (bs : Bytes) (offset size : ℕ) : ℕ :=
  number ((bs.drop offset).take size)

/-- `fread` of an `Elf64_Ehdr`, and the comparison with `ELFMAG`. -/
def header (file : Bytes) : Option Header :=
  if file.length < 64 then none
  else if file.take 4 ≠ [0x7f, 69, 76, 70] then none
  else some {
    shoff := numberAt file 40 8
    shentsize := numberAt file 58 2
    shnum := numberAt file 60 2
    shstrndx := numberAt file 62 2 }

/-- `malloc`, `fseek` and one `fread` of a block, which is nothing for a size of `0`. -/
def block (exe : Exe) (file : Bytes) (offset size : ℕ) : Option Bytes :=
  if exe.malloc size = false then none
  else if 2 ^ 63 ≤ offset then none
  else if size = 0 ∨ file.length < offset + size then none
  else some ((file.drop offset).take size)

/-- A field of a buffer that holds an array of structures. -/
def field (buf : Bytes) (offset size : ℕ) : Except Fault ℕ := do
  return number (← load (buffer buf) offset size)

/-- `sections[i].sh_name`. -/
def shName (sections : Bytes) (i : ℕ) : Except Fault ℕ := field sections (i * 64) 4

/-- `sections[i].sh_addr`. -/
def shAddr (sections : Bytes) (i : ℕ) : Except Fault ℕ := field sections (i * 64 + 16) 8

/-- `sections[i].sh_offset`. -/
def shOffset (sections : Bytes) (i : ℕ) : Except Fault ℕ := field sections (i * 64 + 24) 8

/-- `sections[i].sh_size`. -/
def shSize (sections : Bytes) (i : ℕ) : Except Fault ℕ := field sections (i * 64 + 32) 8

/-- `sections[i].sh_link`. -/
def shLink (sections : Bytes) (i : ℕ) : Except Fault ℕ := field sections (i * 64 + 40) 4

/-- `sections[i].sh_entsize`. -/
def shEntsize (sections : Bytes) (i : ℕ) : Except Fault ℕ := field sections (i * 64 + 56) 8

/-- `symbols[s].st_name`. -/
def stName (symbols : Bytes) (s : ℕ) : Except Fault ℕ := field symbols (s * 24) 4

/-- `symbols[s].st_value`. -/
def stValue (symbols : Bytes) (s : ℕ) : Except Fault ℕ := field symbols (s * 24 + 8) 8

/-! ### `process_event.cpp` -/

/-- `kProcessEventSymbols`. -/
def processEventSymbols : List Bytes :=
  [bytes "_ZN7UObject12ProcessEventEP9UFunctionPv",
    bytes "_ZN7UObject12ProcessEventEP9UFunctionPKv"]

/-- The loop over the symbols of one table: the address of the one that is wanted. -/
def searchSymbols (symbols strtab : Bytes) (strSize count : ℕ) (wanted : Bytes) (loadBias : Ptr) :
    Except Fault (Option Ptr) :=
  (List.range count).findSomeM? fun s => do
    let name ← stName symbols s
    if name = 0 then return none
    let value ← stValue symbols s
    if value = 0 then return none
    if strSize ≤ name then return none
    if !(← sameText (buffer strtab) name wanted) then return none
    return some (UInt64.ofNat value + loadBias)

/-- The body of the loop over the sections: `none` goes on with the next one, and `some none` ends
the loop without a result. -/
def searchSection (exe : Exe) (file : Bytes) (h : Header) (sections names : Bytes) (namesSize : ℕ)
    (target wanted : Bytes) (loadBias : Ptr) (i : ℕ) : Except Fault (Option (Option Ptr)) := do
  let name ← shName sections i
  if namesSize ≤ name then return none
  if !(← sameText (buffer names) name target) then return none
  let link ← shLink sections i
  if h.shnum ≤ link then return none
  let entsize ← shEntsize sections i
  if entsize = 0 then return none
  let strSize ← shSize sections link
  let strOffset ← shOffset sections link
  match block exe file strOffset strSize with
  | none => return some none
  | some strtab =>
    let size ← shSize sections i
    let offset ← shOffset sections i
    match block exe file offset size with
    | none => return some none
    | some symbols =>
      match ← searchSymbols symbols strtab strSize (size / entsize) wanted loadBias with
      | none => return none
      -- an address that is `0` is no result
      | some result => return if result = 0 then none else some (some result)

/-- A pass over the sections. -/
def searchPass (exe : Exe) (file : Bytes) (h : Header) (sections names : Bytes) (namesSize : ℕ)
    (wanted : Bytes) (loadBias : Ptr) (target : Bytes) : Except Fault (Option Ptr) := do
  match ← (List.range h.shnum).findSomeM?
      (searchSection exe file h sections names namesSize target wanted loadBias) with
  | none => return none
  | some result => return result

/-- `FindInElfFile`. -/
def findInElfFile (exe : Exe) (wanted : Bytes) (loadBias : Ptr) : Except Fault Ptr :=
  match exe.file with
  | none => return 0
  | some file =>
    match header file with
    | none => return 0
    | some h =>
      if h.shoff = 0 ∨ h.shnum = 0 then return 0
      else
        match block exe file h.shoff (h.shnum * h.shentsize) with
        | none => return 0
        | some sections => do
          let namesSize ← shSize sections h.shstrndx
          let namesOffset ← shOffset sections h.shstrndx
          match block exe file namesOffset namesSize with
          | none => return 0
          | some names =>
            let found ← [bytes ".symtab", bytes ".dynsym"].findSomeM?
              (searchPass exe file h sections names namesSize wanted loadBias)
            return found.getD 0

/-- `FindBySymbol`: the address, and `outSource`. -/
def findBySymbol (dlsym : Bytes → Ptr) (exe : Exe) (loadBias : Ptr) : Except Fault (Ptr × Bytes) :=
  match processEventSymbols.find? fun name => dlsym name ≠ 0 with
  | some name => return (dlsym name, bytes "dlsym")
  | none => do
    let found ← processEventSymbols.findSomeM? fun name => do
      let address ← findInElfFile exe name loadBias
      return if address = 0 then none else some (address, bytes "elf-symtab")
    return found.getD (0, [])

/-! ### `native_call.cpp` -/

/-- `HexString`. -/
def hexString (value : UInt64) : Bytes :=
  bytes "0x" ++ Serialize.upperHex value

/-- What `LogImageSymbolReport` has seen of the sections. -/
structure Report where
  haveSymtab : Bool := false
  haveDynsym : Bool := false
  found : Bytes := []
  deriving DecidableEq, Repr

/-- The note about `.text`. -/
def textNote (addr size : ℕ) : Bytes :=
  bytes " .text at " ++ hexString (UInt64.ofNat addr) ++ bytes " size " ++ natDecimal size

/-- The body of its loop. -/
def noteSection (sections names : Bytes) (namesSize : ℕ) (report : Report) (i : ℕ) :
    Except Fault Report := do
  let name ← shName sections i
  if namesSize ≤ name then return report
  let symtab ← sameText (buffer names) name (bytes ".symtab")
  let dynsym ← sameText (buffer names) name (bytes ".dynsym")
  let text ← sameText (buffer names) name (bytes ".text")
  let found ← if text then do
      let addr ← shAddr sections i
      let size ← shSize sections i
      pure (textNote addr size)
    else pure report.found
  return {
    haveSymtab := symtab || report.haveSymtab
    haveDynsym := dynsym || report.haveDynsym
    found }

/-- The part of `LogImageSymbolReport` that reads the sections. -/
def reportOf (exe : Exe) (file : Bytes) (h : Header) : Except Fault Report :=
  if h.shoff = 0 then return {}
  else
    match block exe file h.shoff (h.shnum * h.shentsize) with
    | none => return {}
    | some sections =>
      if h.shnum ≤ h.shstrndx then return {}
      else do
        let namesSize ← shSize sections h.shstrndx
        let namesOffset ← shOffset sections h.shstrndx
        match block exe file namesOffset namesSize with
        | none => return {}
        | some names =>
          (List.range h.shnum).foldlM (noteSection sections names namesSize) {}

/-- The line that is logged. -/
def Report.text (report : Report) (shnum : ℕ) : Bytes :=
  bytes "Image: " ++ natDecimal shnum ++ bytes " sections, .symtab " ++
    bytes (if report.haveSymtab then "present" else "absent") ++ bytes ", .dynsym " ++
    bytes (if report.haveDynsym then "present" else "absent") ++ bytes "," ++ report.found

/-- `LogImageSymbolReport`: the line that it logs. -/
def logImageSymbolReport (exe : Exe) : Except Fault Bytes :=
  match exe.file with
  | none => return bytes "Image: could not open /proc/self/exe"
  | some file =>
    match header file with
    | none => return bytes "Image: /proc/self/exe is not a readable ELF"
    | some h => return (← reportOf exe file h).text h.shnum

/-! ### Reads that stay in a buffer -/

/-- A field inside a buffer is read. -/
theorem field_eq {buf : Bytes} {offset size : ℕ} (h : offset + size ≤ buf.length) :
    field buf offset size = .ok (numberAt buf offset size) := by
  rw [field, load_buffer h, ok_bind, pure_eq_ok, numberAt]

/-- A field that reaches beyond a buffer is a fault. -/
theorem field_of_lt {buf : Bytes} {offset size : ℕ} (hsize : 0 < size)
    (h : buf.length < offset + size) : field buf offset size = .error ⟨offset, size⟩ := by
  rw [field, load_buffer_of_lt hsize h]
  rfl

/-- A buffer ends with a NUL. -/
def Terminated (buf : Bytes) : Prop :=
  buf.getLast? = some 0

instance (buf : Bytes) : Decidable (Terminated buf) :=
  inferInstanceAs (Decidable (_ = _))

/-- Behind every place in a terminated buffer there is a NUL. -/
theorem Terminated.mem_drop {buf : Bytes} (h : Terminated buf) {n : ℕ} (hn : n < buf.length) :
    0 ∈ buf.drop n := by
  have hlast : (buf.drop n).getLast? = some 0 := by
    rw [List.getLast?_drop, if_neg (by omega)]
    exact h
  exact List.mem_of_getLast? hlast

/-- A text in a table of strings. -/
theorem sameText_eq {buf text : Bytes} (h : Terminated buf) {n : ℕ} (hn : n < buf.length)
    (htext : 0 ∉ text) : sameText (buffer buf) n text = .ok (cStr (buf.drop n) == text) :=
  sameText_buffer htext (h.mem_drop hn)

/-- A block that is read has the size that was asked for. -/
theorem length_block {exe : Exe} {file bs : Bytes} {offset size : ℕ}
    (h : block exe file offset size = some bs) : bs.length = size := by
  rw [block] at h
  split at h
  · cases h
  split at h
  · cases h
  split at h
  · cases h
  · rw [← Option.some.inj h, List.length_take, List.length_drop]
    omega

/-! ### What the file says -/

/-- The section headers, as they have been read. -/
structure Image where
  exe : Exe
  file : Bytes
  header : Header
  sections : Bytes
  length_sections : sections.length = header.shnum * header.shentsize

/-- What `FindInElfFile` has read when it looks for the names of the sections. -/
def image (exe : Exe) : Option Image :=
  match exe.file with
  | none => none
  | some file =>
    match header file with
    | none => none
    | some h =>
      if h.shoff = 0 ∨ h.shnum = 0 then none
      else
        match hblock : block exe file h.shoff (h.shnum * h.shentsize) with
        | none => none
        | some sections => some ⟨exe, file, h, sections, length_block hblock⟩

/-- An `Elf64_Shdr`. -/
structure Shdr where
  name : ℕ
  addr : ℕ
  offset : ℕ
  size : ℕ
  link : ℕ
  entsize : ℕ
  deriving DecidableEq, Repr

/-- A symbol with a name and an address. -/
structure Symbol where
  name : Bytes
  value : ℕ
  deriving DecidableEq, Repr

/-- The symbol at an index of a table, if it has a name and an address. -/
def symbolAt (symbols strtab : Bytes) (s : ℕ) : Option Symbol :=
  let name := numberAt symbols (s * 24) 4
  let value := numberAt symbols (s * 24 + 8) 8
  if name = 0 ∨ value = 0 ∨ strtab.length ≤ name then none
  else some ⟨cStr (strtab.drop name), value⟩

/-- The symbols of a table. -/
def symbolsOf (symbols strtab : Bytes) : List Symbol :=
  (List.range (symbols.length / 24)).filterMap (symbolAt symbols strtab)

/-- The address of the first symbol of a table with the name, if it is not `0` in the process. -/
def addressIn (wanted : Bytes) (loadBias : Ptr) (table : List Symbol) : Option Ptr :=
  ((table.find? fun symbol => symbol.name = wanted).map
    fun symbol => UInt64.ofNat symbol.value + loadBias).filter (· ≠ 0)

namespace Image

variable (img : Image)

/-- The header of a section. -/
def shdr (i : ℕ) : Shdr where
  name := numberAt img.sections (i * 64) 4
  addr := numberAt img.sections (i * 64 + 16) 8
  offset := numberAt img.sections (i * 64 + 24) 8
  size := numberAt img.sections (i * 64 + 32) 8
  link := numberAt img.sections (i * 64 + 40) 4
  entsize := numberAt img.sections (i * 64 + 56) 8

/-- The content of a section, as far as it can be read. -/
def content (i : ℕ) : Option Bytes :=
  block img.exe img.file (img.shdr i).offset (img.shdr i).size

/-- The names of the sections. -/
def names : Option Bytes :=
  img.content img.header.shstrndx

/-- The name of a section. -/
def sectionName (names : Bytes) (i : ℕ) : Option Bytes :=
  if names.length ≤ (img.shdr i).name then none else some (cStr (names.drop (img.shdr i).name))

/-- A section with symbols: it has the name, and says where the names of the symbols are. -/
def IsTable (names target : Bytes) (i : ℕ) : Prop :=
  img.sectionName names i = some target ∧ (img.shdr i).link < img.header.shnum ∧
    (img.shdr i).entsize ≠ 0

instance (names target : Bytes) (i : ℕ) : Decidable (img.IsTable names target i) :=
  inferInstanceAs (Decidable (_ ∧ _))

/-- The symbols of a section: `none` if it has none, `some none` if they cannot be read. -/
def table (names target : Bytes) (i : ℕ) : Option (Option (List Symbol)) :=
  if img.IsTable names target i then
    some (match img.content (img.shdr i).link, img.content i with
      | some strtab, some symbols => some (symbolsOf symbols strtab)
      | _, _ => none)
  else none

/-- The tables of a name, up to the first one that cannot be read. -/
def tables (names target : Bytes) : List (List Symbol) :=
  (((List.range img.header.shnum).filterMap (img.table names target)).takeWhile
    Option.isSome).reduceOption

/-- The tables that are searched. -/
def searched : List (List Symbol) :=
  img.names.elim [] fun names =>
    img.tables names (bytes ".symtab") ++ img.tables names (bytes ".dynsym")

/-- The file is as the format demands: section headers of 64 bytes, the names of the sections in
one of the sections, tables of strings that end with a NUL, and symbols of 24 bytes. -/
structure WellFormed : Prop where
  shentsize : img.header.shentsize = 64
  shstrndx : img.header.shstrndx < img.header.shnum
  names : ∀ names ∈ img.names, Terminated names
  entsize : ∀ names ∈ img.names, ∀ target ∈ [bytes ".symtab", bytes ".dynsym"],
    ∀ i < img.header.shnum, img.IsTable names target i → (img.shdr i).entsize = 24
  strings : ∀ names ∈ img.names, ∀ target ∈ [bytes ".symtab", bytes ".dynsym"],
    ∀ i < img.header.shnum, img.IsTable names target i →
      ∀ strtab ∈ img.content (img.shdr i).link, Terminated strtab

instance : Decidable img.WellFormed :=
  decidable_of_iff
    (img.header.shentsize = 64 ∧ img.header.shstrndx < img.header.shnum ∧
      ∀ names ∈ img.names, Terminated names ∧
        ∀ target ∈ [bytes ".symtab", bytes ".dynsym"], ∀ i < img.header.shnum,
          img.IsTable names target i → (img.shdr i).entsize = 24 ∧
            ∀ strtab ∈ img.content (img.shdr i).link, Terminated strtab)
    ⟨fun ⟨hsize, hndx, h⟩ => ⟨hsize, hndx, fun names hnames => (h names hnames).1,
      fun names hnames target htarget i hi hi' => ((h names hnames).2 target htarget i hi hi').1,
      fun names hnames target htarget i hi hi' => ((h names hnames).2 target htarget i hi hi').2⟩,
    fun h => ⟨h.shentsize, h.shstrndx, fun names hnames => ⟨h.names names hnames,
      fun target htarget i hi hi' => ⟨h.entsize names hnames target htarget i hi hi',
        h.strings names hnames target htarget i hi hi'⟩⟩⟩⟩

/-- The section headers have 64 bytes, and the names of the sections end with a NUL if there is a
section with them. -/
structure Named : Prop where
  shentsize : img.header.shentsize = 64
  names : img.header.shstrndx < img.header.shnum → ∀ names ∈ img.names, Terminated names

/-- What there is to report. -/
def report : Report :=
  if img.header.shnum ≤ img.header.shstrndx then {}
  else img.names.elim {} fun names => {
    haveSymtab := (List.range img.header.shnum).any fun i =>
      img.sectionName names i == some (bytes ".symtab")
    haveDynsym := (List.range img.header.shnum).any fun i =>
      img.sectionName names i == some (bytes ".dynsym")
    found := ((List.range img.header.shnum).reverse.find? fun i =>
      img.sectionName names i = some (bytes ".text")).elim [] fun i =>
        textNote (img.shdr i).addr (img.shdr i).size }

end Image

/-! ### The search -/

/-- **A table is searched inside its buffers.** -/
theorem searchSymbols_eq {symbols strtab wanted : Bytes} (hstrtab : Terminated strtab)
    (hwanted : 0 ∉ wanted) (loadBias : Ptr) :
    searchSymbols symbols strtab strtab.length (symbols.length / 24) wanted loadBias =
      .ok (((symbolsOf symbols strtab).find? fun symbol => symbol.name = wanted).map
        fun symbol => UInt64.ofNat symbol.value + loadBias) := by
  rw [searchSymbols]
  have hbody : ∀ s ∈ List.range (symbols.length / 24), (do
      let name ← stName symbols s
      if name = 0 then return none
      let value ← stValue symbols s
      if value = 0 then return none
      if strtab.length ≤ name then return none
      if !(← sameText (buffer strtab) name wanted) then return none
      return some (UInt64.ofNat value + loadBias) : Except Fault (Option Ptr)) =
      .ok ((symbolAt symbols strtab s).bind fun symbol =>
        if symbol.name = wanted then some (UInt64.ofNat symbol.value + loadBias) else none) := by
    intro s hs
    have hin : s * 24 + 24 ≤ symbols.length := by
      have := List.mem_range.mp hs
      omega
    rw [stName, stValue, field_eq (by omega), ok_bind, field_eq (by omega), ok_bind, symbolAt]
    generalize numberAt symbols (s * 24) 4 = name
    generalize numberAt symbols (s * 24 + 8) 8 = value
    by_cases hname : name = 0
    · rw [if_pos hname, if_pos (.inl hname)]
      rfl
    by_cases hvalue : value = 0
    · rw [if_neg hname, if_pos hvalue, if_pos (.inr (.inl hvalue))]
      rfl
    by_cases hlength : strtab.length ≤ name
    · rw [if_neg hname, if_neg hvalue, if_pos hlength, if_pos (.inr (.inr hlength))]
      rfl
    rw [if_neg hname, if_neg hvalue, if_neg hlength, if_neg (by omega),
      sameText_eq hstrtab (by omega) hwanted, ok_bind, Option.bind_some]
    by_cases hsame : cStr (strtab.drop name) = wanted
    · simp [hsame]
    · simp [hsame]
  rw [findSomeM?_eq_ok hbody, symbolsOf, findSome?_bind, List.find?_eq_findSome?_guard,
    List.map_findSome?]
  congr 2
  funext symbol
  by_cases hsame : symbol.name = wanted
  · simp [Option.guard, hsame]
  · simp [Option.guard, hsame]

namespace Image

variable {img : Image} {names target wanted : Bytes}

/-- A field of the header of a section. -/
theorem field_sections (h : img.header.shentsize = 64) {i offset size : ℕ}
    (hi : i < img.header.shnum) (hoffset : offset + size ≤ 64) :
    field img.sections (i * 64 + offset) size =
      .ok (numberAt img.sections (i * 64 + offset) size) := by
  have hlength := img.length_sections
  rw [h] at hlength
  exact field_eq (by omega)

section Fields

variable (h : img.header.shentsize = 64) {i : ℕ} (hi : i < img.header.shnum)
include h hi

/-- `sh_name` is read without a fault. -/
theorem shName_eq : shName img.sections i = .ok (img.shdr i).name :=
  @field_sections img h i 0 4 hi (by omega)

/-- `sh_addr` is read without a fault. -/
theorem shAddr_eq : shAddr img.sections i = .ok (img.shdr i).addr :=
  field_sections h hi (by omega)

/-- `sh_offset` is read without a fault. -/
theorem shOffset_eq : shOffset img.sections i = .ok (img.shdr i).offset :=
  field_sections h hi (by omega)

/-- `sh_size` is read without a fault. -/
theorem shSize_eq : shSize img.sections i = .ok (img.shdr i).size :=
  field_sections h hi (by omega)

/-- `sh_link` is read without a fault. -/
theorem shLink_eq : shLink img.sections i = .ok (img.shdr i).link :=
  field_sections h hi (by omega)

/-- `sh_entsize` is read without a fault. -/
theorem shEntsize_eq : shEntsize img.sections i = .ok (img.shdr i).entsize :=
  field_sections h hi (by omega)

end Fields

/-- A section has the name that stands at its place in the table of names. -/
theorem sectionName_eq_some {i : ℕ} :
    img.sectionName names i = some target ↔
      (img.shdr i).name < names.length ∧ cStr (names.drop (img.shdr i).name) = target := by
  rw [sectionName]
  split
  · next hlength => simp [hlength]
  · next hlength => simp [Nat.lt_of_not_le hlength]

/-- A section that is no table of the name is passed over. -/
theorem searchSection_of_not_isTable (h : img.WellFormed) (hterminated : Terminated names)
    (hnul : 0 ∉ target) (loadBias : Ptr) {i : ℕ} (hi : i < img.header.shnum)
    (hno : ¬ img.IsTable names target i) :
    searchSection img.exe img.file img.header img.sections names names.length target wanted
        loadBias i = .ok none := by
  rw [searchSection, shName_eq h.shentsize hi, ok_bind]
  by_cases hlength : names.length ≤ (img.shdr i).name
  · rw [if_pos hlength]
    rfl
  rw [if_neg hlength, sameText_eq hterminated (by omega) hnul, ok_bind]
  by_cases hsame : cStr (names.drop (img.shdr i).name) = target
  case neg =>
    rw [if_pos (by simp [hsame])]
    rfl
  rw [if_neg (by simp [hsame]), shLink_eq h.shentsize hi, ok_bind]
  by_cases hout : img.header.shnum ≤ (img.shdr i).link
  · rw [if_pos hout]
    rfl
  rw [if_neg hout, shEntsize_eq h.shentsize hi, ok_bind]
  by_cases hzero : (img.shdr i).entsize = 0
  · rw [if_pos hzero]
    rfl
  · exact absurd ⟨sectionName_eq_some.mpr ⟨by omega, hsame⟩, by omega, hzero⟩ hno

/-- **A table is searched if it can be read**, and the search ends if it cannot. -/
theorem searchSection_of_isTable (h : img.WellFormed) (hnames : img.names = some names)
    (htarget : target ∈ [bytes ".symtab", bytes ".dynsym"]) (hnul : 0 ∉ target)
    (hwanted : 0 ∉ wanted) (loadBias : Ptr) {i : ℕ} (hi : i < img.header.shnum)
    (htable : img.IsTable names target i) :
    searchSection img.exe img.file img.header img.sections names names.length target wanted
        loadBias i =
      .ok ((img.table names target i).bind fun table =>
        table.elim (some none) fun table => (addressIn wanted loadBias table).map some) := by
  obtain ⟨hlength, hsame⟩ := sectionName_eq_some.mp htable.1
  have hlink := htable.2.1
  have hentsize := htable.2.2
  rw [table, if_pos htable, Option.bind_some, searchSection, shName_eq h.shentsize hi, ok_bind,
    if_neg (by omega),
    sameText_eq (h.names names hnames) hlength hnul, ok_bind, if_neg (by simp [hsame]),
    shLink_eq h.shentsize hi, ok_bind, if_neg (by omega), shEntsize_eq h.shentsize hi, ok_bind,
    if_neg hentsize, shSize_eq h.shentsize hlink, ok_bind, shOffset_eq h.shentsize hlink, ok_bind,
    shSize_eq h.shentsize hi, shOffset_eq h.shentsize hi]
  cases hstrtab : img.content (img.shdr i).link with
  | none =>
      rw [content] at hstrtab
      rw [hstrtab]
      rfl
  | some strtab =>
      have hterminated := h.strings names hnames target htarget i hi htable strtab hstrtab
      rw [content] at hstrtab
      rw [hstrtab]
      cases hsymbols : img.content i with
      | none =>
          rw [content] at hsymbols
          simp only [ok_bind, hsymbols]
          rfl
      | some symbols =>
          rw [content] at hsymbols
          simp only [ok_bind, hsymbols]
          rw [h.entsize names hnames target htarget i hi htable, ← length_block hsymbols,
            ← length_block hstrtab, searchSymbols_eq hterminated hwanted, ok_bind]
          change _ = (Except.ok ((addressIn wanted loadBias (symbolsOf symbols strtab)).map some) :
            Except Fault _)
          rw [addressIn]
          cases (symbolsOf symbols strtab).find? fun symbol => symbol.name = wanted with
          | none => rfl
          | some symbol =>
              by_cases hnull : UInt64.ofNat symbol.value + loadBias = 0
              · simp [hnull]
              · simp [hnull]

/-- **A section is searched inside the buffers.** -/
theorem searchSection_eq (h : img.WellFormed) (hnames : img.names = some names)
    (htarget : target ∈ [bytes ".symtab", bytes ".dynsym"]) (hwanted : 0 ∉ wanted)
    (loadBias : Ptr) {i : ℕ} (hi : i < img.header.shnum) :
    searchSection img.exe img.file img.header img.sections names names.length target wanted
        loadBias i =
      .ok ((img.table names target i).bind fun table =>
        table.elim (some none) fun table => (addressIn wanted loadBias table).map some) := by
  have hnul : 0 ∉ target := by
    have hboth : ∀ target ∈ [bytes ".symtab", bytes ".dynsym"], 0 ∉ target := by decide
    exact hboth target htarget
  by_cases htable : img.IsTable names target i
  · exact searchSection_of_isTable h hnames htarget hnul hwanted loadBias hi htable
  · rw [table, if_neg htable, Option.bind_none]
    exact searchSection_of_not_isTable h (h.names names hnames) hnul loadBias hi htable

/-- A pass over the sections is a search in the tables of the name. -/
theorem searchPass_eq (h : img.WellFormed) (hnames : img.names = some names)
    (htarget : target ∈ [bytes ".symtab", bytes ".dynsym"]) (hwanted : 0 ∉ wanted)
    (loadBias : Ptr) :
    searchPass img.exe img.file img.header img.sections names names.length wanted loadBias target =
      .ok ((img.tables names target).findSome? (addressIn wanted loadBias)) := by
  rw [searchPass, findSomeM?_eq_ok fun i hi =>
      searchSection_eq h hnames htarget hwanted loadBias (List.mem_range.mp hi), ok_bind,
    tables, ← findSome?_until]
  cases (List.range img.header.shnum).findSome? fun i =>
      (img.table names target i).bind fun table =>
        table.elim (some none) fun table => (addressIn wanted loadBias table).map some with
  | none => rfl
  | some found => rfl

end Image

/-- An image is what has been read. -/
theorem image_eq_some {exe : Exe} {img : Image} (h : image exe = some img) :
    img.exe = exe ∧ exe.file = some img.file ∧ header img.file = some img.header ∧
      ¬ (img.header.shoff = 0 ∨ img.header.shnum = 0) ∧
      block exe img.file img.header.shoff (img.header.shnum * img.header.shentsize) =
        some img.sections := by
  rw [image] at h
  split at h
  · cases h
  next file hfile =>
  split at h
  · cases h
  next header hheader =>
  split at h
  · cases h
  next hshoff =>
  split at h
  · cases h
  · next sections hsections =>
      obtain rfl := Option.some.inj h
      exact ⟨rfl, hfile, hheader, hshoff, hsections⟩

/-- Without an image there are no section headers. -/
theorem image_eq_none {exe : Exe} (h : image exe = none) {file : Bytes} {hdr : Header}
    (hfile : exe.file = some file) (hheader : header file = some hdr)
    (hshoff : ¬ (hdr.shoff = 0 ∨ hdr.shnum = 0)) :
    block exe file hdr.shoff (hdr.shnum * hdr.shentsize) = none := by
  rw [image, hfile] at h
  dsimp only at h
  rw [hheader] at h
  dsimp only at h
  rw [if_neg hshoff] at h
  split at h
  · assumption
  · cases h

/-- The search behind the image. -/
theorem findInElfFile_of_image {exe : Exe} {img : Image} (h : image exe = some img) (wanted : Bytes)
    (loadBias : Ptr) :
    findInElfFile exe wanted loadBias = (do
      let namesSize ← shSize img.sections img.header.shstrndx
      let namesOffset ← shOffset img.sections img.header.shstrndx
      match block img.exe img.file namesOffset namesSize with
      | none => return 0
      | some names =>
        let found ← [bytes ".symtab", bytes ".dynsym"].findSomeM?
          (searchPass img.exe img.file img.header img.sections names namesSize wanted loadBias)
        return found.getD 0) := by
  obtain ⟨rfl, hfile, hheader, hshoff, hsections⟩ := image_eq_some h
  rw [findInElfFile, hfile]
  dsimp only
  rw [hheader]
  dsimp only
  rw [if_neg hshoff, hsections]

/-- Without an image there is nothing to search. -/
theorem findInElfFile_of_no_image {exe : Exe} (h : image exe = none) (wanted : Bytes)
    (loadBias : Ptr) : findInElfFile exe wanted loadBias = .ok 0 := by
  rw [findInElfFile]
  split
  · rfl
  next file hfile =>
  split
  · rfl
  next header hheader =>
  split
  · rfl
  next hshoff =>
  rw [image_eq_none h hfile hheader hshoff]
  rfl

/-- **In a well-formed file the search stays in its buffers**, and finds what the tables say. -/
theorem findInElfFile_eq {exe : Exe} (h : ∀ img ∈ image exe, img.WellFormed)
    {wanted : Bytes} (hwanted : 0 ∉ wanted) (loadBias : Ptr) :
    findInElfFile exe wanted loadBias =
      .ok ((((image exe).elim [] Image.searched).findSome?
        (addressIn wanted loadBias)).getD 0) := by
  cases himage : image exe with
  | none => exact findInElfFile_of_no_image himage wanted loadBias
  | some img =>
      have hwell := h img himage
      rw [findInElfFile_of_image himage, Image.shSize_eq hwell.shentsize hwell.shstrndx, ok_bind,
        Image.shOffset_eq hwell.shentsize hwell.shstrndx, ok_bind, Option.elim_some,
        Image.searched]
      cases hnames : img.names with
      | none =>
          rw [Image.names, Image.content] at hnames
          rw [hnames]
          rfl
      | some names =>
          have hblock := hnames
          rw [Image.names, Image.content] at hblock
          rw [hblock]
          dsimp only
          rw [← length_block hblock, findSomeM?_eq_ok fun target htarget =>
            Image.searchPass_eq hwell hnames htarget hwanted loadBias, ok_bind, Option.elim_some,
            List.findSome?_append, List.findSome?_cons, List.findSome?_cons, List.findSome?_nil]
          cases (img.tables names (bytes ".symtab")).findSome? (addressIn wanted loadBias) with
          | some address => rfl
          | none =>
              cases (img.tables names (bytes ".dynsym")).findSome? (addressIn wanted loadBias) with
              | some address => rfl
              | none => rfl

/-! ### What `FindBySymbol` finds -/

/-- Where `ProcessEvent` has been found: by `dlsym`, for the first of the names that it knows; or in
the file, for the first of the names that a table has, in the first table that has an address for
it, where it is the first symbol of the name; or nowhere. -/
inductive Located (dlsym : Bytes → Ptr) (tables : List (List Symbol)) (loadBias : Ptr) :
    Ptr × Bytes → Prop
  | dlsym {name : Bytes} {before after : List Bytes}
      (names : processEventSymbols = before ++ name :: after)
      (unknown : ∀ name ∈ before, dlsym name = 0) (known : dlsym name ≠ 0) :
      Located dlsym tables loadBias (dlsym name, bytes "dlsym")
  | table {name : Bytes} {before after : List Bytes} {table : List Symbol}
      {earlier later : List (List Symbol)} {symbol : Symbol}
      (unknown : ∀ name ∈ processEventSymbols, dlsym name = 0)
      (names : processEventSymbols = before ++ name :: after)
      (unnamed : ∀ name ∈ before, ∀ table ∈ tables, addressIn name loadBias table = none)
      (searched : tables = earlier ++ table :: later)
      (passed : ∀ table ∈ earlier, addressIn name loadBias table = none)
      (first : (table.find? fun symbol => symbol.name = name) = some symbol)
      (address : UInt64.ofNat symbol.value + loadBias ≠ 0) :
      Located dlsym tables loadBias
        (UInt64.ofNat symbol.value + loadBias, bytes "elf-symtab")
  | nowhere (unknown : ∀ name ∈ processEventSymbols, dlsym name = 0)
      (none : ∀ name ∈ processEventSymbols, ∀ table ∈ tables,
        addressIn name loadBias table = none) :
      Located dlsym tables loadBias (0, [])

/-- An address in a table is that of its first symbol with the name. -/
theorem addressIn_eq_some {wanted : Bytes} {loadBias address : Ptr} {table : List Symbol}
    (h : addressIn wanted loadBias table = some address) :
    ∃ symbol, (table.find? fun symbol => symbol.name = wanted) = some symbol ∧
      UInt64.ofNat symbol.value + loadBias = address ∧ address ≠ 0 := by
  rw [addressIn, Option.filter_eq_some_iff, Option.map_eq_some_iff] at h
  obtain ⟨⟨symbol, hfind, haddress⟩, hne⟩ := h
  exact ⟨symbol, hfind, haddress, by simpa using hne⟩

/-- **`FindBySymbol` in a well-formed file**: it reads nothing outside its buffers, and returns what
`dlsym` knows, or else the first symbol of one of the two names in the first table that has one. -/
theorem findBySymbol_spec (dlsym : Bytes → Ptr) (loadBias : Ptr) {exe : Exe}
    (h : ∀ img ∈ image exe, img.WellFormed) :
    ∃ found, findBySymbol dlsym exe loadBias = .ok found ∧
      Located dlsym ((image exe).elim [] Image.searched) loadBias found := by
  rw [findBySymbol]
  cases hdlsym : processEventSymbols.find? fun name => dlsym name ≠ 0 with
  | some name =>
      obtain ⟨hknown, before, after, hnames, hunknown⟩ :=
        List.find?_eq_some_iff_append.mp hdlsym
      exact ⟨_, rfl, .dlsym hnames (by simpa using hunknown) (by simpa using hknown)⟩
  | none =>
      have hunknown : ∀ name ∈ processEventSymbols, dlsym name = 0 := by
        simpa using List.find?_eq_none.mp hdlsym
      have hnul : ∀ name ∈ processEventSymbols, 0 ∉ name := by decide
      have hbody : ∀ name ∈ processEventSymbols, (do
          let address ← findInElfFile exe name loadBias
          return if address = 0 then none else some (address, bytes "elf-symtab") :
            Except Fault (Option (Ptr × Bytes))) =
          .ok ((((image exe).elim [] Image.searched).findSome? (addressIn name loadBias)).map
            fun address => (address, bytes "elf-symtab")) := by
        intro name hname
        rw [findInElfFile_eq h (hnul name hname), ok_bind, pure_eq_ok]
        cases hfind : ((image exe).elim [] Image.searched).findSome? (addressIn name loadBias) with
        | none => rfl
        | some address =>
            obtain ⟨table, -, haddress⟩ := List.exists_of_findSome?_eq_some hfind
            obtain ⟨-, -, -, hne⟩ := addressIn_eq_some haddress
            rw [Option.getD_some, if_neg hne]
            rfl
      dsimp only
      rw [findSomeM?_eq_ok hbody, ok_bind]
      refine ⟨_, rfl, ?_⟩
      cases hsearch : processEventSymbols.findSome? fun name =>
          (((image exe).elim [] Image.searched).findSome? (addressIn name loadBias)).map
            fun address => (address, bytes "elf-symtab") with
      | none =>
          refine .nowhere hunknown fun name hname table htable => ?_
          have hname := List.findSome?_eq_none_iff.mp hsearch name hname
          rw [Option.map_eq_none_iff] at hname
          exact List.findSome?_eq_none_iff.mp hname table htable
      | some found =>
          obtain ⟨before, name, after, hnames, hfound, hbefore⟩ :=
            List.findSome?_eq_some_iff.mp hsearch
          obtain ⟨address, haddress, rfl⟩ := Option.map_eq_some_iff.mp hfound
          obtain ⟨earlier, table, later, htables, hin, hearlier⟩ :=
            List.findSome?_eq_some_iff.mp haddress
          obtain ⟨symbol, hfirst, rfl, hne⟩ := addressIn_eq_some hin
          refine .table hunknown hnames (fun n hn t ht => ?_) htables hearlier hfirst hne
          have hnone := hbefore n hn
          rw [Option.map_eq_none_iff] at hnone
          exact List.findSome?_eq_none_iff.mp hnone t ht

/-- A file with two sections: the names, of sections and symbols alike, and a table of one
symbol. -/
def sampleFile : Bytes :=
  [0x7f, 69, 76, 70] ++ List.replicate 36 0 ++ bytesOf 8 64 ++ List.replicate 10 0 ++
    bytesOf 2 64 ++ bytesOf 2 2 ++ bytesOf 2 0 ++
    (bytesOf 4 0 ++ List.replicate 20 0 ++ bytesOf 8 192 ++ bytesOf 8 51 ++
      List.replicate 24 0) ++
    (bytesOf 4 1 ++ List.replicate 20 0 ++ bytesOf 8 243 ++ bytesOf 8 24 ++ bytesOf 4 0 ++
      List.replicate 12 0 ++ bytesOf 8 24) ++
    ([0] ++ bytes ".symtab" ++ [0] ++ bytes "_ZN7UObject12ProcessEventEP9UFunctionPv" ++
      [0, 0, 0]) ++
    (bytesOf 4 9 ++ List.replicate 4 0 ++ bytesOf 8 0x2000 ++ List.replicate 8 0)

/-- The executable with that file. -/
def sampleExe : Exe where
  file := some sampleFile
  malloc := fun _ => true

/-- The symbol is found in the file. -/
theorem findBySymbol_spec_sample :
    (∃ found, findBySymbol (fun _ => 0) sampleExe 0x400000 = .ok found ∧
      Located (fun _ => 0) ((image sampleExe).elim [] Image.searched) 0x400000 found) ∧
      findBySymbol (fun _ => 0) sampleExe 0x400000 = .ok (0x402000, bytes "elf-symtab") :=
  ⟨findBySymbol_spec _ _ (by decide +kernel), by decide +kernel⟩

/-! ### What `LogImageSymbolReport` reports -/

namespace Image

variable {img : Image} {names : Bytes}

/-- A step of the report. -/
def note (img : Image) (names : Bytes) (report : Report) (i : ℕ) : Report where
  haveSymtab := (img.sectionName names i == some (bytes ".symtab")) || report.haveSymtab
  haveDynsym := (img.sectionName names i == some (bytes ".dynsym")) || report.haveDynsym
  found := if img.sectionName names i = some (bytes ".text") then
    textNote (img.shdr i).addr (img.shdr i).size else report.found

/-- A section is noted without a fault. -/
theorem noteSection_eq (hsize : img.header.shentsize = 64) (hnames : Terminated names) {i : ℕ}
    (hi : i < img.header.shnum) (report : Report) :
    noteSection img.sections names names.length report i = .ok (img.note names report i) := by
  rw [noteSection, shName_eq hsize hi, ok_bind, note, sectionName]
  by_cases hlength : names.length ≤ (img.shdr i).name
  · rw [if_pos hlength, if_pos hlength]
    rfl
  rw [if_neg hlength, if_neg hlength, sameText_eq hnames (by omega) (by decide), ok_bind,
    sameText_eq hnames (by omega) (by decide), ok_bind, sameText_eq hnames (by omega) (by decide),
    ok_bind, shAddr_eq hsize hi, shSize_eq hsize hi]
  simp only [Option.some.injEq]
  by_cases htext : cStr (names.drop (img.shdr i).name) = bytes ".text"
  · simp [htext]
  · simp [htext]

/-- The report after some of the sections. -/
theorem foldl_note (img : Image) (names : Bytes) (l : List ℕ) :
    l.foldl (img.note names) {} = {
      haveSymtab := l.any fun i => img.sectionName names i == some (bytes ".symtab")
      haveDynsym := l.any fun i => img.sectionName names i == some (bytes ".dynsym")
      found := (l.reverse.find? fun i => img.sectionName names i = some (bytes ".text")).elim []
        fun i => textNote (img.shdr i).addr (img.shdr i).size } := by
  induction l using List.reverseRecOn with
  | nil => rfl
  | append_singleton l i ih =>
      rw [List.foldl_append, ih, List.foldl_cons, List.foldl_nil, note, List.reverse_append,
        List.any_append, List.any_append, List.reverse_singleton, List.singleton_append,
        List.find?_cons]
      by_cases htext : img.sectionName names i = some (bytes ".text")
      · simp [htext, Bool.or_comm]
      · simp [htext, Bool.or_comm]

end Image

/-- The names are read where the index is in range. -/
theorem reportOf_eq {exe : Exe} {img : Image} (himage : image exe = some img) (h : img.Named) :
    reportOf exe img.file img.header = .ok img.report := by
  obtain ⟨rfl, -, -, hshoff, hsections⟩ := image_eq_some himage
  rw [reportOf, if_neg (not_or.mp hshoff).1, hsections, Image.report]
  dsimp only
  by_cases hrange : img.header.shnum ≤ img.header.shstrndx
  · rw [if_pos hrange, if_pos hrange]
    rfl
  rw [if_neg hrange, if_neg hrange, Image.shSize_eq h.shentsize (by omega), ok_bind,
    Image.shOffset_eq h.shentsize (by omega), ok_bind]
  cases hnames : img.names with
  | none =>
      rw [Image.names, Image.content] at hnames
      rw [hnames]
      rfl
  | some names =>
      have hterminated := h.names (by omega) names hnames
      rw [Image.names, Image.content] at hnames
      rw [hnames]
      dsimp only
      rw [← length_block hnames, foldlM_eq_ok fun i hi report =>
        Image.noteSection_eq h.shentsize hterminated (List.mem_range.mp hi) report,
        Image.foldl_note]
      rfl

/-- Without section headers there is nothing to report. -/
theorem reportOf_of_no_image {exe : Exe} (h : image exe = none) {file : Bytes} {hdr : Header}
    (hfile : exe.file = some file) (hheader : header file = some hdr) :
    reportOf exe file hdr = .ok {} := by
  rw [reportOf]
  split
  · rfl
  next hshoff =>
  by_cases hshnum : hdr.shnum = 0
  · have hblock : block exe file hdr.shoff (hdr.shnum * hdr.shentsize) = none := by
      rw [block, hshnum, Nat.zero_mul]
      split_ifs
      · rfl
      · rfl
      · rfl
      · omega
    rw [hblock]
    rfl
  · rw [image_eq_none h hfile hheader (not_or.mpr ⟨hshoff, hshnum⟩)]
    rfl

/-- **`LogImageSymbolReport` checks what `FindInElfFile` does not.** If the section headers have 64
bytes and the names of the sections end with a NUL, it reads nothing outside its buffers and reports
the sections that there are; but if `e_shstrndx` is out of range, `FindInElfFile` reads behind the
section headers. -/
theorem logImageSymbolReport_spec {exe : Exe} (h : ∀ img ∈ image exe, img.Named) :
    (∃ text, logImageSymbolReport exe = .ok text) ∧
      ∀ img ∈ image exe,
        logImageSymbolReport exe = .ok (img.report.text img.header.shnum) ∧
        (img.header.shnum ≤ img.header.shstrndx → ∀ wanted loadBias,
          findInElfFile exe wanted loadBias = .error ⟨img.header.shstrndx * 64 + 32, 8⟩) := by
  have hlog : ∀ img ∈ image exe,
      logImageSymbolReport exe = .ok (img.report.text img.header.shnum) := by
    intro img himage
    obtain ⟨-, hfile, hheader, -, -⟩ := image_eq_some himage
    rw [logImageSymbolReport, hfile]
    dsimp only
    rw [hheader]
    dsimp only
    rw [reportOf_eq himage (h img himage), ok_bind]
    rfl
  refine ⟨?_, fun img himage => ⟨hlog img himage, fun hrange wanted loadBias => ?_⟩⟩
  · cases himage : image exe with
    | some img => exact ⟨_, hlog img himage⟩
    | none =>
        rw [logImageSymbolReport]
        split
        · exact ⟨_, rfl⟩
        next file hfile =>
        split
        · exact ⟨_, rfl⟩
        next header hheader =>
        rw [reportOf_of_no_image himage hfile hheader, ok_bind]
        exact ⟨_, rfl⟩
  · have hlength := img.length_sections
    rw [(h img himage).shentsize] at hlength
    rw [findInElfFile_of_image himage, shSize, field_of_lt (by omega) (by omega)]
    rfl

/-- The file with an index that is out of range. -/
def outOfRangeExe : Exe where
  file := some (sampleFile.take 62 ++ bytesOf 2 2 ++ sampleFile.drop 64)
  malloc := fun _ => true

/-- A well-formed file has a report of its own sections; for the one with the index out of range
there is a report, and the search reads behind the section headers. -/
theorem logImageSymbolReport_spec_samples :
    logImageSymbolReport sampleExe =
        .ok (bytes "Image: 2 sections, .symtab present, .dynsym absent,") ∧
      (∃ text, logImageSymbolReport outOfRangeExe = .ok text) ∧
      ∀ wanted loadBias, findInElfFile outOfRangeExe wanted loadBias = .error ⟨160, 8⟩ := by
  have hsample : ∀ img ∈ image sampleExe, img.WellFormed := by decide +kernel
  have hnamed : ∀ img ∈ image sampleExe, img.Named := fun img himage =>
    ⟨(hsample img himage).shentsize, fun _ => (hsample img himage).names⟩
  have hrange : ∀ img ∈ image outOfRangeExe, img.header.shentsize = 64 ∧
      img.header.shnum ≤ img.header.shstrndx ∧ img.header.shstrndx = 2 := by decide +kernel
  obtain ⟨hreport, hreads⟩ := @logImageSymbolReport_spec outOfRangeExe fun img himage =>
    ⟨(hrange img himage).1, fun h => absurd (hrange img himage).2.1 (by omega)⟩
  refine ⟨?_, hreport, fun wanted loadBias => ?_⟩
  · obtain ⟨img, himage⟩ := Option.isSome_iff_exists.mp
      (by decide +kernel : (image sampleExe).isSome = true)
    have htext : ∀ img ∈ image sampleExe, img.report.text img.header.shnum =
        bytes "Image: 2 sections, .symtab present, .dynsym absent," := by decide +kernel
    rw [((logImageSymbolReport_spec hnamed).2 img himage).1, htext img himage]
  · obtain ⟨img, himage⟩ := Option.isSome_iff_exists.mp
      (by decide +kernel : (image outOfRangeExe).isSome = true)
    obtain ⟨-, hle, hndx⟩ := hrange img himage
    rw [(hreads img himage).2 hle wanted loadBias, hndx]

end RSDWServerAPI.Elf
