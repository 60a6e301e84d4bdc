import RSDWServerAPI.Bytes
import RSDWServerAPI.Intervals

/-!
# `utils/memory.cpp`: which memory can be read

`LoadRegionsLocked` reads `/proc/self/maps` and keeps the ranges that can be read, joining those
that touch. `ContainsLocked` looks a range of addresses up in them, and `Readable` guards every
read in the game process with it: it reads the listing again when the look-up fails, but not
more often than every 100 ms.

A line of the listing is `start-end perms offset device inode path`, with hexadecimal addresses.

## Main results

* `scanLine_line`: `sscanf` reads what the kernel has printed.
* `loadRegions_spec`: the regions are the ranges that can be read, as a separated list.
* `containsLocked_iff`: **a range of addresses is found exactly when each of its bytes lies in a
  listed range that can be read**.
* `readable_iff`: what `Readable` answers, with one listing in the index and another one to read.
-/

namespace RSDWServerAPI.Mem

open Ascii (hexValue)
open Intervals

/-! ### Reading the listing -/

/-- `struct Region`: from `start` up to and without its end. -/
abbrev Region := Span ℕ

/-- The texts that `fgets` returns for a buffer of 1024 bytes: up to a newline, which is kept,
or 1023 bytes. `line` has what is in the buffer. -/
def fgetsLines (line : Bytes) : Bytes → List Bytes
  | [] => if line = [] then [] else [line]
  | c :: s =>
      let line := line ++ [c]
      if c = 10 ∨ line.length = 1023 then line :: fgetsLines [] s else fgetsLines line s

/-- A hexadecimal digit. -/
def isHexDigit (c : UInt8) : Bool :=
  (hexValue c).isSome

/-- The value of a run of hexadecimal digits. -/
def hexNumber (digits : Bytes) : ℕ :=
  digits.foldl (fun n c => n * 16 + (hexValue c).getD 0) 0

/-- `0x` or `0X` in front of a number. -/
def hasHexMark (s : Bytes) : Bool :=
  s.take 2 = [48, 120] ∨ s.take 2 = [48, 88]

/-- The value of `strtoull`: the largest one in place of one that is too large. -/
def unsignedValue (negative : Bool) (n : ℕ) : ℕ :=
  if 2 ^ 64 ≤ n then 2 ^ 64 - 1 else if negative then (2 ^ 64 - n) % 2 ^ 64 else n

/-- `%llx` of `sscanf`, and what is left: blanks, a sign, a mark, and the digits that follow. -/
def scanHex (s : Bytes) : Option (ℕ × Bytes) :=
  let s := s.dropWhile isSpace
  let negative := s.head? == some 45
  let s := if negative || s.head? == some 43 then s.tail else s
  let s := if hasHexMark s then s.drop 2 else s
  let digits := s.takeWhile isHexDigit
  if digits = [] then none
  else some (unsignedValue negative (hexNumber digits), s.drop digits.length)

/-- A character of the format. -/
def scanChar (c : UInt8) (s : Bytes) : Option Bytes :=
  if s.head? = some c then some s.tail else none

/-- `sscanf` with `"%llx-%llx %7s"`, when it converts all three. -/
def scanLine (line : Bytes) : Option (ℕ × ℕ × Bytes) := do
  let (start, s) ← scanHex (cStr line)
  let s ← scanChar 45 s
  let (stop, s) ← scanHex s
  let perms := ((s.dropWhile isSpace).takeWhile fun c => !isSpace c).take 7
  if perms = [] then none else some (start, stop, perms)

/-- The body of the loop of `LoadRegionsLocked`. -/
def loadLine (regions : List Region) (line : Bytes) : List Region :=
  match scanLine line with
  | none => regions
  | some (start, stop, perms) =>
      if perms.head? ≠ some 114 then regions else extend regions ⟨start, stop⟩

/-- The regions that `LoadRegionsLocked` makes of the listing. -/
def loadRegions (maps : Bytes) : List Region :=
  ((fgetsLines [] maps).foldl loadLine []).mergeSort fun a b => a.start ≤ b.start

/-! ### The index -/

/-- `g_Regions`, `g_LastRefresh` and `g_Loaded`. -/
structure State where
  regions : List Region := []
  lastRefresh : ℕ := 0
  loaded : Bool := false
  deriving DecidableEq, Repr

/-- `LoadRegionsLocked`, with the contents of the listing if it can be opened, and the reading of
the clock. -/
def loadRegionsLocked (maps : Option Bytes) (now : ℕ) (s : State) : State :=
  match maps with
  | none => s
  | some maps => { regions := loadRegions maps, lastRefresh := now, loaded := true }

/-- `ContainsLocked`: the region in front of `upper_bound` has the range. -/
def containsLocked (s : State) (addr size : ℕ) : Bool :=
  match floor s.regions addr with
  | none => false
  | some it => it.start ≤ addr && (addr + size) % 2 ^ 64 ≤ it.stop

/-- What a call of `Readable` finds: the listing and the clock when it loads the regions for the
first time, the clock when it has not found the range, and listing and clock when it loads
them again. -/
structure Reads where
  firstMaps : Option Bytes
  firstNow : ℕ
  now : ℕ
  againMaps : Option Bytes
  againNow : ℕ

/-- 100 ms, in the nanoseconds of the steady clock. -/
def refreshPause : ℕ :=
  100000000

/-- `Readable`. -/
def readable (reads : Reads) (value size : ℕ) (s : State) : Bool × State :=
  if value = 0 ∨ size = 0 then (false, s)
  else if value < 0x10000 ∨ 0x0000800000000000 ≤ value then (false, s)
  else if (value + size) % 2 ^ 64 < value then (false, s)
  else
    let s := if s.loaded then s else loadRegionsLocked reads.firstMaps reads.firstNow s
    if containsLocked s value size then (true, s)
    else if reads.now < s.lastRefresh + refreshPause then (false, s)
    else
      let s := loadRegionsLocked reads.againMaps reads.againNow s
      (containsLocked s value size, s)

/-! ### What the kernel prints -/

/-- A lower-case hexadecimal digit. -/
def hexChar (d : ℕ) : UInt8 :=
  UInt8.ofNat (if d < 10 then 48 + d else 87 + d)

/-- An address, with eight digits or more. -/
def hexText (n : ℕ) : Bytes :=
  .replicate (8 - (Nat.digits 16 n).length) 48 ++ (Nat.digits 16 n).reverse.map hexChar

/-- Permissions, as in `r-xp`. -/
def permsText (r w x s : Bool) : Bytes :=
  [if r then 114 else 45, if w then 119 else 45, if x then 120 else 45, if s then 115 else 112]

/-- A range of the listing. -/
structure Mapping where
  start : ℕ
  stop : ℕ
  isReadable : Bool
  isWritable : Bool
  isExecutable : Bool
  isShared : Bool
  /-- Offset, device, inode and path. -/
  rest : Bytes
  deriving DecidableEq, Repr

/-- The four letters of the permissions. -/
def Mapping.perms (m : Mapping) : Bytes :=
  permsText m.isReadable m.isWritable m.isExecutable m.isShared

/-- The line of a range, without its newline. -/
def Mapping.line (m : Mapping) : Bytes :=
  hexText m.start ++ 45 :: (hexText m.stop ++ 32 :: (m.perms ++ 32 :: m.rest))

/-- The contents of `/proc/self/maps`. -/
def mapsText (listing : List Mapping) : Bytes :=
  listing.flatMap fun m => m.line ++ [10]

/-- The ranges are not empty, do not overlap and stand in ascending order; a line is one line, and
shorter than the buffer. -/
structure Listed (listing : List Mapping) : Prop where
  nonempty : ∀ m ∈ listing, m.start < m.stop
  order : listing.Pairwise fun a b => a.stop ≤ b.start
  bounded : ∀ m ∈ listing, m.stop < 2 ^ 64
  oneLine : ∀ m ∈ listing, 10 ∉ m.rest
  short : ∀ m ∈ listing, m.line.length < 1024

/-- The byte at an address lies in a listed range whose permissions start with `r`. -/
def ReadableAt (listing : List Mapping) (addr : ℕ) : Prop :=
  ∃ m ∈ listing, m.perms.head? = some 114 ∧ m.start ≤ addr ∧ addr < m.stop

/-! ### Addresses -/

/-- A digit is read back as it was written. -/
theorem hexValue_hexChar {d : ℕ} (h : d < 16) : hexValue (hexChar d) = some d := by
  interval_cases d <;> rfl

/-- Both kinds of digits of an address. -/
theorem mem_hexText {n : ℕ} {c : UInt8} (h : c ∈ hexText n) : ∃ d < 16, c = hexChar d := by
  rw [hexText, List.mem_append, List.mem_replicate, List.mem_map] at h
  rcases h with ⟨-, rfl⟩ | ⟨d, hd, rfl⟩
  · exact ⟨0, by decide, rfl⟩
  · exact ⟨d, Nat.digits_lt_base (by decide) (List.mem_reverse.mp hd), rfl⟩

/-- An address is written with eight digits at least. -/
theorem length_hexText (n : ℕ) : 8 ≤ (hexText n).length := by
  rw [hexText, List.length_append, List.length_replicate, List.length_map, List.length_reverse]
  omega

/-- More digits are read behind the others. -/
theorem hexNumber_append (s t : Bytes) :
    hexNumber (s ++ t) = t.foldl (fun n c => n * 16 + (hexValue c).getD 0) (hexNumber s) :=
  List.foldl_append

/-- Zeros in front stand for nothing. -/
theorem hexNumber_replicate (k : ℕ) : hexNumber (.replicate k 48) = 0 := by
  induction k with
  | zero => rfl
  | succ k ih =>
      rw [List.replicate_succ', hexNumber_append, ih]
      rfl

/-- The digits of an address, from the lowest up. -/
theorem foldl_digits {ds : List ℕ} (h : ∀ d ∈ ds, d < 16) :
    (ds.reverse.map hexChar).foldl (fun n c => n * 16 + (hexValue c).getD 0) 0 =
      Nat.ofDigits 16 ds := by
  induction ds with
  | nil => rfl
  | cons d ds ih =>
      have hd := hexValue_hexChar (h d List.mem_cons_self)
      rw [List.reverse_cons, List.map_append, List.foldl_append,
        ih fun e he => h e (List.mem_cons_of_mem d he), List.map_singleton, List.foldl_cons,
        List.foldl_nil, hd, Option.getD_some, Nat.ofDigits_cons, Nat.mul_comm, Nat.add_comm]

/-- **An address has the value that was printed.** -/
theorem hexNumber_hexText (n : ℕ) : hexNumber (hexText n) = n := by
  rw [hexText, hexNumber_append, hexNumber_replicate,
    foldl_digits fun d hd => Nat.digits_lt_base (by decide) hd]
  exact Nat.ofDigits_digits 16 n

/-- A hexadecimal digit is no blank, no sign, no letter of a mark, and not NUL. -/
theorem hexChar_spec {d : ℕ} (h : d < 16) :
    isHexDigit (hexChar d) = true ∧ isSpace (hexChar d) = false ∧ hexChar d ≠ 45 ∧
      hexChar d ≠ 43 ∧ hexChar d ≠ 120 ∧ hexChar d ≠ 88 ∧ hexChar d ≠ 0 := by
  interval_cases d <;> decide

/-- In front of an address there is nothing to skip. -/
theorem hexText_append_spec (n : ℕ) (s : Bytes) :
    (hexText n ++ s).dropWhile isSpace = hexText n ++ s ∧ (hexText n ++ s).head? ≠ some 45 ∧
      (hexText n ++ s).head? ≠ some 43 ∧ hasHexMark (hexText n ++ s) = false := by
  have hlength := length_hexText n
  have hdigits : ∀ c ∈ hexText n, ∃ d < 16, c = hexChar d := fun c hc => mem_hexText hc
  match htext : hexText n with
  | [] => simp [htext] at hlength
  | [a] => simp [htext] at hlength
  | a :: b :: digits =>
      rw [htext] at hdigits
      obtain ⟨da, hda, rfl⟩ := hdigits a (by simp)
      obtain ⟨db, hdb, rfl⟩ := hdigits b (by simp)
      obtain ⟨-, hspace, hminus, hplus, -⟩ := hexChar_spec hda
      obtain ⟨-, -, -, -, hx, hX, -⟩ := hexChar_spec hdb
      refine ⟨List.dropWhile_cons_of_neg (by simp [hspace]), ?_, ?_, ?_⟩
      · simpa using hminus
      · simpa using hplus
      · simp [hasHexMark, hx, hX]

/-- `%llx` reads an address up to the character that ends it. -/
theorem scanHex_hexText {n : ℕ} (hn : n < 2 ^ 64) {c : UInt8} (hc : isHexDigit c = false)
    (s : Bytes) : scanHex (hexText n ++ c :: s) = some (n, c :: s) := by
  obtain ⟨hblank, hminus, hplus, hmark⟩ := hexText_append_spec n (c :: s)
  have hall : ∀ a ∈ hexText n, isHexDigit a = true := by
    intro a ha
    obtain ⟨d, hd, rfl⟩ := mem_hexText ha
    exact (hexChar_spec hd).1
  have hdigits : (hexText n ++ c :: s).takeWhile isHexDigit = hexText n := by
    rw [List.takeWhile_append_of_pos hall, List.takeWhile_cons_of_neg (by simp [hc]),
      List.append_nil]
  have hne : hexText n ≠ [] := List.ne_nil_of_length_pos (by have := length_hexText n; omega)
  have hvalue : unsignedValue false (hexNumber (hexText n)) = n := by
    rw [hexNumber_hexText, unsignedValue, if_neg (by omega), if_neg (by decide)]
  rw [← beq_eq_false_iff_ne] at hminus hplus
  simp only [scanHex, hblank, hminus, hplus, Bool.or_self, Bool.false_eq_true, if_false, hmark,
    hdigits, hne, hvalue, List.drop_left]

/-! ### Lines -/

/-- What `sscanf` sees of a text that has no NUL in front. -/
theorem cStr_append {s : Bytes} (h : 0 ∉ s) (t : Bytes) : cStr (s ++ t) = s ++ cStr t := by
  rw [cStr, cStr, List.takeWhile_append_of_pos]
  intro c hc
  have hne : c ≠ 0 := fun heq => h (heq ▸ hc)
  simpa using hne

/-- Permissions are four letters without a blank or a NUL. -/
theorem permsText_spec : ∀ r w x s, 0 ∉ permsText r w x s ∧ (permsText r w x s).length = 4 ∧
    ((permsText r w x s).all fun c => !isSpace c) = true := by
  decide

/-- `%7s` takes the permissions. -/
theorem scan_perms (m : Mapping) (t : Bytes) :
    (((32 :: (m.perms ++ 32 :: t)).dropWhile isSpace).takeWhile fun c => !isSpace c).take 7 =
      m.perms := by
  obtain ⟨-, hfour, hword⟩ := permsText_spec m.isReadable m.isWritable m.isExecutable m.isShared
  rw [← Mapping.perms] at hfour hword
  have hword : ∀ c ∈ m.perms, (!isSpace c) = true := List.all_eq_true.mp hword
  match hperms : m.perms with
  | [] => simp [hperms] at hfour
  | c :: perms =>
      rw [hperms] at hword hfour
      have hc : ¬ isSpace c = true := by simpa using hword c List.mem_cons_self
      rw [List.dropWhile_cons_of_pos (by decide), List.cons_append,
        List.dropWhile_cons_of_neg hc, ← List.cons_append, List.takeWhile_append_of_pos hword,
        List.takeWhile_cons_of_neg (by decide), List.append_nil, List.take_of_length_le (by omega)]

/-- **`sscanf` reads what the kernel has printed**, whatever stands behind the permissions. -/
theorem scanLine_line {m : Mapping} (hstart : m.start < 2 ^ 64) (hstop : m.stop < 2 ^ 64)
    (t : Bytes) : scanLine (m.line ++ t) = some (m.start, m.stop, m.perms) := by
  obtain ⟨hnul, hfour, -⟩ := permsText_spec m.isReadable m.isWritable m.isExecutable m.isShared
  rw [← Mapping.perms] at hnul hfour
  have hzero : ∀ n, 0 ∉ hexText n := by
    intro n h
    obtain ⟨d, hd, heq⟩ := mem_hexText h
    exact (hexChar_spec hd).2.2.2.2.2.2 heq.symm
  have hfront : 0 ∉ hexText m.start ++ 45 :: (hexText m.stop ++ 32 :: (m.perms ++ [32])) := by
    simp [hzero, hnul]
  have hsee : cStr (m.line ++ t) = hexText m.start ++ 45 :: (hexText m.stop ++ 32 ::
      (m.perms ++ 32 :: cStr (m.rest ++ t))) := by
    have hsplit : m.line ++ t = (hexText m.start ++ 45 :: (hexText m.stop ++ 32 ::
        (m.perms ++ [32]))) ++ (m.rest ++ t) := by
      simp [Mapping.line]
    rw [hsplit, cStr_append hfront]
    simp
  have hne : m.perms ≠ [] := List.ne_nil_of_length_pos (by omega)
  rw [scanLine, hsee, scanHex_hexText hstart (by decide)]
  simp only [Option.bind_eq_bind, Option.bind_some, scanChar, List.head?_cons, if_true,
    List.tail_cons, scanHex_hexText hstop (c := 32) (by decide), scan_perms, hne, if_false]

/-- A line ends with its line end. -/
theorem fgetsLines_newline (front s : Bytes) :
    fgetsLines front (10 :: s) = (front ++ [10]) :: fgetsLines [] s := by
  rw [fgetsLines, if_pos (.inl rfl)]

/-- What `fgets` makes of a line that is shorter than its buffer, with a part of it in the buffer:
the line with its newline, or, when the newline has no room, the two one after the other. -/
theorem fgetsLines_line {line : Bytes} (hline : 10 ∉ line) (front s : Bytes)
    (hshort : front.length + line.length < 1024) :
    fgetsLines front (line ++ 10 :: s) = (front ++ line ++ [10]) :: fgetsLines [] s ∨
      fgetsLines front (line ++ 10 :: s) = (front ++ line) :: [10] :: fgetsLines [] s := by
  induction line generalizing front with
  | nil => exact .inl (by simpa using fgetsLines_newline front s)
  | cons c line ih =>
      rw [List.length_cons] at hshort
      simp only [List.mem_cons, not_or] at hline
      by_cases hfull : (front ++ [c]).length = 1023
      · have hnil : line = [] := by
          rw [List.length_append, List.length_singleton] at hfull
          exact List.length_eq_zero_iff.mp (by omega)
        subst hnil
        refine .inr ?_
        rw [List.cons_append, fgetsLines, if_pos (.inr hfull), List.nil_append,
          fgetsLines_newline]
        rfl
      · have hnot : ¬ (c = 10 ∨ (front ++ [c]).length = 1023) :=
          not_or.mpr ⟨fun heq => hline.1 heq.symm, hfull⟩
        have := ih hline.2 (front ++ [c]) (by
          rw [List.length_append, List.length_singleton]
          omega)
        rw [List.cons_append, fgetsLines, if_neg hnot]
        simpa using this

/-! ### The regions -/

/-- The ranges that can be read. -/
def readableSpans (listing : List Mapping) : List Region :=
  (listing.filter fun m => m.isReadable).map fun m => ⟨m.start, m.stop⟩

/-- The line of a range adds it, if its permissions start with `r`. -/
theorem loadLine_line {m : Mapping} (hstart : m.start < 2 ^ 64) (hstop : m.stop < 2 ^ 64)
    (t : Bytes) (regions : List Region) :
    loadLine regions (m.line ++ t) =
      if m.isReadable then extend regions ⟨m.start, m.stop⟩ else regions := by
  rw [loadLine, scanLine_line hstart hstop]
  cases hr : m.isReadable with
  | false => simp [Mapping.perms, permsText, hr]
  | true => simp [Mapping.perms, permsText, hr]

/-- A range has no newline in its line. -/
theorem newline_not_mem_line {m : Mapping} (h : 10 ∉ m.rest) : 10 ∉ m.line := by
  have hhex : ∀ n, 10 ∉ hexText n := by
    intro n hmem
    obtain ⟨d, hd, heq⟩ := mem_hexText hmem
    have hspace := (hexChar_spec hd).2.1
    rw [← heq] at hspace
    exact absurd hspace (by decide)
  have hperms : 10 ∉ m.perms := by
    intro hmem
    have hword := (permsText_spec m.isReadable m.isWritable m.isExecutable m.isShared).2.2
    exact absurd (List.all_eq_true.mp hword 10 hmem) (by decide)
  simp [Mapping.line, hhex, hperms, h]

/-- A newline on its own is no range. -/
theorem loadLine_newline (regions : List Region) : loadLine regions [10] = regions := by
  have hnone : scanLine [10] = none := by decide
  rw [loadLine, hnone]

/-- The rest of a listing is a listing. -/
theorem Listed.of_cons {m : Mapping} {listing : List Mapping} (h : Listed (m :: listing)) :
    Listed listing where
  nonempty n hn := h.nonempty n (List.mem_cons_of_mem m hn)
  order := (List.pairwise_cons.mp h.order).2
  bounded n hn := h.bounded n (List.mem_cons_of_mem m hn)
  oneLine n hn := h.oneLine n (List.mem_cons_of_mem m hn)
  short n hn := h.short n (List.mem_cons_of_mem m hn)

/-- **The loop adds the ranges that can be read, in their order.** -/
theorem foldl_loadLine {listing : List Mapping} (h : Listed listing) (regions : List Region) :
    (fgetsLines [] (mapsText listing)).foldl loadLine regions =
      (readableSpans listing).foldl extend regions := by
  induction listing generalizing regions with
  | nil => rfl
  | cons m listing ih =>
      have hstop := h.bounded m List.mem_cons_self
      have hstart : m.start < 2 ^ 64 := (h.nonempty m List.mem_cons_self).trans hstop
      have hline := newline_not_mem_line (h.oneLine m List.mem_cons_self)
      have hshort : ([] : Bytes).length + m.line.length < 1024 := by
        simpa using h.short m List.mem_cons_self
      have htext : mapsText (m :: listing) = m.line ++ 10 :: mapsText listing := by
        simp [mapsText]
      have hspans : (readableSpans (m :: listing)).foldl extend regions =
          (readableSpans listing).foldl extend
            (if m.isReadable then extend regions ⟨m.start, m.stop⟩ else regions) := by
        cases hr : m.isReadable <;> simp [readableSpans, hr]
      rw [htext, hspans]
      rcases fgetsLines_line hline [] (mapsText listing) hshort with hone | htwo
      · rw [hone, List.foldl_cons, List.nil_append, loadLine_line hstart hstop, ih h.of_cons]
      · have hbare := loadLine_line hstart hstop [] regions
        rw [List.append_nil] at hbare
        rw [htwo, List.foldl_cons, List.nil_append, hbare, List.foldl_cons, loadLine_newline,
          ih h.of_cons]

/-- The ranges that can be read stand in ascending order. -/
theorem ascending_readableSpans {listing : List Mapping} (h : Listed listing) :
    Ascending (readableSpans listing) where
  nonempty := by
    simp only [readableSpans, List.mem_map, List.mem_filter]
    rintro i ⟨m, ⟨hm, -⟩, rfl⟩
    exact h.nonempty m hm
  order := List.pairwise_map.mpr (h.order.sublist List.filter_sublist)

/-- The spans cover what the listing has as readable. -/
theorem covered_readableSpans {listing : List Mapping} {addr : ℕ} :
    Covered (readableSpans listing) addr ↔ ReadableAt listing addr := by
  have hperms : ∀ m : Mapping, m.perms.head? = some 114 ↔ m.isReadable = true := by
    intro m
    cases hr : m.isReadable <;> simp [Mapping.perms, permsText, hr]
  simp only [Covered, readableSpans, List.mem_map, List.mem_filter, ReadableAt, hperms]
  constructor
  · rintro ⟨i, ⟨m, ⟨hm, hr⟩, rfl⟩, hlo, hhi⟩
    exact ⟨m, hm, hr, hlo, hhi⟩
  · rintro ⟨m, hm, hr, hlo, hhi⟩
    exact ⟨_, ⟨m, ⟨hm, hr⟩, rfl⟩, hlo, hhi⟩

/-- **What `LoadRegionsLocked` keeps**: separated regions, with the bytes that can be read. -/
theorem loadRegions_spec {listing : List Mapping} (h : Listed listing) :
    Separated (loadRegions (mapsText listing)) ∧
      ∀ addr, Covered (loadRegions (mapsText listing)) addr ↔ ReadableAt listing addr := by
  have hempty : Separated ([] : List Region) := ⟨by simp, .nil⟩
  obtain ⟨hsep, hcovered⟩ := foldl_extend (ascending_readableSpans h) hempty (by simp)
  have hsorted : ((readableSpans listing).foldl extend []).Pairwise
      fun a b => decide (a.start ≤ b.start) = true := by
    refine hsep.gap.imp_of_mem fun {a b} ha _ hgap => ?_
    have := hsep.nonempty a ha
    rw [decide_eq_true_eq]
    omega
  have hload : loadRegions (mapsText listing) = (readableSpans listing).foldl extend [] := by
    rw [loadRegions, foldl_loadLine h, List.mergeSort_of_pairwise hsorted]
  rw [hload]
  refine ⟨hsep, fun addr => ?_⟩
  rw [hcovered, covered_readableSpans]
  simp [Covered]

/-- **Looking a range up**: with separated regions it is found exactly when each of its bytes lies
in one of them. -/
theorem containsLocked_iff_covered {s : State} (hs : Separated s.regions) {addr size : ℕ}
    (hsize : 0 < size) (hwrap : addr + size < 2 ^ 64) :
    containsLocked s addr size = true ↔
      ∀ byte, addr ≤ byte → byte < addr + size → Covered s.regions byte := by
  rw [← within_floor_iff hs (show addr < addr + size by omega), containsLocked]
  cases hit : floor s.regions addr with
  | none => simp
  | some it =>
      have hstart := (mem_of_floor hit).2
      simp only [hstart, Nat.mod_eq_of_lt hwrap, decide_true, Bool.true_and, decide_eq_true_eq,
        Option.some.injEq, exists_eq_left']

/-- **The index is the listing**: after `LoadRegionsLocked`, a range of addresses, not empty and
without a wrap at the end of the address space, is found exactly when each of its bytes lies in a
listed range whose permissions start with `r`. -/
theorem containsLocked_iff {listing : List Mapping} (h : Listed listing) (now : ℕ) (s : State)
    {addr size : ℕ} (hsize : 0 < size) (hwrap : addr + size < 2 ^ 64) :
    containsLocked (loadRegionsLocked (some (mapsText listing)) now s) addr size = true ↔
      ∀ byte, addr ≤ byte → byte < addr + size → ReadableAt listing byte := by
  obtain ⟨hsep, hcovered⟩ := loadRegions_spec h
  rw [containsLocked_iff_covered hsep hsize hwrap]
  simp only [loadRegionsLocked, hcovered]

/-- Two ranges that can be read and touch, and one that cannot. -/
def threeMappings : List Mapping :=
  [⟨0x10000, 0x11000, true, false, false, false, []⟩,
    ⟨0x11000, 0x12000, true, true, false, false, []⟩,
    ⟨0x12000, 0x13000, false, false, false, false, []⟩]

/-- A range across the first two of them. -/
theorem containsLocked_iff_threeMappings :
    Listed threeMappings ∧
      (containsLocked (loadRegionsLocked (some (mapsText threeMappings)) 0 {}) 0x10FF8 16 = true ↔
        ∀ byte, 0x10FF8 ≤ byte → byte < 0x10FF8 + 16 → ReadableAt threeMappings byte) := by
  have hlisted : Listed threeMappings := by
    refine ⟨?_, ?_, ?_, ?_, ?_⟩ <;> decide
  exact ⟨hlisted, containsLocked_iff hlisted 0 {} (by decide) (by decide)⟩

/-! ### The guard -/

/-- The ranges that `Readable` looks up: in the part of the address space that belongs to the
process, not empty, and without a wrap. -/
def Accepted (value size : ℕ) : Prop :=
  0x10000 ≤ value ∧ value < 0x0000800000000000 ∧ 0 < size ∧ value + size < 2 ^ 64

/-- Other ranges are refused. -/
theorem readable_of_not_accepted {value size : ℕ} (hvalue : value < 2 ^ 64) (hsize : size < 2 ^ 64)
    (h : ¬ Accepted value size) (reads : Reads) (s : State) :
    readable reads value size s = (false, s) := by
  rw [readable]
  split
  · rfl
  · next hzero =>
      split
      · rfl
      · next hrange =>
          rw [if_pos]
          simp only [Accepted] at h
          omega

/-- An accepted range is looked up in the regions, and in new ones if that is in vain and the
pause is over. -/
theorem readable_of_accepted {value size : ℕ} (h : Accepted value size) (reads : Reads) {s : State}
    (hloaded : s.loaded = true) :
    (readable reads value size s).1 = true ↔ containsLocked s value size = true ∨
      s.lastRefresh + refreshPause ≤ reads.now ∧
        containsLocked (loadRegionsLocked reads.againMaps reads.againNow s) value size = true := by
  obtain ⟨hlow, hhigh, hpos, hwrap⟩ := h
  rw [readable, if_neg (by omega), if_neg (by omega), if_neg (by omega), if_pos hloaded]
  dsimp only
  by_cases hfound : containsLocked s value size = true
  · simp [hfound]
  · by_cases hpause : reads.now < s.lastRefresh + refreshPause
    · simp [hfound, hpause]
    · simp [hfound, hpause, Nat.le_of_not_lt hpause]

/-- **What `Readable` answers** when it has the regions of a listing: an accepted range can be read
if all its bytes can by that listing, or, when the pause is over, by the one that is read now. -/
theorem readable_iff {listing again : List Mapping} (h : Listed listing) (hagain : Listed again)
    (loadedAt : ℕ) (s : State) (reads : Reads) (hmaps : reads.againMaps = some (mapsText again))
    {value size : ℕ} (hvalue : value < 2 ^ 64) (hsize : size < 2 ^ 64) :
    (readable reads value size (loadRegionsLocked (some (mapsText listing)) loadedAt s)).1 = true ↔
      Accepted value size ∧
        ((∀ byte, value ≤ byte → byte < value + size → ReadableAt listing byte) ∨
          loadedAt + refreshPause ≤ reads.now ∧
            ∀ byte, value ≤ byte → byte < value + size → ReadableAt again byte) := by
  obtain ⟨hsep, hcovered⟩ := loadRegions_spec h
  obtain ⟨hsep', hcovered'⟩ := loadRegions_spec hagain
  by_cases haccepted : Accepted value size
  · rw [readable_of_accepted haccepted reads (s := loadRegionsLocked _ loadedAt s) rfl, hmaps,
      containsLocked_iff_covered hsep haccepted.2.2.1 haccepted.2.2.2,
      containsLocked_iff_covered hsep' haccepted.2.2.1 haccepted.2.2.2]
    simp only [loadRegionsLocked, hcovered, hcovered', haccepted, true_and]
  · rw [readable_of_not_accepted hvalue hsize haccepted]
    simp [haccepted]

end RSDWServerAPI.Mem
