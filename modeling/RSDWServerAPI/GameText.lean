import RSDWServerAPI.Bytes

/-!
# Text on its way into the game and back

The game keeps text as an `FString`: a buffer of UTF-16 code units with a terminator.
`WriteFString`, of which `chat.cpp` and `kick.cpp` each have a copy, makes one code unit of every
byte; `ReadFString` decodes UTF-16 and writes UTF-8.

## Main results

* `utf16ToUtf8_widen`: what comes back is the UTF-8 form of the bytes read as Latin-1.
* `readFString_writeFString_iff`: **a text comes back as it was given exactly when it is ASCII**.
-/

namespace RSDWServerAPI.GameText

/-! ### `uobject.cpp`: from UTF-16 to UTF-8 -/

/-- `AppendUtf8`, the bytes that are appended. -/
def appendUtf8 (codepoint : ℕ) : Bytes :=
  if codepoint < 0x80 then [UInt8.ofNat codepoint]
  else if codepoint < 0x800 then
    [UInt8.ofNat (0xC0 ||| (codepoint >>> 6)), UInt8.ofNat (0x80 ||| (codepoint &&& 0x3F))]
  else if codepoint < 0x10000 then
    [UInt8.ofNat (0xE0 ||| (codepoint >>> 12)),
      UInt8.ofNat (0x80 ||| ((codepoint >>> 6) &&& 0x3F)),
      UInt8.ofNat (0x80 ||| (codepoint &&& 0x3F))]
  else
    [UInt8.ofNat (0xF0 ||| (codepoint >>> 18)),
      UInt8.ofNat (0x80 ||| ((codepoint >>> 12) &&& 0x3F)),
      UInt8.ofNat (0x80 ||| ((codepoint >>> 6) &&& 0x3F)),
      UInt8.ofNat (0x80 ||| (codepoint &&& 0x3F))]

/-- The first half of a surrogate pair. -/
def isHighSurrogate (unit : UInt16) : Bool :=
  0xD800 ≤ unit && unit ≤ 0xDBFF

/-- The second half of a surrogate pair. -/
def isLowSurrogate (unit : UInt16) : Bool :=
  0xDC00 ≤ unit && unit ≤ 0xDFFF

/-- `Utf16ToUtf8`. A half of a surrogate pair that stands alone is written like any other code
unit. -/
def utf16ToUtf8 : List UInt16 → Bytes
  | [] => []
  | [unit] => appendUtf8 unit.toNat
  | unit :: low :: rest =>
      if isHighSurrogate unit && isLowSurrogate low then
        appendUtf8 (0x10000 + ((unit.toNat - 0xD800) <<< 10) + (low.toNat - 0xDC00)) ++
          utf16ToUtf8 rest
      else appendUtf8 unit.toNat ++ utf16ToUtf8 (low :: rest)

/-! ### `FString` -/

/-- `FString`: the buffer that `Data` points to, `none` for a null pointer, and the two
lengths. -/
structure FString where
  data : Option (List UInt16)
  num : Int32
  max : Int32

/-- `Engine::ReadFString`; `readable` is what `Mem::Readable` says of the structure and of its
buffer. -/
def readFString (readable : Bool) (value : FString) : Bytes :=
  match value.data with
  | none => []
  | some units =>
      if value.num.toInt ≤ 1 ∨ 8192 < value.num.toInt then []
      else if value.max.toInt < value.num.toInt then []
      else if !readable then []
      else utf16ToUtf8 (units.take (value.num.toInt - 1).toNat)

/-- One code unit for every byte. -/
def widen (value : Bytes) : List UInt16 :=
  value.map fun c => UInt16.ofNat c.toNat

/-- The body that the two copies of `WriteFString` share. -/
def fstringOf (value : Bytes) : FString :=
  let count := Int32.ofNat value.length + 1
  { data := some (widen value ++ [0]), num := count, max := count }

/-- `WriteFString` of `chat.cpp`. -/
def chatWriteFString (value : Bytes) : FString :=
  fstringOf value

/-- `WriteFString` of `kick.cpp`. -/
def kickWriteFString (value : Bytes) : FString :=
  fstringOf value

/-! ### What comes back -/

/-- A byte is widened to the same number. -/
theorem toNat_widen (c : UInt8) : (UInt16.ofNat c.toNat).toNat = c.toNat := by
  have := c.toNat_lt
  rw [UInt16.toNat_ofNat']
  omega

/-- A widened byte is no half of a surrogate pair. -/
theorem not_isHighSurrogate_widen (c : UInt8) :
    isHighSurrogate (UInt16.ofNat c.toNat) = false := by
  have hlow : ¬ (0xD800 : UInt16) ≤ UInt16.ofNat c.toNat := by
    have hbyte := c.toNat_lt
    have hbound : (0xD800 : UInt16).toNat = 0xD800 := rfl
    rw [UInt16.le_iff_toNat_le, toNat_widen]
    omega
  rw [isHighSurrogate, decide_eq_false hlow, Bool.false_and]

/-- A unit that is no high surrogate is converted on its own. -/
theorem utf16ToUtf8_cons {unit : UInt16} (h : isHighSurrogate unit = false)
    (rest : List UInt16) :
    utf16ToUtf8 (unit :: rest) = appendUtf8 unit.toNat ++ utf16ToUtf8 rest := by
  cases rest with
  | nil => simp [utf16ToUtf8]
  | cons low rest => simp [utf16ToUtf8, h]

/-- The UTF-8 form of bytes that are read as Latin-1. -/
def latin1 (value : Bytes) : Bytes :=
  value.flatMap fun c => appendUtf8 c.toNat

/-- **Widened bytes come back as Latin-1**, each as the UTF-8 form of the code point it is. -/
theorem utf16ToUtf8_widen (value : Bytes) : utf16ToUtf8 (widen value) = latin1 value := by
  induction value with
  | nil => rfl
  | cons c value ih =>
      rw [widen, List.map_cons, utf16ToUtf8_cons (not_isHighSurrogate_widen c), ← widen, ih,
        toNat_widen]
      rfl

/-- A byte below 128 is its own UTF-8 form, any other byte has one of two bytes. -/
theorem appendUtf8_byte (c : UInt8) :
    (c < 128 ∧ appendUtf8 c.toNat = [c]) ∨ (¬ c < 128 ∧ (appendUtf8 c.toNat).length = 2) := by
  have hbyte := c.toNat_lt
  by_cases hc : c.toNat < 128
  · refine Or.inl ⟨UInt8.lt_iff_toNat_lt.mpr hc, ?_⟩
    rw [appendUtf8, if_pos hc, UInt8.ofNat_toNat]
  · refine Or.inr ⟨fun h => hc (UInt8.lt_iff_toNat_lt.mp h), ?_⟩
    rw [appendUtf8, if_neg hc, if_pos (by omega)]
    rfl

/-- Latin-1 adds a byte for each byte from 128 on. -/
theorem latin1_length (value : Bytes) :
    (latin1 value).length = value.length + value.countP (fun c => ¬ c < 128) := by
  induction value with
  | nil => rfl
  | cons c value ih =>
      have hcons : latin1 (c :: value) = appendUtf8 c.toNat ++ latin1 value := rfl
      rw [hcons, List.length_append, ih, List.length_cons]
      rcases appendUtf8_byte c with ⟨hc, happ⟩ | ⟨hc, hlen⟩
      · rw [happ, List.countP_cons_of_neg (by simp [hc])]
        simp only [List.length_singleton]
        omega
      · rw [hlen, List.countP_cons_of_pos (by simp [hc])]
        omega

/-- Only ASCII is the same in Latin-1 and in UTF-8. -/
theorem latin1_eq_self_iff {value : Bytes} : latin1 value = value ↔ ∀ c ∈ value, c < 128 := by
  constructor
  · intro h c hc
    by_contra hlt
    have hlen := latin1_length value
    rw [h] at hlen
    have hpos : 0 < value.countP (fun c => ¬ c < 128) :=
      List.countP_pos_iff.mpr ⟨c, hc, by simpa using hlt⟩
    omega
  · intro h
    induction value with
    | nil => rfl
    | cons c value ih =>
        have hcons : latin1 (c :: value) = appendUtf8 c.toNat ++ latin1 value := rfl
        have hc := h c List.mem_cons_self
        rcases appendUtf8_byte c with ⟨-, happ⟩ | ⟨hnot, -⟩
        · rw [hcons, happ, ih fun d hd => h d (List.mem_cons_of_mem _ hd)]
          rfl
        · exact absurd hc hnot

/-- The length that `WriteFString` writes down. -/
theorem toInt_count {n : ℕ} (h : n < 2147483647) : (Int32.ofNat n + 1).toInt = n + 1 := by
  rw [Int32.toInt_add, Int32.toInt_ofNat_of_lt (by omega), Int32.toInt_one,
    Int.bmod_eq_of_le (by omega) (by omega)]

/-- **What `ReadFString` makes of what `WriteFString` has written**: the bytes read as Latin-1,
and nothing if they are too many. -/
theorem readFString_fstringOf {value : Bytes} (h : value.length < 2147483647) :
    readFString true (fstringOf value) = if value.length < 8192 then latin1 value else [] := by
  have hcount := toInt_count h
  rw [readFString, fstringOf]
  simp only [hcount, lt_self_iff_false, if_false, Bool.not_true, Bool.false_eq_true]
  by_cases hlong : value.length < 8192
  · rw [if_pos hlong]
    split
    · next hsmall =>
        have hnil : value = [] := List.length_eq_zero_iff.mp (by omega)
        rw [hnil]
        rfl
    · have htake : ((value.length : ℤ) + 1 - 1).toNat = (widen value).length := by
        simp [widen]
      rw [htake, List.take_left, utf16ToUtf8_widen]
  · rw [if_neg hlong, if_pos (by omega)]

/-! ### The texts that the server hands over -/

/-- The number of UTF-16 code units of a character. -/
def utf16Units (c : Char) : ℕ :=
  if c.toNat < 0x10000 then 1 else 2

/-- A text in UTF-8 without NUL, which fits into 8191 code units with its terminator. -/
structure Text where
  chars : List Char
  noNul : Char.ofNat 0 ∉ chars
  short : (chars.map utf16Units).sum + 1 < 8192

/-- The bytes of a text. -/
def Text.bytes (t : Text) : Bytes :=
  t.chars.flatMap String.utf8EncodeChar

/-- A byte that starts or continues a longer form is not ASCII. -/
theorem not_ascii_ofNat {n : ℕ} (hlo : 128 ≤ n) (hhi : n < 256) : ¬ UInt8.ofNat n < 128 := by
  intro h
  have := UInt8.lt_iff_toNat_lt.mp h
  rw [UInt8.toNat_ofNat', Nat.mod_eq_of_lt hhi] at this
  exact absurd this (by simpa using hlo)

/-- A character has four bytes at most for each code unit, and no more bytes than code units if
its bytes are ASCII. -/
theorem utf8EncodeChar_length (c : Char) :
    (String.utf8EncodeChar c).length ≤ 4 * utf16Units c ∧
      ((∀ b ∈ String.utf8EncodeChar c, b < 128) →
        (String.utf8EncodeChar c).length ≤ utf16Units c) := by
  have hunits : 1 ≤ utf16Units c := by
    rw [utf16Units]
    split <;> omega
  rw [String.length_utf8EncodeChar]
  refine ⟨le_trans c.utf8Size_le_four (by omega), fun hascii => ?_⟩
  rw [← String.length_utf8EncodeChar]
  rw [String.utf8EncodeChar] at hascii ⊢
  split at hascii
  · next h => rw [if_pos h]; exact hunits
  · split at hascii
    · exact absurd (hascii _ List.mem_cons_self) (not_ascii_ofNat (by omega) (by omega))
    · split at hascii
      · exact absurd (hascii _ List.mem_cons_self) (not_ascii_ofNat (by omega) (by omega))
      · exact absurd (hascii _ List.mem_cons_self) (not_ascii_ofNat (by omega) (by omega))

/-- The bytes of a list of characters, counted against its code units. -/
theorem length_bytes (chars : List Char) :
    (chars.flatMap String.utf8EncodeChar).length ≤ 4 * (chars.map utf16Units).sum ∧
      ((∀ b ∈ chars.flatMap String.utf8EncodeChar, b < 128) →
        (chars.flatMap String.utf8EncodeChar).length ≤ (chars.map utf16Units).sum) := by
  induction chars with
  | nil => simp
  | cons c chars ih =>
      obtain ⟨hle, hascii⟩ := utf8EncodeChar_length c
      rw [List.flatMap_cons, List.length_append, List.map_cons, List.sum_cons]
      refine ⟨by omega, fun h => ?_⟩
      have hc := hascii fun b hb => h b (List.mem_append_left _ hb)
      have hrest := ih.2 fun b hb => h b (List.mem_append_right _ hb)
      omega

/-- A text is read back as it was written exactly when it is ASCII. -/
theorem readFString_fstringOf_eq_iff (t : Text) :
    readFString true (fstringOf t.bytes) = t.bytes ↔ ∀ b ∈ t.bytes, b < 128 := by
  obtain ⟨hle, hascii⟩ := length_bytes t.chars
  have hshort := t.short
  rw [readFString_fstringOf (by rw [Text.bytes]; omega)]
  constructor
  · intro h
    split at h
    · exact latin1_eq_self_iff.mp h
    · rw [← h]
      simp
  · intro h
    have hlen : t.bytes.length < 8192 := by
      have := hascii h
      rw [Text.bytes]
      omega
    rw [if_pos hlen]
    exact latin1_eq_self_iff.mpr h

/-- **A text comes back as it was given exactly when it is ASCII**, for both copies of
`WriteFString`. -/
theorem readFString_writeFString_iff (t : Text) :
    (readFString true (chatWriteFString t.bytes) = t.bytes ↔ ∀ b ∈ t.bytes, b < 128) ∧
      (readFString true (kickWriteFString t.bytes) = t.bytes ↔ ∀ b ∈ t.bytes, b < 128) :=
  ⟨readFString_fstringOf_eq_iff t, readFString_fstringOf_eq_iff t⟩

/-- A text with one letter that is not ASCII. -/
def umlaut : Text where
  chars := [Char.ofNat 0xFC]
  noNul := by decide
  short := by decide

/-- The letter comes back as two. -/
theorem not_readFString_writeFString_umlaut :
    umlaut.bytes = [0xC3, 0xBC] ∧
      readFString true (chatWriteFString umlaut.bytes) = [0xC3, 0x83, 0xC2, 0xBC] ∧
      ¬ ∀ t : Text, readFString true (chatWriteFString t.bytes) = t.bytes ∧
        readFString true (kickWriteFString t.bytes) = t.bytes := by
  have hbytes : umlaut.bytes = [0xC3, 0xBC] := by decide
  have hread : readFString true (chatWriteFString umlaut.bytes) = [0xC3, 0x83, 0xC2, 0xBC] := by
    rw [hbytes]
    decide
  refine ⟨hbytes, hread, fun h => ?_⟩
  have := (h umlaut).1
  rw [hread, hbytes] at this
  exact absurd this (by decide)

end RSDWServerAPI.GameText
