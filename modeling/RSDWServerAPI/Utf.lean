import Mathlib.Data.Nat.Notation
import Mathlib.Logic.Basic

/-!
# UTF-8 and UTF-16

A text is a list of characters, that is of Unicode scalar values. Its UTF-8 form has for each
character the shortest of four forms (RFC 3629), its UTF-16 form one code unit, or two that
make a surrogate pair. A sequence is well formed when it is the form of some text: no byte
sequence for half a surrogate pair or a form that is too long, and no half of a pair alone.

## Main results

* `wellFormed8_append_iff`, `wellFormed16_append_iff`: a character in front can be taken off.
* `not_wellFormed8_surrogate`, `LoneSurrogate.not_wellFormed16`: half a pair spoils a sequence.
* `units_induction`: every sequence of code units is read character by character, or has half
  a pair in front.
-/

namespace Utf

/-! ### UTF-8 -/

/-- The UTF-8 form of a text. -/
def utf8 (chars : List Char) : List UInt8 :=
  chars.flatMap String.utf8EncodeChar

/-- A sequence of bytes is the UTF-8 form of a text. -/
def WellFormed8 (s : List UInt8) : Prop :=
  ∃ chars, s = utf8 chars

/-- No characters are no bytes. -/
@[simp] theorem utf8_nil : utf8 [] = [] :=
  rfl

/-- Characters are encoded one by one. -/
@[simp] theorem utf8_cons (c : Char) (chars : List Char) :
    utf8 (c :: chars) = String.utf8EncodeChar c ++ utf8 chars :=
  List.flatMap_cons

/-- No bytes are well formed. -/
theorem wellFormed8_nil : WellFormed8 [] :=
  ⟨[], rfl⟩

/-- The core library's notion, which is about byte arrays. -/
theorem wellFormed8_iff_isValidUTF8 {s : List UInt8} :
    WellFormed8 s ↔ s.toByteArray.IsValidUTF8 := by
  constructor
  · rintro ⟨chars, rfl⟩
    exact ⟨chars, rfl⟩
  · rintro ⟨chars, h⟩
    exact ⟨chars, List.toByteArray_inj.mp h⟩

/-- A character in front of a sequence can be taken off. -/
theorem wellFormed8_append_iff {c : Char} {s : List UInt8} :
    WellFormed8 (String.utf8EncodeChar c ++ s) ↔ WellFormed8 s := by
  rw [wellFormed8_iff_isValidUTF8, wellFormed8_iff_isValidUTF8, List.toByteArray_append,
    ← List.utf8Encode_singleton, ByteArray.isValidUTF8_utf8Encode_singleton_append_iff]

/-- The form of a character starts with neither of the pairs of bytes that half a surrogate pair
would have. -/
theorem utf8EncodeChar_ne_surrogate {c : Char} {b : UInt8} (hb : 0xA0 ≤ b.toNat)
    (s t : List UInt8) : String.utf8EncodeChar c ++ s ≠ 0xED :: b :: t := by
  intro h
  have hvalid : c.toNat < 0xD800 ∨ 0xDFFF < c.toNat ∧ c.toNat < 0x110000 := c.valid
  have hval : c.val.toNat = c.toNat := rfl
  have hed : (0xED : UInt8).toNat = 0xED := rfl
  rw [String.utf8EncodeChar] at h
  simp only [hval] at h
  split at h
  · obtain ⟨hfirst, -⟩ := List.cons.inj h
    have := congrArg UInt8.toNat hfirst
    simp only [UInt8.toNat_ofNat', hed] at this
    omega
  · split at h
    · obtain ⟨hfirst, -⟩ := List.cons.inj h
      have := congrArg UInt8.toNat hfirst
      simp only [UInt8.toNat_ofNat', hed] at this
      omega
    · split at h
      · obtain ⟨hfirst, h⟩ := List.cons.inj h
        obtain ⟨hsecond, -⟩ := List.cons.inj h
        have hfirst := congrArg UInt8.toNat hfirst
        have hsecond := congrArg UInt8.toNat hsecond
        simp only [UInt8.toNat_ofNat', hed] at hfirst hsecond
        omega
      · obtain ⟨hfirst, -⟩ := List.cons.inj h
        have := congrArg UInt8.toNat hfirst
        simp only [UInt8.toNat_ofNat', hed] at this
        omega

/-- The three bytes of half a surrogate pair spoil a sequence. -/
theorem not_wellFormed8_surrogate {b : UInt8} (hb : 0xA0 ≤ b.toNat) (s : List UInt8) :
    ¬ WellFormed8 (0xED :: b :: s) := by
  rintro ⟨chars, h⟩
  cases chars with
  | nil => cases h
  | cons c chars => exact utf8EncodeChar_ne_surrogate hb _ _ h.symm

/-! ### UTF-16 -/

/-- The code units of a character. -/
def utf16Char (c : Char) : List UInt16 :=
  if c.toNat < 0x10000 then [UInt16.ofNat c.toNat]
  else
    [UInt16.ofNat (0xD800 + (c.toNat - 0x10000) / 0x400),
      UInt16.ofNat (0xDC00 + (c.toNat - 0x10000) % 0x400)]

/-- The UTF-16 form of a text. -/
def utf16 (chars : List Char) : List UInt16 :=
  chars.flatMap utf16Char

/-- A sequence of code units is the UTF-16 form of a text. -/
def WellFormed16 (units : List UInt16) : Prop :=
  ∃ chars, units = utf16 chars

/-- No characters are no units. -/
@[simp] theorem utf16_nil : utf16 [] = [] :=
  rfl

/-- Characters are encoded one by one. -/
@[simp] theorem utf16_cons (c : Char) (chars : List Char) :
    utf16 (c :: chars) = utf16Char c ++ utf16 chars :=
  List.flatMap_cons

/-- No units are well formed. -/
theorem wellFormed16_nil : WellFormed16 [] :=
  ⟨[], rfl⟩

/-- The first half of a surrogate pair. -/
def IsHigh (unit : UInt16) : Prop :=
  0xD800 ≤ unit.toNat ∧ unit.toNat ≤ 0xDBFF

/-- The second half of a surrogate pair. -/
def IsLow (unit : UInt16) : Prop :=
  0xDC00 ≤ unit.toNat ∧ unit.toNat ≤ 0xDFFF

/-- The code unit in front of `rest` is half a surrogate pair without the other half. -/
inductive LoneSurrogate (unit : UInt16) (rest : List UInt16) : Prop
  | high (h : IsHigh unit) (hrest : ∀ low ∈ rest.head?, ¬ IsLow low)
  | low (h : IsLow unit)

/-- Both halves are in the range of the surrogates. -/
theorem LoneSurrogate.range {unit : UInt16} {rest : List UInt16} (h : LoneSurrogate unit rest) :
    0xD800 ≤ unit.toNat ∧ unit.toNat ≤ 0xDFFF := by
  cases h with
  | high h =>
      simp only [IsHigh] at h
      omega
  | low h =>
      simp only [IsLow] at h
      omega

/-- A character has one code unit, which is no surrogate, or a pair of them. -/
theorem utf16Char_cases (c : Char) :
    (∃ unit, utf16Char c = [unit] ∧ c.toNat = unit.toNat ∧ ¬ IsHigh unit ∧ ¬ IsLow unit) ∨
      ∃ high low, utf16Char c = [high, low] ∧ IsHigh high ∧ IsLow low ∧
        c.toNat = 0x10000 + (high.toNat - 0xD800) * 0x400 + (low.toNat - 0xDC00) := by
  have hvalid : c.toNat < 0xD800 ∨ 0xDFFF < c.toNat ∧ c.toNat < 0x110000 := c.valid
  by_cases hsmall : c.toNat < 0x10000
  · refine .inl ⟨UInt16.ofNat c.toNat, if_pos hsmall, ?_⟩
    simp only [IsHigh, IsLow, UInt16.toNat_ofNat']
    omega
  · refine .inr ⟨_, _, if_neg hsmall, ?_⟩
    simp only [IsHigh, IsLow, UInt16.toNat_ofNat']
    omega

/-- Every valid number is that of a character. -/
theorem exists_char {n : ℕ} (h : n.isValidChar) : ∃ c : Char, c.toNat = n :=
  ⟨Char.ofNatAux n h, rfl⟩

/-- A code unit that is no surrogate is a character. -/
theorem exists_utf16Char_single {unit : UInt16} (hhigh : ¬ IsHigh unit) (hlow : ¬ IsLow unit) :
    ∃ c, utf16Char c = [unit] := by
  have hlt := unit.toNat_lt
  have hvalid : unit.toNat.isValidChar := by
    simp only [IsHigh, IsLow] at hhigh hlow
    simp only [Nat.isValidChar]
    omega
  obtain ⟨c, hc⟩ := exists_char hvalid
  refine ⟨c, ?_⟩
  rw [utf16Char, hc, if_pos (by omega), UInt16.ofNat_toNat]

/-- A surrogate pair is a character. -/
theorem exists_utf16Char_pair {high low : UInt16} (hhigh : IsHigh high) (hlow : IsLow low) :
    ∃ c, utf16Char c = [high, low] := by
  simp only [IsHigh, IsLow] at hhigh hlow
  have hvalid : (0x10000 + (high.toNat - 0xD800) * 0x400 +
      (low.toNat - 0xDC00)).isValidChar := by
    simp only [Nat.isValidChar]
    omega
  obtain ⟨c, hc⟩ := exists_char hvalid
  refine ⟨c, ?_⟩
  have hfirst : 0xD800 + (c.toNat - 0x10000) / 0x400 = high.toNat := by omega
  have hsecond : 0xDC00 + (c.toNat - 0x10000) % 0x400 = low.toNat := by omega
  rw [utf16Char, if_neg (by omega), hfirst, hsecond, UInt16.ofNat_toNat, UInt16.ofNat_toNat]

/-- The code units of a character can be told from what follows. -/
theorem utf16Char_append_inj {c d : Char} {s t : List UInt16}
    (h : utf16Char c ++ s = utf16Char d ++ t) : c = d ∧ s = t := by
  rcases utf16Char_cases c with ⟨unit, hc, hcv, hch, hcl⟩ | ⟨high, low, hc, hch, hcl, hcv⟩
  · rcases utf16Char_cases d with ⟨unit', hd, hdv, -, -⟩ | ⟨high', low', hd, hdh, -, -⟩
    · rw [hc, hd] at h
      obtain ⟨rfl, rfl⟩ := List.cons.inj h
      exact ⟨Char.toNat_inj.mp (hcv.trans hdv.symm), rfl⟩
    · rw [hc, hd] at h
      obtain ⟨rfl, -⟩ := List.cons.inj h
      exact absurd hdh hch
  · rcases utf16Char_cases d with ⟨unit', hd, -, hdh, -⟩ | ⟨high', low', hd, -, -, hdv⟩
    · rw [hc, hd] at h
      obtain ⟨rfl, -⟩ := List.cons.inj h
      exact absurd hch hdh
    · rw [hc, hd] at h
      obtain ⟨rfl, htail⟩ := List.cons.inj h
      obtain ⟨rfl, rfl⟩ := List.cons.inj htail
      exact ⟨Char.toNat_inj.mp (hcv.trans hdv.symm), rfl⟩

/-- A character in front of a sequence can be taken off. -/
theorem wellFormed16_append_iff {c : Char} {s : List UInt16} :
    WellFormed16 (utf16Char c ++ s) ↔ WellFormed16 s := by
  constructor
  · rintro ⟨chars, h⟩
    cases chars with
    | nil =>
        rcases utf16Char_cases c with ⟨unit, hc, -⟩ | ⟨high, low, hc, -⟩
        · rw [hc] at h
          cases h
        · rw [hc] at h
          cases h
    | cons d chars => exact ⟨chars, (utf16Char_append_inj h).2⟩
  · rintro ⟨chars, rfl⟩
    exact ⟨c :: chars, rfl⟩

/-- Half a surrogate pair spoils a sequence. -/
theorem LoneSurrogate.not_wellFormed16 {unit : UInt16} {rest : List UInt16}
    (h : LoneSurrogate unit rest) : ¬ WellFormed16 (unit :: rest) := by
  rintro ⟨chars, heq⟩
  cases chars with
  | nil => cases heq
  | cons c chars =>
      rw [utf16_cons] at heq
      rcases utf16Char_cases c with ⟨unit', hc, -, hch, hcl⟩ | ⟨high, low, hc, hch, hcl, -⟩
      · rw [hc] at heq
        obtain ⟨rfl, -⟩ := List.cons.inj heq
        cases h with
        | high h => exact hch h
        | low h => exact hcl h
      · rw [hc] at heq
        obtain ⟨rfl, rfl⟩ := List.cons.inj heq
        cases h with
        | high _ hrest => exact hrest low rfl hcl
        | low h =>
            simp only [IsHigh, IsLow] at h hch
            omega

/-- **Reading code units**: a sequence is empty, or has a character in front, or half a
surrogate pair. -/
theorem units_induction {motive : List UInt16 → Prop} (nil : motive [])
    (char : ∀ c rest, motive rest → motive (utf16Char c ++ rest))
    (lone : ∀ unit rest, LoneSurrogate unit rest → motive (unit :: rest))
    (units : List UInt16) : motive units := by
  match units with
  | [] => exact nil
  | unit :: rest =>
      have ih := units_induction nil char lone rest
      by_cases hlow : IsLow unit
      · exact lone unit rest (.low hlow)
      · by_cases hhigh : IsHigh unit
        · match rest with
          | [] => exact lone unit [] (.high hhigh (by simp))
          | low :: rest =>
              by_cases hpair : IsLow low
              · obtain ⟨c, hc⟩ := exists_utf16Char_pair hhigh hpair
                have := char c rest (units_induction nil char lone rest)
                rwa [hc] at this
              · exact lone unit (low :: rest) (.high hhigh (by simpa using hpair))
        · obtain ⟨c, hc⟩ := exists_utf16Char_single hhigh hlow
          have := char c rest ih
          rwa [hc] at this

end Utf
