import RSDWServerAPI.GameText
import RSDWServerAPI.Utf

/-!
# Which game texts become UTF-8

`Utf16ToUtf8` (`engine/uobject.cpp`) joins the halves of a surrogate pair and hands everything
else to `AppendUtf8` as it is, half a pair that stands alone included. `AppendUtf8` writes any
number below 0x10000 in three bytes, also one that no character has.

## Main results

* `appendUtf8_toNat`, `utf16ToUtf8_append`: on characters the code writes UTF-8.
* `wellFormed8_utf16ToUtf8_iff`, `decodes_iff`: **the result is well-formed UTF-8 exactly when
  the code units are well-formed UTF-16**.
-/

namespace RSDWServerAPI.GameText

open Utf

/-! ### The bytes of a character -/

/-- A mark in front of the bits that are put in is added to them. -/
theorem or_mark {b : ℕ} (i a : ℕ) (h : b < 2 ^ i) : 2 ^ i * a ||| b = b + 2 ^ i * a :=
  (Nat.two_pow_add_eq_or_of_lt h a).symm.trans (Nat.add_comm _ _)

/-- A byte behind the first, with six bits of the code point. -/
theorem or_tail (n : ℕ) : 0x80 ||| (n &&& 0x3F) = n % 64 + 0x80 := by
  have hmod : n &&& 0x3F = n % 64 := Nat.and_two_pow_sub_one_eq_mod n 6
  rw [hmod]
  exact or_mark 7 1 (by omega)

/-- **`AppendUtf8` writes a character in UTF-8.** -/
theorem appendUtf8_toNat (c : Char) : appendUtf8 c.toNat = String.utf8EncodeChar c := by
  have hvalid : c.toNat < 0xD800 ∨ 0xDFFF < c.toNat ∧ c.toNat < 0x110000 := c.valid
  have hval : c.val.toNat = c.toNat := rfl
  rw [appendUtf8, String.utf8EncodeChar]
  simp only [hval, or_tail, Nat.shiftRight_eq_div_pow]
  by_cases h1 : c.toNat < 0x80
  · rw [if_pos h1, if_pos (by omega)]
  · rw [if_neg h1, if_neg (show ¬ c.toNat ≤ 0x7F by omega)]
    by_cases h2 : c.toNat < 0x800
    · have hfirst : 0xC0 ||| c.toNat / 2 ^ 6 = c.toNat / 64 % 0x20 + 0xC0 := by
        rw [Nat.mod_eq_of_lt (by omega)]
        exact or_mark 6 3 (by omega)
      rw [if_pos h2, if_pos (by omega), hfirst]
    · rw [if_neg h2, if_neg (show ¬ c.toNat ≤ 0x7FF by omega)]
      by_cases h3 : c.toNat < 0x10000
      · have hfirst : 0xE0 ||| c.toNat / 2 ^ 12 = c.toNat / 4096 % 0x10 + 0xE0 := by
          rw [Nat.mod_eq_of_lt (by omega)]
          exact or_mark 5 7 (by omega)
        rw [if_pos h3, if_pos (by omega), hfirst]
      · have hfirst : 0xF0 ||| c.toNat / 2 ^ 18 = c.toNat / 262144 % 0x08 + 0xF0 := by
          rw [Nat.mod_eq_of_lt (by omega)]
          exact or_mark 4 15 (by omega)
        rw [if_neg h3, if_neg (by omega), hfirst]

/-- Half a surrogate pair is written in three bytes, of which no text has the first two in a
row. -/
theorem appendUtf8_surrogate {n : ℕ} (hlo : 0xD800 ≤ n) (hhi : n ≤ 0xDFFF) :
    ∃ b c, appendUtf8 n = [0xED, b, c] ∧ 0xA0 ≤ b.toNat := by
  have hfirst : 0xE0 ||| n >>> 12 = 0xED := by
    have hdiv : n >>> 12 = 13 := by
      rw [Nat.shiftRight_eq_div_pow]
      omega
    rw [hdiv]
    decide
  rw [appendUtf8, if_neg (by omega), if_neg (by omega), if_pos (by omega), hfirst, or_tail,
    Nat.shiftRight_eq_div_pow]
  refine ⟨_, _, rfl, ?_⟩
  rw [UInt8.toNat_ofNat']
  omega

/-! ### The loop -/

/-- The check for a high surrogate. -/
theorem isHighSurrogate_iff {unit : UInt16} : isHighSurrogate unit = true ↔ IsHigh unit := by
  simp [isHighSurrogate, IsHigh, UInt16.le_iff_toNat_le]

/-- The check for a low surrogate. -/
theorem isLowSurrogate_iff {unit : UInt16} : isLowSurrogate unit = true ↔ IsLow unit := by
  simp [isLowSurrogate, IsLow, UInt16.le_iff_toNat_le]

/-- A character in front is written in UTF-8, whatever follows. -/
theorem utf16ToUtf8_append (c : Char) (rest : List UInt16) :
    utf16ToUtf8 (utf16Char c ++ rest) = String.utf8EncodeChar c ++ utf16ToUtf8 rest := by
  rcases utf16Char_cases c with ⟨unit, hc, hval, hhigh, -⟩ | ⟨high, low, hc, hhigh, hlow, hval⟩
  · have hnot : isHighSurrogate unit = false := by
      rwa [← Bool.not_eq_true, isHighSurrogate_iff]
    rw [hc, List.singleton_append, utf16ToUtf8_cons hnot, ← hval, appendUtf8_toNat]
  · have hpair : (isHighSurrogate high && isLowSurrogate low) = true := by
      rw [Bool.and_eq_true, isHighSurrogate_iff, isLowSurrogate_iff]
      exact ⟨hhigh, hlow⟩
    have hshift : (high.toNat - 0xD800) <<< 10 = (high.toNat - 0xD800) * 0x400 :=
      Nat.shiftLeft_eq _ 10
    rw [hc, List.cons_append, List.singleton_append, utf16ToUtf8, if_pos hpair, hshift, ← hval,
      appendUtf8_toNat]

/-- Half a surrogate pair in front is written as if it were a character. -/
theorem utf16ToUtf8_lone {unit : UInt16} {rest : List UInt16} (h : LoneSurrogate unit rest) :
    utf16ToUtf8 (unit :: rest) = appendUtf8 unit.toNat ++ utf16ToUtf8 rest := by
  cases rest with
  | nil => simp [utf16ToUtf8]
  | cons low rest =>
      have hpair : ¬ (isHighSurrogate unit && isLowSurrogate low) = true := by
        rw [Bool.and_eq_true, isHighSurrogate_iff, isLowSurrogate_iff]
        cases h with
        | high _ hrest => exact fun hpair => hrest low rfl hpair.2
        | low hlow =>
            simp only [IsHigh, IsLow] at hlow ⊢
            omega
      rw [utf16ToUtf8, if_neg hpair]

/-- **A text comes out as it went in.** -/
theorem utf16ToUtf8_utf16 (chars : List Char) : utf16ToUtf8 (utf16 chars) = utf8 chars := by
  induction chars with
  | nil => rfl
  | cons c chars ih => rw [utf16_cons, utf16ToUtf8_append, ih, utf8_cons]

/-- **The result is UTF-8 exactly when the code units are UTF-16.** -/
theorem wellFormed8_utf16ToUtf8_iff (units : List UInt16) :
    WellFormed8 (utf16ToUtf8 units) ↔ WellFormed16 units := by
  induction units using units_induction with
  | nil => exact iff_of_true wellFormed8_nil wellFormed16_nil
  | char c rest ih => rw [utf16ToUtf8_append, wellFormed8_append_iff, wellFormed16_append_iff, ih]
  | lone unit rest h =>
      refine iff_of_false ?_ h.not_wellFormed16
      obtain ⟨b, c, hbytes, hb⟩ := appendUtf8_surrogate h.range.1 h.range.2
      rw [utf16ToUtf8_lone h, hbytes]
      exact not_wellFormed8_surrogate hb _

/-- `ReadFString` gives UTF-8 for a buffer that holds UTF-16 in front of its terminator. -/
theorem wellFormed8_readFString (readable : Bool) {value : FString} {units : List UInt16}
    (hdata : value.data = some units)
    (h : WellFormed16 (units.take (value.num.toInt - 1).toNat)) :
    WellFormed8 (readFString readable value) := by
  rw [readFString, hdata]
  dsimp only
  split
  · exact wellFormed8_nil
  · split
    · exact wellFormed8_nil
    · split
      · exact wellFormed8_nil
      · exact (wellFormed8_utf16ToUtf8_iff _).mpr h

/-- What decoding promises: the result is well-formed UTF-8, and for well-formed UTF-16 it is the
UTF-8 form of the same text. -/
structure Decodes (units : List UInt16) : Prop where
  wellFormed : WellFormed8 (utf16ToUtf8 units)
  same : ∀ chars, units = utf16 chars → utf16ToUtf8 units = utf8 chars

/-- **Names decode to UTF-8 exactly when they are UTF-16**: for every sequence of code units,
that is when each half of a surrogate pair stands next to its other half. -/
theorem decodes_iff (units : List UInt16) : Decodes units ↔ WellFormed16 units := by
  constructor
  · intro h
    exact (wellFormed8_utf16ToUtf8_iff units).mp h.wellFormed
  · intro h
    refine ⟨(wellFormed8_utf16ToUtf8_iff units).mpr h, ?_⟩
    rintro chars rfl
    exact utf16ToUtf8_utf16 chars

/-- The name `A`, half a surrogate pair, `B`. -/
theorem not_decodes_half_pair :
    utf16ToUtf8 [0x41, 0xD800, 0x42] = [0x41, 0xED, 0xA0, 0x80, 0x42] ∧
      ¬ Decodes [0x41, 0xD800, 0x42] := by
  have hbytes : utf16ToUtf8 [0x41, 0xD800, 0x42] = [0x41, 0xED, 0xA0, 0x80, 0x42] := by decide
  have hfirst : String.utf8EncodeChar 'A' = [0x41] := by decide
  refine ⟨hbytes, fun h => ?_⟩
  have hwell := h.wellFormed
  rw [hbytes, ← List.singleton_append, ← hfirst, wellFormed8_append_iff] at hwell
  exact not_wellFormed8_surrogate (by decide) _ hwell

end RSDWServerAPI.GameText
