import Mathlib.Data.Nat.Notation

/-!
# ASCII characters

The classes of bytes that the formats below share: digits, hexadecimal digits and blanks.
-/

namespace Ascii

/-- A decimal digit. -/
def isDigit (c : UInt8) : Bool :=
  48 ≤ c && c ≤ 57

/-- A space or a tab. -/
def isBlank (c : UInt8) : Bool :=
  c == 32 || c == 9

/-- The value of a hexadecimal digit, `none` for any other byte. -/
def hexValue (c : UInt8) : Option ℕ :=
  if 48 ≤ c ∧ c ≤ 57 then some (c.toNat - 48)
  else if 65 ≤ c ∧ c ≤ 70 then some (c.toNat - 55)
  else if 97 ≤ c ∧ c ≤ 102 then some (c.toNat - 87)
  else none

/-- The digits stand between `0` and `9`. -/
theorem isDigit_iff {c : UInt8} : isDigit c = true ↔ 48 ≤ c ∧ c ≤ 57 := by
  simp [isDigit]

/-- A blank is one of two bytes. -/
theorem isBlank_iff {c : UInt8} : isBlank c = true ↔ c = 32 ∨ c = 9 := by
  simp [isBlank]

end Ascii
