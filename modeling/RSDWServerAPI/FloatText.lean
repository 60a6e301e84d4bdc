import RSDWServerAPI.JsonReplies
import RSDWServerAPI.JsonVerdict

/-!
# Floating-point numbers in a JSON text

The game keeps its measurements as `float` and `double`. `Serialize` writes one with
`snprintf("%.3f")` into 64 bytes, `Num`, and puts the text where JSON wants a number.

A value is taken from its bits, `ieee`; `fixed3` is the conversion `%.3f` of the C library, with
the texts of a NaN and of an infinity, and rounding to the nearest with ties to even.

## Main results

* `verdict_num`: **what `Num` writes is a number or broken**.
* `numData_isSome_iff`: it is broken for a NaN, for an infinity, and where the buffer ends
  right behind the decimal point.
* `heldNumber_value`: a value with room for its digits is written to the thousandth.
-/

namespace RSDWServerAPI

open JsonText

/-! ### Values -/

/-- The value of a `float` or a `double`: not a number, infinite, or `mantissa * 2 ^ exponent`,
each with its sign. -/
inductive FloatValue
  | nan (negative : Bool)
  | infinity (negative : Bool)
  | finite (negative : Bool) (mantissa : ℕ) (exponent : ℤ)
  deriving DecidableEq, Repr

/-- The value of an IEEE 754 binary format with `e` bits for the exponent and `f` bits for the
fraction. -/
def ieee (e f bits : ℕ) : FloatValue :=
  let negative := bits / 2 ^ (e + f) % 2 == 1
  let exponent := bits / 2 ^ f % 2 ^ e
  let fraction := bits % 2 ^ f
  let bias : ℤ := 2 ^ (e - 1) - 1
  if exponent = 2 ^ e - 1 then
    if fraction = 0 then .infinity negative else .nan negative
  else if exponent = 0 then .finite negative fraction (1 - bias - f)
  else .finite negative (2 ^ f + fraction) (exponent - bias - f)

/-- A `float` in memory. -/
structure CFloat where
  bits : UInt32 := 0
  deriving DecidableEq, Repr

/-- A `double` in memory. -/
structure CDouble where
  bits : UInt64 := 0
  deriving DecidableEq, Repr

/-- The value of a `float`, which is that of the `double` it is converted to. -/
def CFloat.value (x : CFloat) : FloatValue :=
  ieee 8 23 x.bits.toNat

/-- The value of a `double`. -/
def CDouble.value (x : CDouble) : FloatValue :=
  ieee 11 52 x.bits.toNat

/-! ### `%.3f` -/

/-- A quotient, rounded to the nearest integer, and to the even one of two. -/
def roundEven (n d : ℕ) : ℕ :=
  if 2 * (n % d) < d ∨ (2 * (n % d) = d ∧ n / d % 2 = 0) then n / d else n / d + 1

/-- The thousandths of `mantissa * 2 ^ exponent`. -/
def thousandths (mantissa : ℕ) : ℤ → ℕ
  | .ofNat k => mantissa * 2 ^ k * 1000
  | .negSucc k => roundEven (mantissa * 1000) (2 ^ (k + 1))

/-- The sign in front of a number. -/
def signText (negative : Bool) : Bytes :=
  if negative then [45] else []

/-- The three digits behind the point. -/
def fractionDigits (t : ℕ) : Bytes :=
  [48 + UInt8.ofNat (t / 100 % 10), 48 + UInt8.ofNat (t / 10 % 10), 48 + UInt8.ofNat (t % 10)]

/-- The conversion `%.3f`. -/
def fixed3 : FloatValue → Bytes
  | .nan negative => signText negative ++ bytes "nan"
  | .infinity negative => signText negative ++ bytes "inf"
  | .finite negative mantissa exponent =>
      let t := thousandths mantissa exponent
      signText negative ++ natDecimal (t / 1000) ++ 46 :: fractionDigits t

namespace Serialize

/-- `Num`: what fits into `char buf[64]`. -/
def num (value : FloatValue) : Bytes :=
  (fixed3 value).take 63

end Serialize

/-! ### The number that the text is -/

/-- The digits of the fraction are digits. -/
theorem isDigit_of_mem_fractionDigits {t : ℕ} {c : UInt8} (h : c ∈ fractionDigits t) :
    isDigit c = true := by
  have hbyte : ∀ d < 10, isDigit (48 + UInt8.ofNat d) = true := by
    intro d hd
    interval_cases d <;> decide
  simp only [fractionDigits, List.mem_cons, List.not_mem_nil, or_false] at h
  rcases h with rfl | rfl | rfl <;> exact hbyte _ (Nat.mod_lt _ (by norm_num))

/-- The first `k + 1` digits of an integer part. -/
def wholeDigits (n k : ℕ) : Digits where
  val := (natDecimal n).take (k + 1)
  property := by
    obtain ⟨c, rest, hcons, -⟩ := exists_natDecimal n
    refine ⟨by simp [hcons], fun c hc => ?_⟩
    exact isDigit_of_mem_natDecimal (List.mem_of_mem_take hc)

/-- The first `k + 1` digits of a fraction. -/
def someFraction (t k : ℕ) : Digits where
  val := (fractionDigits t).take (k + 1)
  property :=
    ⟨by simp [fractionDigits], fun _ hc => isDigit_of_mem_fractionDigits (List.mem_of_mem_take hc)⟩

/-- The first digits of a number have no zero in front either. -/
theorem wholeDigits_head (n k : ℕ) (h : (wholeDigits n k).val.head? = some 48) :
    (wholeDigits n k).val = [48] := by
  have hhead : (natDecimal n).head? = some 48 := by
    rwa [wholeDigits, List.head?_take, if_neg (by omega)] at h
  have hval : (wholeDigits n k).val = (natDecimal n).take (k + 1) := rfl
  rw [hval, ApiRoutes.natDecimal_head n hhead, List.take_succ_cons, List.take_nil]

/-- The bytes of the buffer behind the sign. -/
def roomFor (negative : Bool) : ℕ :=
  if negative then 62 else 63

/-- The number that the buffer holds, given the thousandths, if it holds one: it does not where
it ends right behind the point. -/
def heldNumber (negative : Bool) (t : ℕ) : Option Number :=
  let whole := (natDecimal (t / 1000)).length
  if whole + 1 = roomFor negative then none
  else some {
    negative
    int := wholeDigits (t / 1000) (roomFor negative - 1)
    noLeadingZero := wholeDigits_head _ _
    frac := if roomFor negative ≤ whole then none
      else some (someFraction t (roomFor negative - whole - 2))
    exp := none }

/-- The number that the buffer holds. -/
def numberOf : FloatValue → Option Number
  | .nan _ => none
  | .infinity _ => none
  | .finite negative mantissa exponent => heldNumber negative (thousandths mantissa exponent)

/-- The data that the buffer holds. -/
def numData (value : FloatValue) : Option Data :=
  (numberOf value).map fun n => .number n.value

/-- The buffer holds the sign, and the first bytes of what is behind it. -/
theorem num_finite (negative : Bool) (mantissa : ℕ) (exponent : ℤ) :
    Serialize.num (.finite negative mantissa exponent) = signText negative ++
      (natDecimal (thousandths mantissa exponent / 1000) ++
        46 :: fractionDigits (thousandths mantissa exponent)).take (roomFor negative) := by
  rw [Serialize.num, fixed3, List.append_assoc]
  cases negative <;> rfl

/-- The digits of an integer part that has room. -/
theorem wholeDigits_val (negative : Bool) (n : ℕ) :
    (wholeDigits n (roomFor negative - 1)).val = (natDecimal n).take (roomFor negative) := by
  cases negative <;> rfl

/-- What the buffer holds of a finite value. -/
theorem verdict_held (negative : Bool) (t : ℕ) :
    Verdict (signText negative ++ (natDecimal (t / 1000) ++ 46 :: fractionDigits t).take
        (roomFor negative))
      ((heldNumber negative t).map fun n => .number n.value) := by
  rw [heldNumber, List.take_append]
  rcases Nat.lt_trichotomy ((natDecimal (t / 1000)).length + 1) (roomFor negative)
    with hlt | heq | hgt
  · have hroom : roomFor negative - (natDecimal (t / 1000)).length =
        roomFor negative - (natDecimal (t / 1000)).length - 2 + 1 + 1 := by
      omega
    rw [if_neg (by omega), Option.map_some, hroom, List.take_succ_cons]
    have hread := reads_number {
      negative
      int := wholeDigits (t / 1000) (roomFor negative - 1)
      noLeadingZero := wholeDigits_head _ _
      frac := some (someFraction t (roomFor negative - (natDecimal (t / 1000)).length - 2))
      exp := none }
    rw [Number.text, wholeDigits_val] at hread
    simp only [if_neg (show ¬ roomFor negative ≤ (natDecimal (t / 1000)).length by omega)]
    rw [verdict_some]
    simpa [signText, someFraction] using hread
  · have hpoint := broken_of_point negative (wholeDigits (t / 1000) (roomFor negative - 1))
    rw [wholeDigits_val, List.take_of_length_le (by omega)] at hpoint
    rw [if_pos heq, Option.map_none, List.take_of_length_le (by omega), ← heq,
      Nat.add_sub_cancel_left]
    exact hpoint
  · have hread := reads_number {
      negative
      int := wholeDigits (t / 1000) (roomFor negative - 1)
      noLeadingZero := wholeDigits_head _ _
      frac := none
      exp := none }
    rw [Number.text, wholeDigits_val] at hread
    have hle : roomFor negative ≤ (natDecimal (t / 1000)).length := by
      omega
    rw [if_neg (by omega), Option.map_some, Nat.sub_eq_zero_of_le hle, List.take_zero]
    simp only [if_pos hle]
    rw [verdict_some]
    simpa [signText] using hread

/-- **What `Num` writes is a number or broken.** -/
theorem verdict_num (value : FloatValue) : Verdict (Serialize.num value) (numData value) := by
  cases value with
  | nan negative =>
      cases negative with
      | true => exact broken_of_minus (c := 110) (by decide) (bytes "an")
      | false => exact broken_of_ne_null (c := 97) (by decide) (bytes "n")
  | infinity negative =>
      cases negative with
      | true => exact broken_of_minus (c := 105) (by decide) (bytes "nf")
      | false =>
          exact broken_of_kindOf (c := 105) (by decide) (by simp [IsWs]) (by decide) (bytes "nf")
  | finite negative mantissa exponent =>
      rw [num_finite]
      exact verdict_held negative (thousandths mantissa exponent)

/-- The value of the three digits behind the point. -/
theorem fractionDigits_value (t : ℕ) : digitsValue (fractionDigits t) = t % 1000 := by
  have hbyte : ∀ d < 10, (48 + UInt8.ofNat d).toNat - 48 = d := by
    intro d hd
    interval_cases d <;> rfl
  have h100 := hbyte (t / 100 % 10) (Nat.mod_lt _ (by norm_num))
  have h10 := hbyte (t / 10 % 10) (Nat.mod_lt _ (by norm_num))
  have h1 := hbyte (t % 10) (Nat.mod_lt _ (by norm_num))
  simp only [digitsValue, fractionDigits, List.foldl_cons, List.foldl_nil, h100, h10, h1]
  omega

/-- **A value with room for its digits is written to the thousandth.** -/
theorem heldNumber_value {negative : Bool} {t : ℕ}
    (h : (natDecimal (t / 1000)).length + 4 ≤ roomFor negative) :
    ∃ n, heldNumber negative t = some n ∧
      n.value = (if negative then -1 else 1) * ((t : ℚ) / 1000) := by
  have hint : Digits.value (wholeDigits (t / 1000) (roomFor negative - 1)) = t / 1000 := by
    have hval := wholeDigits_val negative (t / 1000)
    rw [List.take_of_length_le (by omega)] at hval
    rw [Digits.value, hval]
    exact digitsValue_natDecimal _
  have hfrac : (someFraction t (roomFor negative - (natDecimal (t / 1000)).length - 2)).val =
      fractionDigits t :=
    List.take_of_length_le (by simp [fractionDigits]; omega)
  have hfracValue : Digits.value
      (someFraction t (roomFor negative - (natDecimal (t / 1000)).length - 2)) = t % 1000 := by
    rw [Digits.value, hfrac]
    exact fractionDigits_value t
  have hsplit : ((t / 1000 : ℕ) : ℚ) + ((t % 1000 : ℕ) : ℚ) / 1000 = (t : ℚ) / 1000 := by
    have hdiv : ((1000 * (t / 1000) + t % 1000 : ℕ) : ℚ) = t := by
      rw [Nat.div_add_mod]
    push_cast at hdiv
    linarith
  refine ⟨_, by rw [heldNumber, if_neg (by omega)], ?_⟩
  rw [Number.value]
  simp only [if_neg (show ¬ roomFor negative ≤ (natDecimal (t / 1000)).length by omega),
    Option.elim_some, Option.elim_none, zpow_zero, mul_one, hint, hfracValue, hfrac]
  rw [← hsplit]
  norm_num [fractionDigits]

/-! ### When it is a number -/

/-- **`Num` writes a number**: the value is finite, and the sign and the integer part do not
fill the buffer up to the last byte in front of its end. -/
def FloatValue.Prints : FloatValue → Prop
  | .nan _ => False
  | .infinity _ => False
  | .finite false mantissa exponent =>
      ¬ (10 ^ 61 ≤ thousandths mantissa exponent / 1000 ∧
        thousandths mantissa exponent / 1000 < 10 ^ 62)
  | .finite true mantissa exponent =>
      ¬ (10 ^ 60 ≤ thousandths mantissa exponent / 1000 ∧
        thousandths mantissa exponent / 1000 < 10 ^ 61)

/-- The condition decides whether `Num` writes a number. -/
theorem numData_isSome_iff (value : FloatValue) : (numData value).isSome ↔ value.Prints := by
  have hlength : ∀ n k : ℕ, 0 < k →
      ((natDecimal n).length = k + 1 ↔ 10 ^ k ≤ n ∧ n < 10 ^ (k + 1)) := by
    intro n k hk
    have hlow := natDecimal_length_le_iff (n := n) hk
    have hhigh := natDecimal_length_le_iff (n := n) (Nat.succ_pos k)
    rw [← not_lt, ← hlow, ← hhigh]
    omega
  cases value with
  | nan negative => simp [numData, numberOf, FloatValue.Prints]
  | infinity negative => simp [numData, numberOf, FloatValue.Prints]
  | finite negative mantissa exponent =>
      rw [numData, numberOf, Option.isSome_map, heldNumber]
      cases negative with
      | false =>
          have h := hlength (thousandths mantissa exponent / 1000) 61 (by norm_num)
          rw [FloatValue.Prints, ← h]
          simp [roomFor]
      | true =>
          have h := hlength (thousandths mantissa exponent / 1000) 60 (by norm_num)
          rw [FloatValue.Prints, ← h]
          simp [roomFor]

end RSDWServerAPI
