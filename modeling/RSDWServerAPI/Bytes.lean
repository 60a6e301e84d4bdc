import RSDWServerAPI.Ascii
import Mathlib.Data.List.Infix
import Mathlib.Data.List.TakeWhile
import Mathlib.Data.Nat.Digits.Lemmas

/-!
# Byte strings

A `std::string` is the list of bytes it holds. This module has the few operations of
`std::string`, `<cctype>` and `<string>` that the server's text handling rests on:
literals, the ASCII `tolower`, words, numbers in both directions, and substring search.

Search is phrased by what is left of the text instead of by an index: where the source
keeps a position `i` into a string `s`, the model keeps the suffix `s.substr(i)`. So
`afterFirst p s` is the text behind the first occurrence of `p` in `s`, and `none` is
`std::string::npos`.

## Main results

* `afterFirst_eq_some_iff`: the search stops at an occurrence, and at the first one.
* `afterFirst_skip`: a stretch in which no occurrence starts is passed over.
* `cutFirst_singleton_eq_some_iff`: where a text is cut at a single byte.
* `cutFirst_append`, `cutFirst_append_right`: where a part of a text is cut.
* `decimal_length_le`: `std::to_string` of an `int32_t` has at most eleven bytes.
* `atoi_decimal`: **`atoi` reads what `std::to_string` writes**.
-/

namespace RSDWServerAPI

export Ascii (isDigit)

/-- A `std::string`: the bytes it holds. -/
abbrev Bytes := List UInt8

/-- Comparing texts decides their equality. -/
instance : LawfulBEq Bytes :=
  inferInstance

/-- The bytes of an ASCII string literal. -/
def bytes (s : String) : Bytes :=
  s.toList.map fun c => UInt8.ofNat c.toNat

/-- A literal, from its characters: the form in which it is cheap to evaluate. -/
theorem bytes_ofList (l : List Char) :
    bytes (String.ofList l) = l.map fun c => UInt8.ofNat c.toNat := by
  rw [bytes, String.toList_ofList]

/-- `tolower` of the C locale. -/
def toLower (c : UInt8) : UInt8 :=
  if 65 ≤ c ∧ c ≤ 90 then c + 32 else c

/-- `Lower`, the helper that `bans.cpp`, `items.cpp`, `chat.cpp` and the command files each
declare for themselves. -/
def lower (s : Bytes) : Bytes :=
  s.map toLower

/-- What a C function sees of a text that is given to it by `c_str`: the bytes before the first
NUL. -/
def cStr (s : Bytes) : Bytes :=
  s.takeWhile fun c => c ≠ 0

/-! ### Blanks, digits and numbers -/

/-- `isspace` of the C locale. -/
def isSpace (c : UInt8) : Bool :=
  c == 32 || (9 ≤ c && c ≤ 13)

/-- The words that `stream >> word` takes out of a text one after the other. -/
def words (s : Bytes) : List Bytes :=
  (s.splitOnP isSpace).filter fun word => word ≠ []

/-- The value of a run of decimal digits. -/
def digitsValue (digits : Bytes) : ℕ :=
  digits.foldl (fun n c => n * 10 + (c.toNat - 48)) 0

/-- `atol`, with a `long` of 64 bits: blanks, a sign, and the digits that follow; a value
out of range is replaced by the nearest one, as `strtol` does. -/
def atol (s : Bytes) : ℤ :=
  let s := s.dropWhile isSpace
  let negative := s.head? == some 45
  let digits := (if negative || s.head? == some 43 then s.tail else s).takeWhile isDigit
  let value : ℤ := if negative then -(digitsValue digits : ℤ) else digitsValue digits
  max (-9223372036854775808) (min 9223372036854775807 value)

/-- `atoi`: `strtol`, cast to `int`. -/
def atoi (s : Bytes) : Int32 :=
  Int32.ofInt (atol s)

/-! ### `std::to_string` -/

/-- The decimal digits of a natural number, most significant first. -/
def natDecimal (n : ℕ) : Bytes :=
  if n = 0 then [48] else (Nat.digits 10 n).reverse.map fun d => 48 + UInt8.ofNat d

/-- `std::to_string` of a signed integer. -/
def decimal (i : ℤ) : Bytes :=
  if i < 0 then 45 :: natDecimal i.natAbs else natDecimal i.natAbs

/-- The number of digits of a natural number. -/
theorem natDecimal_length_le_iff {n k : ℕ} (hk : 0 < k) :
    (natDecimal n).length ≤ k ↔ n < 10 ^ k := by
  rw [natDecimal]
  split_ifs with h0
  · rw [h0]
    exact iff_of_true hk (by positivity)
  · rw [List.length_map, List.length_reverse]
    exact Nat.digits_length_le_iff (by norm_num) n

/-- An `int32_t` prints in at most eleven bytes. -/
theorem decimal_length_le (i : Int32) : (decimal i.toInt).length ≤ 11 := by
  have hlo := Int32.le_toInt i
  have hhi := Int32.toInt_lt i
  have hn : (natDecimal i.toInt.natAbs).length ≤ 10 :=
    (natDecimal_length_le_iff (by norm_num)).mpr (by omega)
  rw [decimal]
  split <;> simp <;> omega

/-- The value of decimal digits that stand in order. -/
theorem digitsValue_reverse {ds : List ℕ} (h : ∀ d ∈ ds, d < 10) :
    digitsValue (ds.reverse.map fun d => 48 + UInt8.ofNat d) = Nat.ofDigits 10 ds := by
  induction ds with
  | nil => rfl
  | cons d ds ih =>
      have hd := h d List.mem_cons_self
      have hbyte : (48 + UInt8.ofNat d).toNat = 48 + d := by
        interval_cases d <;> rfl
      have ih := ih fun e he => h e (List.mem_cons_of_mem _ he)
      rw [digitsValue] at ih ⊢
      rw [List.reverse_cons, List.map_append, List.foldl_append, ih, List.map_singleton,
        List.foldl_cons, List.foldl_nil, hbyte, Nat.ofDigits_cons]
      omega

/-- The digits of a number have its value. -/
theorem digitsValue_natDecimal (n : ℕ) : digitsValue (natDecimal n) = n := by
  rw [natDecimal]
  split_ifs with h0
  · rw [h0]
    rfl
  · rw [digitsValue_reverse fun d hd => Nat.digits_lt_base (by norm_num) hd, Nat.ofDigits_digits]

/-- The digits of a number are digits. -/
theorem isDigit_of_mem_natDecimal {n : ℕ} {c : UInt8} (h : c ∈ natDecimal n) :
    isDigit c = true := by
  rw [natDecimal] at h
  split_ifs at h
  · obtain rfl := List.mem_singleton.mp h
    rfl
  · obtain ⟨d, hd, rfl⟩ := List.mem_map.mp h
    have hlt : d < 10 := Nat.digits_lt_base (by norm_num) (List.mem_reverse.mp hd)
    interval_cases d <;> rfl

/-- A number has a first digit. -/
theorem exists_natDecimal (n : ℕ) : ∃ c rest, natDecimal n = c :: rest ∧ isDigit c = true := by
  cases hn : natDecimal n with
  | nil =>
      rw [natDecimal] at hn
      split_ifs at hn with h0
      · have : Nat.digits 10 n = [] := by simpa using hn
        exact absurd (Nat.digits_eq_nil_iff_eq_zero.mp this) h0
  | cons c rest =>
      exact ⟨c, rest, rfl, isDigit_of_mem_natDecimal (hn ▸ List.mem_cons_self)⟩

/-- A digit is neither a blank nor a sign. -/
theorem isDigit_ne {c : UInt8} (h : isDigit c = true) : isSpace c = false ∧ c ≠ 45 ∧ c ≠ 43 := by
  rw [isDigit, Bool.and_eq_true, decide_eq_true_eq, decide_eq_true_eq, UInt8.le_iff_toNat_le,
    UInt8.le_iff_toNat_le] at h
  refine ⟨?_, ?_, ?_⟩
  · rw [isSpace, Bool.or_eq_false_iff, Bool.and_eq_false_iff, decide_eq_false_iff_not,
      decide_eq_false_iff_not, UInt8.le_iff_toNat_le, UInt8.le_iff_toNat_le, beq_eq_false_iff_ne]
    refine ⟨?_, .inr ?_⟩
    · rintro rfl
      simp at h
    · simp at h ⊢
      omega
  · rintro rfl
    simp at h
  · rintro rfl
    simp at h

/-- The bytes of a number are digits and a sign. -/
theorem mem_decimal {i : ℤ} {c : UInt8} (h : c ∈ decimal i) : c = 45 ∨ isDigit c = true := by
  rw [decimal] at h
  split_ifs at h
  · rcases List.mem_cons.mp h with rfl | h
    · exact .inl rfl
    · exact .inr (isDigit_of_mem_natDecimal h)
  · exact .inr (isDigit_of_mem_natDecimal h)

/-- `atol` reads digits. -/
theorem atol_digits {ds : Bytes} (hne : ds ≠ []) (h : ∀ c ∈ ds, isDigit c = true) :
    atol ds = max (-9223372036854775808) (min 9223372036854775807 (digitsValue ds : ℤ)) ∧
      atol (45 :: ds) =
        max (-9223372036854775808) (min 9223372036854775807 (-(digitsValue ds : ℤ))) := by
  obtain ⟨c, rest, rfl⟩ := List.exists_cons_of_ne_nil hne
  obtain ⟨hspace, hminus, hplus⟩ := isDigit_ne (h c List.mem_cons_self)
  have htake : (c :: rest).takeWhile isDigit = c :: rest := List.takeWhile_eq_self_iff.mpr h
  have hdrop : (c :: rest).dropWhile isSpace = c :: rest :=
    List.dropWhile_cons_of_neg (by simp [hspace])
  have hdrop' : (45 :: c :: rest).dropWhile isSpace = 45 :: c :: rest :=
    List.dropWhile_cons_of_neg (by decide)
  constructor
  · simp only [atol, hdrop, List.head?_cons, Option.some_beq_some]
    simp [hminus, hplus, htake]
  · simp only [atol, hdrop', List.head?_cons]
    simp [htake]

/-- **`atoi` reads what `std::to_string` writes.** -/
theorem atoi_decimal (i : Int32) : atoi (decimal i.toInt) = i := by
  have hlo := Int32.le_toInt i
  have hhi := Int32.toInt_lt i
  obtain ⟨c, rest, hdigits, -⟩ := exists_natDecimal i.toInt.natAbs
  have hne : natDecimal i.toInt.natAbs ≠ [] := by simp [hdigits]
  obtain ⟨hpos, hneg⟩ := atol_digits hne fun c hc => isDigit_of_mem_natDecimal hc
  rw [digitsValue_natDecimal] at hpos hneg
  have hatol : atol (decimal i.toInt) = i.toInt := by
    rw [decimal]
    split_ifs
    · rw [hneg]
      omega
    · rw [hpos]
      omega
  rw [atoi, hatol, Int32.ofInt_toInt]

/-! ### Substring search -/

section Search

variable {α : Type*} [DecidableEq α]

/-- The text behind the first occurrence of `p`, `none` when there is no occurrence. -/
def afterFirst (p : List α) : List α → Option (List α)
  | [] => if p = [] then some [] else none
  | c :: s => if p <+: c :: s then some ((c :: s).drop p.length) else afterFirst p s

/-- An occurrence right at the start is the one that is found. -/
theorem afterFirst_append (p s : List α) : afterFirst p (p ++ s) = some s := by
  rcases p with - | ⟨c, p⟩
  · cases s <;> simp [afterFirst]
  · have h : c :: p <+: c :: (p ++ s) := ⟨s, by simp⟩
    simp [afterFirst, h]

/-- A byte at which no occurrence starts is passed over. -/
theorem afterFirst_cons {p : List α} {c : α} {s : List α} (h : ¬ p <+: c :: s) :
    afterFirst p (c :: s) = afterFirst p s := by
  rw [afterFirst, if_neg h]

/-- A stretch in which no occurrence starts is passed over. -/
theorem afterFirst_skip {p : List α} (x y : List α)
    (h : ∀ a b, x = a ++ b → b ≠ [] → ¬ p <+: b ++ y) :
    afterFirst p (x ++ y) = afterFirst p y := by
  induction x with
  | nil => rfl
  | cons c x ih =>
      have hc : ¬ p <+: c :: (x ++ y) := h [] (c :: x) rfl (by simp)
      rw [List.cons_append, afterFirst_cons hc]
      refine ih fun a b hx hb => ?_
      exact h (c :: a) b (by rw [hx, List.cons_append]) hb

/-- Text without the byte in it is passed over when searching for that byte. -/
theorem afterFirst_singleton {c : α} {x : List α} (y : List α) (h : c ∉ x) :
    afterFirst [c] (x ++ c :: y) = some y := by
  rw [afterFirst_skip x (c :: y)]
  · exact afterFirst_append [c] y
  · intro a b hx hb hp
    obtain ⟨d, b, rfl⟩ := List.exists_cons_of_ne_nil hb
    obtain rfl : c = d := by simpa using hp
    exact h (by simp [hx])

/-- Nothing is found in text that does not have the byte. -/
theorem afterFirst_singleton_none {c : α} {x : List α} (h : c ∉ x) :
    afterFirst [c] x = none := by
  induction x with
  | nil => simp [afterFirst]
  | cons d x ih =>
      have hd : ¬ [c] <+: d :: x := fun hp => h (by
        obtain rfl : c = d := by simpa using hp
        simp)
      rw [afterFirst_cons hd]
      exact ih fun hx => h (List.mem_cons_of_mem _ hx)

/-- **What the search finds**: an occurrence of `p`, with none starting before it. -/
theorem afterFirst_eq_some_iff {p s t : List α} :
    afterFirst p s = some t ↔
      ∃ x, s = x ++ p ++ t ∧ ∀ a b, x = a ++ b → b ≠ [] → ¬ p <+: b ++ (p ++ t) := by
  constructor
  · intro h
    induction s with
    | nil =>
        rw [afterFirst] at h
        split at h
        · next hp =>
            obtain rfl : [] = t := Option.some.inj h
            exact ⟨[], by simp [hp], by simp⟩
        · cases h
    | cons c s ih =>
        rw [afterFirst] at h
        split at h
        · next hp =>
            obtain rfl := Option.some.inj h
            refine ⟨[], ?_, by simp⟩
            rw [List.nil_append]
            exact (List.prefix_append_drop hp)
        · next hp =>
            obtain ⟨x, rfl, hx⟩ := ih h
            refine ⟨c :: x, by simp, ?_⟩
            intro a b hab hb
            rcases a with - | ⟨d, a⟩
            · obtain rfl : c :: x = b := hab
              simpa [List.append_assoc] using hp
            · obtain ⟨rfl, rfl⟩ : c = d ∧ x = a ++ b := by simpa using hab
              exact hx a b rfl hb
  · rintro ⟨x, rfl, hx⟩
    rw [List.append_assoc, afterFirst_skip x _ hx]
    exact afterFirst_append p t

/-- The search finds something exactly where there is an occurrence. -/
theorem afterFirst_isSome_iff {p s : List α} : (afterFirst p s).isSome = true ↔ p <:+: s := by
  induction s with
  | nil =>
      rw [afterFirst, List.infix_nil]
      split
      · next hp => simp [hp]
      · next hp => simp [hp]
  | cons c s ih =>
      rw [List.infix_cons_iff, ← ih, afterFirst]
      split
      · next hp => simp [hp]
      · next hp => simp [hp]

/-! ### Cutting at an occurrence -/

/-- The text before and the text behind the first occurrence of `p`. -/
def cutFirst (p : List α) : List α → Option (List α × List α)
  | [] => if p = [] then some ([], []) else none
  | c :: s =>
      if p <+: c :: s then some ([], (c :: s).drop p.length)
      else (cutFirst p s).map fun parts => (c :: parts.1, parts.2)

/-- The text is put together again from the two parts. -/
theorem cutFirst_eq_some {p s a b : List α} (h : cutFirst p s = some (a, b)) :
    s = a ++ p ++ b := by
  induction s generalizing a with
  | nil =>
      rw [cutFirst] at h
      split at h
      · next hp =>
          obtain ⟨rfl, rfl⟩ : [] = a ∧ [] = b := by simpa using h
          simp [hp]
      · cases h
  | cons c s ih =>
      rw [cutFirst] at h
      split at h
      · next hp =>
          obtain ⟨rfl, rfl⟩ : [] = a ∧ (c :: s).drop p.length = b := by simpa using h
          exact (List.prefix_append_drop hp)
      · obtain ⟨⟨a', b'⟩, hab, heq⟩ := Option.map_eq_some_iff.mp h
        obtain ⟨rfl, rfl⟩ : c :: a' = a ∧ b' = b := by simpa using heq
        rw [ih hab]
        rfl

/-- A text is cut at a single byte where that byte stands first. -/
theorem cutFirst_singleton_eq_some_iff {c : α} {s a b : List α} :
    cutFirst [c] s = some (a, b) ↔ s = a ++ c :: b ∧ c ∉ a := by
  induction s generalizing a with
  | nil => simp [cutFirst]
  | cons d s ih =>
      have hpre : [c] <+: d :: s ↔ c = d := by simp
      rw [cutFirst]
      split_ifs with h
      · rw [hpre] at h
        subst h
        constructor
        · intro hcut
          obtain ⟨rfl, rfl⟩ : [] = a ∧ s = b := by simpa using hcut
          exact ⟨rfl, List.not_mem_nil⟩
        · rintro ⟨heq, hc⟩
          cases a with
          | nil => simpa using heq
          | cons e a =>
              obtain ⟨rfl, -⟩ := List.cons.inj heq
              exact absurd List.mem_cons_self hc
      · rw [hpre] at h
        constructor
        · intro hcut
          obtain ⟨⟨a', b'⟩, hab, heq⟩ := Option.map_eq_some_iff.mp hcut
          obtain ⟨rfl, rfl⟩ : d :: a' = a ∧ b' = b := by simpa using heq
          obtain ⟨rfl, hc⟩ := ih.mp hab
          exact ⟨rfl, by simp [h, hc]⟩
        · rintro ⟨heq, hc⟩
          cases a with
          | nil => exact absurd (List.cons.inj heq).1.symm h
          | cons e a =>
              obtain ⟨rfl, rfl⟩ := List.cons.inj heq
              rw [ih.mpr ⟨rfl, fun hmem => hc (List.mem_cons_of_mem _ hmem)⟩]
              rfl

/-- A text is not cut at a byte that it does not have. -/
theorem cutFirst_singleton_eq_none_iff {c : α} {s : List α} : cutFirst [c] s = none ↔ c ∉ s := by
  constructor
  · intro h hmem
    obtain ⟨a, b, rfl, hc⟩ := List.eq_append_cons_of_mem hmem
    rw [cutFirst_singleton_eq_some_iff.mpr ⟨rfl, hc⟩] at h
    cases h
  · intro h
    cases hcut : cutFirst [c] s with
    | none => rfl
    | some parts =>
        obtain ⟨rfl, -⟩ := cutFirst_singleton_eq_some_iff (a := parts.1) (b := parts.2) |>.mp hcut
        simp at h

/-- **Cutting a part of the text**: a part that ends before the end of the occurrence is not
cut; any other is cut at the same place. -/
theorem cutFirst_append {p x y a b : List α} (hp : p ≠ [])
    (h : cutFirst p (x ++ y) = some (a, b)) :
    (x.length < a.length + p.length ∧ cutFirst p x = none) ∨
      ∃ b', cutFirst p x = some (a, b') ∧ b = b' ++ y := by
  induction x generalizing a with
  | nil =>
      have hlen := List.length_pos_iff.mpr hp
      exact Or.inl ⟨by simp; omega, by simp [cutFirst, hp]⟩
  | cons c x ih =>
      rw [List.cons_append, cutFirst] at h
      split at h
      · next hpre =>
          obtain ⟨rfl, rfl⟩ : [] = a ∧ (c :: (x ++ y)).drop p.length = b := by simpa using h
          by_cases hlen : p.length ≤ (c :: x).length
          · have hx : p <+: c :: x :=
              List.prefix_of_prefix_length_le hpre (List.prefix_append (c :: x) y) hlen
            refine Or.inr ⟨(c :: x).drop p.length, by simp [cutFirst, hx], ?_⟩
            rw [← List.cons_append, List.drop_append_of_le_length hlen]
          · refine Or.inl ⟨by simpa using hlen, ?_⟩
            cases hcut : cutFirst p (c :: x) with
            | none => rfl
            | some parts =>
                have := congrArg List.length (cutFirst_eq_some (a := parts.1) (b := parts.2) hcut)
                simp only [List.length_append] at this
                omega
      · next hpre =>
          have hx : ¬ p <+: c :: x := fun hx => hpre (hx.trans (List.prefix_append (c :: x) y))
          obtain ⟨⟨a', b'⟩, hab, heq⟩ := Option.map_eq_some_iff.mp h
          obtain ⟨rfl, rfl⟩ : c :: a' = a ∧ b' = b := by simpa using heq
          rcases ih hab with ⟨hlen, hnone⟩ | ⟨b0, hcut, rfl⟩
          · refine Or.inl ⟨by simp only [List.length_cons]; omega, ?_⟩
            simp [cutFirst, hx, hnone]
          · exact Or.inr ⟨b0, by simp [cutFirst, hx, hcut], rfl⟩

/-- More text behind an occurrence makes no difference to it. -/
theorem cutFirst_append_right {p x a b : List α} (h : cutFirst p x = some (a, b)) (y : List α) :
    cutFirst p (x ++ y) = some (a, b ++ y) := by
  induction x generalizing a with
  | nil =>
      rw [cutFirst] at h
      split at h
      · next hp =>
          obtain ⟨rfl, rfl⟩ : [] = a ∧ [] = b := by simpa using h
          cases y <;> simp [cutFirst, hp]
      · cases h
  | cons c x ih =>
      have hsplit := cutFirst_eq_some h
      rw [cutFirst] at h
      split at h
      · next hpre =>
          obtain ⟨rfl, rfl⟩ : [] = a ∧ (c :: x).drop p.length = b := by simpa using h
          have hpre' : p <+: c :: (x ++ y) := hpre.trans (List.prefix_append (c :: x) y)
          rw [List.cons_append, cutFirst, if_pos hpre', ← List.cons_append,
            List.drop_append_of_le_length hpre.length_le]
      · next hpre =>
          obtain ⟨⟨a', b'⟩, hab, heq⟩ := Option.map_eq_some_iff.mp h
          obtain ⟨rfl, rfl⟩ : c :: a' = a ∧ b' = b := by simpa using heq
          have hlen : p.length ≤ (c :: x).length := by
            rw [hsplit]
            simp only [List.length_append]
            omega
          have hpre' : ¬ p <+: c :: (x ++ y) := fun hp =>
            hpre (List.prefix_of_prefix_length_le hp (List.prefix_append (c :: x) y) hlen)
          rw [List.cons_append, cutFirst, if_neg hpre', ih hab]
          rfl

/-! ### Splitting at a separator -/

/-- The parts between separators do not have a separator. -/
theorem not_mem_of_mem_splitOn {sep : α} {s part : List α} (h : part ∈ s.splitOn sep) :
    sep ∉ part := by
  induction s generalizing part with
  | nil =>
      obtain rfl : part = [] := by simpa using h
      exact List.not_mem_nil
  | cons d s ih =>
      obtain ⟨first, parts, hs⟩ := List.exists_cons_of_ne_nil (List.splitOn_ne_nil sep s)
      rw [List.splitOn_cons_eq_if_modifyHead] at h
      split_ifs at h with hd
      · rcases List.mem_cons.mp h with rfl | h
        · exact List.not_mem_nil
        · exact ih h
      · rw [hs, List.modifyHead_cons] at h
        rw [hs] at ih
        rcases List.mem_cons.mp h with rfl | h
        · have hne : sep ≠ d := fun heq => hd (beq_iff_eq.mpr heq.symm)
          exact List.not_mem_cons_of_ne_of_not_mem hne (ih List.mem_cons_self)
        · exact ih (List.mem_cons_of_mem _ h)

/-- Whatever stands in a text is a separator or stands in one of the parts. -/
theorem mem_part_of_mem (sep : α) {c : α} {s : List α} (h : c ∈ s) :
    c = sep ∨ ∃ part ∈ s.splitOn sep, c ∈ part := by
  induction s with
  | nil => cases h
  | cons d s ih =>
      obtain ⟨first, parts, hs⟩ := List.exists_cons_of_ne_nil (List.splitOn_ne_nil sep s)
      rw [List.splitOn_cons_eq_if_modifyHead, hs, List.modifyHead_cons]
      rw [hs] at ih
      rcases List.mem_cons.mp h with rfl | h
      · split_ifs with hc
        · exact .inl (beq_iff_eq.mp hc)
        · exact .inr ⟨_, List.mem_cons_self, List.mem_cons_self⟩
      · refine (ih h).imp_right ?_
        rintro ⟨part, hpart, hmem⟩
        split_ifs
        · exact ⟨part, List.mem_cons_of_mem _ hpart, hmem⟩
        · rcases List.mem_cons.mp hpart with rfl | hpart
          · exact ⟨_, List.mem_cons_self, List.mem_cons_of_mem _ hmem⟩
          · exact ⟨part, List.mem_cons_of_mem _ hpart, hmem⟩

end Search

end RSDWServerAPI
