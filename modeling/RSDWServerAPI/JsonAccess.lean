import RSDWServerAPI.Json
import RSDWServerAPI.JsonData
import Mathlib.Data.List.TakeWhile

/-!
# The accessors of `utils/json.h` against the grammar of JSON

`GetString` and `GetInt` search the text for the quoted key and read on behind the next colon.
On a well-formed object text that is the member of that name if the first colon behind the
first occurrence of the quoted key is the colon of this member (`LandsOn`); the value is read
rightly if only spaces and tabs stand in front of it, a string has no `\uXXXX` escape, and a
number is what its integer part says.

## Main results

* `followsJson_iff_readsRight`: **the accessors follow JSON exactly where** the search lands
  on the member of that name and the member is readable, or where it lands nowhere and there is
  nothing to read.
* `getString_of_landsOn`, `getInt_of_landsOn`: what they make of a member.
* `agrees_first_iff`: the first member, its name spelled literally, is read rightly exactly if
  it is readable.
* `not_agrees_value_before_name`: a string value in front that is the name of the member makes
  `GetString` read another member.
-/

namespace RSDWServerAPI.Json

open JsonText

/-! ### What the accessors make of a value -/

/-- The range of an `int`. -/
def InRange (i : ℤ) : Prop :=
  -2147483648 ≤ i ∧ i ≤ 2147483647

instance (i : ℤ) : Decidable (InRange i) :=
  inferInstanceAs (Decidable (_ ∧ _))

/-- The bytes that `GetString` makes of a piece of a string: of `\uXXXX` it keeps all but the
backslash. -/
def rawPiece : Piece → Bytes
  | .plain c _ => [c]
  | .escape e => [e.value]
  | .unicode d₃ d₂ d₁ d₀ => [117, d₃.val, d₂.val, d₁.val, d₀.val]

/-- The bytes that `GetString` makes of a string. -/
def rawString (s : Str) : Bytes :=
  s.flatMap rawPiece

/-- A string without `\uXXXX` escapes. -/
def NoUnicode (s : Str) : Prop :=
  ∀ p ∈ s, p.isUnicode = false

/-- A hexadecimal digit is copied. -/
theorem hexDigit_ne (d : HexDigit) : d.val ≠ 34 ∧ d.val ≠ 92 := by
  obtain ⟨c, hc⟩ := d
  constructor <;> rintro rfl <;> revert hc <;> decide

/-- **The loop of `GetString` on a string of the grammar.** -/
theorem readString_inner (s : Str) (rest : Bytes) :
    readString (Str.inner s ++ 34 :: rest) = rawString s := by
  induction s with
  | nil => exact readString_quote rest
  | cons p s ih =>
      have hcons : Str.inner (p :: s) ++ 34 :: rest = p.text ++ (Str.inner s ++ 34 :: rest) := by
        simp [Str.inner]
      rw [hcons, rawString, List.flatMap_cons, ← rawString, ← ih]
      cases p with
      | plain c h => exact readString_cons h.2.1 h.2.2 _
      | escape e =>
          have he : unescapeByte e.letter = e.value := by cases e <;> rfl
          rw [Piece.text, rawPiece, ← he]
          exact readString_escaped _ _
      | unicode d₃ d₂ d₁ d₀ =>
          simp only [Piece.text, rawPiece, List.cons_append, List.nil_append]
          rw [readString_escaped, readString_cons (hexDigit_ne d₃).1 (hexDigit_ne d₃).2,
            readString_cons (hexDigit_ne d₂).1 (hexDigit_ne d₂).2,
            readString_cons (hexDigit_ne d₁).1 (hexDigit_ne d₁).2,
            readString_cons (hexDigit_ne d₀).1 (hexDigit_ne d₀).2]
          rfl

/-- Without `\uXXXX` escapes `GetString` decodes a string rightly. -/
theorem decode_of_noUnicode {s : Str} (h : NoUnicode s) : Str.decode s = some (rawString s) := by
  induction s with
  | nil => rfl
  | cons p s ih =>
      have ih' := ih fun q hq => h q (List.mem_cons_of_mem _ hq)
      cases p with
      | plain c hc =>
          rw [Str.decode, ih']
          rfl
      | escape e =>
          rw [Str.decode, ih']
          rfl
      | unicode d₃ d₂ d₁ d₀ => exact absurd (h _ List.mem_cons_self) (by simp [Piece.isUnicode])

/-- A code point has at most four bytes. -/
theorem utf8_length_le (u : ℕ) : (utf8 u).length ≤ 4 := by
  rw [utf8, String.length_utf8EncodeChar]
  exact Char.utf8Size_le_four _

/-- The decoded string is shorter than what `GetString` makes of it, by one byte at least for
each `\uXXXX` escape. -/
theorem decode_length {s : Str} {v : Bytes} (h : Str.decode s = some v) :
    v.length + (s.filter Piece.isUnicode).length ≤ (rawString s).length := by
  have hraw : ∀ (p : Piece) (s : Str),
      (rawString (p :: s)).length = (rawPiece p).length + (rawString s).length := by
    simp [rawString]
  fun_induction Str.decode s generalizing v with
  | case1 =>
      obtain rfl : [] = v := Option.some.inj h
      simp [rawString]
  | case2 c hc rest ih =>
      obtain ⟨w, hw, rfl⟩ := Option.map_eq_some_iff.mp h
      have := ih hw
      rw [hraw]
      simp only [rawPiece, List.length_cons, List.length_nil, List.filter_cons, Piece.isUnicode,
        Bool.false_eq_true, if_false]
      omega
  | case3 e rest ih =>
      obtain ⟨w, hw, rfl⟩ := Option.map_eq_some_iff.mp h
      have := ih hw
      rw [hraw]
      simp only [rawPiece, List.length_cons, List.length_nil, List.filter_cons, Piece.isUnicode,
        Bool.false_eq_true, if_false]
      omega
  | case4 a b c d u hu a' b' c' d' rest v' hv =>
      rename_i ih
      obtain ⟨w, hw, rfl⟩ := Option.map_eq_some_iff.mp h
      have := ih hw
      have hle := utf8_length_le (0x10000 + (u - 0xD800) * 0x400 + (v' - 0xDC00))
      rw [hraw, hraw]
      simp only [rawPiece, List.length_cons, List.length_nil, List.length_append,
        List.filter_cons, Piece.isUnicode, if_true]
      omega
  | case5 => cases h
  | case6 => cases h
  | case7 => cases h
  | case8 a b c d rest u hu hl =>
      rename_i ih
      obtain ⟨w, hw, rfl⟩ := Option.map_eq_some_iff.mp h
      have := ih hw
      have hle := utf8_length_le u
      rw [hraw]
      simp only [rawPiece, List.length_cons, List.length_nil, List.length_append,
        List.filter_cons, Piece.isUnicode, if_true]
      omega

/-- `GetString` decodes a string rightly only without `\uXXXX` escapes. -/
theorem decode_eq_rawString_iff {s : Str} :
    Str.decode s = some (rawString s) ↔ NoUnicode s := by
  refine ⟨fun h p hp => ?_, decode_of_noUnicode⟩
  by_contra hu
  have hmem : p ∈ s.filter Piece.isUnicode := List.mem_filter.mpr ⟨hp, by simpa using hu⟩
  have hpos := List.length_pos_of_mem hmem
  have hlen := decode_length h
  omega

/-! ### Numbers -/

/-- A number up to its exponent. -/
def mantissa (n : Number) : Bytes :=
  (if n.negative then [45] else []) ++ n.int.val ++
    n.frac.elim [] fun digits => 46 :: digits.val

/-- The number denotes an integer in the range of an `int`. -/
def DenotesInt (n : Number) : Prop :=
  ∃ i : ℤ, n.value = i ∧ InRange i

/-- `GetNumber` takes every digit. -/
theorem isNumberChar_of_digit {c : UInt8} (h : isDigit c = true) : isNumberChar c = true := by
  simp [isNumberChar, h]

/-- `GetNumber` collects a number up to its exponent. -/
theorem takeWhile_number (n : Number) {c : UInt8} (hc : isNumberChar c = false) (rest : Bytes) :
    (n.text ++ c :: rest).takeWhile isNumberChar = mantissa n := by
  have hchars : ∀ c ∈ mantissa n, isNumberChar c = true := by
    intro c hc
    simp only [mantissa, List.mem_append] at hc
    rcases hc with (hc | hc) | hc
    · cases hn : n.negative with
      | true =>
          obtain rfl : c = 45 := by simpa [hn] using hc
          rfl
      | false => simp [hn] at hc
    · exact isNumberChar_of_digit (n.int.property.2 c hc)
    · cases hf : n.frac with
      | none => simp [hf] at hc
      | some digits =>
          rw [hf] at hc
          rcases List.mem_cons.mp hc with rfl | hc
          · rfl
          · exact isNumberChar_of_digit (digits.property.2 c hc)
  have hexp : (n.exp.elim [] Exponent.text ++ c :: rest).takeWhile isNumberChar = [] := by
    cases n.exp with
    | none => simp [hc]
    | some e => cases hu : e.upper <;> simp [Exponent.text, hu, isNumberChar, isDigit]
  have htext : n.text = mantissa n ++ n.exp.elim [] Exponent.text := rfl
  rw [htext, List.append_assoc, List.takeWhile_append_of_pos hchars, hexp, List.append_nil]

/-- `std::stoi` takes the integer part of a number. -/
theorem stoi_mantissa (n : Number) :
    stoi (mantissa n) = if InRange n.integerPart then some n.integerPart else none := by
  have hdigits : ∀ c ∈ n.int.val, isDigit c = true := 
    n.int.property.2
  have hfrac : (n.frac.elim [] fun digits => 46 :: digits.val).takeWhile isDigit = [] := by
    cases n.frac with
    | none => rfl
    | some digits => simp [isDigit]
  have hint : (n.int.val ++ n.frac.elim [] fun digits => 46 :: digits.val).takeWhile isDigit =
      n.int.val := by
    rw [List.takeWhile_append_of_pos hdigits, hfrac, List.append_nil]
  have hvalue : digitsValue n.int.val = Digits.value n.int := rfl
  have hne : n.int.val ≠ [] := n.int.property.1
  unfold stoi InRange
  cases hn : n.negative with
  | true =>
      have hm : mantissa n =
          45 :: (n.int.val ++ n.frac.elim [] fun digits => 46 :: digits.val) := by
        simp [mantissa, hn]
      have hi : n.integerPart = -(digitsValue n.int.val : ℤ) := by
        simp [Number.integerPart, hn, hvalue]
      rw [hm, hi]
      simp [hint, hne]
  | false =>
      have hm : mantissa n = n.int.val ++ n.frac.elim [] fun digits => 46 :: digits.val := by
        simp [mantissa, hn]
      have hi : n.integerPart = digitsValue n.int.val := by simp [Number.integerPart, hn, hvalue]
      have hhead : ((n.int.val ++ n.frac.elim [] fun digits => 46 :: digits.val).head? ==
          some 45) = false := by
        obtain ⟨d, ds, hd⟩ := List.exists_cons_of_ne_nil hne
        have hdigit : isDigit d = true := hdigits d (by simp [hd])
        have : d ≠ 45 := by
          rintro rfl
          simp [isDigit] at hdigit
        simpa [hd] using this
      rw [hm, hi, hhead]
      simp only [Bool.false_eq_true, if_false, hint, if_neg hne]
      rfl

/-- The integer part is not empty. -/
theorem mantissa_ne_nil (n : Number) : mantissa n ≠ [] := by
  have hne : n.int.val ≠ [] := n.int.property.1
  simp [mantissa, hne]

/-! ### Where the search lands -/

/-- Behind the first occurrence of the quoted key, the first colon is that of the member `m`. -/
def LandsOn (d : Document) (key : Bytes) (m : Member Value) : Prop :=
  ∃ before following, d.members = before ++ m :: following ∧
    ∃ skipped, 58 ∉ skipped ∧
      afterFirst (quoted key) d.text = some (skipped ++ 58 :: d.behindColon m following)

/-- The quoted key does not occur, or no colon follows it. -/
def LandsNowhere (d : Document) (key : Bytes) : Prop :=
  ∀ rest, afterFirst (quoted key) d.text = some rest → 58 ∉ rest

/-- The member `m` has the name `key`. -/
def Named (key : Bytes) (m : Member Value) : Prop :=
  Str.decode m.name = some key

/-- The search lands on nothing else than the member of that name. -/
def LandsRight (d : Document) (key : Bytes) : Prop :=
  LandsNowhere d key ∨ ∃ m ∈ d.members, Named key m ∧ LandsOn d key m

/-- Whitespace that `FindValue` skips. -/
def BlankOnly (ws : Ws) : Prop :=
  ∀ c ∈ ws.val, c = 32 ∨ c = 9

instance (ws : Ws) : Decidable (BlankOnly ws) :=
  List.decidableBAll _ ws.val

/-- What `GetString` makes of a value in front of which it stops. -/
def stringAt : Value → Option Bytes
  | .string s => some (rawString s)
  | _ => none

/-- What `GetInt` makes of a value in front of which it stops. -/
def intAt : Value → Option ℤ
  | .number n => if InRange n.integerPart then some n.integerPart else none
  | _ => none

/-- Only a string is read as a string. -/
theorem stringAt_eq_none {v : Value} (h : ¬ ∃ s, v = .string s) : stringAt v = none := by
  cases v with
  | string s => exact absurd ⟨s, rfl⟩ h
  | _ => rfl

/-- Only a number is read as a number. -/
theorem intAt_eq_none {v : Value} (h : ¬ ∃ n, v = .number n) : intAt v = none := by
  cases v with
  | number n => exact absurd ⟨n, rfl⟩ h
  | _ => rfl

section Landing

variable {d : Document} {key : Bytes} {m : Member Value}

/-- A value that starts with a quote is a string. -/
theorem kindOf_eq_string_iff {c : UInt8} : kindOf c = some .string ↔ c = 34 := by
  constructor
  · intro h
    rw [kindOf] at h
    split_ifs at h <;> cases h
    assumption
  · rintro rfl
    rfl

/-- A value that starts with a character of a number, which a point is not, is a number. -/
theorem kindOf_eq_number_iff {c : UInt8} :
    kindOf c = some .number ↔ isNumberChar c = true ∧ c ≠ 46 := by
  constructor
  · intro h
    rw [kindOf] at h
    split_ifs at h <;> cases h
    next hnumber =>
      rcases hnumber with rfl | hdigit
      · decide
      · refine ⟨isNumberChar_of_digit (Ascii.isDigit_iff.mpr hdigit), ?_⟩
        rintro rfl
        exact absurd hdigit (by decide)
  · rintro ⟨hchar, hpoint⟩
    simp only [isNumberChar, Bool.or_eq_true, beq_iff_eq] at hchar
    rcases hchar with (hdigit | hpoint') | rfl
    · exact kindOf_digit hdigit
    · exact absurd hpoint' hpoint
    · rfl

/-- A value does not start with a blank; only a string starts with a quote, and only a number
with one of the characters of a number. -/
theorem head_text (v : Value) : ∃ c rest, v.text = c :: rest ∧ c ≠ 32 ∧ c ≠ 9 ∧
    (c = 34 ↔ ∃ s, v = .string s) ∧ (isNumberChar c = true ↔ ∃ n, v = .number n) := by
  obtain ⟨c, rest, htext, hkind⟩ := v.head []
  have hne : ∀ d, kindOf d = none → c ≠ d := by
    rintro d hd rfl
    rw [hd] at hkind
    cases hkind
  have hstring : v.kind = .string ↔ ∃ s, v = .string s := by
    cases v <;> simp [Value.kind]
  have hnumber : v.kind = .number ↔ ∃ n, v = .number n := by
    cases v <;> simp [Value.kind]
  refine ⟨c, rest, by rwa [List.append_nil] at htext, hne 32 rfl, hne 9 rfl, ?_, ?_⟩
  · rw [← kindOf_eq_string_iff, hkind, Option.some.injEq, hstring]
  · have hchar := kindOf_eq_number_iff (c := c)
    rw [hkind, Option.some.injEq, hnumber, and_iff_left (hne 46 rfl)] at hchar
    exact hchar.symm

/-- A key that is nowhere in the text is not found. -/
theorem findValue_of_landsNowhere (h : LandsNowhere d key) : findValue d.text key = none := by
  rw [findValue]
  cases hs : afterFirst (quoted key) d.text with
  | none => rfl
  | some rest => rw [Option.bind_some, afterFirst_singleton_none (h rest hs), Option.map_none]

/-- Where the search lands, `FindValue` skips the blanks behind the colon. -/
theorem findValue_of_landsOn (h : LandsOn d key m) : ∃ following,
    findValue d.text key =
      some ((d.behindColon m following).dropWhile fun c => c == 32 || c == 9) := by
  obtain ⟨-, following, -, skipped, hskipped, hfirst⟩ := h
  refine ⟨following, ?_⟩
  rw [findValue, hfirst, Option.bind_some, afterFirst_singleton _ hskipped, Option.map_some]

/-- If only blanks stand in front of the value, that is the value. -/
theorem dropWhile_of_blankOnly (h : BlankOnly m.afterColon) (following : List (Member Value)) :
    (d.behindColon m following).dropWhile (fun c => c == 32 || c == 9) =
      m.value.text ++ d.behindValue m following := by
  have hws : ∀ c ∈ m.afterColon.val, (c == 32 || c == 9) = true := by
    intro c hc
    simpa using h c hc
  obtain ⟨c, rest, htext, h32, h9, -⟩ := head_text m.value
  rw [Document.behindColon, List.dropWhile_append_of_pos hws, htext, List.cons_append,
    List.dropWhile_cons_of_neg]
  simp [h32, h9]

/-- Otherwise `FindValue` stops at a line end in front of the value. -/
theorem dropWhile_of_not_blankOnly (h : ¬ BlankOnly m.afterColon)
    (following : List (Member Value)) :
    ∃ c rest, (c = 10 ∨ c = 13) ∧
      (d.behindColon m following).dropWhile (fun c => c == 32 || c == 9) = c :: rest := by
  cases hdrop : m.afterColon.val.dropWhile (fun c => c == 32 || c == 9) with
  | nil =>
      rw [List.dropWhile_eq_nil_iff] at hdrop
      exact absurd (fun c hc => by simpa using hdrop c hc) h
  | cons c rest =>
      have hmem : c ∈ m.afterColon.val :=
        (List.dropWhile_suffix _).subset (by rw [hdrop]; exact List.mem_cons_self)
      have hblank : (c == 32 || c == 9) = false := by
        have := List.head?_dropWhile_not (fun c => c == 32 || c == 9) m.afterColon.val
        rw [hdrop] at this
        simpa using this
      refine ⟨c, rest ++ (m.value.text ++ d.behindValue m following), ?_, ?_⟩
      · rcases m.afterColon.property c hmem with rfl | rfl | h10 | h13
        · simp at hblank
        · simp at hblank
        · exact Or.inl h10
        · exact Or.inr h13
      · rw [Document.behindColon, List.dropWhile_append, hdrop]
        simp only [List.isEmpty_cons, Bool.false_eq_true, if_false, List.cons_append]

/-- **`GetString` where the search lands on a member.** -/
theorem getString_of_landsOn (h : LandsOn d key m) :
    getString d.text key = if BlankOnly m.afterColon then stringAt m.value else none := by
  obtain ⟨following, hfind⟩ := findValue_of_landsOn h
  rw [getString, hfind]
  split_ifs with hblank
  · obtain ⟨c, rest, htext, -, -, hquote, -⟩ := head_text m.value
    rw [dropWhile_of_blankOnly hblank, htext]
    simp only [List.cons_append]
    by_cases hs : ∃ s, m.value = .string s
    · obtain ⟨s, hv⟩ := hs
      rw [hv, Value.text, Str.text, List.cons_append] at htext
      obtain ⟨rfl, rfl⟩ := List.cons.inj htext
      rw [if_pos rfl, List.append_assoc, List.singleton_append, readString_inner, hv, stringAt]
    · rw [if_neg fun hc => hs (hquote.mp hc), stringAt_eq_none hs]
  · obtain ⟨c, rest, hc, hdrop⟩ := dropWhile_of_not_blankOnly (d := d) hblank following
    rw [hdrop]
    rcases hc with rfl | rfl <;> rfl

/-- **`GetInt` where the search lands on a member.** -/
theorem getInt_of_landsOn (h : LandsOn d key m) :
    getInt d.text key = if BlankOnly m.afterColon then intAt m.value else none := by
  obtain ⟨following, hfind⟩ := findValue_of_landsOn h
  rw [getInt, getNumber, hfind, Option.bind_some]
  split_ifs with hblank
  · rw [dropWhile_of_blankOnly hblank]
    by_cases hn : ∃ n, m.value = .number n
    · obtain ⟨n, hv⟩ := hn
      obtain ⟨c, rest, hbehind, hc⟩ := d.head_behindValue m following
      have hstop : isNumberChar c = false := by
        rcases hc with (rfl | rfl | rfl | rfl) | rfl | rfl <;> rfl
      rw [hv, hbehind, Value.text, takeWhile_number n hstop, if_neg (mantissa_ne_nil n),
        Option.bind_some, stoi_mantissa, intAt]
    · obtain ⟨c, rest, htext, -, -, -, hnumber⟩ := head_text m.value
      have hc : ¬ isNumberChar c = true := fun hc => hn (hnumber.mp hc)
      rw [htext, List.cons_append, List.takeWhile_cons_of_neg hc, if_pos rfl, Option.bind_none,
        intAt_eq_none hn]
  · obtain ⟨c, rest, hc, hdrop⟩ := dropWhile_of_not_blankOnly (d := d) hblank following
    rw [hdrop]
    rcases hc with rfl | rfl <;> rfl

/-- The search lands on a member whose name is spelled literally if the quoted key does not
occur in front of it. -/
theorem landsOn_of_literal {l r : List (Member Value)} (h : d.members = l ++ m :: r)
    (hname : Str.inner m.name = key)
    (hfront : ∀ a b, d.inFront l ++ m.before.val = a ++ b → b ≠ [] →
      ¬ quoted key <+: b ++ (quoted key ++ (m.beforeColon.val ++ 58 :: d.behindColon m r))) :
    LandsOn d key m := by
  refine ⟨l, r, h, m.beforeColon.val, Ws.not_mem (by simp [IsWs]), ?_⟩
  have hsplit : d.text = (d.inFront l ++ m.before.val) ++
      (quoted key ++ (m.beforeColon.val ++ 58 :: d.behindColon m r)) := by
    rw [Document.text_split h, Member.beforeText, Str.text, hname, quoted]
    simp
  rw [hsplit, afterFirst_skip _ _ hfront]
  exact afterFirst_append _ _

/-- **The search lands on the first member if its name is the key, spelled literally.** -/
theorem landsOn_first {r : List (Member Value)} (h : d.members = m :: r)
    (hname : Str.inner m.name = key) : LandsOn d key m := by
  have hws : ∀ {ws : Ws}, 34 ∉ ws.val := Ws.not_mem (by simp [IsWs])
  refine landsOn_of_literal (l := []) h hname fun a b hab hb hp => ?_
  obtain ⟨c, b, rfl⟩ := List.exists_cons_of_ne_nil hb
  obtain ⟨t, ht⟩ := hp
  obtain rfl : 34 = c := (List.cons.inj ht).1
  have hmem : (34 : UInt8) ∈ d.inFront [] ++ m.before.val := by simp [hab]
  simp [Document.inFront, hws] at hmem

end Landing

/-! ### The accessors and JSON -/

/-- **The accessors agree with JSON**: `GetString` returns a value exactly if the member of
that name is a string, and then the decoded string; `GetInt` exactly if it is a number that
denotes an integer in range, and then this integer. -/
structure Agrees (d : Document) (key : Bytes) : Prop where
  isSome_string : (getString d.text key).isSome ↔
    ∃ m ∈ d.members, Named key m ∧ ∃ s, m.value = .string s
  string : ∀ m ∈ d.members, Named key m → ∀ s, m.value = .string s →
    ∀ out, getString d.text key = some out → Str.decode s = some out
  isSome_int : (getInt d.text key).isSome ↔
    ∃ m ∈ d.members, Named key m ∧ ∃ n, m.value = .number n ∧ DenotesInt n
  int : ∀ m ∈ d.members, Named key m → ∀ n, m.value = .number n →
    ∀ out, getInt d.text key = some out → n.value = out

/-- **The accessors follow JSON**: they agree with it, and not by reading the text of something
else, since their search ends at the member of that name or nowhere. -/
structure FollowsJson (d : Document) (key : Bytes) : Prop extends Agrees d key where
  own : LandsRight d key

/-- A member that is read rightly once the search lands on it. -/
def Readable (m : Member Value) : Prop :=
  match m.value with
  | .string s => BlankOnly m.afterColon ∧ NoUnicode s
  | .number n =>
      if BlankOnly m.afterColon ∧ InRange n.integerPart then n.value = n.integerPart
      else ¬ DenotesInt n
  | _ => True

/-- The search lands on the member of that name, and it is readable; or it lands nowhere, and
there is nothing to read. -/
def ReadsRight (d : Document) (key : Bytes) : Prop :=
  (∃ m ∈ d.members, Named key m ∧ LandsOn d key m ∧ Readable m) ∨
    LandsNowhere d key ∧ ∀ m ∈ d.members, Named key m →
      (∀ s, m.value ≠ .string s) ∧ ∀ n, m.value = .number n → ¬ DenotesInt n

section Agreement

variable {d : Document} {key : Bytes}

/-- As the member of a name is the only one, agreement is about its value. -/
theorem agrees_iff_member {m : Member Value} (hm : m ∈ d.members) (hname : Named key m) :
    Agrees d key ↔
      ((getString d.text key).isSome ↔ ∃ s, m.value = .string s) ∧
      (∀ s, m.value = .string s → ∀ out, getString d.text key = some out →
        Str.decode s = some out) ∧
      ((getInt d.text key).isSome ↔ ∃ n, m.value = .number n ∧ DenotesInt n) ∧
      ∀ n, m.value = .number n → ∀ out, getInt d.text key = some out → n.value = out := by
  have honly : ∀ m' ∈ d.members, Named key m' → m' = m := fun m' hm' hname' =>
    Document.member_unique hm' hm hname' hname
  have hex : ∀ P : Member Value → Prop, (∃ m' ∈ d.members, Named key m' ∧ P m') ↔ P m :=
    fun P => ⟨fun ⟨m', hm', hname', hP⟩ => honly m' hm' hname' ▸ hP,
      fun hP => ⟨m, hm, hname, hP⟩⟩
  have hstring := hex fun m => ∃ s, m.value = .string s
  have hint := hex fun m => ∃ n, m.value = .number n ∧ DenotesInt n
  constructor
  · rintro ⟨h1, h2, h3, h4⟩
    exact ⟨h1.trans hstring, h2 m hm hname, h3.trans hint, h4 m hm hname⟩
  · rintro ⟨h1, h2, h3, h4⟩
    refine ⟨h1.trans hstring.symm, fun m' hm' hname' => ?_, h3.trans hint.symm,
      fun m' hm' hname' => ?_⟩
    · rwa [honly m' hm' hname']
    · rwa [honly m' hm' hname']

/-- Where the search lands on the member of that name, agreement is readability. -/
theorem agrees_iff_readable {m : Member Value} (hm : m ∈ d.members) (hname : Named key m)
    (h : LandsOn d key m) : Agrees d key ↔ Readable m := by
  rw [agrees_iff_member hm hname, getString_of_landsOn h, getInt_of_landsOn h, Readable]
  by_cases hblank : BlankOnly m.afterColon
  · simp only [if_pos hblank]
    cases hv : m.value with
    | string s =>
        simp [stringAt, intAt, hblank, decode_eq_rawString_iff]
    | number n =>
        by_cases hrange : InRange n.integerPart
        · have hdenotes : n.value = n.integerPart → DenotesInt n := fun h =>
            ⟨n.integerPart, h, hrange⟩
          simpa [stringAt, intAt, hblank, hrange] using hdenotes
        · simp [stringAt, intAt, hblank, hrange]
    | null => simp [stringAt, intAt]
    | bool b => simp [stringAt, intAt]
    | array inner elements => simp [stringAt, intAt]
    | object inner members => simp [stringAt, intAt]
  · simp only [if_neg hblank]
    cases hv : m.value with
    | string s => simp [hblank]
    | number n => simp [hblank]
    | null => simp
    | bool b => simp
    | array inner elements => simp
    | object inner members => simp

/-- Where it lands nowhere, there must be nothing to read. -/
theorem agrees_of_landsNowhere (h : LandsNowhere d key) : Agrees d key ↔
    ∀ m ∈ d.members, Named key m →
      (∀ s, m.value ≠ .string s) ∧ ∀ n, m.value = .number n → ¬ DenotesInt n := by
  have hfind := findValue_of_landsNowhere h
  have hstring : getString d.text key = none := by rw [getString, hfind]
  have hint : getInt d.text key = none := by rw [getInt, getNumber, hfind]; rfl
  constructor
  · intro hagrees m hm hname
    refine ⟨fun s hs => ?_, fun n hn hdenotes => ?_⟩
    · have := hagrees.isSome_string.mpr ⟨m, hm, hname, s, hs⟩
      rw [hstring] at this
      cases this
    · have := hagrees.isSome_int.mpr ⟨m, hm, hname, n, hn, hdenotes⟩
      rw [hint] at this
      cases this
  · intro hnothing
    constructor
    · rw [hstring]
      refine ⟨fun h => (by cases h), ?_⟩
      rintro ⟨m, hm, hname, s, hs⟩
      exact absurd hs ((hnothing m hm hname).1 s)
    · intro m hm hname s hs
      exact absurd hs ((hnothing m hm hname).1 s)
    · rw [hint]
      refine ⟨fun h => (by cases h), ?_⟩
      rintro ⟨m, hm, hname, n, hn, hdenotes⟩
      exact absurd hdenotes ((hnothing m hm hname).2 n hn)
    · intro m hm hname n hn out hout
      rw [hint] at hout
      cases hout

/-- **The accessors follow JSON exactly where they read right.** -/
theorem followsJson_iff_readsRight (d : Document) (key : Bytes) :
    FollowsJson d key ↔ ReadsRight d key := by
  constructor
  · rintro ⟨hagrees, hnowhere | ⟨m, hm, hname, hlands⟩⟩
    · exact Or.inr ⟨hnowhere, (agrees_of_landsNowhere hnowhere).mp hagrees⟩
    · exact Or.inl ⟨m, hm, hname, hlands, (agrees_iff_readable hm hname hlands).mp hagrees⟩
  · rintro (⟨m, hm, hname, hlands, hreadable⟩ | ⟨hnowhere, hnothing⟩)
    · exact ⟨(agrees_iff_readable hm hname hlands).mpr hreadable,
        Or.inr ⟨m, hm, hname, hlands⟩⟩
    · exact ⟨(agrees_of_landsNowhere hnowhere).mpr hnothing, Or.inl hnowhere⟩

end Agreement

/-! ### A literally spelled name in front -/

/-- A plain key as a string, spelled literally. -/
def literal (key : Bytes) (h : PlainKey key) : Str :=
  key.pmap (fun c hc => .plain c ⟨hc.2.2, hc.1, hc.2.1⟩) h

/-- A key is spelled byte by byte. -/
theorem literal_cons {c : UInt8} {key : Bytes} (h : PlainKey (c :: key)) :
    ∃ (hc : 32 ≤ c ∧ c ≠ 34 ∧ c ≠ 92) (htail : PlainKey key),
      literal (c :: key) h = .plain c hc :: literal key htail := by
  obtain ⟨h1, h2, h3⟩ := h c List.mem_cons_self
  exact ⟨⟨h3, h1, h2⟩, fun d hd => h d (List.mem_cons_of_mem c hd), rfl⟩

/-- A literal spelling stands for itself. -/
theorem decode_literal {key : Bytes} (h : PlainKey key) :
    Str.decode (literal key h) = some key := by
  induction key with
  | nil => rfl
  | cons c key ih =>
      obtain ⟨hc, htail, hcons⟩ := literal_cons h
      rw [hcons, Str.decode, ih htail]
      rfl

/-- The spelling of a key is the key. -/
theorem inner_literal {key : Bytes} (h : PlainKey key) : Str.inner (literal key h) = key := by
  induction key with
  | nil => rfl
  | cons c key ih =>
      obtain ⟨hc, htail, hcons⟩ := literal_cons h
      rw [hcons, Str.inner, List.flatMap_cons, ← Str.inner, ih htail]
      rfl

/-- **The first member is read rightly exactly if it is readable**, whatever follows it. -/
theorem agrees_first_iff {d : Document} {key : Bytes} {m : Member Value} (hkey : PlainKey key)
    {r : List (Member Value)} (h : d.members = m :: r) (hname : m.name = literal key hkey) :
    Agrees d key ↔ Readable m := by
  refine agrees_iff_readable (by rw [h]; exact List.mem_cons_self) ?_ (landsOn_first h ?_)
  · rw [Named, hname, decode_literal]
  · rw [hname, inner_literal]

/-! ### A name that stands earlier as a value -/

/-- A member with a plain name and a plain string for its value, and no whitespace. -/
def plainMember (name value : Bytes) (hname : PlainKey name) (hvalue : PlainKey value) :
    Member Value where
  before := ⟨[], by simp⟩
  name := literal name hname
  beforeColon := ⟨[], by simp⟩
  afterColon := ⟨[], by simp⟩
  value := .string (literal value hvalue)
  after := ⟨[], by simp⟩

/-- An object in which the name `player` stands as a value in front of the member `player`. -/
def valueBeforeName : Document where
  before := ⟨[], by simp⟩
  inner := ⟨[], by simp⟩
  members := [plainMember (bytes "by") (bytes "player") (by decide) (by decide),
    plainMember (bytes "for") (bytes "Eve") (by decide) (by decide),
    plainMember (bytes "player") (bytes "Bob") (by decide) (by decide)]
  after := ⟨[], by simp⟩
  distinct := by
    simp only [plainMember, List.pairwise_cons, List.mem_cons, List.not_mem_nil, or_false,
      forall_eq_or_imp, forall_eq, decode_literal, Option.some.injEq]
    simp [bytes]

/-- **`GetString` reads the player of another member**: the value `player` of `by` is taken for
the name, and the next colon is that of `for`. -/
theorem not_agrees_value_before_name :
    valueBeforeName.text =
        bytes "\x7b\"by\":\"player\",\"for\":\"Eve\",\"player\":\"Bob\"\x7d" ∧
      PlainKey (bytes "player") ∧ ¬ Agrees valueBeforeName (bytes "player") := by
  have htext : valueBeforeName.text =
      bytes "\x7b\"by\":\"player\",\"for\":\"Eve\",\"player\":\"Bob\"\x7d" := rfl
  refine ⟨htext, by decide, fun hagrees => ?_⟩
  have heve : getString valueBeforeName.text (bytes "player") = some (bytes "Eve") := by
    rw [htext]
    decide
  have hbob := hagrees.string _ (List.mem_of_getElem? (i := 2) rfl) (decode_literal (by decide))
    _ rfl _ heve
  rw [decode_literal] at hbob
  exact absurd hbob (by decide)

end RSDWServerAPI.Json
