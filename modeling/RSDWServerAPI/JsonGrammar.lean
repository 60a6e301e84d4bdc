import RSDWServerAPI.Ascii
import Mathlib.Data.List.Pairwise
import Mathlib.Data.Rat.Defs
import Mathlib.Algebra.Order.Field.Rat
import Mathlib.Algebra.Field.Rat

/-!
# JSON texts

The grammar of RFC 8259 over bytes, as syntax trees that keep everything the text has: the
whitespace, the way each string is spelled, and the parts of each number. `text` writes a tree
down; a text is well formed when it is the text of a tree. What a string or a number stands for
is `decode` and `Number.value`.

Bytes from 128 on stand in strings as they are, so a string that is UTF-8 in the text is the
same UTF-8 when it is decoded.

## Main results

* `Document.text_split`: an object text around the colon of one of its members.
* `Document.member_unique`: a name has at most one member.
-/

namespace JsonText

open Ascii (isDigit hexValue)

/-- A text: the bytes it holds. -/
abbrev Text := List UInt8

/-! ### Whitespace and digits -/

/-- The whitespace bytes. -/
def IsWs (c : UInt8) : Prop :=
  c = 32 ∨ c = 9 ∨ c = 10 ∨ c = 13

/-- A run of whitespace, which may be empty. -/
abbrev Ws := {s : Text // ∀ c ∈ s, IsWs c}

/-- Only whitespace stands in whitespace. -/
theorem Ws.not_mem {ws : Ws} {c : UInt8} (h : ¬ IsWs c) : c ∉ ws.val :=
  fun hc => h (ws.property c hc)

/-- A run of digits, at least one. -/
abbrev Digits := {s : Text // s ≠ [] ∧ ∀ c ∈ s, isDigit c = true}

/-- The number that digits spell. -/
def Digits.value (d : Digits) : ℕ :=
  d.val.foldl (fun n c => n * 10 + (c.toNat - 48)) 0

/-! ### Numbers -/

/-- `exp` of the grammar. -/
structure Exponent where
  upper : Bool
  /-- The sign, if there is one; `true` for a minus sign. -/
  sign : Option Bool
  digits : Digits

/-- The text of an exponent. -/
def Exponent.text (e : Exponent) : Text :=
  let sign : Text := match e.sign with
    | some true => [45]
    | some false => [43]
    | none => []
  (if e.upper then 69 else 101) :: sign ++ e.digits.val

/-- The value of an exponent. -/
def Exponent.value (e : Exponent) : ℤ :=
  if e.sign = some true then -(Digits.value e.digits : ℤ) else Digits.value e.digits

/-- `number` of the grammar: no zero stands in front of another digit. -/
structure Number where
  negative : Bool
  int : Digits
  noLeadingZero : int.val.head? = some 48 → int.val = [48]
  frac : Option Digits
  exp : Option Exponent

namespace Number

/-- The text of a number. -/
def text (n : Number) : Text :=
  (if n.negative then [45] else []) ++ n.int.val ++
    (n.frac.elim [] fun digits => 46 :: digits.val) ++ n.exp.elim [] Exponent.text

/-- The part in front of the fraction and the exponent, with its sign. -/
def integerPart (n : Number) : ℤ :=
  if n.negative then -(Digits.value n.int : ℤ) else Digits.value n.int

/-- The number that the text denotes. -/
def value (n : Number) : ℚ :=
  (if n.negative then -1 else 1) *
    (Digits.value n.int +
      n.frac.elim 0 fun digits => (Digits.value digits : ℚ) / 10 ^ digits.val.length) *
    10 ^ n.exp.elim 0 Exponent.value

end Number

/-! ### Strings -/

/-- The escapes of two bytes. -/
inductive Escape
  | quote | backslash | slash | b | f | n | r | t
  deriving DecidableEq, Repr

/-- The byte behind the backslash. -/
def Escape.letter : Escape → UInt8
  | quote => 34 | backslash => 92 | slash => 47 | b => 98 | f => 102 | n => 110 | r => 114
  | t => 116

/-- The byte that the escape stands for. -/
def Escape.value : Escape → UInt8
  | quote => 34 | backslash => 92 | slash => 47 | b => 8 | f => 12 | n => 10 | r => 13 | t => 9

/-- A hexadecimal digit. -/
abbrev HexDigit := {c : UInt8 // (hexValue c).isSome}

/-- The value of a hexadecimal digit. -/
def HexDigit.value (d : HexDigit) : ℕ :=
  (hexValue d.val).getD 0

/-- `char` of the grammar. -/
inductive Piece
  /-- A byte that is neither a control character nor a quote nor a backslash. -/
  | plain (c : UInt8) (h : 32 ≤ c ∧ c ≠ 34 ∧ c ≠ 92)
  | escape (e : Escape)
  /-- `\uXXXX`. -/
  | unicode (d₃ d₂ d₁ d₀ : HexDigit)

namespace Piece

/-- The text of a piece. -/
def text : Piece → Text
  | plain c _ => [c]
  | escape e => [92, e.letter]
  | unicode d₃ d₂ d₁ d₀ => [92, 117, d₃.val, d₂.val, d₁.val, d₀.val]

/-- Whether the piece is a `\uXXXX` escape. -/
def isUnicode : Piece → Bool
  | unicode .. => true
  | _ => false

/-- The UTF-16 code unit of four hexadecimal digits. -/
def unit (d₃ d₂ d₁ d₀ : HexDigit) : ℕ :=
  ((d₃.value * 16 + d₂.value) * 16 + d₁.value) * 16 + d₀.value

end Piece

/-- A string as it is spelled between its quotes. -/
abbrev Str := List Piece

/-- The text between the quotes. -/
def Str.inner (s : Str) : Text :=
  s.flatMap Piece.text

/-- The text of a string. -/
def Str.text (s : Str) : Text :=
  34 :: Str.inner s ++ [34]

/-- A code unit that is the first half of a surrogate pair. -/
def isHigh (u : ℕ) : Bool :=
  0xD800 ≤ u && u < 0xDC00

/-- A code unit that is the second half of a surrogate pair. -/
def isLow (u : ℕ) : Bool :=
  0xDC00 ≤ u && u < 0xE000

/-- The UTF-8 bytes of a code point. -/
def utf8 (u : ℕ) : Text :=
  String.utf8EncodeChar (Char.ofNat u)

/-- The string that is spelled, in UTF-8; `none` where a half of a surrogate pair stands
alone. -/
def Str.decode : Str → Option Text
  | [] => some []
  | .plain c _ :: rest => (decode rest).map (c :: ·)
  | .escape e :: rest => (decode rest).map (e.value :: ·)
  | .unicode a b c d :: rest =>
      let u := Piece.unit a b c d
      if isHigh u then
        match rest with
        | .unicode a' b' c' d' :: rest =>
            let v := Piece.unit a' b' c' d'
            if isLow v then
              (decode rest).map (utf8 (0x10000 + (u - 0xD800) * 0x400 + (v - 0xDC00)) ++ ·)
            else none
        | _ => none
      else if isLow u then none
      else (decode rest).map (utf8 u ++ ·)

/-! ### Values -/

/-- An element of an array, with the whitespace around it. -/
structure Element (V : Type) where
  before : Ws
  value : V
  after : Ws

/-- A member of an object, with the whitespace around its parts. -/
structure Member (V : Type) where
  before : Ws
  name : Str
  beforeColon : Ws
  afterColon : Ws
  value : V
  after : Ws

/-- `value` of the grammar. The whitespace of an array or an object is that between the
brackets when there is nothing else. -/
inductive Value
  | null
  | bool (b : Bool)
  | number (n : Number)
  | string (s : Str)
  | array (inner : Ws) (elements : List (Element Value))
  | object (inner : Ws) (members : List (Member Value))

/-- Texts with commas between them. -/
def commaJoin : List Text → Text
  | [] => []
  | [x] => x
  | x :: xs => x ++ 44 :: commaJoin xs

/-- An array or an object: its parts between brackets, or whitespace if it has none. -/
def bracket (first last : UInt8) (inner : Ws) (parts : List Text) : Text :=
  first :: (if parts = [] then inner.val else commaJoin parts) ++ [last]

/-- The text of a member in front of its colon. -/
def Member.beforeText {V : Type} (m : Member V) : Text :=
  m.before.val ++ Str.text m.name ++ m.beforeColon.val

mutual

/-- The text of a value. -/
def Value.text : Value → Text
  | .null => [110, 117, 108, 108]
  | .bool true => [116, 114, 117, 101]
  | .bool false => [102, 97, 108, 115, 101]
  | .number n => n.text
  | .string s => Str.text s
  | .array inner elements => bracket 91 93 inner (elementTexts elements)
  | .object inner members => bracket 123 125 inner (memberTexts members)

/-- The texts of the elements of an array. -/
def elementTexts : List (Element Value) → List Text
  | [] => []
  | ⟨before, value, after⟩ :: rest =>
      (before.val ++ value.text ++ after.val) :: elementTexts rest

/-- The texts of the members of an object. -/
def memberTexts : List (Member Value) → List Text
  | [] => []
  | ⟨before, name, beforeColon, afterColon, value, after⟩ :: rest =>
      (before.val ++ Str.text name ++ beforeColon.val ++ 58 :: (afterColon.val ++ value.text ++
        after.val)) :: memberTexts rest

end

/-- The text of a member. -/
def Member.text (m : Member Value) : Text :=
  m.beforeText ++ 58 :: (m.afterColon.val ++ m.value.text ++ m.after.val)

/-- The texts of the members, one by one. -/
theorem memberTexts_eq_map (members : List (Member Value)) :
    memberTexts members = members.map Member.text := by
  induction members with
  | nil => rfl
  | cons m rest ih =>
      rw [memberTexts, ih]
      rfl

/-! ### Object texts -/

/-- A well-formed object text: an object with whitespace around it, no two of whose member
names are spellings of one name. -/
structure Document where
  before : Ws
  inner : Ws
  members : List (Member Value)
  after : Ws
  distinct : members.Pairwise fun a b =>
    ∀ name, Str.decode a.name = some name → Str.decode b.name ≠ some name

/-- The text of a document. -/
def Document.text (d : Document) : Text :=
  d.before.val ++ (Value.object d.inner d.members).text ++ d.after.val

/-- The member of a document with a name, if there is one, is the only one. -/
theorem Document.member_unique {d : Document} {name : Text} {a b : Member Value}
    (ha : a ∈ d.members) (hb : b ∈ d.members) (hna : Str.decode a.name = some name)
    (hnb : Str.decode b.name = some name) : a = b := by
  by_contra hne
  have hsymm : Std.Symm fun x y : Member Value =>
      ∀ n, Str.decode x.name = some n → Str.decode y.name ≠ some n :=
    ⟨fun x y h n hy hx => h n hx hy⟩
  exact List.Pairwise.forall d.distinct ha hb hne name hna hnb

/-- What stands behind the value of a member, up to the end of the text; `following` are the
members behind it. -/
def Document.behindValue (d : Document) (m : Member Value) (following : List (Member Value)) :
    Text :=
  m.after.val ++ ((following.flatMap fun m => 44 :: m.text) ++ 125 :: d.after.val)

/-- What stands behind the colon of a member. -/
def Document.behindColon (d : Document) (m : Member Value) (following : List (Member Value)) :
    Text :=
  m.afterColon.val ++ (m.value.text ++ d.behindValue m following)

/-- What stands in front of a member, `preceding` being the members in front of it. -/
def Document.inFront (d : Document) (preceding : List (Member Value)) : Text :=
  d.before.val ++ 123 :: preceding.flatMap fun m => m.text ++ [44]

/-- The first text, and the others with their commas. -/
theorem commaJoin_cons (x : Text) (r : List Text) :
    commaJoin (x :: r) = x ++ r.flatMap fun y => 44 :: y := by
  induction r generalizing x with
  | nil => simp [commaJoin]
  | cons y r ih =>
      rw [commaJoin, ih y]
      · simp
      · simp

/-- The texts in front of one, and those behind it. -/
theorem commaJoin_split (l r : List Text) (x : Text) :
    commaJoin (l ++ x :: r) =
      (l.flatMap fun y => y ++ [44]) ++ (x ++ r.flatMap fun y => 44 :: y) := by
  induction l with
  | nil => exact commaJoin_cons x r
  | cons y l ih =>
      rw [List.cons_append, commaJoin, ih]
      · simp
      · simp

/-- **The text around the colon of a member.** -/
theorem Document.text_split {d : Document} {l r : List (Member Value)} {m : Member Value}
    (h : d.members = l ++ m :: r) :
    d.text = d.inFront l ++ (m.beforeText ++ 58 :: d.behindColon m r) := by
  have hne : (l ++ m :: r).map Member.text ≠ [] := by simp
  rw [Document.text, h, Value.text, memberTexts_eq_map, bracket, if_neg hne, List.map_append,
    List.map_cons, commaJoin_split, inFront, behindColon, behindValue, Member.text]
  simp [List.flatMap_map]

/-- Behind a value comes whitespace, a comma or the end of the object. -/
theorem Document.head_behindValue (d : Document) (m : Member Value) (r : List (Member Value)) :
    ∃ c rest, d.behindValue m r = c :: rest ∧ (IsWs c ∨ c = 44 ∨ c = 125) := by
  cases hm : m.after.val with
  | nil =>
      cases r with
      | nil => exact ⟨125, d.after.val, by simp [behindValue, hm], Or.inr (Or.inr rfl)⟩
      | cons m' r => exact ⟨44, _, by simp [behindValue, hm]; rfl, Or.inr (Or.inl rfl)⟩
  | cons c after =>
      refine ⟨c, _, by simp [behindValue, hm]; rfl, Or.inl (m.after.property c ?_)⟩
      rw [hm]
      exact List.mem_cons_self

end JsonText
