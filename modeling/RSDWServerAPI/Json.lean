import RSDWServerAPI.Bytes

/-!
# `utils/json.h`

The text helpers with which the server writes and reads JSON: `Escape` for what goes between
two quotes, and the accessors `GetString` and `GetInt`, which do not parse but search the
text for the quoted key, then for the next colon, and read on from there.

A position in the text is represented by the text from there on; `none` is
`std::string::npos`.

## Main results

* `readString_escape`: reading back escaped text gives the text without the control
  characters that `Escape` drops, whatever follows.
* `escape_clean`: those characters make no difference to the escaped text.
* `afterFirst_field`: where the search for a key stops inside escaped text.
-/

namespace RSDWServerAPI.Json

/-! ### `Escape` -/

/-- The `switch` of `Escape` for one byte. -/
def escapeByte (c : UInt8) : Bytes :=
  if c = 34 then [92, 34]
  else if c = 92 then [92, 92]
  else if c = 10 then [92, 110]
  else if c = 13 then [92, 114]
  else if c = 9 then [92, 116]
  else if c < 32 then []
  else [c]

/-- `Json::Escape`. -/
def escape (s : Bytes) : Bytes :=
  s.flatMap escapeByte

/-! ### `FindValue` and the accessors -/

/-- The key between quotes, `quoted` in the source. -/
def quoted (key : Bytes) : Bytes :=
  34 :: key ++ [34]

/-- `Json::FindValue`: the text from the value of the key on. -/
def findValue (body key : Bytes) : Option Bytes :=
  (afterFirst (quoted key) body).bind fun rest =>
    (afterFirst [58] rest).map fun value => value.dropWhile fun c => c == 32 || c == 9

/-- The inner `switch` of `GetString`: the byte an escape stands for. -/
def unescapeByte (c : UInt8) : UInt8 :=
  if c = 110 then 10
  else if c = 114 then 13
  else if c = 116 then 9
  else if c = 98 then 8
  else if c = 102 then 12
  else c

/-- The loop of `GetString`, from behind the opening quote on. It stops at the closing
quote or at the end of the text; a backslash that is the last byte stands for itself. -/
def readString : Bytes → Bytes
  | [] => []
  | [c] => if c = 34 then [] else [c]
  | c :: d :: rest =>
      if c = 34 then []
      else if c = 92 then unescapeByte d :: readString rest
      else c :: readString (d :: rest)

/-- `Json::GetString`: the value left in `out`, `none` for a `false` return. -/
def getString (body key : Bytes) : Option Bytes :=
  match findValue body key with
  | some (c :: rest) => if c = 34 then some (readString rest) else none
  | _ => none

/-- The characters that `GetNumber` collects. -/
def isNumberChar (c : UInt8) : Bool :=
  isDigit c || c == 46 || c == 45

/-- `Json::GetNumber`. -/
def getNumber (body key : Bytes) : Option Bytes :=
  (findValue body key).bind fun value =>
    let num := value.takeWhile isNumberChar
    if num = [] then none else some num

/-- `std::stoi` on a text without leading blanks and without `+`: an optional minus sign,
then the leading digits; `none` for `std::invalid_argument` and `std::out_of_range`. -/
def stoi (num : Bytes) : Option ℤ :=
  let negative := num.head? == some 45
  let digits := (if negative then num.tail else num).takeWhile isDigit
  let value : ℤ := if negative then -(digitsValue digits : ℤ) else digitsValue digits
  if digits = [] then none
  else if -2147483648 ≤ value ∧ value ≤ 2147483647 then some value else none

/-- `Json::GetInt`: the value left in `out`, `none` for a `false` return. -/
def getInt (body key : Bytes) : Option ℤ :=
  (getNumber body key).bind stoi

/-! ### Reading back what `Escape` wrote -/

/-- A control character that `Escape` drops. -/
def isDropped (c : UInt8) : Bool :=
  c < 32 && c != 9 && c != 10 && c != 13

/-- A text without the control characters that `Escape` drops. -/
def clean (s : Bytes) : Bytes :=
  s.filter fun c => !isDropped c

/-- The empty text is escaped as itself. -/
@[simp] theorem escape_nil : escape [] = [] := rfl

/-- A text is escaped byte by byte. -/
theorem escape_cons (c : UInt8) (s : Bytes) : escape (c :: s) = escapeByte c ++ escape s := by
  simp [escape]

/-- Two texts are escaped one after the other. -/
theorem escape_append (s t : Bytes) : escape (s ++ t) = escape s ++ escape t := by
  simp [escape]

/-- The empty text is clean. -/
@[simp] theorem clean_nil : clean [] = [] := rfl

/-- The three shapes of an escaped byte: nothing, a backslash pair, or the byte itself. -/
theorem escapeByte_cases (c : UInt8) :
    (isDropped c = true ∧ escapeByte c = []) ∨
      (isDropped c = false ∧
        ∃ d ∈ [34, 92, 110, 114, 116], escapeByte c = [92, d] ∧ unescapeByte d = c) ∨
      (isDropped c = false ∧ escapeByte c = [c] ∧ c ≠ 34 ∧ c ≠ 92 ∧ 32 ≤ c) := by
  by_cases h1 : c = 34
  · subst h1; decide
  by_cases h2 : c = 92
  · subst h2; decide
  by_cases h3 : c = 10
  · subst h3; decide
  by_cases h4 : c = 13
  · subst h4; decide
  by_cases h5 : c = 9
  · subst h5; decide
  by_cases h6 : c < 32
  · left
    simp [isDropped, escapeByte, h1, h2, h3, h4, h5, h6]
  · right; right
    have h32 : (32 : UInt8) ≤ c := UInt8.not_lt.mp h6
    simp [isDropped, escapeByte, h1, h2, h3, h4, h5, h6, h32]

/-- A byte that is dropped leaves nothing. -/
theorem escapeByte_of_dropped {c : UInt8} (h : isDropped c = true) : escapeByte c = [] := by
  rcases escapeByte_cases c with ⟨-, h'⟩ | ⟨h', -⟩ | ⟨h', -⟩
  · exact h'
  · simp [h] at h'
  · simp [h] at h'

/-- Escaped text has no control characters. -/
theorem le_of_mem_escape {s : Bytes} {c : UInt8} (h : c ∈ escape s) : 32 ≤ c := by
  obtain ⟨b, -, hb⟩ := List.mem_flatMap.mp h
  rcases escapeByte_cases b with ⟨-, he⟩ | ⟨-, d, hd, he, -⟩ | ⟨-, he, -, -, h32⟩
  · simp [he] at hb
  · rw [he] at hb
    simp only [List.mem_cons, List.not_mem_nil, or_false] at hb hd
    rcases hb with rfl | rfl
    · decide
    · rcases hd with rfl | rfl | rfl | rfl | rfl <;> decide
  · obtain rfl : c = b := by simpa [he] using hb
    exact h32

/-- Dropped characters make no difference to the escaped text. -/
theorem escape_clean (s : Bytes) : escape (clean s) = escape s := by
  induction s with
  | nil => rfl
  | cons c s ih =>
      rw [escape_cons, ← ih]
      cases hc : isDropped c with
      | true => simp [clean, hc, escapeByte_of_dropped hc]
      | false => simp [clean, hc, escape_cons]

/-- A text that is already clean stays as it is. -/
theorem clean_of_forall {s : Bytes} (h : ∀ c ∈ s, isDropped c = false) : clean s = s := by
  rw [clean, List.filter_eq_self]
  intro c hc
  simp [h c hc]

/-- A byte other than the quote and the backslash is copied. -/
theorem readString_cons {c : UInt8} (h1 : c ≠ 34) (h2 : c ≠ 92) (rest : Bytes) :
    readString (c :: rest) = c :: readString rest := by
  cases rest with
  | nil => simp [readString, h1]
  | cons d rest => simp [readString, h1, h2]

/-- An escape is replaced by what it stands for. -/
theorem readString_escaped (d : UInt8) (rest : Bytes) :
    readString (92 :: d :: rest) = unescapeByte d :: readString rest := by
  simp [readString]

/-- The closing quote ends the string. -/
theorem readString_quote (rest : Bytes) : readString (34 :: rest) = [] := by
  cases rest <;> simp [readString]

/-- **Reading back escaped text** gives the text without the dropped characters, and reading
goes on behind it. -/
theorem readString_escape (s rest : Bytes) :
    readString (escape s ++ rest) = clean s ++ readString rest := by
  induction s with
  | nil => rfl
  | cons c s ih =>
      rw [escape_cons, List.append_assoc]
      rcases escapeByte_cases c with ⟨hd, he⟩ | ⟨hd, d, -, he, hu⟩ | ⟨hd, he, h1, h2, -⟩
      · rw [he, List.nil_append, ih]
        simp [clean, hd]
      · rw [he]
        simp only [List.cons_append, List.nil_append]
        rw [readString_escaped, ih, hu]
        simp [clean, hd]
      · rw [he]
        simp only [List.cons_append, List.nil_append]
        rw [readString_cons h1 h2, ih]
        simp [clean, hd]

/-! ### Searching escaped text for a key -/

/-- A key that is written into the text as it is. -/
def PlainKey (key : Bytes) : Prop :=
  ∀ c ∈ key, c ≠ 34 ∧ c ≠ 92 ∧ 32 ≤ c

instance (key : Bytes) : Decidable (PlainKey key) :=
  List.decidableBAll _ key

/-- A text that, between quotes, ends with the quoted key: the key itself, or a text with a
quote in front of the key at its end. -/
def EndsInKey (key s : Bytes) : Prop :=
  34 :: key <:+ 34 :: clean s

instance (key s : Bytes) : Decidable (EndsInKey key s) :=
  inferInstanceAs (Decidable (_ <:+ _))

section Search

variable {key : Bytes}

/-- A quoted key starts with a quote. -/
theorem afterFirst_quoted_cons {c : UInt8} {s : Bytes} (hc : c ≠ 34) :
    afterFirst (quoted key) (c :: s) = afterFirst (quoted key) s :=
  afterFirst_cons (by simp [quoted, Ne.symm hc])

/-- A byte of a plain key is written as it is. -/
theorem escapeByte_plain {c : UInt8} (h1 : c ≠ 34) (h2 : c ≠ 92) (h3 : 32 ≤ c) :
    escapeByte c = [c] := by
  have hctl : ∀ d : UInt8, d < 32 → c ≠ d := fun d hd h =>
    absurd hd (UInt8.not_lt.mpr (h ▸ h3))
  rw [escapeByte, if_neg h1, if_neg h2, if_neg (hctl 10 (by decide)), if_neg (hctl 13 (by decide)),
    if_neg (hctl 9 (by decide)), if_neg (UInt8.not_lt.mpr h3)]

/-- Escaped text up to the closing quote reads as a plain key only if it is that key. -/
theorem key_prefix_escape_iff (hkey : PlainKey key) (s rest : Bytes) :
    key ++ [34] <+: escape s ++ 34 :: rest ↔ clean s = key := by
  induction s generalizing key with
  | nil =>
      cases key with
      | nil => simp
      | cons k key => simp [(hkey k (by simp)).1]
  | cons c s ih =>
      rw [escape_cons, List.append_assoc]
      rcases escapeByte_cases c with ⟨hd, he⟩ | ⟨hd, d, -, he, hu⟩ | ⟨hd, he, h1, h2, -⟩
      · rw [he, List.nil_append, ih hkey]
        simp [clean, hd]
      · rw [he, show clean (c :: s) = c :: clean s by simp [clean, hd]]
        cases key with
        | nil => simp
        | cons k key =>
            obtain ⟨h1, h2, h32⟩ := hkey k (by simp)
            have hne : c ≠ k := by
              rintro rfl
              simp [escapeByte_plain h1 h2 h32] at he
            simp [h2, hne]
      · rw [he, show clean (c :: s) = c :: clean s by simp [clean, hd]]
        cases key with
        | nil => simp [Ne.symm h1]
        | cons k key =>
            simp only [List.cons_append, List.nil_append, List.cons_prefix_cons, List.cons.injEq,
              @ih key fun c hc => hkey c (List.mem_cons_of_mem _ hc), eq_comm]

/-- Escaped text that is cut off before its closing quote does not have a quoted key in it. -/
theorem not_key_prefix_escape {t : UInt8} (ht : t ≠ 34) (htk : t ∉ key) (hkey : PlainKey key)
    (s rest : Bytes) : ¬ key ++ [34] <+: escape s ++ t :: rest := by
  induction s generalizing key with
  | nil =>
      cases key with
      | nil => simp [Ne.symm ht]
      | cons k key =>
          have : k ≠ t := fun h => htk (by simp [h])
          simp [this]
  | cons c s ih =>
      rw [escape_cons, List.append_assoc]
      rcases escapeByte_cases c with ⟨-, he⟩ | ⟨-, d, -, he, -⟩ | ⟨-, he, h1, -⟩
      · rw [he, List.nil_append]
        exact ih htk hkey
      · rw [he]
        cases key with
        | nil => simp
        | cons k key => simp [(hkey k (by simp)).2.1]
      · rw [he]
        cases key with
        | nil => simp [Ne.symm h1]
        | cons k key =>
            have := @ih key (fun h => htk (List.mem_cons_of_mem _ h))
              fun c hc => hkey c (List.mem_cons_of_mem _ hc)
            simp [this]

/-- A plain key is written as it is. -/
theorem escape_plain (hkey : PlainKey key) : escape key = key := by
  induction key with
  | nil => rfl
  | cons k key ih =>
      obtain ⟨h1, h2, h3⟩ := hkey k (by simp)
      rw [escape_cons, escapeByte_plain h1 h2 h3, ih fun c hc => hkey c (List.mem_cons_of_mem _ hc)]
      rfl

/-- A key is found at a quote exactly if the text up to the next quote is that key. -/
theorem afterFirst_quote_escape (hkey : PlainKey key) (s rest : Bytes) :
    afterFirst (quoted key) (34 :: (escape s ++ 34 :: rest)) =
      if clean s = key then some rest else afterFirst (quoted key) (escape s ++ 34 :: rest) := by
  split
  · next h =>
      have hs : escape s = key := by rw [← escape_clean, h, escape_plain hkey]
      rw [hs, show 34 :: (key ++ 34 :: rest) = quoted key ++ rest by simp [quoted]]
      exact afterFirst_append _ _
  · next h =>
      refine afterFirst_cons fun hp => h ?_
      have hp' : key ++ [34] <+: escape s ++ 34 :: rest := by simpa [quoted] using hp
      exact (key_prefix_escape_iff hkey s rest).mp hp'

/-- **Where a key is found in escaped text**: behind the closing quote, if the text ends in
the key with a quote in front; otherwise the search goes on with the closing quote. -/
theorem afterFirst_escape (hkey : PlainKey key) (s rest : Bytes) :
    afterFirst (quoted key) (escape s ++ 34 :: rest) =
      if 34 :: key <:+ clean s then some rest else afterFirst (quoted key) (34 :: rest) := by
  induction s with
  | nil => simp
  | cons c s ih =>
      rw [escape_cons, List.append_assoc]
      rcases escapeByte_cases c with ⟨hd, he⟩ | ⟨hd, d, -, he, hu⟩ | ⟨hd, he, h1, -⟩
      · rw [he, List.nil_append, ih, show clean (c :: s) = clean s by simp [clean, hd]]
      · rw [he, show clean (c :: s) = c :: clean s by simp [clean, hd]]
        simp only [List.cons_append, List.nil_append, List.suffix_cons_iff]
        rw [afterFirst_quoted_cons (by decide)]
        by_cases hq : d = 34
        · subst hq
          obtain rfl : 34 = c := hu
          rw [afterFirst_quote_escape hkey, ih]
          by_cases hs : clean s = key
          · simp [hs]
          · simp [hs, Ne.symm hs]
        · have hc : c ≠ 34 := by
            rintro rfl
            simp [escapeByte] at he
            exact hq he.symm
          rw [afterFirst_quoted_cons hq, ih]
          simp [Ne.symm hc]
      · rw [he, show clean (c :: s) = c :: clean s by simp [clean, hd]]
        simp only [List.cons_append, List.nil_append, List.suffix_cons_iff]
        rw [afterFirst_quoted_cons h1, ih]
        simp [Ne.symm h1]

/-- The same with the opening quote in front. -/
theorem afterFirst_field (hkey : PlainKey key) (s rest : Bytes) :
    afterFirst (quoted key) (34 :: (escape s ++ 34 :: rest)) =
      if EndsInKey key s then some rest else afterFirst (quoted key) (34 :: rest) := by
  rw [afterFirst_quote_escape hkey, afterFirst_escape hkey]
  have : EndsInKey key s ↔ clean s = key ∨ 34 :: key <:+ clean s := by
    simp [EndsInKey, List.suffix_cons_iff, eq_comm]
  by_cases h : clean s = key <;> simp [this, h]

section Cut

variable {t : UInt8} (ht : t ≠ 34) (htk : t ∉ key) (hkey : PlainKey key)

include ht htk hkey

/-- A quote in front makes no difference where another byte cuts off the text. -/
theorem afterFirst_quote_cut (s : Bytes) :
    afterFirst (quoted key) (34 :: (escape s ++ [t])) =
      afterFirst (quoted key) (escape s ++ [t]) := by
  refine afterFirst_cons fun hp => not_key_prefix_escape ht htk hkey s [] ?_
  simpa [quoted] using hp

/-- No key is found in escaped text that is cut off by another byte. -/
theorem afterFirst_escape_cut (s : Bytes) :
    afterFirst (quoted key) (escape s ++ [t]) = none := by
  induction s with
  | nil =>
      rw [escape_nil, List.nil_append, afterFirst_quoted_cons ht]
      simp [afterFirst, quoted]
  | cons c s ih =>
      rw [escape_cons, List.append_assoc]
      rcases escapeByte_cases c with ⟨-, he⟩ | ⟨-, d, -, he, -⟩ | ⟨-, he, h1, -⟩
      · rw [he, List.nil_append, ih]
      · rw [he, List.cons_append, List.cons_append, afterFirst_quoted_cons (by decide),
          List.nil_append]
        by_cases hq : d = 34
        · subst hq
          rw [afterFirst_quote_cut ht htk hkey, ih]
        · rw [afterFirst_quoted_cons hq, ih]
      · rw [he, List.cons_append, List.nil_append, afterFirst_quoted_cons h1, ih]

end Cut

end Search

end RSDWServerAPI.Json
