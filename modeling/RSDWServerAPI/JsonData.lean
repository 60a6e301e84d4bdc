import RSDWServerAPI.JsonGrammar

/-!
# What a JSON text stands for

`Value.denote` is the data that a syntax tree stands for, with its strings decoded and its
numbers evaluated; whitespace and spelling are gone. `Reads t x` says that the text `t` is a
well-formed JSON text, with whitespace around its value, and stands for `x`.

The first half of the module shows that the grammar is unambiguous, the second half how texts
that are put together from parts are read.

## Main results

* `Reads.unique`: **a text stands for at most one thing.**
* `reads_array`, `reads_object`: texts between brackets with commas between them.
-/

namespace JsonText

open Ascii (isDigit isDigit_iff)

/-- The data of a JSON text. The members of an object keep their order. -/
inductive Data
  | null
  | bool (b : Bool)
  | number (q : ℚ)
  | string (s : Text)
  | array (elements : List Data)
  | object (members : List (Text × Data))

mutual

/-- What a value stands for; `none` where a string in it does not decode. -/
def Value.denote : Value → Option Data
  | .null => some .null
  | .bool b => some (.bool b)
  | .number n => some (.number n.value)
  | .string s => (Str.decode s).map .string
  | .array _ elements => (elementData elements).map .array
  | .object _ members => (memberData members).map .object

/-- What the elements of an array stand for. -/
def elementData : List (Element Value) → Option (List Data)
  | [] => some []
  | ⟨_, value, _⟩ :: rest => value.denote.bind fun x => (elementData rest).map (x :: ·)

/-- What the members of an object stand for. -/
def memberData : List (Member Value) → Option (List (Text × Data))
  | [] => some []
  | ⟨_, name, _, _, value, _⟩ :: rest =>
      (Str.decode name).bind fun n => value.denote.bind fun x =>
        (memberData rest).map ((n, x) :: ·)

end

/-- **The text is well formed and stands for `x`.** -/
def Reads (t : Text) (x : Data) : Prop :=
  ∃ (before : Ws) (v : Value) (after : Ws),
    t = before.val ++ (v.text ++ after.val) ∧ v.denote = some x

/-- The text of an element. -/
def Element.text (e : Element Value) : Text :=
  e.before.val ++ (e.value.text ++ e.after.val)

/-- The texts of the elements, one by one. -/
theorem elementTexts_eq_map (elements : List (Element Value)) :
    elementTexts elements = elements.map Element.text := by
  induction elements with
  | nil => rfl
  | cons e rest ih =>
      rw [elementTexts, ih]
      simp [Element.text]

/-- Induction over the values inside a value. -/
@[elab_as_elim]
theorem Value.induct {motive : Value → Prop} (null : motive .null)
    (bool : ∀ b, motive (.bool b)) (number : ∀ n, motive (.number n))
    (string : ∀ s, motive (.string s))
    (array : ∀ inner elements, (∀ e ∈ elements, motive e.value) → motive (.array inner elements))
    (object : ∀ inner members, (∀ m ∈ members, motive m.value) → motive (.object inner members)) :
    ∀ v, motive v
  | .null => null
  | .bool b => bool b
  | .number n => number n
  | .string s => string s
  | .array inner elements =>
      array inner elements fun e _ =>
        Value.induct null bool number string array object e.value
  | .object inner members =>
      object inner members fun m _ =>
        Value.induct null bool number string array object m.value
termination_by v => sizeOf v
decreasing_by
  · next he =>
      have hlt := List.sizeOf_lt_of_mem he
      cases e
      simp only [Value.array.sizeOf_spec, Element.mk.sizeOf_spec] at hlt ⊢
      omega
  · next hm =>
      have hlt := List.sizeOf_lt_of_mem hm
      cases m
      simp only [Value.object.sizeOf_spec, Member.mk.sizeOf_spec] at hlt ⊢
      omega

/-! ### Where a part of a text ends -/

/-- A run of bytes of a kind ends where the kind ends. -/
theorem span_unique {P : UInt8 → Prop} {a b r s : Text} (ha : ∀ c ∈ a, P c) (hb : ∀ c ∈ b, P c)
    (hr : ∀ c ∈ r.head?, ¬ P c) (hs : ∀ c ∈ s.head?, ¬ P c) (h : a ++ r = b ++ s) :
    a = b ∧ r = s := by
  induction a generalizing b with
  | nil =>
      cases b with
      | nil => exact ⟨rfl, h⟩
      | cons c b =>
          obtain rfl : r = c :: (b ++ s) := h
          exact absurd (hb c List.mem_cons_self) (hr c rfl)
  | cons c a ih =>
      cases b with
      | nil =>
          obtain rfl : c :: (a ++ r) = s := h
          exact absurd (ha c List.mem_cons_self) (hs c rfl)
      | cons d b =>
          obtain ⟨rfl, htail⟩ := List.cons.inj h
          obtain ⟨rfl, hrs⟩ := ih (fun c hc => ha c (List.mem_cons_of_mem _ hc))
            (fun c hc => hb c (List.mem_cons_of_mem _ hc)) htail
          exact ⟨rfl, hrs⟩

/-- What may follow an element or a member. -/
def Closes (r : Text) : Prop :=
  ∃ c rest, r = c :: rest ∧ (c = 44 ∨ c = 93 ∨ c = 125)

/-- What may follow a value: nothing, whitespace, or what may follow an element. -/
def Ends (r : Text) : Prop :=
  ∀ c ∈ r.head?, IsWs c ∨ c = 44 ∨ c = 93 ∨ c = 125

/-- White space and a bracket or comma behind it end a number. -/
theorem Closes.ends {r : Text} (h : Closes r) (ws : Ws) : Ends (ws.val ++ r) := by
  obtain ⟨c, rest, rfl, hc⟩ := h
  intro d hd
  cases hws : ws.val with
  | nil =>
      obtain rfl : c = d := by simpa [hws] using hd
      exact .inr hc
  | cons b bs =>
      obtain rfl : b = d := by simpa [hws] using hd
      exact .inl (ws.property b (by simp [hws]))

/-- What closes a part does not start with white space. -/
theorem Closes.not_isWs {r : Text} (h : Closes r) : ∀ c ∈ r.head?, ¬ IsWs c := by
  obtain ⟨c, rest, rfl, hc⟩ := h
  intro d hd
  obtain rfl : c = d := by simpa using hd
  rcases hc with rfl | rfl | rfl <;> simp [IsWs]

/-- White space alone ends a number. -/
theorem ends_ws (ws : Ws) : Ends ws.val := by
  intro c hc
  exact .inl (ws.property c (List.mem_of_mem_head? hc))

/-! ### Strings -/

/-- The first byte of a piece, and behind a backslash the second, tell what it is. -/
theorem Piece.text_unique {p q : Piece} {r s : Text} (h : p.text ++ r = q.text ++ s) :
    p = q ∧ r = s := by
  cases p with
  | plain c hc =>
      cases q with
      | plain d hd =>
          obtain ⟨rfl, hrs⟩ := List.cons.inj h
          exact ⟨rfl, hrs⟩
      | escape e => exact absurd (List.cons.inj h).1 hc.2.2
      | unicode => exact absurd (List.cons.inj h).1 hc.2.2
  | escape e =>
      cases q with
      | plain d hd => exact absurd (List.cons.inj h).1.symm hd.2.2
      | escape e' =>
          obtain ⟨-, h⟩ := List.cons.inj h
          obtain ⟨hletter, hrs⟩ := List.cons.inj h
          refine ⟨congrArg _ ?_, hrs⟩
          cases e <;> cases e' <;> first | rfl | exact absurd hletter (by decide)
      | unicode =>
          obtain ⟨-, h⟩ := List.cons.inj h
          have hletter := (List.cons.inj h).1
          cases e <;> exact absurd hletter (by decide)
  | unicode d₃ d₂ d₁ d₀ =>
      cases q with
      | plain d hd => exact absurd (List.cons.inj h).1.symm hd.2.2
      | escape e =>
          obtain ⟨-, h⟩ := List.cons.inj h
          have hletter := (List.cons.inj h).1
          cases e <;> exact absurd hletter (by decide)
      | unicode e₃ e₂ e₁ e₀ =>
          simp only [Piece.text, List.cons_append, List.nil_append, List.cons.injEq,
            true_and] at h
          obtain ⟨h₃, h₂, h₁, h₀, hrs⟩ := h
          rw [Subtype.ext h₃, Subtype.ext h₂, Subtype.ext h₁, Subtype.ext h₀]
          exact ⟨rfl, hrs⟩

/-- No piece starts with a quote. -/
theorem Piece.text_ne_quote (p : Piece) (r s : Text) : p.text ++ r ≠ 34 :: s := by
  intro h
  cases p with
  | plain c hc => exact hc.2.1 (List.cons.inj h).1
  | escape e => exact absurd (List.cons.inj h).1 (by decide)
  | unicode => exact absurd (List.cons.inj h).1 (by decide)

/-- The text of a string begins with that of its first piece. -/
theorem Str.inner_cons (p : Piece) (a : Str) (r : Text) :
    Str.inner (p :: a) ++ r = p.text ++ (Str.inner a ++ r) := by
  simp [Str.inner]

/-- A string ends at the first quote that is not escaped. -/
theorem Str.inner_unique {a b : Str} {r s : Text}
    (h : Str.inner a ++ 34 :: r = Str.inner b ++ 34 :: s) : a = b ∧ r = s := by
  induction a generalizing b with
  | nil =>
      cases b with
      | nil => exact ⟨rfl, (List.cons.inj h).2⟩
      | cons p b =>
          rw [inner_cons] at h
          exact absurd h.symm (p.text_ne_quote _ _)
  | cons p a ih =>
      cases b with
      | nil =>
          rw [inner_cons] at h
          exact absurd h (p.text_ne_quote _ _)
      | cons q b =>
          rw [inner_cons, inner_cons] at h
          obtain ⟨rfl, hrest⟩ := Piece.text_unique h
          obtain ⟨rfl, hrs⟩ := ih hrest
          exact ⟨rfl, hrs⟩

/-- **The pieces of a string are seen from its text**, whatever stands behind it. -/
theorem Str.text_unique {a b : Str} {r s : Text} (h : Str.text a ++ r = Str.text b ++ s) :
    a = b ∧ r = s := by
  have h' : 34 :: (inner a ++ 34 :: r) = 34 :: (inner b ++ 34 :: s) := by
    simpa [text] using h
  exact inner_unique (List.cons.inj h').2

/-! ### Numbers -/

/-- What may not follow a number: a byte that would belong to it. -/
theorem Ends.not_number {r : Text} (h : Ends r) :
    ∀ c ∈ r.head?, isDigit c = false ∧ c ≠ 46 ∧ c ≠ 69 ∧ c ≠ 101 := by
  intro c hc
  have hcases := h c hc
  simp only [IsWs] at hcases
  rcases hcases with (rfl | rfl | rfl | rfl) | rfl | rfl | rfl <;> simp [isDigit]

/-- A run of digits ends where the digits end. -/
theorem Digits.unique {a b : Digits} {r s : Text} (hr : ∀ c ∈ r.head?, isDigit c = false)
    (hs : ∀ c ∈ s.head?, isDigit c = false) (h : a.val ++ r = b.val ++ s) : a = b ∧ r = s := by
  obtain ⟨hab, hrs⟩ := span_unique a.property.2 b.property.2
    (fun c hc => Bool.eq_false_iff.mp (hr c hc)) (fun c hc => Bool.eq_false_iff.mp (hs c hc)) h
  exact ⟨Subtype.ext hab, hrs⟩

/-- The first byte of digits. -/
theorem Digits.head (d : Digits) (r : Text) :
    ∃ c rest, d.val ++ r = c :: rest ∧ isDigit c = true := by
  obtain ⟨c, cs, hcs⟩ := List.exists_cons_of_ne_nil d.property.1
  exact ⟨c, cs ++ r, by rw [hcs]; rfl, d.property.2 c (by rw [hcs]; exact List.mem_cons_self)⟩

/-- The digits of an exponent do not start like its sign. -/
theorem Digits.head_ne_sign (d : Digits) {c : UInt8} (hc : c = 43 ∨ c = 45) (r s : Text) :
    d.val ++ r ≠ c :: s := by
  obtain ⟨b, rest, hb, hdigit⟩ := d.head r
  rw [hb]
  intro h
  obtain ⟨rfl, -⟩ := List.cons.inj h
  rcases hc with rfl | rfl <;> exact absurd hdigit (by simp [isDigit])

/-- **An exponent is seen from its text**, if what stands behind it ends a number. -/
theorem Exponent.text_unique {a b : Exponent} {r s : Text} (hr : Ends r) (hs : Ends s)
    (h : a.text ++ r = b.text ++ s) : a = b ∧ r = s := by
  have hr' := fun c hc => (hr.not_number c hc).1
  have hs' := fun c hc => (hs.not_number c hc).1
  obtain ⟨upper, sign, digits⟩ := a
  obtain ⟨upper', sign', digits'⟩ := b
  simp only [text, List.cons_append, List.append_assoc, List.cons.injEq] at h
  obtain ⟨hupper, h⟩ := h
  obtain rfl : upper = upper' := by
    cases upper <;> cases upper' <;> first | rfl | simp at hupper
  rcases sign with _ | _ | _ <;> rcases sign' with _ | _ | _
  all_goals simp only [List.cons_append, List.nil_append] at h
  · obtain ⟨rfl, hrs⟩ := Digits.unique hr' hs' h
    exact ⟨rfl, hrs⟩
  · exact absurd h (digits.head_ne_sign (.inl rfl) _ _)
  · exact absurd h (digits.head_ne_sign (.inr rfl) _ _)
  · exact absurd h.symm (digits'.head_ne_sign (.inl rfl) _ _)
  · obtain ⟨rfl, hrs⟩ := Digits.unique hr' hs' (List.cons.inj h).2
    exact ⟨rfl, hrs⟩
  · exact absurd (List.cons.inj h).1 (by decide)
  · exact absurd h.symm (digits'.head_ne_sign (.inr rfl) _ _)
  · exact absurd (List.cons.inj h).1 (by decide)
  · obtain ⟨rfl, hrs⟩ := Digits.unique hr' hs' (List.cons.inj h).2
    exact ⟨rfl, hrs⟩

/-- The first byte behind the fraction of a number. -/
theorem exponent_head (e : Option Exponent) {r : Text} (hr : Ends r) :
    ∀ c ∈ (e.elim [] Exponent.text ++ r).head?, isDigit c = false ∧ c ≠ 46 := by
  intro c hc
  cases e with
  | none => exact ⟨(hr.not_number c hc).1, (hr.not_number c hc).2.1⟩
  | some e =>
      obtain rfl : (if e.upper then 69 else 101) = c := by simpa [Exponent.text] using hc
      cases e.upper <;> simp [isDigit]

/-- The first byte behind the integer part of a number. -/
theorem fraction_head (f : Option Digits) (e : Option Exponent) {r : Text} (hr : Ends r) :
    ∀ c ∈ ((f.elim [] fun digits => 46 :: digits.val) ++ (e.elim [] Exponent.text ++ r)).head?,
      isDigit c = false := by
  intro c hc
  cases f with
  | none => exact (exponent_head e hr c hc).1
  | some digits =>
      obtain rfl : 46 = c := by simpa using hc
      simp [isDigit]

/-- The fraction of a number, if there is one, is seen from the text. -/
theorem fraction_unique {f f' : Option Digits} {e e' : Option Exponent} {r s : Text}
    (hr : Ends r) (hs : Ends s)
    (h : (f.elim [] fun digits => 46 :: digits.val) ++ (e.elim [] Exponent.text ++ r) =
      (f'.elim [] fun digits => 46 :: digits.val) ++ (e'.elim [] Exponent.text ++ s)) :
    f = f' ∧ e.elim [] Exponent.text ++ r = e'.elim [] Exponent.text ++ s := by
  have hexp := exponent_head e hr
  have hexp' := exponent_head e' hs
  cases f with
  | none =>
      cases f' with
      | none => exact ⟨rfl, h⟩
      | some digits =>
          have hhead : (e.elim [] Exponent.text ++ r).head? = some 46 := congrArg List.head? h
          exact absurd rfl (hexp 46 hhead).2
  | some digits =>
      cases f' with
      | none =>
          have hhead : (e'.elim [] Exponent.text ++ s).head? = some 46 :=
            (congrArg List.head? h).symm
          exact absurd rfl (hexp' 46 hhead).2
      | some digits' =>
          obtain ⟨rfl, hrest⟩ := Digits.unique (fun c hc => (hexp c hc).1)
            (fun c hc => (hexp' c hc).1) (List.cons.inj h).2
          exact ⟨rfl, hrest⟩

/-- What ends a number does not start with an exponent. -/
theorem Ends.ne_exponent {r : Text} (hr : Ends r) (e : Exponent) (s : Text) :
    r ≠ e.text ++ s := by
  rintro rfl
  have := (hr.not_number _ rfl).2.2
  cases hu : e.upper <;> simp [hu] at this

/-- The exponent of a number, if there is one, is seen from the text. -/
theorem exponent_unique {e e' : Option Exponent} {r s : Text} (hr : Ends r) (hs : Ends s)
    (h : e.elim [] Exponent.text ++ r = e'.elim [] Exponent.text ++ s) : e = e' ∧ r = s := by
  cases e with
  | none =>
      cases e' with
      | none => exact ⟨rfl, h⟩
      | some e' => exact absurd h (hr.ne_exponent e' s)
  | some e =>
      cases e' with
      | none => exact absurd h.symm (hs.ne_exponent e r)
      | some e' =>
          obtain ⟨rfl, hrs⟩ := Exponent.text_unique hr hs h
          exact ⟨rfl, hrs⟩

/-- **A number is seen from its text**, if what stands behind it ends a number. -/
theorem Number.text_unique {a b : Number} {r s : Text} (hr : Ends r) (hs : Ends s)
    (h : a.text ++ r = b.text ++ s) : a = b ∧ r = s := by
  obtain ⟨negative, int, hzero, frac, exp⟩ := a
  obtain ⟨negative', int', hzero', frac', exp'⟩ := b
  simp only [text, List.append_assoc] at h
  obtain ⟨rfl, hint⟩ : negative = negative' ∧
      int.val ++ ((frac.elim [] fun digits => 46 :: digits.val) ++
        (exp.elim [] Exponent.text ++ r)) =
      int'.val ++ ((frac'.elim [] fun digits => 46 :: digits.val) ++
        (exp'.elim [] Exponent.text ++ s)) := by
    cases negative <;> cases negative'
    · exact ⟨rfl, h⟩
    · exact absurd h (int.head_ne_sign (.inr rfl) _ _)
    · exact absurd h.symm (int'.head_ne_sign (.inr rfl) _ _)
    · exact ⟨rfl, (List.cons.inj h).2⟩
  obtain ⟨rfl, hfrac⟩ := Digits.unique (fraction_head frac exp hr) (fraction_head frac' exp' hs)
    hint
  obtain ⟨rfl, hexp⟩ := fraction_unique hr hs hfrac
  obtain ⟨rfl, hrs⟩ := exponent_unique hr hs hexp
  exact ⟨rfl, hrs⟩

/-! ### Values -/

/-- The kinds of values. -/
inductive Kind
  | null | bool | number | string | array | object
  deriving DecidableEq, Repr

/-- The kind of a value. -/
def Value.kind : Value → Kind
  | .null => .null
  | .bool _ => .bool
  | .number _ => .number
  | .string _ => .string
  | .array .. => .array
  | .object .. => .object

/-- The kind of the values that start with a byte. -/
def kindOf (c : UInt8) : Option Kind :=
  if c = 110 then some .null
  else if c = 116 ∨ c = 102 then some .bool
  else if c = 34 then some .string
  else if c = 91 then some .array
  else if c = 123 then some .object
  else if c = 45 ∨ (48 ≤ c ∧ c ≤ 57) then some .number
  else none

/-- A digit starts a number. -/
theorem kindOf_digit {c : UInt8} (h : isDigit c = true) : kindOf c = some .number := by
  rw [isDigit_iff] at h
  have hne : ∀ d : UInt8, d < 48 ∨ 57 < d → c ≠ d := by
    rintro d hd rfl
    rcases hd with hd | hd
    · exact absurd hd (UInt8.not_lt.mpr h.1)
    · exact absurd hd (UInt8.not_lt.mpr h.2)
  rw [kindOf, if_neg (hne 110 (by decide)), if_neg, if_neg (hne 34 (by decide)),
    if_neg (hne 91 (by decide)), if_neg (hne 123 (by decide)), if_pos (.inr h)]
  exact not_or.mpr ⟨hne 116 (by decide), hne 102 (by decide)⟩

/-- **The first byte of a value tells its kind.** -/
theorem Value.head (v : Value) (r : Text) :
    ∃ c rest, v.text ++ r = c :: rest ∧ kindOf c = some v.kind := by
  cases v with
  | null => exact ⟨110, _, by rw [Value.text]; rfl, rfl⟩
  | bool b =>
      cases b with
      | true => exact ⟨116, _, by rw [Value.text]; rfl, rfl⟩
      | false => exact ⟨102, _, by rw [Value.text]; rfl, rfl⟩
  | string s => exact ⟨34, _, by rw [Value.text]; rfl, rfl⟩
  | array inner elements => exact ⟨91, _, by rw [Value.text]; rfl, rfl⟩
  | object inner members => exact ⟨123, _, by rw [Value.text]; rfl, rfl⟩
  | number n =>
      rw [Value.text, Number.text]
      cases n.negative with
      | true => exact ⟨45, _, rfl, rfl⟩
      | false =>
          simp only [Bool.false_eq_true, if_false, List.nil_append, List.append_assoc]
          obtain ⟨c, rest, htext, hc⟩ := n.int.head _
          exact ⟨c, rest, htext, kindOf_digit hc⟩

/-- A byte with which no value starts does not stand in front of one. -/
theorem Value.text_ne {c : UInt8} (hc : kindOf c = none) (v : Value) (r s : Text) :
    v.text ++ r ≠ c :: s := by
  obtain ⟨d, rest, htext, hkind⟩ := v.head r
  rw [htext]
  intro h
  rw [(List.cons.inj h).1, hc] at hkind
  cases hkind

/-- White space starts no value. -/
theorem kindOf_ws {c : UInt8} (h : IsWs c) : kindOf c = none := by
  rcases h with rfl | rfl | rfl | rfl <;> rfl

/-- A value ends the whitespace in front of it. -/
theorem Value.not_isWs_head (v : Value) (r : Text) : ∀ c ∈ (v.text ++ r).head?, ¬ IsWs c := by
  obtain ⟨d, rest, htext, hkind⟩ := v.head r
  rw [htext]
  intro c hc hws
  obtain rfl : d = c := by simpa using hc
  rw [kindOf_ws hws] at hkind
  cases hkind

/-! ### The grammar is unambiguous -/

section Parts

variable {α β : Type} {text : α → Text} {data : α → β} {last : UInt8}

/-- Where the text of a part ends, and what the part stands for, is seen from the text. -/
def PartUnique (text : α → Text) (data : α → β) (e : α) : Prop :=
  ∀ (f : α) (r s : Text), Closes r → Closes s → text e ++ r = text f ++ s →
    data e = data f ∧ r = s

/-- Parts behind the first one, each behind its comma. -/
def commas (text : α → Text) (es : List α) : Text :=
  es.flatMap fun e => 44 :: text e

/-- A part that is not the first has a comma in front of it. -/
theorem commas_cons (e : α) (es : List α) (r : Text) :
    commas text (e :: es) ++ r = 44 :: (text e ++ (commas text es ++ r)) := by
  simp [commas]

/-- Behind a part stands a comma or the closing bracket. -/
theorem closes_commas (hlast : last = 93 ∨ last = 125) (es : List α) (r : Text) :
    Closes (commas text es ++ last :: r) := by
  cases es with
  | nil => exact ⟨last, r, rfl, .inr hlast⟩
  | cons e es => exact ⟨44, _, commas_cons e es _, .inl rfl⟩

/-- The data of the parts behind the first are seen from their text, if those of each part are. -/
theorem commas_unique (hlast : last = 93 ∨ last = 125) {es fs : List α} {r s : Text}
    (hes : ∀ e ∈ es, PartUnique text data e)
    (h : commas text es ++ last :: r = commas text fs ++ last :: s) :
    es.map data = fs.map data ∧ r = s := by
  have hne : last ≠ 44 := by
    rcases hlast with rfl | rfl <;> decide
  induction es generalizing fs with
  | nil =>
      cases fs with
      | nil => exact ⟨rfl, (List.cons.inj h).2⟩
      | cons f fs => exact absurd (List.cons.inj h).1 hne
  | cons e es ih =>
      cases fs with
      | nil => exact absurd (List.cons.inj h).1.symm hne
      | cons f fs =>
          rw [commas_cons, commas_cons] at h
          obtain ⟨hdata, hrest⟩ := hes e List.mem_cons_self f _ _ (closes_commas hlast es r)
            (closes_commas hlast fs s) (List.cons.inj h).2
          obtain ⟨htail, hrs⟩ := ih (fun e he => hes e (List.mem_cons_of_mem _ he)) hrest
          exact ⟨by rw [List.map_cons, List.map_cons, hdata, htail], hrs⟩

/-- Brackets without a part have white space between them. -/
theorem bracket_nil (first : UInt8) (inner : Ws) (r : Text) :
    bracket first last inner (([] : List α).map text) ++ r = first :: (inner.val ++ last :: r) := by
  simp [bracket]

/-- Brackets with parts: the first one, and the others with their commas. -/
theorem bracket_cons (first : UInt8) (inner : Ws) (e : α) (es : List α) (r : Text) :
    bracket first last inner ((e :: es).map text) ++ r =
      first :: (text e ++ (commas text es ++ last :: r)) := by
  rw [List.map_cons, bracket, if_neg (List.cons_ne_nil _ _), commaJoin_cons]
  simp [commas, List.flatMap_map]

/-- What stands between brackets. -/
theorem bracket_unique {first : UInt8} (hlast : last = 93 ∨ last = 125) {inner inner' : Ws}
    {es fs : List α} {r s : Text} (hes : ∀ e ∈ es, PartUnique text data e)
    (hopen : ∀ (e : α) (ws : Ws) (r s : Text), text e ++ r ≠ ws.val ++ last :: s)
    (h : bracket first last inner (es.map text) ++ r =
      bracket first last inner' (fs.map text) ++ s) :
    es.map data = fs.map data ∧ r = s := by
  cases es with
  | nil =>
      rw [bracket_nil] at h
      cases fs with
      | nil =>
          rw [bracket_nil] at h
          have hws : ∀ (t : Text), ∀ c ∈ (last :: t).head?, ¬ IsWs c := by
            rcases hlast with rfl | rfl <;> simp [IsWs]
          obtain ⟨-, hrs⟩ := span_unique inner.property inner'.property (hws r) (hws s)
            (List.cons.inj h).2
          exact ⟨rfl, (List.cons.inj hrs).2⟩
      | cons f fs =>
          rw [bracket_cons] at h
          exact absurd (List.cons.inj h).2.symm (hopen f inner _ _)
  | cons e es =>
      rw [bracket_cons] at h
      cases fs with
      | nil =>
          rw [bracket_nil] at h
          exact absurd (List.cons.inj h).2 (hopen e inner' _ _)
      | cons f fs =>
          rw [bracket_cons] at h
          obtain ⟨hdata, hrest⟩ := hes e List.mem_cons_self f _ _ (closes_commas hlast es r)
            (closes_commas hlast fs s) (List.cons.inj h).2
          obtain ⟨htail, hrs⟩ := commas_unique hlast
            (fun e he => hes e (List.mem_cons_of_mem _ he)) hrest
          exact ⟨by rw [List.map_cons, List.map_cons, hdata, htail], hrs⟩

end Parts

/-- Where the text of a value ends, and what it stands for, is seen from the text. -/
def Value.Unique (v : Value) : Prop :=
  ∀ (w : Value) (r s : Text), Ends r → Ends s → v.text ++ r = w.text ++ s →
    v.denote = w.denote ∧ r = s

/-- The value of an element or a member, with the whitespace around it. -/
theorem Value.Unique.padded {v w : Value} (hv : v.Unique) {before after before' after' : Ws}
    {r s : Text} (hr : Closes r) (hs : Closes s)
    (h : before.val ++ (v.text ++ (after.val ++ r)) =
      before'.val ++ (w.text ++ (after'.val ++ s))) : v.denote = w.denote ∧ r = s := by
  obtain ⟨-, h⟩ := span_unique before.property before'.property (v.not_isWs_head _)
    (w.not_isWs_head _) h
  obtain ⟨hdenote, h⟩ := hv w _ _ (hr.ends after) (hs.ends after') h
  obtain ⟨-, hrs⟩ := span_unique after.property after'.property hr.not_isWs hs.not_isWs h
  exact ⟨hdenote, hrs⟩

/-- What an element stands for. -/
def Element.data (e : Element Value) : Option Data :=
  e.value.denote

/-- What a member stands for. -/
def Member.data (m : Member Value) : Option Text × Option Data :=
  (Str.decode m.name, m.value.denote)

/-- The data of an element are seen from its text, if those of its value are. -/
theorem Element.partUnique {e : Element Value} (he : e.value.Unique) :
    PartUnique Element.text Element.data e := by
  intro f r s hr hs h
  simp only [text, List.append_assoc] at h
  exact he.padded hr hs h

/-- The data of a member are seen from its text, if those of its value are. -/
theorem Member.partUnique {m : Member Value} (hm : m.value.Unique) :
    PartUnique Member.text Member.data m := by
  intro f r s hr hs h
  have hquote : ∀ t : Text, ∀ c ∈ (34 :: t).head?, ¬ IsWs c := by
    simp [IsWs]
  have hcolon : ∀ t : Text, ∀ c ∈ (58 :: t).head?, ¬ IsWs c := by
    simp [IsWs]
  simp only [text, beforeText, List.append_assoc, List.cons_append] at h
  obtain ⟨-, h⟩ := span_unique m.before.property f.before.property (hquote _) (hquote _) h
  obtain ⟨hname, h⟩ := Str.text_unique h
  obtain ⟨-, h⟩ := span_unique m.beforeColon.property f.beforeColon.property (hcolon _)
    (hcolon _) h
  obtain ⟨hvalue, hrs⟩ := hm.padded hr hs (List.cons.inj h).2
  exact ⟨Prod.ext (congrArg Str.decode hname) hvalue, hrs⟩

/-- An element is not taken for the end of its array. -/
theorem Element.text_open (e : Element Value) (ws : Ws) (r s : Text) :
    e.text ++ r ≠ ws.val ++ 93 :: s := by
  intro h
  simp only [text, List.append_assoc] at h
  obtain ⟨-, h⟩ := span_unique e.before.property ws.property (e.value.not_isWs_head _)
    (by simp [IsWs]) h
  exact Value.text_ne rfl _ _ _ h

/-- A member is not taken for the end of its object. -/
theorem Member.text_open (m : Member Value) (ws : Ws) (r s : Text) :
    m.text ++ r ≠ ws.val ++ 125 :: s := by
  intro h
  simp only [text, beforeText, List.append_assoc] at h
  obtain ⟨-, h⟩ := span_unique m.before.property ws.property (by simp [Str.text, IsWs])
    (by simp [IsWs]) h
  exact absurd (List.cons.inj h).1 (by decide)

/-- The data of an array depend on those of its elements only. -/
theorem elementData_congr {es fs : List (Element Value)}
    (h : es.map Element.data = fs.map Element.data) : elementData es = elementData fs := by
  induction es generalizing fs with
  | nil =>
      cases fs with
      | nil => rfl
      | cons f fs => cases h
  | cons e es ih =>
      cases fs with
      | nil => cases h
      | cons f fs =>
          obtain ⟨hhead, htail⟩ := List.cons.inj h
          have hvalue : e.value.denote = f.value.denote := hhead
          simp only [elementData, hvalue, ih htail]

/-- The data of an object depend on those of its members only. -/
theorem memberData_congr {ms ns : List (Member Value)}
    (h : ms.map Member.data = ns.map Member.data) : memberData ms = memberData ns := by
  induction ms generalizing ns with
  | nil =>
      cases ns with
      | nil => rfl
      | cons n ns => cases h
  | cons m ms ih =>
      cases ns with
      | nil => cases h
      | cons n ns =>
          obtain ⟨hhead, htail⟩ := List.cons.inj h
          obtain ⟨hname, hvalue⟩ := Prod.ext_iff.mp hhead
          simp only [Member.data] at hname hvalue
          simp only [memberData, hname, hvalue, ih htail]

/-- Two values with the same text up to an end start with the same byte. -/
theorem Value.kind_unique {v w : Value} {r s : Text} (h : v.text ++ r = w.text ++ s) :
    v.kind = w.kind := by
  obtain ⟨c, rest, hv, hc⟩ := v.head r
  obtain ⟨d, rest', hw, hd⟩ := w.head s
  obtain ⟨rfl, -⟩ := List.cons.inj (hv.symm.trans (h.trans hw))
  exact Option.some.inj (hc.symm.trans hd)

/-- **The grammar is unambiguous**: the text of a value, up to where it can end, stands for one
thing. -/
theorem Value.unique (v : Value) : v.Unique := by
  induction v using Value.induct with
  | null =>
      intro w r s hr hs h
      cases w with
      | null =>
          simp only [Value.text, List.cons_append, List.nil_append, List.cons.injEq,
            true_and] at h
          exact ⟨rfl, h⟩
      | _ => cases kind_unique h
  | bool b =>
      intro w r s hr hs h
      cases w with
      | bool b' =>
          cases b <;> cases b' <;> simp only [Value.text, List.cons_append, List.nil_append,
            List.cons.injEq, true_and] at h
          · exact ⟨rfl, h⟩
          · exact absurd h.1 (by decide)
          · exact absurd h.1 (by decide)
          · exact ⟨rfl, h⟩
      | _ => cases kind_unique h
  | number n =>
      intro w r s hr hs h
      cases w with
      | number n' =>
          obtain ⟨rfl, hrs⟩ := Number.text_unique hr hs h
          exact ⟨rfl, hrs⟩
      | _ => cases kind_unique h
  | string a =>
      intro w r s hr hs h
      cases w with
      | string b =>
          obtain ⟨rfl, hrs⟩ := Str.text_unique h
          exact ⟨rfl, hrs⟩
      | _ => cases kind_unique h
  | array inner elements ih =>
      intro w r s hr hs h
      cases w with
      | array inner' elements' =>
          simp only [Value.text, elementTexts_eq_map] at h
          obtain ⟨hdata, hrs⟩ := bracket_unique (.inl rfl)
            (fun e he => Element.partUnique (ih e he)) Element.text_open h
          exact ⟨by rw [denote, denote, elementData_congr hdata], hrs⟩
      | _ => cases kind_unique h
  | object inner members ih =>
      intro w r s hr hs h
      cases w with
      | object inner' members' =>
          simp only [Value.text, memberTexts_eq_map] at h
          obtain ⟨hdata, hrs⟩ := bracket_unique (.inr rfl)
            (fun m hm => Member.partUnique (ih m hm)) Member.text_open h
          exact ⟨by rw [denote, denote, memberData_congr hdata], hrs⟩
      | _ => cases kind_unique h

/-- **A text stands for at most one thing.** -/
theorem Reads.unique {t : Text} {x y : Data} (hx : Reads t x) (hy : Reads t y) : x = y := by
  obtain ⟨before, v, after, ht, hv⟩ := hx
  obtain ⟨before', w, after', ht', hw⟩ := hy
  obtain ⟨-, h⟩ := span_unique before.property before'.property (v.not_isWs_head _)
    (w.not_isWs_head _) (ht.symm.trans ht')
  obtain ⟨hdenote, -⟩ := v.unique w _ _ (ends_ws after) (ends_ws after') h
  exact Option.some.inj (hv.symm.trans (hdenote.trans hw))

/-! ### Texts put together from parts -/

/-- No whitespace. -/
def noWs : Ws :=
  ⟨[], fun _ h => nomatch h⟩

/-- Two runs of whitespace. -/
def Ws.append (a b : Ws) : Ws :=
  ⟨a.val ++ b.val, fun c hc => (List.mem_append.mp hc).elim (a.property c) (b.property c)⟩

/-- The text of a value. -/
theorem Value.reads {v : Value} {x : Data} (h : v.denote = some x) : Reads v.text x :=
  ⟨noWs, v, noWs, by simp [noWs], h⟩

/-- Whitespace around a text makes no difference. -/
theorem Reads.pad {t : Text} {x : Data} (h : Reads t x) (before after : Ws) :
    Reads (before.val ++ (t ++ after.val)) x := by
  obtain ⟨before', v, after', rfl, hv⟩ := h
  exact ⟨before.append before', v, after'.append after, by simp [Ws.append], hv⟩

/-- A string is read as what it decodes to. -/
theorem reads_string {s : Str} {v : Text} (h : Str.decode s = some v) :
    Reads (Str.text s) (.string v) := by
  have hdenote : (Value.string s).denote = some (.string v) := by
    rw [Value.denote, h]
    rfl
  exact Value.reads hdenote

/-- A number is read as its value. -/
theorem reads_number (n : Number) : Reads n.text (.number n.value) :=
  Value.reads (v := .number n) rfl

/-- The text of a member: a name, a colon and a text behind it. -/
def ReadsMember (t : Text) (m : Text × Data) : Prop :=
  ∃ (before : Ws) (name : Str) (beforeColon : Ws) (u : Text),
    t = before.val ++ (Str.text name ++ (beforeColon.val ++ 58 :: u)) ∧
      Str.decode name = some m.1 ∧ Reads u m.2

/-- **The text of an array.** -/
theorem reads_array {texts : List Text} {xs : List Data} (h : List.Forall₂ Reads texts xs)
    (inner : Ws) : Reads (bracket 91 93 inner texts) (.array xs) := by
  obtain ⟨es, rfl, hes⟩ : ∃ es : List (Element Value),
      elementTexts es = texts ∧ elementData es = some xs := by
    induction h with
    | nil => exact ⟨[], rfl, rfl⟩
    | cons hread _ ih =>
        obtain ⟨before, v, after, rfl, hv⟩ := hread
        obtain ⟨es, rfl, hes⟩ := ih
        refine ⟨⟨before, v, after⟩ :: es, by simp [elementTexts], ?_⟩
        rw [elementData, hv, hes]
        rfl
  have hdenote : (Value.array inner es).denote = some (.array xs) := by
    rw [Value.denote, hes]
    rfl
  have hread := Value.reads hdenote
  rwa [Value.text] at hread

/-- **The text of an object.** -/
theorem reads_object {texts : List Text} {xs : List (Text × Data)}
    (h : List.Forall₂ ReadsMember texts xs) (inner : Ws) :
    Reads (bracket 123 125 inner texts) (.object xs) := by
  obtain ⟨ms, rfl, hms⟩ : ∃ ms : List (Member Value),
      memberTexts ms = texts ∧ memberData ms = some xs := by
    induction h with
    | nil => exact ⟨[], rfl, rfl⟩
    | cons hread _ ih =>
        obtain ⟨before, name, beforeColon, u, rfl, hname, afterColon, v, after, rfl, hv⟩ := hread
        obtain ⟨ms, rfl, hms⟩ := ih
        refine ⟨⟨before, name, beforeColon, afterColon, v, after⟩ :: ms, by simp [memberTexts], ?_⟩
        rw [memberData, hname, hv, hms]
        rfl
  have hdenote : (Value.object inner ms).denote = some (.object xs) := by
    rw [Value.denote, hms]
    rfl
  have hread := Value.reads hdenote
  rwa [Value.text] at hread

end JsonText
