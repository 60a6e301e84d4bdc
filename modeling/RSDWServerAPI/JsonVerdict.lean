import Mathlib.Data.List.Forall2
import RSDWServerAPI.JsonData

/-!
# Texts with a part that no value can be

A text that is put together from parts is well formed when its parts are. The converse holds
too where a part is **broken**: where no value stands at its start, whatever follows. `Verdict`
has both at once, so that the verdict about a text follows its parts: a broken part breaks
everything around it, whatever the parts in front of it and behind it are.

## Main results

* `verdict_array`, `verdict_object`: the verdict about a text between brackets.
* `Verdict.wellFormed_iff`: the verdict decides whether the text is well formed.
-/

namespace JsonText

open Ascii (isDigit)

/-- **The text is accepted by the grammar**: a value with whitespace around it. -/
def WellFormed (t : Text) : Prop :=
  ∃ (before : Ws) (v : Value) (after : Ws), t = before.val ++ (v.text ++ after.val)

/-- No value stands at the start of the text, whatever follows it. -/
structure Broken (t : Text) : Prop where
  head : ∃ c rest, t = c :: rest ∧ ¬ IsWs c ∧ c ≠ 93
  noValue : ∀ (v : Value) (r s : Text), Ends r → Ends s → t ++ r ≠ v.text ++ s

/-- What there is to say about a text: what it stands for, or that it is broken. -/
def Verdict (t : Text) : Option Data → Prop
  | some x => Reads t x
  | none => Broken t

/-- A verdict with data is that the text is read as them. -/
theorem verdict_some {t : Text} {x : Data} : Verdict t (some x) ↔ Reads t x :=
  Iff.rfl

/-- What is read is well formed. -/
theorem Reads.wellFormed {t : Text} {x : Data} (h : Reads t x) : WellFormed t := by
  obtain ⟨before, v, after, ht, -⟩ := h
  exact ⟨before, v, after, ht⟩

/-- A broken text does not start with whitespace. -/
theorem Broken.not_isWs_head {t : Text} (h : Broken t) (r : Text) :
    ∀ c ∈ (t ++ r).head?, ¬ IsWs c := by
  obtain ⟨c, rest, rfl, hws, -⟩ := h.head
  intro d hd
  obtain rfl : c = d := by simpa using hd
  exact hws

/-- Whitespace in front of the value makes no difference. -/
theorem Broken.ne_padded {t : Text} (h : Broken t) (before : Ws) (v : Value) {r s : Text}
    (hr : Ends r) (hs : Ends s) : t ++ r ≠ before.val ++ (v.text ++ s) := by
  intro heq
  have hnil : ∀ c ∈ noWs.val, IsWs c := noWs.property
  obtain ⟨-, hrest⟩ := span_unique hnil before.property (h.not_isWs_head r) (v.not_isWs_head s)
    heq
  exact h.noValue v r s hr hs hrest

/-- What is broken is not well formed. -/
theorem Broken.not_wellFormed {t : Text} (h : Broken t) : ¬ WellFormed t := by
  rintro ⟨before, v, after, ht⟩
  refine h.ne_padded before v (r := []) (by simp [Ends]) (ends_ws after) ?_
  rw [List.append_nil]
  exact ht

/-- **The verdict decides whether the text is well formed.** -/
theorem Verdict.wellFormed_iff {t : Text} {x : Option Data} (h : Verdict t x) :
    WellFormed t ↔ x.isSome := by
  cases x with
  | none => exact iff_of_false h.not_wellFormed (by simp)
  | some x => exact iff_of_true h.wellFormed rfl

/-! ### Broken parts -/

section Parts

variable {α β : Type} {text : α → Text} {data : α → β} {last : UInt8}

/-- No part stands at the start of the text, nor does the bracket behind the last part. -/
structure PartBroken (text : α → Text) (last : UInt8) (t : Text) : Prop where
  noPart : ∀ (f : α) (r s : Text), Closes r → Closes s → t ++ r ≠ text f ++ s
  noLast : ∀ (ws : Ws) (r s : Text), t ++ r ≠ ws.val ++ last :: s

/-- A text is that of a part, or a broken one. -/
def PartVerdict (text : α → Text) (data : α → β) (last : UInt8) (t : Text) : Prop :=
  (∃ e, text e = t ∧ PartUnique text data e) ∨ PartBroken text last t

/-- A broken part behind the first one. The induction follows the texts in front of it, which
the parts that are read have to agree with. -/
theorem commas_broken (hlast : last = 93 ∨ last = 125) {ts : List Text}
    (hts : ∀ t ∈ ts, PartVerdict text data last t) (hbad : ∃ t ∈ ts, PartBroken text last t)
    (fs : List α) (r s : Text) : commas id ts ++ last :: r ≠ commas text fs ++ last :: s := by
  have hne : last ≠ 44 := by
    rcases hlast with rfl | rfl <;> decide
  induction ts generalizing fs with
  | nil =>
      obtain ⟨t, ht, -⟩ := hbad
      cases ht
  | cons t ts ih =>
      intro h
      cases fs with
      | nil => exact absurd (List.cons.inj h).1.symm hne
      | cons f fs =>
          rw [commas_cons, commas_cons] at h
          have hr : Closes (commas id ts ++ last :: r) := closes_commas hlast ts r
          have hs : Closes (commas text fs ++ last :: s) := closes_commas hlast fs s
          have hpart : ¬ PartBroken text last t := fun hb =>
            hb.noPart f _ _ hr hs (List.cons.inj h).2
          obtain ⟨e, rfl, he⟩ := (hts t List.mem_cons_self).resolve_right hpart
          obtain ⟨-, hrest⟩ := he f _ _ hr hs (List.cons.inj h).2
          obtain ⟨u, hu, hbroken⟩ := hbad
          rcases List.mem_cons.mp hu with rfl | hu
          · exact hpart hbroken
          · exact ih (fun v hv => hts v (List.mem_cons_of_mem _ hv)) ⟨u, hu, hbroken⟩ fs hrest

/-- A broken part between brackets. -/
theorem bracket_broken {first : UInt8} (hlast : last = 93 ∨ last = 125) {ts : List Text}
    (hopen : ∀ (e : α) (ws : Ws) (r s : Text), text e ++ r ≠ ws.val ++ last :: s)
    (hts : ∀ t ∈ ts, PartVerdict text data last t) (hbad : ∃ t ∈ ts, PartBroken text last t)
    (inner : Ws) (fs : List α) (r s : Text) :
    bracket first last noWs ts ++ r ≠ bracket first last inner (fs.map text) ++ s := by
  intro h
  cases ts with
  | nil =>
      obtain ⟨t, ht, -⟩ := hbad
      cases ht
  | cons t ts =>
      rw [← List.map_id (t :: ts), bracket_cons, id_eq] at h
      cases fs with
      | nil =>
          rw [bracket_nil] at h
          rcases hts t List.mem_cons_self with ⟨e, rfl, -⟩ | hbroken
          · exact hopen e inner _ _ (List.cons.inj h).2
          · exact hbroken.noLast inner _ _ (List.cons.inj h).2
      | cons f fs =>
          rw [bracket_cons] at h
          refine commas_broken hlast hts hbad (f :: fs) r s ?_
          rw [commas_cons, commas_cons]
          exact congrArg (44 :: ·) (List.cons.inj h).2

end Parts

/-! ### Arrays and objects -/

/-- What is read is the text of an element. -/
theorem Reads.exists_element {t : Text} {x : Data} (h : Reads t x) :
    ∃ e : Element Value, Element.text e = t := by
  obtain ⟨before, v, after, ht, -⟩ := h
  exact ⟨⟨before, v, after⟩, ht.symm⟩

/-- A broken element. -/
theorem Broken.element {t : Text} (h : Broken t) : PartBroken Element.text 93 t where
  noPart f r s hr hs heq := by
    rw [Element.text, List.append_assoc, List.append_assoc] at heq
    exact h.ne_padded f.before f.value (hr.ends noWs) (hs.ends f.after) heq
  noLast ws r s heq := by
    have hclose : ∀ c ∈ (93 :: s).head?, ¬ IsWs c := by
      simp [IsWs]
    obtain ⟨-, hrest⟩ := span_unique noWs.property ws.property (h.not_isWs_head r) hclose heq
    obtain ⟨c, rest, rfl, -, hc⟩ := h.head
    exact hc (List.cons.inj hrest).1

/-- A member with a broken value. -/
theorem Broken.member {u : Text} (h : Broken u) (name : Str) :
    PartBroken Member.text 125 (Str.text name ++ 58 :: u) := by
  have hquote : ∀ t : Text, ∀ c ∈ (34 :: t).head?, ¬ IsWs c := by
    simp [IsWs]
  refine ⟨fun f r s hr hs heq => ?_, fun ws r s heq => ?_⟩
  · have hcolon : ∀ t : Text, ∀ c ∈ (58 :: t).head?, ¬ IsWs c := by
      simp [IsWs]
    simp only [Member.text, Member.beforeText, List.append_assoc, List.cons_append] at heq
    obtain ⟨-, heq⟩ := span_unique noWs.property f.before.property (hquote _) (hquote _) heq
    obtain ⟨-, heq⟩ := Str.text_unique heq
    obtain ⟨-, heq⟩ := span_unique noWs.property f.beforeColon.property (hcolon _) (hcolon _) heq
    exact h.ne_padded f.afterColon f.value (hr.ends noWs) (hs.ends f.after)
      (List.cons.inj heq).2
  · have hclose : ∀ c ∈ (125 :: s).head?, ¬ IsWs c := by
      simp [IsWs]
    rw [Str.text] at heq
    obtain ⟨-, hrest⟩ := span_unique noWs.property ws.property (hquote _) hclose heq
    exact absurd (List.cons.inj hrest).1 (by decide)

/-- What there is to say about the text of a member. -/
def VerdictMember (t : Text) (m : Text × Option Data) : Prop :=
  ∃ (name : Str) (u : Text), t = Str.text name ++ 58 :: u ∧ Str.decode name = some m.1 ∧
    Verdict u m.2

/-- The elements of an array, if none is broken. -/
def allElements (xs : List (Option Data)) : Option (List Data) :=
  xs.mapM id

/-- The members of an object, if none is broken. -/
def allMembers (xs : List (Text × Option Data)) : Option (List (Text × Data)) :=
  xs.mapM fun m => m.2.map (m.1, ·)

/-- All of a list succeeds exactly when each part does. -/
theorem mapM_isSome_iff {γ β : Type} {f : γ → Option β} {xs : List γ} :
    (xs.mapM f).isSome ↔ ∀ x ∈ xs, (f x).isSome := by
  induction xs with
  | nil => simp
  | cons x xs ih =>
      rw [List.mapM_cons, List.forall_mem_cons, ← ih]
      cases f x <;> cases xs.mapM f <;> simp

/-- An array has data exactly when each element has. -/
theorem allElements_isSome_iff {xs : List (Option Data)} :
    (allElements xs).isSome ↔ ∀ x ∈ xs, x.isSome :=
  mapM_isSome_iff

/-- An object has data exactly when each member has. -/
theorem allMembers_isSome_iff {xs : List (Text × Option Data)} :
    (allMembers xs).isSome ↔ ∀ m ∈ xs, m.2.isSome := by
  simp only [allMembers, mapM_isSome_iff, Option.isSome_map]

/-- Where each entry either fails or has a result, either all have one or some entry fails. -/
theorem forall₂_mapM {α β γ : Type} {f : γ → Option β} {Q : α → γ → Prop} {B : α → Prop}
    {R : α → β → Prop} (hQ : ∀ t x, Q t x → (f x = none ∧ B t) ∨ ∃ y, f x = some y ∧ R t y)
    {ts : List α} {xs : List γ} (h : List.Forall₂ Q ts xs) :
    (xs.mapM f = none ∧ ∃ t ∈ ts, B t) ∨ ∃ ys, xs.mapM f = some ys ∧ List.Forall₂ R ts ys := by
  induction h with
  | nil => exact .inr ⟨[], rfl, .nil⟩
  | @cons t x ts xs hx _ ih =>
      rw [List.mapM_cons]
      rcases hQ t x hx with ⟨hnone, hbad⟩ | ⟨y, hy, hread⟩
      · exact .inl ⟨by rw [hnone]; rfl, t, List.mem_cons_self, hbad⟩
      · rcases ih with ⟨hnone, u, hu, hbad⟩ | ⟨ys, hys, hreads⟩
        · exact .inl ⟨by rw [hy, hnone]; rfl, u, List.mem_cons_of_mem _ hu, hbad⟩
        · exact .inr ⟨y :: ys, by rw [hy, hys]; rfl, .cons hread hreads⟩

/-- A readable element, or a broken one. -/
theorem Verdict.part {t : Text} {x : Option Data} (h : Verdict t x) :
    PartVerdict Element.text Element.data 93 t := by
  cases x with
  | none => exact .inr (Broken.element h)
  | some x =>
      obtain ⟨e, he⟩ := Reads.exists_element h
      exact .inl ⟨e, he, Element.partUnique e.value.unique⟩

/-- A readable member, or a broken one. -/
theorem VerdictMember.part {t : Text} {m : Text × Option Data} (h : VerdictMember t m) :
    PartVerdict Member.text Member.data 125 t := by
  obtain ⟨name, u, rfl, -, hu⟩ := h
  obtain ⟨n, x⟩ := m
  cases x with
  | none => exact .inr (Broken.member hu name)
  | some x =>
      obtain ⟨before, v, after, rfl, -⟩ := hu
      refine .inl ⟨⟨noWs, name, noWs, before, v, after⟩, ?_, Member.partUnique v.unique⟩
      simp [Member.text, Member.beforeText, noWs]

/-- What a list of texts has at its entries it has at its texts. -/
theorem forall_of_forall₂ {β : Type} {Q : Text → β → Prop} {P : Text → Prop}
    (hP : ∀ t x, Q t x → P t) {ts : List Text} {xs : List β} (h : List.Forall₂ Q ts xs) :
    ∀ t ∈ ts, P t :=
  ((List.forall₂_and_left ts xs).mp (h.imp fun t x hx => ⟨hP t x hx, hx⟩)).1

/-- The first byte of a value tells its kind. -/
theorem Value.kindOf_head {v : Value} {c : UInt8} {r s : Text} (h : c :: r = v.text ++ s) :
    kindOf c = some v.kind := by
  obtain ⟨d, rest, hv, hd⟩ := v.head s
  rw [(List.cons.inj (h.trans hv)).1]
  exact hd

/-- **The verdict about an array**: broken if an element is. -/
theorem verdict_array {ts : List Text} {xs : List (Option Data)}
    (h : List.Forall₂ Verdict ts xs) :
    Verdict (bracket 91 93 noWs ts) ((allElements xs).map .array) := by
  have hparts : ∀ t ∈ ts, PartVerdict Element.text Element.data 93 t :=
    forall_of_forall₂ (fun t x hx => hx.part) h
  have hcases : (allElements xs = none ∧ ∃ t ∈ ts, Broken t) ∨
      ∃ ys, allElements xs = some ys ∧ List.Forall₂ Reads ts ys := by
    refine forall₂_mapM (fun t x hx => ?_) h
    cases x with
    | none => exact .inl ⟨rfl, hx⟩
    | some x => exact .inr ⟨x, rfl, hx⟩
  rcases hcases with ⟨hnone, t, ht, hbroken⟩ | ⟨ys, hys, hreads⟩
  · rw [hnone]
    refine ⟨⟨91, _, rfl, by simp [IsWs], by decide⟩, fun v r s hr hs heq => ?_⟩
    cases v with
    | array inner elements =>
        rw [Value.text, elementTexts_eq_map] at heq
        exact bracket_broken (.inl rfl) Element.text_open hparts ⟨t, ht, hbroken.element⟩ inner
          elements r s heq
    | _ => cases Value.kindOf_head heq
  · rw [hys]
    exact reads_array hreads noWs

/-- **The verdict about an object**: broken if the value of a member is. -/
theorem verdict_object {ts : List Text} {xs : List (Text × Option Data)}
    (h : List.Forall₂ VerdictMember ts xs) :
    Verdict (bracket 123 125 noWs ts) ((allMembers xs).map .object) := by
  have hparts : ∀ t ∈ ts, PartVerdict Member.text Member.data 125 t :=
    forall_of_forall₂ (fun t m hm => hm.part) h
  have hcases : (allMembers xs = none ∧ ∃ t ∈ ts, PartBroken Member.text 125 t) ∨
      ∃ ys, allMembers xs = some ys ∧ List.Forall₂ ReadsMember ts ys := by
    refine forall₂_mapM (fun t m hm => ?_) h
    obtain ⟨name, u, rfl, hname, hu⟩ := hm
    obtain ⟨n, x⟩ := m
    cases x with
    | none => exact .inl ⟨rfl, Broken.member hu name⟩
    | some x => exact .inr ⟨(n, x), rfl, noWs, name, noWs, u, rfl, hname, hu⟩
  rcases hcases with ⟨hnone, hbad⟩ | ⟨ys, hys, hreads⟩
  · rw [hnone]
    refine ⟨⟨123, _, rfl, by simp [IsWs], by decide⟩, fun v r s hr hs heq => ?_⟩
    cases v with
    | object inner members =>
        rw [Value.text, memberTexts_eq_map] at heq
        exact bracket_broken (.inr rfl) Member.text_open hparts hbad inner members r s heq
    | _ => cases Value.kindOf_head heq
  · rw [hys]
    exact reads_object hreads noWs

/-! ### Broken numbers -/

/-- A text that starts with a byte with which no value starts. -/
theorem broken_of_kindOf {c : UInt8} (hc : kindOf c = none) (hws : ¬ IsWs c) (hlast : c ≠ 93)
    (t : Text) : Broken (c :: t) where
  head := ⟨c, t, rfl, hws, hlast⟩
  noValue v r s _ _ h := Value.text_ne hc v s (t ++ r) h.symm

/-- A text that starts like `null` and goes on differently. -/
theorem broken_of_ne_null {c : UInt8} (hc : c ≠ 117) (t : Text) : Broken (110 :: c :: t) where
  head := ⟨110, _, rfl, by simp [IsWs], by decide⟩
  noValue v r s _ _ h := by
    cases v with
    | null => exact hc (List.cons.inj (List.cons.inj h).2).1
    | _ => cases Value.kindOf_head h

/-- A number that starts with a minus sign has a digit behind it. -/
theorem broken_of_minus {c : UInt8} (hc : isDigit c = false) (t : Text) :
    Broken (45 :: c :: t) where
  head := ⟨45, _, rfl, by simp [IsWs], by decide⟩
  noValue v r s _ _ h := by
    cases v with
    | number n =>
        rw [Value.text, Number.text] at h
        obtain ⟨d, rest, hd, hdigit⟩ := n.int.head
          ((n.frac.elim [] fun digits => 46 :: digits.val) ++
            (n.exp.elim [] Exponent.text ++ s))
        simp only [List.append_assoc, hd] at h
        cases hneg : n.negative with
        | true =>
            rw [hneg] at h
            obtain rfl : c = d := by simpa using (List.cons.inj (List.cons.inj h).2).1
            rw [hc] at hdigit
            exact Bool.false_ne_true hdigit
        | false =>
            rw [hneg] at h
            obtain rfl : 45 = d := by simpa using (List.cons.inj h).1
            exact absurd hdigit (by simp [isDigit])
    | _ => cases Value.kindOf_head h

/-- The sign and the digits in front of a byte that is not a digit are those of the number that
stands there. -/
theorem Number.sign_int_unique (negative : Bool) (int : Digits) {n : Number} {r s : Text}
    (hr : ∀ c ∈ r.head?, isDigit c = false) (hs : Ends s)
    (h : (if negative then [45] else []) ++ (int.val ++ r) = n.text ++ s) :
    r = (n.frac.elim [] fun digits => 46 :: digits.val) ++ (n.exp.elim [] Exponent.text ++ s) := by
  obtain ⟨negative', int', hzero, frac, exp⟩ := n
  simp only [Number.text, List.append_assoc] at h
  have hint : int.val ++ r = int'.val ++ ((frac.elim [] fun digits => 46 :: digits.val) ++
      (exp.elim [] Exponent.text ++ s)) := by
    cases negative <;> cases negative'
    · exact h
    · exact absurd h (int.head_ne_sign (.inr rfl) _ _)
    · exact absurd h.symm (int'.head_ne_sign (.inr rfl) _ _)
    · exact (List.cons.inj h).2
  exact (Digits.unique hr (fraction_head frac exp hs) hint).2

/-- A number whose text ends behind the point. -/
theorem broken_of_point (negative : Bool) (int : Digits) :
    Broken ((if negative then [45] else []) ++ (int.val ++ [46])) where
  head := by
    obtain ⟨c, rest, hc, hdigit⟩ := int.head [46]
    have hnotWs : ¬ IsWs c ∧ c ≠ 93 := by
      refine ⟨fun hws => ?_, ?_⟩
      · rcases hws with rfl | rfl | rfl | rfl <;> simp [isDigit] at hdigit
      · rintro rfl
        simp [isDigit] at hdigit
    cases negative with
    | true => exact ⟨45, _, rfl, by simp [IsWs], by decide⟩
    | false => exact ⟨c, rest, hc, hnotWs⟩
  noValue v r s hr hs h := by
    have hpoint : ∀ c ∈ (46 :: r).head?, isDigit c = false := by
      simp [isDigit]
    cases v with
    | number n =>
        have htail : 46 :: r = (n.frac.elim [] fun digits => 46 :: digits.val) ++
            (n.exp.elim [] Exponent.text ++ s) := by
          refine Number.sign_int_unique negative int hpoint hs ?_
          simpa [Value.text] using h
        cases hfrac : n.frac with
        | none =>
            rw [hfrac, Option.elim_none, List.nil_append] at htail
            exact (exponent_head n.exp hs 46 (by rw [← htail]; rfl)).2 rfl
        | some digits =>
            rw [hfrac] at htail
            obtain ⟨c, rest, hc, hdigit⟩ := digits.head (n.exp.elim [] Exponent.text ++ s)
            have hrest : r = c :: rest := (List.cons.inj htail).2.trans hc
            have hother := (hr.not_number c (by rw [hrest]; rfl)).1
            rw [hother] at hdigit
            exact Bool.false_ne_true hdigit
    | _ =>
        obtain ⟨c, rest, hc, hkind⟩ : ∃ c rest, (if negative then [45] else []) ++
            (int.val ++ [46]) ++ r = c :: rest ∧ kindOf c = some .number := by
          obtain ⟨c, rest, hc, hdigit⟩ := int.head ([46] ++ r)
          cases negative with
          | true => exact ⟨45, _, rfl, rfl⟩
          | false => exact ⟨c, rest, by simpa using hc, kindOf_digit hdigit⟩
        rw [hc] at h
        cases hkind.symm.trans (Value.kindOf_head h)

end JsonText
