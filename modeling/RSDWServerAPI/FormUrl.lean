import RSDWServerAPI.Ascii
import Mathlib.Data.List.Forall2

/-!
# Form encoding

The encoding `application/x-www-form-urlencoded` of a finite map from byte strings to byte
strings, as a relation: a map has many encodings, for its pairs stand in any order, any byte may
be written as `%` and two hexadecimal digits in either case, and a space as `+` too.

`decode` is the decoding of one string that leaves alone what is no escape.

## Main results

* `decode_encodes`: every encoding of a string decodes to that string.
* `Encodes.wellEscaped`: in an encoding, two hexadecimal digits stand behind every `%`.
* `splitOn_pairs`: the pairs of an encoding of a map are found by the separators.
-/

namespace FormUrl

open Ascii (hexValue)

/-- The byte that two hexadecimal digits stand for. -/
def escaped (a b : UInt8) : Option UInt8 :=
  (hexValue a).bind fun high => (hexValue b).map fun low => UInt8.ofNat (high * 16 + low)

/-! ### Decoding -/

/-- A byte outside an escape: a plus sign stands for a space. -/
def unplus (c : UInt8) : UInt8 :=
  if c = 43 then 32 else c

/-- **The decoding**: a percent sign with two hexadecimal digits behind it is replaced by the
byte that these stand for, a plus sign by a space, and every other byte is copied. -/
def decode : List UInt8 → List UInt8
  | [] => []
  | [c] => [unplus c]
  | [c, d] => [unplus c, unplus d]
  | c :: a :: b :: rest =>
      if c = 37 then
        match escaped a b with
        | some value => value :: decode rest
        | none => 37 :: decode (a :: b :: rest)
      else unplus c :: decode (a :: b :: rest)

/-- Two hexadecimal digits stand behind every percent sign that has two bytes behind it. -/
def WellEscaped (s : List UInt8) : Prop :=
  ∀ before a b after, s = before ++ 37 :: a :: b :: after → (escaped a b).isSome

/-- A byte that is no percent sign is decoded by itself. -/
theorem decode_cons {c : UInt8} (hc : c ≠ 37) (s : List UInt8) :
    decode (c :: s) = unplus c :: decode s := by
  rcases s with - | ⟨a, - | ⟨b, rest⟩⟩
  · rfl
  · rfl
  · rw [decode, if_neg hc]

/-- An escape is decoded to the byte that it stands for. -/
theorem decode_escape {a b value : UInt8} (h : escaped a b = some value) (s : List UInt8) :
    decode (37 :: a :: b :: s) = value :: decode s := by
  rw [decode, if_pos rfl, h]

/-- A hexadecimal digit is neither a percent sign nor a separator. -/
theorem hexValue_ne {c : UInt8} (h : (hexValue c).isSome) : c ≠ 37 ∧ c ≠ 38 ∧ c ≠ 61 := by
  refine ⟨?_, ?_, ?_⟩ <;>
  · rintro rfl
    simp [hexValue] at h

/-- The two bytes of an escape are digits. -/
theorem hexValue_of_escaped {a b : UInt8} (h : (escaped a b).isSome) :
    (hexValue a).isSome ∧ (hexValue b).isSome := by
  rw [escaped] at h
  cases ha : hexValue a with
  | none => simp [ha] at h
  | some high =>
      cases hb : hexValue b with
      | none => simp [ha, hb] at h
      | some low => exact ⟨rfl, rfl⟩

/-- In the empty string no digit is missing. -/
theorem wellEscaped_nil : WellEscaped [] := by
  intro before a b after h
  cases before <;> simp at h

/-- The escapes of a string, from its first byte on. -/
theorem wellEscaped_cons {c : UInt8} {s : List UInt8} :
    WellEscaped (c :: s) ↔
      (∀ a b after, c = 37 → s = a :: b :: after → (escaped a b).isSome) ∧ WellEscaped s := by
  constructor
  · intro h
    refine ⟨?_, fun before a b after hs => h (c :: before) a b after (by rw [hs]; rfl)⟩
    rintro a b after rfl rfl
    exact h [] a b after rfl
  · rintro ⟨hhead, htail⟩ before a b after h
    cases before with
    | nil =>
        obtain ⟨hc, hs⟩ := List.cons.inj h
        exact hhead a b after hc hs
    | cons d before => exact htail before a b after (List.cons.inj h).2

/-- A byte that is no percent sign starts no escape. -/
theorem wellEscaped_cons_of_ne {c : UInt8} (hc : c ≠ 37) {s : List UInt8} :
    WellEscaped (c :: s) ↔ WellEscaped s := by
  rw [wellEscaped_cons]
  exact and_iff_right fun a b after h => absurd h hc

/-- No percent sign stands inside an escape. -/
theorem wellEscaped_escape {a b : UInt8} {s : List UInt8} :
    WellEscaped (37 :: a :: b :: s) ↔ (escaped a b).isSome ∧ WellEscaped s := by
  rw [wellEscaped_cons]
  constructor
  · rintro ⟨hhead, htail⟩
    have h := hhead a b s rfl rfl
    obtain ⟨ha, hb⟩ := hexValue_of_escaped h
    rw [wellEscaped_cons_of_ne (hexValue_ne ha).1, wellEscaped_cons_of_ne (hexValue_ne hb).1]
      at htail
    exact ⟨h, htail⟩
  · rintro ⟨h, htail⟩
    obtain ⟨ha, hb⟩ := hexValue_of_escaped h
    refine ⟨?_, ?_⟩
    · intro a' b' after _ heq
      obtain ⟨heqa, heq⟩ := List.cons.inj heq
      rw [← heqa, ← (List.cons.inj heq).1]
      exact h
    · rwa [wellEscaped_cons_of_ne (hexValue_ne ha).1, wellEscaped_cons_of_ne (hexValue_ne hb).1]

/-- Fewer than two bytes stand behind the first one. -/
theorem wellEscaped_of_length {s : List UInt8} (h : s.length ≤ 2) : WellEscaped s := by
  rintro before a b after rfl
  simp only [List.length_append, List.length_cons] at h
  omega

/-! ### Encoding -/

/-- How a byte may be written. A byte that is not a space, a plus sign or a separator may stand
for itself; any byte may be escaped. -/
inductive EncodesByte : UInt8 → List UInt8 → Prop
  | plain (c : UInt8) (h : c ≠ 32 ∧ c ≠ 37 ∧ c ≠ 38 ∧ c ≠ 43 ∧ c ≠ 61) : EncodesByte c [c]
  | plus : EncodesByte 32 [43]
  | escape (c a b : UInt8) (h : escaped a b = some c) : EncodesByte c [37, a, b]

/-- An encoding of a string. -/
inductive Encodes : List UInt8 → List UInt8 → Prop
  | nil : Encodes [] []
  | cons {c : UInt8} {s t u : List UInt8} (h : EncodesByte c t) (hs : Encodes s u) :
      Encodes (c :: s) (t ++ u)

/-- **Every encoding of a string decodes to that string.** -/
theorem decode_encodes {s t : List UInt8} (h : Encodes s t) : decode t = s := by
  induction h with
  | nil => rfl
  | cons hbyte _ ih =>
      cases hbyte with
      | plain c hc =>
          rw [List.singleton_append, decode_cons hc.2.1, ih, unplus, if_neg hc.2.2.2.1]
      | plus =>
          rw [List.singleton_append, decode_cons (by decide), ih]
          rfl
      | escape c a b hc =>
          have hdecode := decode_escape hc
          rw [List.cons_append, List.cons_append, List.singleton_append, hdecode, ih]

/-- In an encoding, two hexadecimal digits stand behind every percent sign. -/
theorem Encodes.wellEscaped {s t : List UInt8} (h : Encodes s t) : WellEscaped t := by
  induction h with
  | nil => exact wellEscaped_nil
  | cons hbyte _ ih =>
      cases hbyte with
      | plain c hc => exact (wellEscaped_cons_of_ne hc.2.1).mpr ih
      | plus => exact (wellEscaped_cons_of_ne (by decide)).mpr ih
      | escape c a b hc => exact wellEscaped_escape.mpr ⟨by rw [hc]; rfl, ih⟩

/-- The separators are always escaped. -/
theorem Encodes.not_mem {s t : List UInt8} (h : Encodes s t) : 38 ∉ t ∧ 61 ∉ t := by
  induction h with
  | nil => simp
  | cons hbyte _ ih =>
      simp only [List.mem_append, not_or]
      cases hbyte with
      | plain c hc =>
          simp only [List.mem_singleton]
          exact ⟨⟨hc.2.2.1.symm, ih.1⟩, ⟨hc.2.2.2.2.symm, ih.2⟩⟩
      | plus => exact ⟨⟨by decide, ih.1⟩, ⟨by decide, ih.2⟩⟩
      | escape c a b hc =>
          obtain ⟨ha, hb⟩ := hexValue_of_escaped (by rw [hc]; rfl)
          obtain ⟨-, ha38, ha61⟩ := hexValue_ne ha
          obtain ⟨-, hb38, hb61⟩ := hexValue_ne hb
          simp [ha38.symm, ha61.symm, hb38.symm, hb61.symm, ih.1, ih.2]

/-! ### Maps -/

/-- An encoding of a pair. -/
def EncodesPair (pair : List UInt8 × List UInt8) (t : List UInt8) : Prop :=
  ∃ k v, Encodes pair.1 k ∧ Encodes pair.2 v ∧ t = k ++ 61 :: v

/-- **An encoding of a finite map**: its pairs, each once and in any order. -/
def FormEncodes (map : List UInt8 → Option (List UInt8)) (t : List UInt8) : Prop :=
  ∃ (pairs : List (List UInt8 × List UInt8)) (texts : List (List UInt8)),
    (pairs.map Prod.fst).Nodup ∧ (∀ k v, map k = some v ↔ (k, v) ∈ pairs) ∧
      List.Forall₂ EncodesPair pairs texts ∧ t = [38].intercalate texts

/-- The text of a pair has no separator of pairs in it, and is not empty. -/
theorem EncodesPair.text {pair : List UInt8 × List UInt8} {t : List UInt8}
    (h : EncodesPair pair t) : 38 ∉ t ∧ t ≠ [] := by
  obtain ⟨k, v, hk, hv, rfl⟩ := h
  exact ⟨by simp [hk.not_mem.1, hv.not_mem.1], by simp⟩

/-- The texts of pairs have no separator of pairs in them, and none is empty. -/
theorem forall_text_of_pairs {pairs : List (List UInt8 × List UInt8)} {texts : List (List UInt8)}
    (h : List.Forall₂ EncodesPair pairs texts) : ∀ t ∈ texts, 38 ∉ t ∧ t ≠ [] := by
  induction h with
  | nil => simp
  | cons hpair _ ih => exact List.forall_mem_cons.mpr ⟨hpair.text, ih⟩

/-- **The pairs of an encoding are found by the separators.** -/
theorem splitOn_pairs {pairs : List (List UInt8 × List UInt8)} {texts : List (List UInt8)}
    (h : List.Forall₂ EncodesPair pairs texts) (hne : texts ≠ []) :
    ([38].intercalate texts).splitOn 38 = texts :=
  List.splitOn_intercalate 38 (fun t ht => (forall_text_of_pairs h t ht).1) hne

end FormUrl
