import RSDWServerAPI.FormUrl
import RSDWServerAPI.HttpServer

/-!
# The query of a request

`HttpServer::ParseQuery` splits the target of a request, and `HttpServer::UrlDecode` decodes the
names and the values. `UrlDecode` takes every `%` with two bytes behind it for an escape, and
reads these bytes with a stream extraction that makes something of any two bytes: `0`, or the
value of the one digit there is.

## Main results

* `readsBack_and_leavesMalformed_iff`: **the query of an encoding of a map is that map**, and
  `UrlDecode` is the decoding `FormUrl.decode` exactly on the strings with two hexadecimal digits
  behind each `%` that has two bytes behind it.
* `not_leavesMalformed_zz`: `%zz` is read as a zero byte.
-/

namespace RSDWServerAPI.HttpServer

open Ascii (hexValue)
open FormUrl

/-! ### Escapes -/

/-- `isxdigit` and the value of a digit. -/
theorem hexValue_eq (c : UInt8) :
    hexValue c = if isHexDigit c then some (hexDigit c) else none := by
  simp only [hexValue, isHexDigit, hexDigit, isDigit, Bool.or_eq_true, Bool.and_eq_true,
    decide_eq_true_eq, UInt8.le_iff_toNat_le]
  split_ifs <;> first | rfl | (exfalso; simp at *; omega)

/-- A hexadecimal digit is neither a blank nor a sign. -/
theorem isHexDigit_ne {c : UInt8} (h : isHexDigit c = true) :
    isSpace c = false ∧ c ≠ 45 ∧ c ≠ 43 := by
  simp only [isHexDigit, isDigit, Bool.or_eq_true, Bool.and_eq_true, decide_eq_true_eq,
    UInt8.le_iff_toNat_le] at h
  refine ⟨?_, ?_, ?_⟩
  · rw [Bool.eq_false_iff]
    intro hspace
    simp only [isSpace, Bool.or_eq_true, Bool.and_eq_true, decide_eq_true_eq, beq_iff_eq,
      UInt8.le_iff_toNat_le, ← UInt8.toNat_inj] at hspace
    simp at h hspace
    omega
  · rintro rfl
    simp at h
  · rintro rfl
    simp at h

/-- A digit is less than sixteen. -/
theorem hexDigit_lt {c : UInt8} (h : isHexDigit c = true) : hexDigit c < 16 := by
  simp only [isHexDigit, isDigit, Bool.or_eq_true, Bool.and_eq_true, decide_eq_true_eq,
    UInt8.le_iff_toNat_le] at h
  simp only [hexDigit, isDigit, Bool.and_eq_true, decide_eq_true_eq, UInt8.le_iff_toNat_le]
  simp at h ⊢
  split_ifs <;> omega

/-- Two bytes make an escape if both are digits. -/
theorem escaped_eq (a b : UInt8) : escaped a b =
    if isHexDigit a ∧ isHexDigit b then some (UInt8.ofNat (hexDigit a * 16 + hexDigit b))
    else none := by
  rw [escaped, hexValue_eq, hexValue_eq]
  cases isHexDigit a <;> cases isHexDigit b <;> rfl

/-- Two hexadecimal digits are read as the byte that they stand for. -/
theorem hexByte_of_escaped {a b value : UInt8} (h : escaped a b = some value) :
    hexByte [a, b] = value := by
  rw [escaped_eq] at h
  split at h
  · next hab =>
      obtain ⟨hspace, hminus, hplus⟩ := isHexDigit_ne hab.1
      have hdrop : [a, b].dropWhile isSpace = [a, b] :=
        List.dropWhile_cons_of_neg (by simp [hspace])
      have htake : [a, b].takeWhile isHexDigit = [a, b] :=
        List.takeWhile_eq_self_iff.mpr (by simp [hab.1, hab.2])
      have hvalue := Option.some.inj h
      rw [← hvalue]
      simp [hexByte, hdrop, hminus, hplus, htake]
  · cases h

/-- At most one digit is less than sixteen. -/
theorem foldl_hexDigit_lt {ds : Bytes} (h : ∀ d ∈ ds, isHexDigit d = true)
    (hlength : ds.length ≤ 1) : ds.foldl (fun n c => n * 16 + hexDigit c) 0 < 16 := by
  rcases ds with - | ⟨d, - | ⟨e, ds⟩⟩
  · simp
  · simpa using hexDigit_lt (h d List.mem_cons_self)
  · simp at hlength

/-- Two bytes that make no escape start with one digit at most. -/
theorem length_takeWhile_le {a b : UInt8} (h : escaped a b = none) {s : Bytes}
    (hs : s.length ≤ 1 ∨ s = [a, b]) : (s.takeWhile isHexDigit).length ≤ 1 := by
  rcases hs with hs | rfl
  · exact (List.takeWhile_sublist _).length_le.trans hs
  · rw [escaped_eq] at h
    cases ha : isHexDigit a with
    | false => simp [ha]
    | true =>
        cases hb : isHexDigit b with
        | false => simp [ha, hb]
        | true => simp [ha, hb] at h

/-- Without the blanks in front of them, two bytes are still these two, or one at most. -/
theorem dropWhile_isSpace_pair (a b : UInt8) :
    ([a, b].dropWhile isSpace).length ≤ 1 ∨ [a, b].dropWhile isSpace = [a, b] := by
  cases ha : isSpace a with
  | false => exact .inr (List.dropWhile_cons_of_neg (by simp [ha]))
  | true =>
      rw [List.dropWhile_cons_of_pos ha]
      exact .inl (List.dropWhile_sublist _).length_le

/-- **Any other two bytes are not read as a percent sign**: there is at most one digit. -/
theorem hexByte_ne_percent {a b : UInt8} (h : escaped a b = none) : hexByte [a, b] ≠ 37 := by
  have hsmall : ∀ v < 16, UInt8.ofNat v ≠ 37 ∧ 0 - UInt8.ofNat v ≠ 37 := by
    decide
  have hread : ∀ s : Bytes, s.length ≤ 1 ∨ s = [a, b] →
      (s.takeWhile isHexDigit).foldl (fun n c => n * 16 + hexDigit c) 0 < 16 := fun s hs =>
    foldl_hexDigit_lt (fun d hd => List.mem_takeWhile_imp hd) (length_takeWhile_le h hs)
  have hblank := dropWhile_isSpace_pair a b
  rw [hexByte]
  generalize [a, b].dropWhile isSpace = s at hblank
  have htail : s.tail.length ≤ 1 := by
    rcases hblank with hs | rfl
    · rw [List.length_tail]
      omega
    · simp
  have hvalue : ((if s.head? == some 45 || s.head? == some 43 then s.tail else s).takeWhile
      isHexDigit).foldl (fun n c => n * 16 + hexDigit c) 0 < 16 := by
    split
    · exact hread _ (.inl htail)
    · exact hread _ hblank
  split
  · exact (hsmall _ hvalue).2
  · exact (hsmall _ hvalue).1

/-- **`UrlDecode` decodes a string exactly if its escapes are well formed.** -/
theorem urlDecode_eq_iff (s : Bytes) : urlDecode s = decode s ↔ WellEscaped s := by
  induction s using urlDecode.induct with
  | case1 => exact iff_of_true rfl wellEscaped_nil
  | case2 c => exact iff_of_true rfl (wellEscaped_of_length (by simp))
  | case3 c d => exact iff_of_true rfl (wellEscaped_of_length (by simp))
  | case4 a b rest ih =>
      rw [urlDecode, if_pos rfl, wellEscaped_escape]
      cases hvalue : escaped a b with
      | none =>
          rw [decode, if_pos rfl, hvalue]
          refine iff_of_false (fun heq => ?_) (by simp)
          exact hexByte_ne_percent hvalue (List.cons.inj heq).1
      | some value =>
          rw [decode_escape hvalue, hexByte_of_escaped hvalue, List.cons.injEq,
            and_iff_right rfl, ih]
          exact (and_iff_right rfl).symm
  | case5 c a b rest hc ih =>
      rw [urlDecode, if_neg hc, decode_cons hc, wellEscaped_cons_of_ne hc, ← ih]
      have hbyte : urlByte c = unplus c := rfl
      rw [hbyte, List.cons.injEq, and_iff_right rfl]

/-! ### Encoded maps -/

/-- An encoding is decoded to what it encodes. -/
theorem urlDecode_encodes {s t : Bytes} (h : Encodes s t) : urlDecode t = s := by
  rw [(urlDecode_eq_iff t).mpr h.wellEscaped, decode_encodes h]

/-- The loop adds the pair that is encoded. -/
theorem addPair_encodes {pair : Bytes × Bytes} {t : Bytes} (h : EncodesPair pair t)
    (query : Fields) : addPair query t = query.set pair.1 pair.2 := by
  obtain ⟨k, v, hk, hv, rfl⟩ := h
  have hcut : cutFirst [61] (k ++ 61 :: v) = some (k, v) :=
    cutFirst_singleton_eq_some_iff.mpr ⟨rfl, hk.not_mem.2⟩
  simp only [addPair, hcut, urlDecode_encodes hk, urlDecode_encodes hv]

/-- The pairs of an encoding are entered one after the other. -/
theorem foldl_addPair {pairs : List (Bytes × Bytes)} {texts : List Bytes}
    (h : List.Forall₂ EncodesPair pairs texts) (query : Fields) :
    texts.foldl addPair query =
      pairs.foldl (fun (map : Fields) field => map.set field.1 field.2) query := by
  induction h generalizing query with
  | nil => rfl
  | cons hpair _ ih => rw [List.foldl_cons, List.foldl_cons, addPair_encodes hpair, ih]

/-- The pieces of an encoding are the texts of its pairs. -/
theorem pieces_intercalate {pairs : List (Bytes × Bytes)} {texts : List Bytes}
    (h : List.Forall₂ EncodesPair pairs texts) :
    pieces 38 ([38].intercalate texts) = texts := by
  rcases texts.eq_nil_or_concat with rfl | ⟨init, last, rfl⟩
  · rfl
  · have hsplit := splitOn_pairs h (by simp)
    have hlast : last ≠ [] := (forall_text_of_pairs h last (by simp)).2
    have hpieces : ([38].intercalate (init.concat last)).splitOnP (fun c => c == 38) =
        init.concat last := hsplit
    rw [pieces, hpieces, if_neg (by simpa using hlast)]

/-- The target is read back: its path, and exactly the map that its query encodes. -/
def ReadsBack (path text : Bytes) (map : Bytes → Option Bytes) : Prop :=
  (parseQuery (path ++ 63 :: text)).1 = path ∧
    ∀ name, (parseQuery (path ++ 63 :: text)).2.lookup name = map name

/-- **`ParseQuery` inverts the encoding of a map.** -/
theorem readsBack_of_formEncodes {path text : Bytes} {map : Bytes → Option Bytes}
    (hpath : 63 ∉ path) (h : FormEncodes map text) : ReadsBack path text map := by
  obtain ⟨pairs, texts, -, hmap, htexts, rfl⟩ := h
  have hcut : cutFirst [63] (path ++ 63 :: [38].intercalate texts) =
      some (path, [38].intercalate texts) :=
    cutFirst_singleton_eq_some_iff.mpr ⟨rfl, hpath⟩
  have hquery : (pieces 38 ([38].intercalate texts)).foldl addPair [] = Fields.ofList pairs := by
    rw [pieces_intercalate htexts, foldl_addPair htexts]
    rfl
  have hparse : parseQuery (path ++ 63 :: [38].intercalate texts) =
      (path, Fields.ofList pairs) := by
    simp only [parseQuery, hcut, hquery]
  rw [ReadsBack, hparse]
  refine ⟨rfl, fun name => ?_⟩
  obtain ⟨hsome, hnone⟩ := Fields.lookup_ofList pairs name
  cases hlookup : (Fields.ofList pairs).lookup name with
  | some value => exact ((hmap name value).mpr (hsome value hlookup)).symm
  | none =>
      cases hvalue : map name with
      | none => rfl
      | some value => exact absurd ((hmap name value).mp hvalue) (hnone hlookup value)

/-- `UrlDecode` decodes what is an escape and leaves alone what is not. -/
def LeavesMalformed (s : Bytes) : Prop :=
  urlDecode s = decode s

/-- **`ParseQuery` inverts the encoding of every map, and `UrlDecode` leaves alone what is no
escape exactly if nothing is taken for one.** -/
theorem readsBack_and_leavesMalformed_iff (path text : Bytes) (map : Bytes → Option Bytes)
    (s : Bytes) :
    (63 ∉ path → FormEncodes map text → ReadsBack path text map) ∧
      (LeavesMalformed s ↔ WellEscaped s) :=
  ⟨readsBack_of_formEncodes, urlDecode_eq_iff s⟩

/-- A map with one pair, one byte of which is escaped and one a space. -/
theorem readsBack_and_leavesMalformed_iff_one :
    ReadsBack (bytes "/a") (bytes "x=%41+")
      (fun name => if name = bytes "x" then some (bytes "A ") else none) ∧
    (LeavesMalformed (bytes "100%") ↔ WellEscaped (bytes "100%")) := by
  obtain ⟨hback, hmalformed⟩ := readsBack_and_leavesMalformed_iff (bytes "/a") (bytes "x=%41+")
    (fun name => if name = bytes "x" then some (bytes "A ") else none) (bytes "100%")
  refine ⟨hback (by decide) ?_, hmalformed⟩
  refine ⟨[(bytes "x", bytes "A ")], [bytes "x=%41+"], by decide, fun k v => ?_, ?_, by decide⟩
  · simp only [List.mem_singleton, Prod.mk.injEq]
    split
    · next hk => simp [hk, eq_comm]
    · next hk => simp [hk]
  · refine .cons ⟨bytes "x", bytes "%41+", ?_, ?_, by decide⟩ .nil
    · exact .cons (.plain 120 (by decide)) .nil
    · exact .cons (.escape 65 52 49 (by decide)) (.cons .plus .nil)

/-- `%zz` becomes a zero byte. -/
theorem not_leavesMalformed_zz : ¬ LeavesMalformed (bytes "%zz") := by
  rw [LeavesMalformed]
  decide

end RSDWServerAPI.HttpServer
