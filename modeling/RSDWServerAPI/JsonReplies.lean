import RSDWServerAPI.Bans
import RSDWServerAPI.HttpServer
import RSDWServerAPI.Items
import RSDWServerAPI.JsonData
import RSDWServerAPI.Webhook

/-!
# The JSON texts that the server writes

No JSON library stands behind the replies of the API, `bans.json` and the payload of a webhook:
they are put together from literals, `Json::Escape` and `std::to_string`. The handlers of
`GET /api/bans` and `GET /api/items` (`api/player_routes.cpp`) and the helpers `Error` and `Ok`
(`api/api_routes.h`) are modelled here, and each text is read by the grammar.

## Main results

* `replies_faithful`: **each text is well formed and stands for what it was made from**, its
  strings without the control characters that `Escape` drops.
* `reads_escape`: what `Escape` writes is one complete string.
* `reads_decimal`: what `std::to_string` writes is a number.
-/

namespace RSDWServerAPI.ApiRoutes

open Json JsonText

/-! ### The replies -/

/-- `Error`. -/
def error (status : ℕ) (message : Bytes) : HttpResponse where
  status
  body := bytes "\x7b\"error\":\"" ++ escape message ++ bytes "\"\x7d"

/-- `EngineUnavailable`. -/
def engineUnavailable : HttpResponse :=
  error 503 (bytes "Engine not initialized")

/-- `JsonResponse`. -/
def jsonResponse (body : Bytes) : HttpResponse where
  status := 200
  body

/-- `Ok`. -/
def ok (message : Bytes) : HttpResponse :=
  jsonResponse (bytes "\x7b\"status\":\"ok\",\"message\":\"" ++ escape message ++ bytes "\"\x7d")

/-- The loops with a flag `first`: a comma in front of every entry but the first, and nothing
for an entry that is passed over. -/
def listed {α : Type} (keep : α → Bool) (entry : α → Bytes) (first : Bool) : List α → Bytes
  | [] => []
  | x :: xs =>
      if keep x then (if first then [] else bytes ",") ++ entry x ++ listed keep entry false xs
      else listed keep entry first xs

/-- One entry of `GET /api/bans`. -/
def banText (ban : BanEntry) : Bytes :=
  bytes "\x7b\"netId\":\"" ++ escape ban.netId ++
    bytes "\",\"name\":\"" ++ escape ban.name ++
    bytes "\",\"reason\":\"" ++ escape ban.reason ++
    bytes "\",\"bannedAt\":\"" ++ escape ban.bannedAt ++ bytes "\"\x7d"

/-- `GET /api/bans`; `all` is `DomBans::All`. -/
def getBans (all : List BanEntry) : HttpResponse :=
  jsonResponse (bytes "\x7b\"bans\":[" ++ listed (fun _ => true) banText true all ++
    bytes "]\x7d")

/-- One entry of `GET /api/items`. -/
def itemText (item : DomItems.ItemInfo) : Bytes :=
  bytes "\x7b\"name\":\"" ++ escape item.name ++ bytes "\",\"maxStackSize\":" ++
    decimal item.maxStackSize.toInt ++ bytes "\x7d"

/-- The filter of `GET /api/items`: whether an item is listed. -/
def itemKept (filter : Bytes) (item : DomItems.ItemInfo) : Bool :=
  !(filter != [] && (afterFirst filter (lower item.name)).isNone)

/-- The `filter` that the request asks for. -/
def searchFilter (req : HttpRequest) : Bytes :=
  ((req.query.lookup (bytes "search")).map lower).getD []

/-- `GET /api/items`; `loaded` is `DomItems::ListLoaded`. -/
def getItems (engineReady : Bool) (loaded : List DomItems.ItemInfo) (req : HttpRequest) :
    HttpResponse :=
  if !engineReady then engineUnavailable
  else jsonResponse (bytes "\x7b\"items\":[" ++
    listed (itemKept (searchFilter req)) itemText true loaded ++ bytes "]\x7d")

/-! ### What the texts are to stand for -/

/-- A text as a string: `Escape` drops control characters. -/
def textData (s : Bytes) : Data :=
  .string (clean s)

/-- An error. -/
def errorData (message : Bytes) : Data :=
  .object [(bytes "error", textData message)]

/-- A success. -/
def okData (message : Bytes) : Data :=
  .object [(bytes "status", textData (bytes "ok")), (bytes "message", textData message)]

/-- A ban. -/
def banData (ban : BanEntry) : Data :=
  .object [(bytes "netId", textData ban.netId), (bytes "name", textData ban.name),
    (bytes "reason", textData ban.reason), (bytes "bannedAt", textData ban.bannedAt)]

/-- An item. -/
def itemData (item : DomItems.ItemInfo) : Data :=
  .object [(bytes "name", textData item.name),
    (bytes "maxStackSize", .number (item.maxStackSize.toInt : ℚ))]

/-- The bans. -/
def bansData (bans : List BanEntry) : Data :=
  .object [(bytes "bans", .array (bans.map banData))]

/-- The items whose name has the search text in it, cases aside. -/
def itemsData (engineReady : Bool) (loaded : List DomItems.ItemInfo) (filter : Bytes) : Data :=
  if engineReady then .object [(bytes "items",
    .array ((loaded.filter fun item => filter <:+: lower item.name).map itemData))]
  else errorData (bytes "Engine not initialized")

/-- A webhook payload. -/
def payloadData (username content : Bytes) : Data :=
  .object [(bytes "username", textData username), (bytes "content", textData content),
    (bytes "allowed_mentions", .object [(bytes "parse", .array [])])]

/-! ### Strings and numbers -/

/-- **`Escape` writes one complete string**: every byte becomes a piece or nothing. -/
theorem exists_str_escape (s : Bytes) :
    ∃ a : Str, Str.inner a = escape s ∧ Str.decode a = some (clean s) := by
  induction s with
  | nil => exact ⟨[], rfl, rfl⟩
  | cons c s ih =>
      obtain ⟨a, hinner, hdecode⟩ := ih
      rcases escapeByte_cases c with ⟨hd, he⟩ | ⟨hd, d, hmem, he, hu⟩ | ⟨hd, he, h1, h2, h32⟩
      · exact ⟨a, by rw [escape_cons, he, hinner]; rfl, by simp [clean, hd, hdecode]⟩
      · obtain ⟨e, rfl, hvalue⟩ : ∃ e : Escape, e.letter = d ∧ e.value = unescapeByte d := by
          simp only [List.mem_cons, List.not_mem_nil, or_false] at hmem
          rcases hmem with rfl | rfl | rfl | rfl | rfl
          · exact ⟨.quote, rfl, rfl⟩
          · exact ⟨.backslash, rfl, rfl⟩
          · exact ⟨.n, rfl, rfl⟩
          · exact ⟨.r, rfl, rfl⟩
          · exact ⟨.t, rfl, rfl⟩
        refine ⟨.escape e :: a, ?_, ?_⟩
        · rw [escape_cons, he, ← hinner]
          rfl
        · rw [Str.decode, hdecode, hvalue, hu]
          simp [clean, hd]
      · refine ⟨.plain c ⟨h32, h1, h2⟩ :: a, ?_, ?_⟩
        · rw [escape_cons, he, ← hinner]
          rfl
        · rw [Str.decode, hdecode]
          simp [clean, hd]

/-- A text between quotes. -/
def stringText (s : Bytes) : Bytes :=
  34 :: (escape s ++ [34])

/-- A member: a name between quotes, a colon and what stands behind it. -/
def memberText (name text : Bytes) : Bytes :=
  quoted name ++ 58 :: text

/-- An array or an object without whitespace next to its brackets. -/
def objectText (members : List Bytes) : Bytes :=
  bracket 123 125 noWs members

/-- An escaped string is read as the text that is left of it. -/
theorem reads_escape (s : Bytes) : Reads (stringText s) (textData s) := by
  obtain ⟨a, hinner, hdecode⟩ := exists_str_escape s
  have htext : stringText s = Str.text a := by
    rw [stringText, Str.text, hinner]
    rfl
  rw [htext]
  exact reads_string hdecode

/-- A plain name is spelled as it is. -/
theorem exists_str_plain {name : Bytes} (hname : PlainKey name) :
    ∃ a : Str, Str.text a = quoted name ∧ Str.decode a = some name := by
  obtain ⟨a, hinner, hdecode⟩ := exists_str_escape name
  have hclean : clean name = name := by
    refine clean_of_forall fun c hc => ?_
    have h32 : ¬ c < 32 := UInt8.not_lt.mpr (hname c hc).2.2
    simp [isDropped, h32]
  rw [escape_plain hname] at hinner
  rw [hclean] at hdecode
  refine ⟨a, ?_, hdecode⟩
  rw [Str.text, hinner, quoted]

/-- A plain name in front of a value. -/
theorem readsMember_plain {name u : Bytes} {x : Data} (hname : PlainKey name) (h : Reads u x) :
    ReadsMember (memberText name u) (name, x) := by
  obtain ⟨a, htext, hdecode⟩ := exists_str_plain hname
  refine ⟨noWs, a, noWs, u, ?_, hdecode, h⟩
  rw [memberText, ← htext]
  rfl

/-- A plain name in front of a string. -/
theorem readsMember_escape {name : Bytes} (hname : PlainKey name) (s : Bytes) :
    ReadsMember (memberText name (stringText s)) (name, textData s) :=
  readsMember_plain hname (reads_escape s)

/-- No zero stands in front of another digit. -/
theorem natDecimal_head (n : ℕ) (h : (natDecimal n).head? = some 48) : natDecimal n = [48] := by
  by_cases h0 : n = 0
  · rw [h0]
    rfl
  · exfalso
    have hne : Nat.digits 10 n ≠ [] := Nat.digits_ne_nil_iff_ne_zero.mpr h0
    have hlast := Nat.getLast_digit_ne_zero 10 h0
    have hlt : (Nat.digits 10 n).getLast hne < 10 :=
      Nat.digits_lt_base (by norm_num) (List.getLast_mem hne)
    simp only [natDecimal, if_neg h0, List.head?_map, List.head?_reverse,
      List.getLast?_eq_getLast_of_ne_nil hne, Option.map_some, Option.some.injEq] at h
    generalize (Nat.digits 10 n).getLast hne = d at hlast hlt h
    interval_cases d <;> first | exact hlast rfl | exact absurd h (by decide)

/-- The digits of a number, as the grammar has them. -/
def decimalDigits (n : ℕ) : Digits where
  val := natDecimal n
  property := by
    obtain ⟨c, rest, hcons, -⟩ := exists_natDecimal n
    refine ⟨by simp [hcons], fun c hc => ?_⟩
    exact isDigit_of_mem_natDecimal hc

/-- An integer, as the grammar has it. -/
def decimalNumber (i : ℤ) : Number where
  negative := i < 0
  int := decimalDigits i.natAbs
  noLeadingZero := natDecimal_head i.natAbs
  frac := none
  exp := none

/-- **`std::to_string` writes a number.** -/
theorem reads_decimal (i : ℤ) : Reads (decimal i) (.number (i : ℚ)) := by
  have htext : (decimalNumber i).text = decimal i := by
    simp only [decimalNumber, decimalDigits, Number.text, decimal, decide_eq_true_eq,
      Option.elim_none, List.append_nil]
    split <;> rfl
  have hdigits : Digits.value (decimalDigits i.natAbs) = i.natAbs := digitsValue_natDecimal _
  have hvalue : (decimalNumber i).value = i := by
    have habs : ((i.natAbs : ℤ) : ℚ) = (i.natAbs : ℚ) := Int.cast_natCast _
    simp only [decimalNumber, Number.value, hdigits, decide_eq_true_eq, Option.elim_none, add_zero,
      zpow_zero, mul_one, ← habs]
    split
    · next hneg =>
        rw [Int.ofNat_natAbs_of_nonpos hneg.le]
        simp
    · next hpos =>
        rw [Int.natAbs_of_nonneg (not_lt.mp hpos)]
        simp
  rw [← htext, ← hvalue]
  exact reads_number _

/-! ### Lists -/

/-- Entries behind the first one. -/
theorem listed_false {α : Type} (keep : α → Bool) (entry : α → Bytes) (xs : List α) :
    listed keep entry false xs = ((xs.filter keep).map entry).flatMap fun y => 44 :: y := by
  induction xs with
  | nil => rfl
  | cons x xs ih =>
      rw [listed, ih]
      cases hk : keep x <;> simp [hk]
      rfl

/-- **The loops put commas between the entries that are kept.** -/
theorem listed_eq {α : Type} (keep : α → Bool) (entry : α → Bytes) (xs : List α) :
    listed keep entry true xs = commaJoin ((xs.filter keep).map entry) := by
  induction xs with
  | nil => rfl
  | cons x xs ih =>
      rw [listed]
      cases hk : keep x with
      | false => simp [hk, ih]
      | true => simp [hk, listed_false, commaJoin_cons]

/-- A list of entries between square brackets. -/
theorem reads_listed {α : Type} (keep : α → Bool) {entry : α → Bytes} {data : α → Data}
    (h : ∀ x, Reads (entry x) (data x)) (xs : List α) :
    Reads (91 :: (listed keep entry true xs ++ [93])) (.array ((xs.filter keep).map data)) := by
  have hall : List.Forall₂ Reads ((xs.filter keep).map entry) ((xs.filter keep).map data) := by
    rw [List.forall₂_map_left_iff, List.forall₂_map_right_iff, List.forall₂_same]
    exact fun x _ => h x
  have hread := reads_array hall noWs
  have htext : bracket 91 93 noWs ((xs.filter keep).map entry) =
      91 :: (listed keep entry true xs ++ [93]) := by
    rw [bracket, listed_eq]
    split
    · next hnil => simp [hnil, noWs, commaJoin]
    · rfl
  rwa [htext] at hread

/-! ### The texts -/

/-- A text as an object: its members with commas between them. -/
theorem reads_objectText {texts : List Bytes} {xs : List (Bytes × Data)}
    (h : List.Forall₂ ReadsMember texts xs) : Reads (objectText texts) (.object xs) :=
  reads_object h noWs

/-- An object with one member. -/
theorem reads_objectText_one {name u : Bytes} {x : Data} (hname : PlainKey name) (h : Reads u x) :
    Reads (objectText [memberText name u]) (.object [(name, x)]) :=
  reads_objectText (.cons (readsMember_plain hname h) .nil)

/-- A refusal is read as its message. -/
theorem reads_error (status : ℕ) (message : Bytes) :
    Reads (error status message).body (errorData message) := by
  have htext : (error status message).body =
      objectText [memberText (bytes "error") (stringText message)] := by
    simp [error, objectText, memberText, stringText, bracket, commaJoin, quoted, bytes]
  rw [htext]
  exact reads_objectText_one (by decide) (reads_escape message)

/-- A success is read as its message. -/
theorem reads_ok (message : Bytes) : Reads (ok message).body (okData message) := by
  have htext : (ok message).body =
      objectText [memberText (bytes "status") (stringText (bytes "ok")),
        memberText (bytes "message") (stringText message)] := by
    simp [ok, jsonResponse, objectText, memberText, stringText, bracket, commaJoin, quoted, bytes,
      escape, escapeByte]
  rw [htext]
  exact reads_objectText (.cons (readsMember_escape (by decide) _)
    (.cons (readsMember_escape (by decide) message) .nil))

/-- An entry of the ban list is read as its fields. -/
theorem reads_banText (ban : BanEntry) : Reads (banText ban) (banData ban) := by
  have htext : banText ban = objectText [memberText (bytes "netId") (stringText ban.netId),
      memberText (bytes "name") (stringText ban.name),
      memberText (bytes "reason") (stringText ban.reason),
      memberText (bytes "bannedAt") (stringText ban.bannedAt)] := by
    simp [banText, objectText, memberText, stringText, bracket, commaJoin, quoted, bytes]
  rw [htext]
  exact reads_objectText (.cons (readsMember_escape (by decide) _)
    (.cons (readsMember_escape (by decide) _)
      (.cons (readsMember_escape (by decide) _)
        (.cons (readsMember_escape (by decide) _) .nil))))

/-- An item is read as its fields. -/
theorem reads_itemText (item : DomItems.ItemInfo) : Reads (itemText item) (itemData item) := by
  have htext : itemText item = objectText [memberText (bytes "name") (stringText item.name),
      memberText (bytes "maxStackSize") (decimal item.maxStackSize.toInt)] := by
    simp [itemText, objectText, memberText, stringText, bracket, commaJoin, quoted, bytes]
  rw [htext]
  exact reads_objectText (.cons (readsMember_escape (by decide) _)
    (.cons (readsMember_plain (by decide) (reads_decimal _)) .nil))

/-- The reply of `GET /api/bans` is read as the ban list. -/
theorem reads_getBans (bans : List BanEntry) : Reads (getBans bans).body (bansData bans) := by
  have htext : (getBans bans).body = objectText [memberText (bytes "bans")
      (91 :: (listed (fun _ => true) banText true bans ++ [93]))] := by
    simp [getBans, jsonResponse, objectText, memberText, bracket, commaJoin, quoted, bytes]
  have hread := reads_listed (fun _ => true) reads_banText bans
  rw [List.filter_true] at hread
  rw [htext]
  exact reads_objectText_one (by decide) hread

/-- The filter keeps the items whose name has the search text in it, cases aside. -/
theorem itemKept_iff (filter : Bytes) (item : DomItems.ItemInfo) :
    itemKept filter item = true ↔ filter <:+: lower item.name := by
  rw [← afterFirst_isSome_iff, itemKept]
  by_cases hfilter : filter = []
  · have hfound : afterFirst ([] : Bytes) (lower item.name) = some (lower item.name) :=
      afterFirst_append [] _
    simp [hfilter, hfound]
  · cases afterFirst filter (lower item.name) <;> simp [hfilter]

/-- What the request searches for: the value of `search`, lower-cased, and nothing without one. -/
theorem searchFilter_eq (req : HttpRequest) :
    searchFilter req = lower ((req.query.lookup (bytes "search")).getD []) := by
  rw [searchFilter]
  cases req.query.lookup (bytes "search") with
  | none => rfl
  | some value => rfl

/-- The reply of `GET /api/items` is read as the items that were asked for. -/
theorem reads_getItems (engineReady : Bool) (loaded : List DomItems.ItemInfo)
    (req : HttpRequest) :
    Reads (getItems engineReady loaded req).body
      (itemsData engineReady loaded (lower ((req.query.lookup (bytes "search")).getD []))) := by
  rw [← searchFilter_eq]
  cases engineReady with
  | false => exact reads_error 503 _
  | true =>
      have htext : (getItems true loaded req).body = objectText [memberText (bytes "items")
          (91 :: (listed (itemKept (searchFilter req)) itemText true loaded ++ [93]))] := by
        simp [getItems, jsonResponse, objectText, memberText, bracket, commaJoin, quoted, bytes]
      have hkept : itemKept (searchFilter req) =
          fun item => decide (searchFilter req <:+: lower item.name) := by
        funext item
        rw [Bool.eq_iff_iff, decide_eq_true_eq]
        exact itemKept_iff _ item
      have hread := reads_listed (itemKept (searchFilter req)) reads_itemText loaded
      rw [htext]
      rw [hkept] at hread ⊢
      exact reads_objectText_one (by decide) hread

/-! ### `bans.json` -/

/-- The entries of `bans.json` with the whitespace around them. -/
def fileEntries : List BanEntry → List Bytes
  | [] => []
  | [ban] => [bytes "\n  " ++ (banText ban ++ bytes "\n")]
  | ban :: rest => (bytes "\n  " ++ (banText ban ++ bytes "")) :: fileEntries rest

/-- An entry of `bans.json` is one of `GET /api/bans`, indented. -/
theorem entryText_eq (ban : BanEntry) : DomBans.entryText ban = bytes "  " ++ banText ban := by
  simp [DomBans.entryText, banText, bytes]

/-- The loop of `SaveLocked` puts commas between the entries. -/
theorem entriesText_eq (ban : BanEntry) (rest : List BanEntry) :
    10 :: DomBans.entriesText (ban :: rest) = commaJoin (fileEntries (ban :: rest)) := by
  induction rest generalizing ban with
  | nil => simp [DomBans.entriesText, fileEntries, commaJoin, entryText_eq, bytes]
  | cons next rest ih =>
      have hne : fileEntries (next :: rest) ≠ [] := by
        cases rest <;> simp [fileEntries]
      obtain ⟨x, xs, hxs⟩ := List.exists_cons_of_ne_nil hne
      rw [DomBans.entriesText, fileEntries, hxs, commaJoin, ← hxs, ← ih, entryText_eq]
      · simp [bytes]
      · simp
      · simp
      · simp

/-- The entries of `bans.json` are read one by one. -/
theorem reads_fileEntries (bans : List BanEntry) :
    List.Forall₂ Reads (fileEntries bans) (bans.map banData) := by
  have hpad : ∀ (ban : BanEntry) (after : Ws),
      Reads (bytes "\n  " ++ (banText ban ++ after.val)) (banData ban) := by
    intro ban after
    exact (reads_banText ban).pad ⟨bytes "\n  ", by simp [bytes, IsWs]⟩ after
  induction bans with
  | nil => exact .nil
  | cons ban rest ih =>
      cases rest with
      | nil => exact .cons (hpad ban ⟨bytes "\n", by simp [bytes, IsWs]⟩) .nil
      | cons next rest => exact .cons (hpad ban noWs) ih

/-- `bans.json` is read as the ban list. -/
theorem reads_saveLocked (bans : List BanEntry) :
    Reads (DomBans.saveLocked bans) (.array (bans.map banData)) := by
  let lineEnd : Ws := ⟨bytes "\n", by simp [bytes, IsWs]⟩
  have hread := (reads_array (reads_fileEntries bans) lineEnd).pad noWs lineEnd
  have htext : noWs.val ++ (bracket 91 93 lineEnd (fileEntries bans) ++ lineEnd.val) =
      DomBans.saveLocked bans := by
    cases bans with
    | nil => rfl
    | cons ban rest =>
        have hne : fileEntries (ban :: rest) ≠ [] := by
          cases rest <;> simp [fileEntries]
        rw [bracket, if_neg hne, ← entriesText_eq]
        simp [DomBans.saveLocked, noWs, lineEnd, bytes]
  rwa [htext] at hread

/-! ### The payload of a webhook -/

/-- The body of a webhook is read as its two fields. -/
theorem reads_payload (username content : Bytes) :
    Reads (Discord.payload username content) (payloadData username content) := by
  have htext : Discord.payload username content =
      objectText [memberText (bytes "username") (stringText username),
        memberText (bytes "content") (stringText content),
        memberText (bytes "allowed_mentions")
          (objectText [memberText (bytes "parse") (bracket 91 93 noWs [])])] := by
    simp [Discord.payload, objectText, memberText, stringText, bracket, commaJoin, quoted, noWs,
      bytes]
  have hmentions : Reads (objectText [memberText (bytes "parse") (bracket 91 93 noWs [])])
      (.object [(bytes "parse", .array [])]) :=
    reads_objectText_one (by decide) (reads_array .nil noWs)
  rw [htext]
  exact reads_objectText (.cons (readsMember_escape (by decide) _)
    (.cons (readsMember_escape (by decide) _)
      (.cons (readsMember_plain (by decide) hmentions) .nil)))

/-- **Every text is well formed and faithful.** For all byte strings and all lists, each text
is accepted by the grammar and stands for the members and the elements it was made from, and by
`Reads.unique` for nothing else; each string is as it was but for the control characters that
`Escape` drops. -/
theorem replies_faithful :
    (∀ status message, Reads (error status message).body (errorData message)) ∧
    (∀ message, Reads (ok message).body (okData message)) ∧
    (∀ bans, Reads (getBans bans).body (bansData bans)) ∧
    (∀ engineReady loaded req, Reads (getItems engineReady loaded req).body
      (itemsData engineReady loaded (lower ((req.query.lookup (bytes "search")).getD [])))) ∧
    (∀ bans, Reads (DomBans.saveLocked bans) (.array (bans.map banData))) ∧
    ∀ username content,
      Reads (Discord.payload username content) (payloadData username content) :=
  ⟨reads_error, reads_ok, reads_getBans, reads_getItems, reads_saveLocked, reads_payload⟩

end RSDWServerAPI.ApiRoutes
