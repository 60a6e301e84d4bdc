import RSDWServerAPI.Bans

/-!
# `bans.json` across a restart

`SaveLocked` escapes the texts of an entry, but `Load` cuts objects at braces wherever they
stand and finds keys by substring search. So a `\x7d` inside a text ends the object early,
and a `\x7b` behind it starts another one, in which a text that ends in `"netId` makes the
next text a net id. `phantoms` reads these net ids off the texts of an entry, without going
through the file.

## Main results

* `netIds_load_saveLocked`: the net ids that `Load` reads back, for any ban list.
* `restart_iff`: **who is banned is the same after a restart exactly when** a `\x7d` stands
  in a net id only at its end and every phantom is a banned net id.
* `not_restart_planted_name`: a player name that gets the ban's reason banned as a net id.
-/

namespace RSDWServerAPI.DomBans

open Json

/-! ### The loop of `Load` over a text in pieces -/

/-- The object that is being cut after a stretch of text. -/
def carry : Option Bytes → Bytes → Option Bytes
  | st, [] => st
  | none, c :: rest => if c = 123 then carry (some [c]) rest else carry none rest
  | some object, c :: rest =>
      if c = 125 then carry none rest else carry (some (object ++ [c])) rest

/-- The objects of two texts, with what the first one leaves open. -/
theorem objects_append (st : Option Bytes) (x y : Bytes) :
    objects st (x ++ y) = objects st x ++ objects (carry st x) y := by
  induction x generalizing st with
  | nil => cases st <;> simp [objects, carry]
  | cons c x ih =>
      cases st with
      | none =>
          rw [List.cons_append, objects, objects, carry]
          split <;> exact ih _
      | some object =>
          rw [List.cons_append, objects, objects, carry]
          split
          · rw [ih, List.cons_append]
          · exact ih _

/-- What two texts leave open. -/
theorem carry_append (st : Option Bytes) (x y : Bytes) :
    carry st (x ++ y) = carry (carry st x) y := by
  induction x generalizing st with
  | nil => cases st <;> simp [carry]
  | cons c x ih =>
      cases st with
      | none =>
          rw [List.cons_append, carry, carry]
          split <;> exact ih _
      | some object =>
          rw [List.cons_append, carry, carry]
          split <;> exact ih _

/-- Text without an opening brace is passed over. -/
theorem passed_over {x : Bytes} (h : 123 ∉ x) : objects none x = [] ∧ carry none x = none := by
  induction x with
  | nil => exact ⟨rfl, rfl⟩
  | cons c x ih =>
      have hc : c ≠ 123 := fun hc => h (by simp [hc])
      rw [objects, carry, if_neg hc, if_neg hc]
      exact ih fun hx => h (List.mem_cons_of_mem _ hx)

/-- Text without a closing brace goes into the object. -/
theorem taken_in {x : Bytes} (h : 125 ∉ x) (object : Bytes) :
    objects (some object) x = [] ∧ carry (some object) x = some (object ++ x) := by
  induction x generalizing object with
  | nil => exact ⟨rfl, by simp [carry]⟩
  | cons c x ih =>
      have hc : c ≠ 125 := fun hc => h (by simp [hc])
      rw [objects, carry, if_neg hc, if_neg hc]
      simpa using ih (fun hx => h (List.mem_cons_of_mem _ hx)) (object ++ [c])

/-- A closing brace ends the object. -/
theorem objects_close {x : Bytes} (h : 125 ∉ x) (object rest : Bytes) :
    objects (some object) (x ++ 125 :: rest) = (object ++ x ++ [125]) :: objects none rest ∧
      carry (some object) (x ++ 125 :: rest) = carry none rest := by
  rw [objects_append, carry_append, (taken_in h object).1, (taken_in h object).2]
  simp [objects, carry]

/-- The net ids that are read from a stretch of text. -/
def readIds (st : Option Bytes) (text : Bytes) : List Bytes :=
  (objects st text).filterMap fun object => getString object (bytes "netId")

/-- The net ids of two texts, with what the first one leaves open. -/
theorem readIds_append (st : Option Bytes) (x y : Bytes) :
    readIds st (x ++ y) = readIds st x ++ readIds (carry st x) y := by
  simp [readIds, objects_append]

/-- The net ids of the loaded list are those that are read, less the empty ones. -/
theorem mem_netIds_load {content n : Bytes} :
    n ∈ netIds (load content) ↔ n ≠ [] ∧ n ∈ readIds none content := by
  simp only [netIds, load, readIds, List.mem_map, List.mem_filter, List.mem_filterMap]
  constructor
  · rintro ⟨_, ⟨⟨object, ho, rfl⟩, hne⟩, rfl⟩
    have hne' : (readEntry object).netId ≠ [] := of_decide_eq_true hne
    refine ⟨hne', object, ho, ?_⟩
    rw [readEntry] at hne' ⊢
    cases hs : getString object (bytes "netId") with
    | none => simp [hs] at hne'
    | some v => rfl
  · rintro ⟨hne, object, ho, hs⟩
    have hn : (readEntry object).netId = n := by simp [readEntry, hs]
    exact ⟨readEntry object, ⟨⟨object, ho, rfl⟩, by simpa [hn] using hne⟩, hn⟩

/-! ### The net ids that the texts of an entry plant -/

/-- Where the loop of `Load` is with respect to braces. -/
inductive Scan
  /-- In an object whose net id has been found. -/
  | quiet
  /-- Between objects. -/
  | outside
  /-- In an object whose net id has not been found. -/
  | inside
  deriving DecidableEq, Repr

/-- What a byte of a text does. -/
def scanByte (st : Scan) (c : UInt8) : Scan :=
  if c = 125 then .outside else if c = 123 ∧ st = .outside then .inside else st

/-- What a text does. -/
def scan (st : Scan) (s : Bytes) : Scan :=
  s.foldl scanByte st

/-- A text up to its first `\x7d`, which is part of it. -/
def upToBrace : Bytes → Bytes
  | [] => []
  | c :: s => if c = 125 then [c] else c :: upToBrace s

/-- The net ids planted by the texts that follow the text `f`, at whose end the loop is in
the state `st`: when `f` ends in the quoted key, the next text is taken for a net id. -/
def phantomsFrom : Scan → Bytes → List Bytes → List Bytes
  | _, _, [] => []
  | st, f, g :: rest =>
      if st = .inside ∧ EndsInKey (bytes "netId") f then
        upToBrace (clean g) :: phantomsFrom (scan .quiet g) g rest
      else phantomsFrom (scan st g) g rest

/-- The net ids that the texts of an entry plant next to its own. -/
def phantoms (ban : BanEntry) : List Bytes :=
  phantomsFrom (scan .quiet ban.netId) ban.netId [ban.name, ban.reason, ban.bannedAt]

/-! ### One text -/

/-- The braces in escaped text are those of the text. -/
theorem eq_of_brace_mem_escapeByte {b c : UInt8} (hb : b = 123 ∨ b = 125)
    (h : b ∈ escapeByte c) : b = c := by
  rcases escapeByte_cases c with ⟨-, he⟩ | ⟨-, d, hd, he, -⟩ | ⟨-, he, -⟩
  · simp [he] at h
  · rw [he] at h
    simp only [List.mem_cons, List.not_mem_nil, or_false] at hd
    rcases hd with rfl | rfl | rfl | rfl | rfl <;> rcases hb with rfl | rfl <;> simp at h
  · simpa [he] using h

/-- A brace in an escaped text is one of the text. -/
theorem brace_mem_escape {b : UInt8} (hb : b = 123 ∨ b = 125) {s : Bytes} (h : b ∈ escape s) :
    b ∈ s := by
  obtain ⟨c, hc, hbc⟩ := List.mem_flatMap.mp h
  exact eq_of_brace_mem_escapeByte hb hbc ▸ hc

/-- The search for `"netId"` in an object. -/
abbrev search (text : Bytes) : Option Bytes :=
  afterFirst (quoted (bytes "netId")) text

/-- The key is copied as it is. -/
theorem plainKey_netId : PlainKey (bytes "netId") := by decide

/-- A key that is not found has no value. -/
theorem getString_of_search_none {object : Bytes} (h : search object = none) :
    getString object (bytes "netId") = none := by
  have hfind : findValue object (bytes "netId") = none := by
    rw [findValue]
    exact congrArg (Option.bind · _) h
  rw [getString, hfind]

/-- The net id of an object in which the key is found, with the text `y` behind it. -/
theorem findValue_of_search {object y : Bytes} (h : search object = some y) :
    findValue object (bytes "netId") =
      (afterFirst [58] y).map fun value => value.dropWhile fun c => c == 32 || c == 9 := by
  rw [findValue]
  exact congrArg (Option.bind · _) h

/-- No net id is found in escaped text that the closing brace cuts off. -/
theorem search_cut (s : Bytes) : search (escape s ++ [125]) = none :=
  afterFirst_escape_cut (by decide) (by decide) plainKey_netId s

/-- **A text met between objects** plants nothing by itself. At its end the loop is between
objects still or again, or in an object that starts in the text. -/
theorem text_outside (f : Bytes) :
    readIds none (escape f) = [] ∧
      ((scan .outside f = .outside ∧ carry none (escape f) = none) ∨
        (scan .outside f = .inside ∧
          ∃ a b, f = a ++ 123 :: b ∧ carry none (escape f) = some (123 :: escape b))) := by
  induction f using List.reverseRecOn with
  | nil => exact ⟨rfl, Or.inl ⟨rfl, rfl⟩⟩
  | append_singleton f c ih =>
      obtain ⟨hids, hst⟩ := ih
      have hesc : escape (f ++ [c]) = escape f ++ escapeByte c := by simp [escape]
      have hscan : scan .outside (f ++ [c]) = scanByte (scan .outside f) c := by
        simp [scan]
      rw [hesc, readIds_append, hids, List.nil_append, carry_append, hscan]
      rcases hst with ⟨hs, hc⟩ | ⟨hs, a, b, rfl, hc⟩
      · rw [hs, hc]
        by_cases hopen : c = 123
        · subst hopen
          exact ⟨rfl, Or.inr ⟨rfl, f, [], rfl, rfl⟩⟩
        · have hnot : 123 ∉ escapeByte c := fun h =>
            hopen (eq_of_brace_mem_escapeByte (Or.inl rfl) h).symm
          obtain ⟨ho, hcar⟩ := passed_over hnot
          refine ⟨by simp [readIds, ho], Or.inl ⟨?_, hcar⟩⟩
          simp [scanByte, hopen]
      · rw [hs, hc]
        by_cases hclose : c = 125
        · subst hclose
          have hsearch : search (123 :: escape b ++ [125]) = none := by
            rw [List.cons_append, search, afterFirst_quoted_cons (by decide)]
            exact search_cut b
          have hnone := getString_of_search_none hsearch
          refine ⟨?_, Or.inl ⟨rfl, rfl⟩⟩
          simpa [readIds, objects, escapeByte] using hnone
        · have hnot : 125 ∉ escapeByte c := fun h =>
            hclose (eq_of_brace_mem_escapeByte (Or.inr rfl) h).symm
          obtain ⟨ho, hcar⟩ := taken_in hnot (123 :: escape b)
          refine ⟨by simp [readIds, ho], Or.inr ⟨by simp [scanByte, hclose], a, b ++ [c], ?_, ?_⟩⟩
          · simp
          · rw [hcar]
            simp [escape]

/-- A text without a closing brace leaves the loop in its object. -/
theorem scan_of_not_mem {st : Scan} (hst : st ≠ .outside) {f : Bytes} (h : 125 ∉ f) :
    scan st f = st := by
  induction f with
  | nil => rfl
  | cons c f ih =>
      have hc : c ≠ 125 := fun hc => h (by simp [hc])
      have hstep : scanByte st c = st := by simp [scanByte, hc, hst]
      rw [scan, List.foldl_cons, hstep]
      exact ih fun hx => h (List.mem_cons_of_mem _ hx)

/-- Behind a closing brace it makes no difference where the loop was. -/
theorem scan_close (st : Scan) (a b : Bytes) : scan st (a ++ 125 :: b) = scan .outside b := by
  simp [scan, scanByte]

/-- Text without a closing brace is kept. -/
theorem upToBrace_prepend {s : Bytes} (h : 125 ∉ s) (t : Bytes) :
    upToBrace (s ++ t) = s ++ upToBrace t := by
  induction s with
  | nil => rfl
  | cons c s ih =>
      have hc : c ≠ 125 := fun hc => h (by simp [hc])
      rw [List.cons_append, upToBrace, if_neg hc, ih fun hs => h (List.mem_cons_of_mem _ hs),
        List.cons_append]

/-- A text without a closing brace is not cut. -/
theorem upToBrace_of_not_mem {s : Bytes} (h : 125 ∉ s) : upToBrace s = s := by
  have := upToBrace_prepend h []
  rwa [List.append_nil, upToBrace, List.append_nil] at this

/-- A text is cut behind its first closing brace. -/
theorem upToBrace_append {s : Bytes} (h : 125 ∉ s) (t : Bytes) :
    upToBrace (s ++ 125 :: t) = s ++ [125] :=
  upToBrace_prepend h (125 :: t)

/-! ### The texts of an entry one after the other -/

/-- What stands between a text and the next, whose key is given. -/
def separator (key : Bytes) : Bytes :=
  bytes "\",\"" ++ key ++ bytes "\":\""

/-- The texts behind the net id, with their keys, up to the end of the entry. -/
def fieldsText : List (Bytes × Bytes) → Bytes
  | [] => bytes "\"\x7d"
  | (key, value) :: rest => separator key ++ (escape value ++ fieldsText rest)

/-- The keys of an entry behind its net id. -/
def fieldKeys : List Bytes :=
  [bytes "name", bytes "reason", bytes "bannedAt"]

/-- At the end of the text `f` the loop is in an object in which the key has not been found:
it is found with the closing quote of `f`, if `f` ends in it. -/
def Open (f object : Bytes) : Prop :=
  ∀ rest, search (object ++ 34 :: rest) =
    if EndsInKey (bytes "netId") f then some rest else search (34 :: rest)

/-- Behind an opening quote the loop is in an object in which the key has not been found. -/
def Fresh (object : Bytes) : Prop :=
  ∀ rest, search (object ++ rest) = search (34 :: rest)

/-- Behind an opening quote the loop is in an object in which the key has just been found. -/
def Pending (object : Bytes) : Prop :=
  ∀ rest, getString (object ++ rest) (bytes "netId") = some (readString rest)

/-- Behind an opening quote the loop is in an object whose net id is known. -/
def Settled (v object : Bytes) : Prop :=
  ∀ rest, getString (object ++ rest) (bytes "netId") = some v

/-- At the end of a text the loop is in an object whose net id is known. -/
def Closing (v object : Bytes) : Prop :=
  ∀ rest, getString (object ++ 34 :: rest) (bytes "netId") = some v

/-- A field that has not been closed is open. -/
theorem Fresh.openAt {object : Bytes} (h : Fresh object) (f : Bytes) :
    Open f (object ++ escape f) := by
  intro rest
  rw [List.append_assoc, h]
  exact afterFirst_field plainKey_netId f rest

/-- An object that starts inside the text is open at its end. -/
theorem open_of_brace (a b : Bytes) : Open (a ++ 123 :: b) (123 :: escape b) := by
  intro rest
  rw [List.cons_append, search, afterFirst_quoted_cons (by decide),
    afterFirst_escape plainKey_netId]
  have hiff : EndsInKey (bytes "netId") (a ++ 123 :: b) ↔ 34 :: bytes "netId" <:+ clean b := by
    have hclean : 34 :: clean (a ++ 123 :: b) = (34 :: clean a) ++ 123 :: clean b := by
      simp [clean, isDropped]
    rw [EndsInKey, hclean]
    have hb : clean b <:+ (34 :: clean a) ++ 123 :: clean b :=
      (List.suffix_cons _ _).trans (List.suffix_append _ _)
    refine ⟨fun hsuf => ?_, fun hsuf => hsuf.trans hb⟩
    refine List.suffix_of_suffix_length_le hsuf hb (Nat.le_of_not_lt fun hlt => ?_)
    have hbrace : 123 :: clean b <:+ 34 :: bytes "netId" :=
      List.suffix_of_suffix_length_le (List.suffix_append _ _) hsuf hlt
    exact absurd (hbrace.subset List.mem_cons_self) (by decide)
  simp only [hiff]

/-- A net id that has been read stays the same in the fields behind it. -/
theorem Settled.closing {v object : Bytes} (h : Settled v object) (f : Bytes) :
    Closing v (object ++ escape f) := by
  intro rest
  rw [List.append_assoc, h]

/-- A net id that is still to be read is that of the field behind the key. -/
theorem Pending.closing {object : Bytes} (h : Pending object) (f : Bytes) :
    Closing (clean f) (object ++ escape f) := by
  intro rest
  rw [List.append_assoc, h, readString_escape, readString_quote, List.append_nil]

/-- The bytes between two fields. -/
theorem separator_append (key rest : Bytes) :
    separator key ++ rest = 34 :: 44 :: 34 :: (key ++ 34 :: 58 :: 34 :: rest) := by
  simp [separator, bytes]

/-- There is no key `netId` in a separator. -/
theorem search_separator {key : Bytes} (hkey : key ∈ fieldKeys) (rest : Bytes) :
    search (separator key ++ rest) = search (34 :: rest) := by
  simp only [fieldKeys, List.mem_cons, List.not_mem_nil, or_false] at hkey
  rw [separator_append]
  rcases hkey with rfl | rfl | rfl <;> simp [search, afterFirst, quoted, bytes]

/-- The colon of a separator stands before the quote that opens the next text. -/
theorem colon_separator {key : Bytes} (hkey : key ∈ fieldKeys) (rest : Bytes) :
    afterFirst [58] (44 :: 34 :: (key ++ 34 :: 58 :: 34 :: rest)) = some (34 :: rest) := by
  have hno : 58 ∉ 44 :: 34 :: key ++ [34] := by
    simp only [fieldKeys, List.mem_cons, List.not_mem_nil, or_false] at hkey
    rcases hkey with rfl | rfl | rfl <;> decide
  simpa using afterFirst_singleton (34 :: rest) hno

/-- There is no brace between two fields. -/
theorem no_brace_in_separator {key : Bytes} (hkey : key ∈ fieldKeys) :
    123 ∉ separator key ∧ 125 ∉ separator key := by
  simp only [fieldKeys, List.mem_cons, List.not_mem_nil, or_false] at hkey
  rcases hkey with rfl | rfl | rfl <;> decide

/-- When the text before ends in the key, the next text is read as the net id. -/
theorem Open.pending {f object key : Bytes} (h : Open f object) (hkey : key ∈ fieldKeys)
    (hf : EndsInKey (bytes "netId") f) : Pending (object ++ separator key) := by
  intro rest
  have hfound := h (44 :: 34 :: (key ++ 34 :: 58 :: 34 :: rest))
  rw [if_pos hf] at hfound
  rw [List.append_assoc, separator_append, getString, findValue_of_search hfound,
    colon_separator hkey]
  rfl

/-- Otherwise the key has not been found by the next text. -/
theorem Open.fresh {f object key : Bytes} (h : Open f object) (hkey : key ∈ fieldKeys)
    (hf : ¬ EndsInKey (bytes "netId") f) : Fresh (object ++ separator key) := by
  intro rest
  rw [List.append_assoc, separator_append, h, if_neg hf, ← separator_append]
  exact search_separator hkey rest

/-- Behind a field the net id is settled. -/
theorem Closing.settled {v object : Bytes} (h : Closing v object) (key : Bytes) :
    Settled v (object ++ separator key) := by
  intro rest
  rw [List.append_assoc, separator_append, h]

/-- At the end of the entry an object that is still open has no net id. -/
theorem Open.last {f object : Bytes} (h : Open f object) :
    getString (object ++ [34, 125]) (bytes "netId") = none := by
  by_cases hf : EndsInKey (bytes "netId") f
  · have hfound := h [125]
    rw [if_pos hf] at hfound
    rw [getString, findValue_of_search hfound]
    rfl
  · refine getString_of_search_none ?_
    rw [h, if_neg hf]
    decide

/-- The net ids read from the end of the text `f` on, for the three states in which the loop
can be there. -/
structure FieldEnd (f : Bytes) (rest : List (Bytes × Bytes)) : Prop where
  outside : readIds none (fieldsText rest) = phantomsFrom .outside f (rest.map Prod.snd)
  inside : ∀ object, Open f object → readIds (some object) (fieldsText rest) =
    phantomsFrom .inside f (rest.map Prod.snd)
  quiet : ∀ v object, Closing v object → readIds (some object) (fieldsText rest) =
    v :: phantomsFrom .quiet f (rest.map Prod.snd)

/-- A text without a closing brace leaves the object open. -/
theorem readIds_taken {g object text : Bytes} (hg : 125 ∉ g) :
    readIds (some object) (escape g ++ text) = readIds (some (object ++ escape g)) text := by
  have hnot : 125 ∉ escape g := fun hm => hg (brace_mem_escape (Or.inr rfl) hm)
  obtain ⟨ho, hc⟩ := taken_in hnot object
  rw [readIds_append, hc]
  simp [readIds, ho]

section Field

variable {g : Bytes} {rest : List (Bytes × Bytes)} (h : FieldEnd g rest)

include h

/-- A stretch of the text `g` that is met between objects. -/
theorem FieldEnd.from_outside {a b : Bytes} (hg : g = a ++ b) :
    readIds none (escape b ++ fieldsText rest) =
      phantomsFrom (scan .outside b) g (rest.map Prod.snd) := by
  obtain ⟨hids, ⟨hs, hc⟩ | ⟨hs, a', b', rfl, hc⟩⟩ := text_outside b
  · rw [readIds_append, hids, hc, hs, List.nil_append]
    exact h.outside
  · rw [readIds_append, hids, hc, hs, List.nil_append]
    have hopen : Open g (123 :: escape b') := by
      rw [hg, ← List.append_assoc]
      exact open_of_brace (a ++ a') b'
    exact h.inside _ hopen

/-- A text that closes the object it is met in: the object's net id is `v`, if it has one. -/
theorem FieldEnd.from_close {a b object : Bytes} (hg : g = a ++ 125 :: b) (ha : 125 ∉ a) :
    readIds (some object) (escape g ++ fieldsText rest) =
      (getString (object ++ escape a ++ [125]) (bytes "netId")).toList ++
        phantomsFrom (scan .outside b) g (rest.map Prod.snd) := by
  have hesc : escape g = escape a ++ 125 :: escape b := by
    rw [hg, escape_append, escape_cons]
    rfl
  have hnot : 125 ∉ escape a := fun hm => ha (brace_mem_escape (Or.inr rfl) hm)
  have hout := h.from_outside (a := a ++ [125]) (b := b) (by rw [hg]; simp)
  rw [readIds, hesc, List.append_assoc, List.cons_append, (objects_close hnot object _).1,
    List.filterMap_cons]
  rw [readIds] at hout
  rw [hout]
  cases getString (object ++ escape a ++ [125]) (bytes "netId") <;> rfl

/-- The text `g` in an object in which the key has not been found. -/
theorem FieldEnd.of_fresh {object : Bytes} (hfresh : Fresh object) :
    readIds (some object) (escape g ++ fieldsText rest) =
      phantomsFrom (scan .inside g) g (rest.map Prod.snd) := by
  by_cases hmem : 125 ∈ g
  · obtain ⟨a, b, hg, ha⟩ := List.eq_append_cons_of_mem hmem
    have hnone : getString (object ++ escape a ++ [125]) (bytes "netId") = none := by
      refine getString_of_search_none ?_
      rw [List.append_assoc, hfresh, search,
        afterFirst_quote_cut (by decide) (by decide) plainKey_netId]
      exact search_cut a
    rw [h.from_close hg ha, hnone, hg, scan_close]
    rfl
  · rw [readIds_taken hmem, scan_of_not_mem (by decide) hmem]
    exact h.inside _ (hfresh.openAt g)

/-- The text `g` in an object whose key has just been found. -/
theorem FieldEnd.of_pending {object : Bytes} (hpend : Pending object) :
    readIds (some object) (escape g ++ fieldsText rest) =
      upToBrace (clean g) :: phantomsFrom (scan .quiet g) g (rest.map Prod.snd) := by
  by_cases hmem : 125 ∈ g
  · obtain ⟨a, b, hg, ha⟩ := List.eq_append_cons_of_mem hmem
    have hv : getString (object ++ escape a ++ [125]) (bytes "netId") =
        some (clean a ++ [125]) := by
      rw [List.append_assoc, hpend, readString_escape]
      rfl
    have hclean : clean g = clean a ++ 125 :: clean b := by
      rw [hg]
      simp [clean, isDropped]
    have ha' : 125 ∉ clean a := fun hm => ha (List.mem_of_mem_filter hm)
    rw [h.from_close hg ha, hv, hclean, upToBrace_append ha', hg, scan_close]
    rfl
  · have hclean : 125 ∉ clean g := fun hm => hmem (List.mem_of_mem_filter hm)
    rw [readIds_taken hmem, scan_of_not_mem (by decide) hmem, upToBrace_of_not_mem hclean]
    exact h.quiet _ _ (hpend.closing g)

/-- The text `g` in an object whose net id is known. -/
theorem FieldEnd.of_settled {v object : Bytes} (hset : Settled v object) :
    readIds (some object) (escape g ++ fieldsText rest) =
      v :: phantomsFrom (scan .quiet g) g (rest.map Prod.snd) := by
  by_cases hmem : 125 ∈ g
  · obtain ⟨a, b, hg, ha⟩ := List.eq_append_cons_of_mem hmem
    have hv : getString (object ++ escape a ++ [125]) (bytes "netId") = some v := by
      rw [List.append_assoc, hset]
    rw [h.from_close hg ha, hv, hg, scan_close]
    rfl
  · rw [readIds_taken hmem, scan_of_not_mem (by decide) hmem]
    exact h.quiet _ _ (hset.closing g)

end Field

/-- **The texts of an entry, from the end of one of them on.** -/
theorem fieldEnd (f : Bytes) (rest : List (Bytes × Bytes))
    (hkeys : ∀ p ∈ rest, p.1 ∈ fieldKeys) : FieldEnd f rest := by
  induction rest generalizing f with
  | nil =>
      have hlast : ∀ object, readIds (some object) (fieldsText []) =
          (getString (object ++ [34, 125]) (bytes "netId")).toList := by
        intro object
        have hobj : objects (some object) (fieldsText []) = [object ++ [34, 125]] := by
          simp [fieldsText, bytes, objects]
        rw [readIds, hobj, List.filterMap_cons]
        cases getString (object ++ [34, 125]) (bytes "netId") <;> rfl
      refine ⟨rfl, fun object hopen => ?_, fun v object hclose => ?_⟩
      · rw [hlast, hopen.last]
        rfl
      · rw [hlast, hclose [125]]
        rfl
  | cons p rest ih =>
      obtain ⟨key, g⟩ := p
      have hkey : key ∈ fieldKeys := hkeys (key, g) List.mem_cons_self
      have hend := ih g fun p hp => hkeys p (List.mem_cons_of_mem _ hp)
      obtain ⟨hopen, hclose⟩ := no_brace_in_separator hkey
      have htake : ∀ object, readIds (some object) (fieldsText ((key, g) :: rest)) =
          readIds (some (object ++ separator key)) (escape g ++ fieldsText rest) := by
        intro object
        obtain ⟨ho, hc⟩ := taken_in hclose object
        rw [fieldsText, readIds_append, hc]
        simp [readIds, ho]
      refine ⟨?_, fun object ho => ?_, fun v object hv => ?_⟩
      · obtain ⟨ho, hc⟩ := passed_over hopen
        rw [fieldsText, readIds_append, hc, show readIds none (separator key) = [] by
          simp [readIds, ho], List.nil_append, hend.from_outside (a := []) rfl]
        simp [phantomsFrom]
      · rw [htake, List.map_cons, phantomsFrom]
        by_cases hf : EndsInKey (bytes "netId") f
        · rw [if_pos ⟨rfl, hf⟩, hend.of_pending (ho.pending hkey hf)]
        · rw [if_neg (fun h => hf h.2), hend.of_fresh (ho.fresh hkey hf)]
      · rw [htake, List.map_cons, phantomsFrom, if_neg (fun h => by cases h.1),
          hend.of_settled (hv.settled key)]

/-! ### A whole file -/

/-- An entry up to the text of its net id. -/
def entryStart : Bytes :=
  bytes "  \x7b\"netId\":\""

/-- The text of an entry, field by field. -/
theorem entryText_eq (ban : BanEntry) :
    entryText ban = entryStart ++ (escape ban.netId ++ fieldsText
      [(bytes "name", ban.name), (bytes "reason", ban.reason),
        (bytes "bannedAt", ban.bannedAt)]) := by
  simp [entryText, entryStart, fieldsText, separator, bytes]

/-- **The net ids read from one entry**: its own, up to the first `\x7d`, and its phantoms. -/
theorem readIds_entryText (ban : BanEntry) :
    readIds none (entryText ban) = upToBrace (clean ban.netId) :: phantoms ban := by
  have hkeys : ∀ p ∈ [(bytes "name", ban.name), (bytes "reason", ban.reason),
      (bytes "bannedAt", ban.bannedAt)], p.1 ∈ fieldKeys := by
    simp [fieldKeys]
  have hend := fieldEnd ban.netId _ hkeys
  have hpend : Pending (bytes "\x7b\"netId\":\"") := by
    intro rest
    have hfind : findValue (bytes "\x7b\"netId\":\"" ++ rest) (bytes "netId") =
        some (34 :: rest) := by
      rfl
    rw [getString, hfind]
    rfl
  rw [entryText_eq, readIds_append]
  exact hend.of_pending hpend

/-- Behind an entry the loop is between objects. -/
theorem carry_entryText (ban : BanEntry) : carry none (entryText ban) = none := by
  rw [entryText, carry_append]
  cases carry none _ <;> rfl

/-- The net ids read from the entries of a file. -/
theorem readIds_entriesText (bans : List BanEntry) :
    readIds none (entriesText bans) =
        bans.flatMap (fun ban => upToBrace (clean ban.netId) :: phantoms ban) ∧
      carry none (entriesText bans) = none := by
  induction bans with
  | nil => exact ⟨rfl, rfl⟩
  | cons ban rest ih =>
      have hsplit : ∃ sep, 123 ∉ sep ∧
          entriesText (ban :: rest) = entryText ban ++ (sep ++ entriesText rest) := by
        cases rest with
        | nil => exact ⟨bytes "\n", by decide, by simp [entriesText]⟩
        | cons next rest => exact ⟨bytes ",\n", by decide, by simp [entriesText]⟩
      obtain ⟨sep, hsep, heq⟩ := hsplit
      obtain ⟨ho, hc⟩ := passed_over hsep
      rw [heq, readIds_append, carry_append, carry_entryText, readIds_append, carry_append, hc,
        readIds_entryText, ih.1, ih.2]
      simp [readIds, ho]

/-- **The net ids that `Load` reads back** are those of the entries, up to their first
`\x7d`, and the phantoms. -/
theorem netIds_load_saveLocked {bans : List BanEntry} {n : Bytes} :
    n ∈ netIds (load (saveLocked bans)) ↔
      n ≠ [] ∧ ∃ ban ∈ bans, n = upToBrace (clean ban.netId) ∨ n ∈ phantoms ban := by
  obtain ⟨hids, hcarry⟩ := readIds_entriesText bans
  have hread : readIds none (saveLocked bans) =
      bans.flatMap fun ban => upToBrace (clean ban.netId) :: phantoms ban := by
    have hstart : carry none (bytes "[\n") = none := rfl
    rw [saveLocked, List.append_assoc, readIds_append, hstart, readIds_append, hids, hcarry]
    simp [readIds, objects, bytes]
  rw [mem_netIds_load, hread]
  simp [List.mem_flatMap]

/-! ### The restart -/

/-- What `ReadUniqueNetId` and the SteamID64 check let through: printable ASCII. -/
def IsNetId (n : Bytes) : Prop :=
  n ≠ [] ∧ ∀ c ∈ n, 32 ≤ c ∧ c < 127

instance (n : Bytes) : Decidable (IsNetId n) :=
  have : Decidable (∀ c ∈ n, 32 ≤ c ∧ c < 127) := List.decidableBAll _ n
  inferInstanceAs (Decidable (n ≠ [] ∧ ∀ c ∈ n, 32 ≤ c ∧ c < 127))

/-- A `\x7d` stands in the net id only at its end, if at all. -/
def ClosesLast (n : Bytes) : Prop :=
  125 ∉ n.dropLast

instance (n : Bytes) : Decidable (ClosesLast n) :=
  inferInstanceAs (Decidable (¬ _))

/-- A net id is read back whole exactly when it has no `\x7d` before its end. -/
theorem upToBrace_eq_self_iff {s : Bytes} : upToBrace s = s ↔ ClosesLast s := by
  by_cases hmem : 125 ∈ s
  · obtain ⟨a, b, rfl, ha⟩ := List.eq_append_cons_of_mem hmem
    rw [upToBrace_append ha, ClosesLast]
    cases b with
    | nil => simp [ha]
    | cons c b => simp
  · simp only [upToBrace_of_not_mem hmem, true_iff]
    exact fun h => hmem (List.mem_of_mem_dropLast h)

/-- What is cut at its first `\x7d` is not cut again. -/
theorem closesLast_upToBrace (s : Bytes) : ClosesLast (upToBrace s) := by
  by_cases hmem : 125 ∈ s
  · obtain ⟨a, b, rfl, ha⟩ := List.eq_append_cons_of_mem hmem
    rw [upToBrace_append ha, ClosesLast, List.dropLast_concat]
    exact ha
  · rw [upToBrace_of_not_mem hmem]
    exact fun h => hmem (List.mem_of_mem_dropLast h)

/-- Every phantom has been cut at its first `\x7d`. -/
theorem closesLast_of_mem_phantomsFrom {st : Scan} {f n : Bytes} {rest : List Bytes}
    (h : n ∈ phantomsFrom st f rest) : ClosesLast n := by
  induction rest generalizing st f with
  | nil => simp [phantomsFrom] at h
  | cons g rest ih =>
      rw [phantomsFrom] at h
      split at h
      · rcases List.mem_cons.mp h with rfl | h
        · exact closesLast_upToBrace _
        · exact ih h
      · exact ih h

/-- **Who is banned is the same after a restart exactly when** no net id is cut short and
every net id that the texts of an entry plant is banned. -/
theorem restart_iff (bans : List BanEntry) (hids : ∀ ban ∈ bans, IsNetId ban.netId) :
    (∀ n, isBanned (load (saveLocked bans)) n = isBanned bans n) ↔
      (∀ ban ∈ bans, ClosesLast ban.netId) ∧
        ∀ ban ∈ bans, ∀ p ∈ phantoms ban, p ≠ [] → isBanned bans p = true := by
  have hclean : ∀ ban ∈ bans, clean ban.netId = ban.netId := by
    intro ban hban
    refine clean_of_forall fun c hc => ?_
    have h32 := ((hids ban hban).2 c hc).1
    simp [isDropped, UInt8.not_lt.mpr h32]
  have hloaded : ∀ n, isBanned (load (saveLocked bans)) n = true ↔
      n ≠ [] ∧ ∃ ban ∈ bans, n = upToBrace ban.netId ∨ n ∈ phantoms ban := by
    intro n
    rw [isBanned_iff, netIds_load_saveLocked]
    constructor
    · rintro ⟨hne, -, ban, hban, h⟩
      exact ⟨hne, ban, hban, by rwa [hclean ban hban] at h⟩
    · rintro ⟨hne, ban, hban, h⟩
      exact ⟨hne, hne, ban, hban, by rwa [hclean ban hban]⟩
  constructor
  · intro h
    refine ⟨fun ban hban => ?_, fun ban hban p hp hne => ?_⟩
    · have hbanned : isBanned bans ban.netId = true :=
        isBanned_iff.mpr ⟨(hids ban hban).1, List.mem_map_of_mem hban⟩
      obtain ⟨-, entry, -, hn | hn⟩ := (hloaded _).mp ((h _).trans hbanned)
      · rw [hn]
        exact closesLast_upToBrace _
      · exact closesLast_of_mem_phantomsFrom hn
    · rw [← h p]
      exact (hloaded p).mpr ⟨hne, ban, hban, Or.inr hp⟩
  · rintro ⟨hlast, hphantoms⟩ n
    rw [Bool.eq_iff_iff, hloaded]
    constructor
    · rintro ⟨hne, ban, hban, rfl | hn⟩
      · rw [upToBrace_eq_self_iff.mpr (hlast ban hban)] at hne ⊢
        exact isBanned_iff.mpr ⟨hne, List.mem_map_of_mem hban⟩
      · exact hphantoms ban hban n hn hne
    · intro hn
      obtain ⟨hne, hmem⟩ := isBanned_iff.mp hn
      obtain ⟨ban, hban, rfl⟩ := List.mem_map.mp hmem
      exact ⟨hne, ban, hban, Or.inl (upToBrace_eq_self_iff.mpr (hlast ban hban)).symm⟩

/-- A ban whose texts have braces and quotes, and plant nothing. -/
def harmlessBan : BanEntry :=
  ⟨bytes "76561190000000001", bytes "Eve \x7b\"netId\"\x7d", bytes "spam",
    bytes "2025-01-01T00:00:00Z"⟩

/-- The ban of a player with an ordinary name outlives a restart, and nobody else is banned. -/
theorem restart_harmlessBan :
    (∀ n, isBanned (load (saveLocked [harmlessBan])) n = isBanned [harmlessBan] n) ∧
      phantoms harmlessBan = [] :=
  ⟨(restart_iff [harmlessBan] (by decide)).mpr (by decide), by decide⟩

/-- **A player name that plants a net id**: the player is banned with somebody else's net id
as the reason, and after a restart that one is banned as well. -/
theorem not_restart_planted_name :
    ¬ ∀ bans : List BanEntry, (∀ ban ∈ bans, IsNetId ban.netId) →
      ∀ n, isBanned (load (saveLocked bans)) n = isBanned bans n := by
  intro h
  have hplanted := h [⟨bytes "76561190000000001", bytes "\x7d\x7b\"netId",
    bytes "76561190000000002", bytes "2025-01-01T00:00:00Z"⟩] (by decide)
    (bytes "76561190000000002")
  revert hplanted
  decide

end RSDWServerAPI.DomBans
