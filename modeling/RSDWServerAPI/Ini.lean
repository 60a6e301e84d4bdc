import RSDWServerAPI.Ascii
import Mathlib.Data.List.DropRight
import Mathlib.Data.List.Infix

/-!
# Files of sections and settings

A file of settings is read line by line: a line in brackets opens a section, a line with an
equals sign assigns to a setting of the section it stands in, and anything else is passed over.
What the file says is the list of its assignments, in their order.

A file that is written is a list of items, one for each line. What is read from it are the
assignments among its items, and what is read from a part of it, cut anywhere, are the first
of them, the last one perhaps with a shorter value.

## Main results

* `scan_print_append`: **what is written is read**, and what stands behind it is read in the
  section that was open there.
* `scan_cut`: **a cut assigns to nothing new**: what is read from a part of a file assigns to
  settings that the file assigns to.
* `scan_cut_assign`: how an assignment reads that is cut.
* `value_eq_self_iff`: a value without blanks at its ends is read back exactly when it does not
  end in a carriage return.
-/

namespace RSDWServerAPI.Ini

open Ascii (isBlank)

/-- The text of a file or a line. -/
abbrev Text := List UInt8

/-! ### Reading -/

/-- The lines of a text; a newline at the end opens no further line. -/
def lines : Text → List Text
  | [] => []
  | c :: s =>
      if c = 10 then [] :: lines s
      else
        match lines s with
        | [] => [[c]]
        | line :: rest => (c :: line) :: rest

/-- A text without the blanks at its ends. -/
def trim (s : Text) : Text :=
  (s.dropWhile isBlank).rdropWhile isBlank

/-- A line without a carriage return at its end. -/
def dropReturn (line : Text) : Text :=
  if line.getLast? = some 13 then line.dropLast else line

/-- What a line says. -/
inductive Line
  | skip
  | header (name : Text)
  | assign (key value : Text)
  deriving DecidableEq, Repr

/-- What a line says once its carriage return is off. -/
def parseLine : Text → Line
  | [] => .skip
  | c :: rest =>
      if c = 35 ∨ c = 59 then .skip
      else if c = 91 then .header (rest.takeWhile fun d => d != 93)
      else
        match (c :: rest).dropWhile fun d => d != 61 with
        | [] => .skip
        | _ :: value => .assign (trim ((c :: rest).takeWhile fun d => d != 61)) (trim value)

/-- What a line says. -/
def readLine (line : Text) : Line :=
  parseLine (dropReturn line)

/-- A value that is assigned to a setting of a section. -/
structure Assignment where
  sect : Text
  key : Text
  value : Text
  deriving DecidableEq, Repr

/-- The assignments in lines that follow the opening of a section. -/
def scan (sect : Text) : List Text → List Assignment
  | [] => []
  | line :: rest =>
      match readLine line with
      | .skip => scan sect rest
      | .header name => scan name rest
      | .assign key value => { sect := sect, key := key, value := value } :: scan sect rest

/-- The assignments of a file. -/
def assignments (text : Text) : List Assignment :=
  scan [] (lines text)

/-! ### Writing -/

/-- A line that is written. -/
inductive Item
  | blank
  | comment (text : Text)
  | header (name : Text)
  | assign (key value : Text)
  deriving DecidableEq, Repr

/-- The text of a line. -/
def Item.text : Item → Text
  | .blank => []
  | .comment text => 35 :: text
  | .header name => 91 :: (name ++ [93])
  | .assign key value => key ++ 61 :: value

/-- The text of a file. -/
def print (items : List Item) : Text :=
  items.flatMap fun item => item.text ++ [10]

/-- A byte that means nothing to the reader: no line end, blank, comment sign, bracket or
equals sign. -/
def Plain (c : UInt8) : Prop :=
  c ∉ ([9, 10, 13, 32, 35, 59, 61, 91, 93] : Text)

instance (c : UInt8) : Decidable (Plain c) :=
  inferInstanceAs (Decidable (_ ∉ _))

/-- A word made of plain bytes, such as the name of a section or of a setting. -/
def IsName (s : Text) : Prop :=
  s ≠ [] ∧ ∀ c ∈ s, Plain c

instance (s : Text) : Decidable (IsName s) :=
  haveI := List.decidableBAll (fun c => Plain c) s
  inferInstanceAs (Decidable (_ ∧ _))

/-- The item makes one line, which the reader takes for what it is. -/
def Item.WellFormed : Item → Prop
  | .blank => True
  | .comment text => 10 ∉ text
  | .header name => IsName name
  | .assign key value => IsName key ∧ 10 ∉ value

/-- What a value that is written is read as. -/
def value (v : Text) : Text :=
  trim (dropReturn v)

/-- The assignments among items that follow the opening of a section. -/
def assigned (sect : Text) : List Item → List Assignment
  | [] => []
  | .blank :: items => assigned sect items
  | .comment _ :: items => assigned sect items
  | .header name :: items => assigned name items
  | .assign key v :: items => { sect := sect, key := key, value := value v } :: assigned sect items

/-- The section that is open behind items that follow the opening of a section. -/
def sectionAfter (sect : Text) : List Item → Text
  | [] => sect
  | .header name :: items => sectionAfter name items
  | .blank :: items => sectionAfter sect items
  | .comment _ :: items => sectionAfter sect items
  | .assign _ _ :: items => sectionAfter sect items

/-! ### Values -/

/-- A text whose ends are not blank is left alone. -/
theorem trim_eq_self {s : Text} (h : ∀ c ∈ s, isBlank c = false) : trim s = s := by
  have hfront : s.dropWhile isBlank = s := by
    rw [List.dropWhile_eq_self_iff]
    intro hpos
    simp [h _ (List.getElem_mem hpos)]
  rw [trim, hfront, List.rdropWhile_eq_self_iff]
  intro hne
  simp [h _ (List.getLast_mem hne)]

/-- Taking the blanks off twice takes off no more. -/
theorem trim_trim (s : Text) : trim (trim s) = trim s := by
  have hfront : (trim s).dropWhile isBlank = trim s := by
    rw [List.dropWhile_eq_self_iff]
    intro hpos
    have hpre : trim s <+: s.dropWhile isBlank := List.rdropWhile_prefix _ _
    have hpos' : 0 < (s.dropWhile isBlank).length := lt_of_lt_of_le hpos hpre.length_le
    rw [hpre.getElem hpos]
    exact List.dropWhile_eq_self_iff.mp (List.dropWhile_idempotent isBlank s) hpos'
  rw [trim, hfront, trim, List.rdropWhile_idempotent]

/-- **What is left of a text without the blanks at its ends**: what stands between blanks and
neither begins nor ends with one. -/
theorem trim_eq_iff {s e : Text} (he : e ≠ []) :
    trim s = e ↔ ∃ l r, s = l ++ e ++ r ∧ (∀ c ∈ l, isBlank c = true) ∧
      (∀ c ∈ r, isBlank c = true) ∧ isBlank (e.head he) = false ∧
        isBlank (e.getLast he) = false := by
  constructor
  · rintro rfl
    have hpre : trim s <+: s.dropWhile isBlank := List.rdropWhile_prefix _ _
    refine ⟨s.takeWhile isBlank, (s.dropWhile isBlank).rtakeWhile isBlank, ?_,
      fun c hc => List.mem_takeWhile_imp hc, fun c hc => List.mem_rtakeWhile_imp hc, ?_, ?_⟩
    · rw [List.append_assoc, trim, List.rdropWhile_append_rtakeWhile,
        List.takeWhile_append_dropWhile]
    · rw [hpre.head he]
      exact List.head_dropWhile_not _ _
    · exact eq_false_of_ne_true (List.rdropWhile_last_not _ _ he)
  · rintro ⟨l, r, rfl, hl, hr, hhead, hlast⟩
    obtain ⟨c, rest, rfl⟩ := List.exists_cons_of_ne_nil he
    have hfront : (l ++ c :: rest ++ r).dropWhile isBlank = c :: rest ++ r := by
      rw [List.append_assoc, List.dropWhile_append_of_pos hl, List.cons_append,
        List.dropWhile_cons_of_neg (by simpa using hhead)]
    have hback : (r.reverse ++ (c :: rest).reverse).dropWhile isBlank = (c :: rest).reverse := by
      rw [List.dropWhile_append_of_pos (by simpa using hr), List.dropWhile_eq_self_iff]
      intro hpos
      rw [← List.head_eq_getElem_zero (List.ne_nil_of_length_pos hpos), List.head_reverse, hlast]
      exact Bool.false_ne_true
    rw [trim, hfront, List.rdropWhile, List.reverse_append, hback, List.reverse_reverse]

/-- Taking the blanks off leaves a part of the text. -/
theorem trim_sublist (s : Text) : (trim s).Sublist s :=
  (List.rdropWhile_prefix _ _).sublist.trans (List.dropWhile_sublist _)

/-- Taking the carriage return off leaves the front of the line. -/
theorem dropReturn_front (line : Text) : dropReturn line <+: line := by
  rw [dropReturn]
  split_ifs
  · exact List.dropLast_prefix line
  · exact List.prefix_rfl

/-- What a value is read as is a part of it. -/
theorem value_sublist (v : Text) : (value v).Sublist v :=
  (trim_sublist _).trans (dropReturn_front v).sublist

/-- **When a value comes back**: one without blanks at its ends is read as it was written
exactly when it does not end in a carriage return. -/
theorem value_eq_self_iff {v : Text} (h : trim v = v) : value v = v ↔ v.getLast? ≠ some 13 := by
  rw [value, dropReturn]
  split_ifs with hreturn
  · refine ⟨fun heq => ?_, fun hne => absurd hreturn hne⟩
    have hlen := (trim_sublist v.dropLast).length_le
    have hpos : 0 < v.length := by
      cases v with
      | nil => cases hreturn
      | cons c v => exact Nat.succ_pos _
    rw [heq, List.length_dropLast] at hlen
    omega
  · exact ⟨fun _ => hreturn, fun _ => h⟩

/-! ### Lines -/

/-- The value of an assignment is a part of its line. -/
theorem readLine_eq_assign {line key v : Text} (h : readLine line = .assign key v) :
    ∃ w, w.Sublist line ∧ v = trim w := by
  have hline := (dropReturn_front line).sublist
  rw [readLine] at h
  generalize dropReturn line = l at h hline
  cases l with
  | nil => cases h
  | cons c rest =>
      rw [parseLine] at h
      split_ifs at h
      cases hdrop : (c :: rest).dropWhile fun d => d != 61 with
      | nil =>
          rw [hdrop] at h
          cases h
      | cons d w =>
          rw [hdrop] at h
          obtain ⟨-, rfl⟩ := Line.assign.inj h
          have hw : w.Sublist (d :: w) := List.sublist_cons_self d w
          exact ⟨w, hw.trans ((hdrop ▸ List.dropWhile_sublist _).trans hline), rfl⟩

/-- The first line of a text, and the rest. -/
theorem lines_append_newline {line : Text} (h : 10 ∉ line) (rest : Text) :
    lines (line ++ 10 :: rest) = line :: lines rest := by
  induction line with
  | nil => rfl
  | cons c line ih =>
      obtain ⟨hc, hline⟩ := not_or.mp (mt List.mem_cons.mpr h)
      rw [List.cons_append, lines, if_neg (Ne.symm hc), ih hline]

/-- No line has a newline in it. -/
theorem not_mem_of_mem_lines {text line : Text} (h : line ∈ lines text) : 10 ∉ line := by
  induction text generalizing line with
  | nil => cases h
  | cons c s ih =>
      rw [lines] at h
      split_ifs at h with hc
      · rcases List.mem_cons.mp h with rfl | h
        · exact List.not_mem_nil
        · exact ih h
      · cases hs : lines s with
        | nil =>
            rw [hs] at h
            obtain rfl := List.mem_singleton.mp h
            simpa using Ne.symm hc
        | cons first rest =>
            rw [hs] at h
            rcases List.mem_cons.mp h with rfl | h
            · have hfirst := ih (hs ▸ List.mem_cons_self)
              simpa [hfirst] using Ne.symm hc
            · exact ih (hs ▸ List.mem_cons_of_mem _ h)

/-- A text without a newline says what it says as a line. -/
theorem scan_lines_of_not_mem (sect : Text) {s : Text} (h : 10 ∉ s) :
    scan sect (lines s) = scan sect [s] := by
  have hlines : s ≠ [] → lines s = [s] := by
    clear sect
    induction s with
    | nil => exact fun hne => absurd rfl hne
    | cons c s ih =>
        intro _
        obtain ⟨hc, hs⟩ := not_or.mp (mt List.mem_cons.mpr h)
        rw [lines, if_neg (Ne.symm hc)]
        cases s with
        | nil => rfl
        | cons d s => rw [ih hs (List.cons_ne_nil d s)]
  cases s with
  | nil => rfl
  | cons c s => rw [hlines (List.cons_ne_nil c s)]

/-- A value that is read is one that a line can have, without blanks at its ends. -/
theorem value_of_mem_scan {sect : Text} {ls : List Text} (h : ∀ line ∈ ls, 10 ∉ line)
    {a : Assignment} (ha : a ∈ scan sect ls) : 10 ∉ a.value ∧ trim a.value = a.value := by
  induction ls generalizing sect with
  | nil => cases ha
  | cons line rest ih =>
      have hrest : ∀ l ∈ rest, 10 ∉ l := fun l hl => h l (List.mem_cons_of_mem _ hl)
      rw [scan] at ha
      cases hline : readLine line with
      | skip =>
          rw [hline] at ha
          exact ih hrest ha
      | header name =>
          rw [hline] at ha
          exact ih hrest ha
      | assign key v =>
          rw [hline] at ha
          rcases List.mem_cons.mp ha with rfl | ha
          · obtain ⟨w, hw, rfl⟩ := readLine_eq_assign hline
            exact ⟨fun hmem => h line List.mem_cons_self (hw.subset ((trim_sublist w).subset hmem)),
              trim_trim w⟩
          · exact ih hrest ha

/-! ### Items -/

/-- A plain byte is none of those that the reader looks for. -/
theorem Plain.ne {c : UInt8} (h : Plain c) :
    c ≠ 10 ∧ c ≠ 13 ∧ c ≠ 35 ∧ c ≠ 59 ∧ c ≠ 61 ∧ c ≠ 91 ∧ c ≠ 93 ∧ isBlank c = false := by
  simp only [Plain, List.mem_cons, not_or] at h
  obtain ⟨h9, h10, h13, h32, h35, h59, h61, h91, h93, -⟩ := h
  exact ⟨h10, h13, h35, h59, h61, h91, h93, by simp [isBlank, h9, h32]⟩

/-- A name is left alone. -/
theorem IsName.trim {s : Text} (h : IsName s) : trim s = s :=
  trim_eq_self fun c hc => (h.2 c hc).ne.2.2.2.2.2.2.2

/-- A carriage return at the end of a line with an equals sign is one at the end of its
value. -/
theorem dropReturn_assign (key v : Text) :
    dropReturn (key ++ 61 :: v) = key ++ 61 :: dropReturn v := by
  rw [dropReturn, dropReturn]
  cases v with
  | nil => simp
  | cons c v =>
      have hlast : (key ++ 61 :: c :: v).getLast? = (c :: v).getLast? := by
        rw [List.getLast?_append, List.getLast?_cons_cons]
        simp [List.getLast?_cons]
      rw [hlast]
      split_ifs
      · rw [List.dropLast_append_of_ne_nil (by simp), List.dropLast_cons_of_ne_nil (by simp)]
      · rfl

/-- **An assignment is read** with the value that its value is read as. -/
theorem readLine_assign {key : Text} (hkey : IsName key) (v : Text) :
    readLine (key ++ 61 :: v) = .assign key (value v) := by
  obtain ⟨c, rest, rfl⟩ := List.exists_cons_of_ne_nil hkey.1
  obtain ⟨-, -, h35, h59, h61, h91, -, -⟩ := (hkey.2 c List.mem_cons_self).ne
  have hkeys : ∀ d ∈ c :: rest, (d != 61) = true := fun d hd => by
    simpa using (hkey.2 d hd).ne.2.2.2.2.1
  have htake : (c :: (rest ++ 61 :: dropReturn v)).takeWhile (fun d => d != 61) = c :: rest := by
    rw [← List.cons_append, List.takeWhile_append_of_pos hkeys,
      List.takeWhile_cons_of_neg (by decide), List.append_nil]
  have hdrop : (c :: (rest ++ 61 :: dropReturn v)).dropWhile (fun d => d != 61) =
      61 :: dropReturn v := by
    rw [← List.cons_append, List.dropWhile_append_of_pos hkeys,
      List.dropWhile_cons_of_neg (by decide)]
  rw [readLine, dropReturn_assign, List.cons_append, parseLine, if_neg (by simp [h35, h59]),
    if_neg h91, hdrop, htake]
  dsimp only
  rw [hkey.trim, value]

/-- A line that starts with a byte is read as one, or as nothing. -/
theorem readLine_cons (c : UInt8) (text : Text) :
    readLine (c :: text) = .skip ∨ ∃ rest, readLine (c :: text) = parseLine (c :: rest) := by
  rw [readLine]
  have hpre := dropReturn_front (c :: text)
  cases hline : dropReturn (c :: text) with
  | nil => exact .inl rfl
  | cons d rest =>
      rw [hline] at hpre
      obtain ⟨rfl, -⟩ := List.cons_prefix_cons.mp hpre
      exact .inr ⟨rest, rfl⟩

/-- A line that starts with a comment sign is passed over. -/
theorem readLine_comment (text : Text) : readLine (35 :: text) = .skip := by
  rcases readLine_cons 35 text with hskip | ⟨rest, hline⟩
  · exact hskip
  · rw [hline, parseLine, if_pos (.inl rfl)]

/-- A line that starts with a bracket is no assignment. -/
theorem readLine_bracket (text : Text) :
    readLine (91 :: text) = .skip ∨ ∃ name, readLine (91 :: text) = .header name := by
  rcases readLine_cons 91 text with hskip | ⟨rest, hline⟩
  · exact .inl hskip
  · rw [hline, parseLine, if_neg (by decide), if_pos rfl]
    exact .inr ⟨_, rfl⟩

/-- The opening of a section is read. -/
theorem readLine_header {name : Text} (h : IsName name) :
    readLine (91 :: (name ++ [93])) = .header name := by
  have hline : dropReturn (91 :: (name ++ [93])) = 91 :: (name ++ [93]) := by
    rw [dropReturn, ← List.cons_append, List.getLast?_concat, if_neg (by decide)]
  have hname : ∀ d ∈ name, (d != 93) = true := fun d hd => by
    simpa using (h.2 d hd).ne.2.2.2.2.2.2.1
  rw [readLine, hline, parseLine, if_neg (by decide), if_pos rfl,
    List.takeWhile_append_of_pos hname, List.takeWhile_cons_of_neg (by decide), List.append_nil]

/-- A text without an equals sign or a bracket at its front is passed over. -/
theorem readLine_name {key : Text} (h : ∀ c ∈ key, Plain c) : readLine key = .skip := by
  have hpre := dropReturn_front key
  rw [readLine]
  cases hline : dropReturn key with
  | nil => rfl
  | cons c rest =>
      rw [hline] at hpre
      have hplain : ∀ d ∈ c :: rest, Plain d := fun d hd => h d (hpre.subset hd)
      obtain ⟨-, -, h35, h59, -, h91, -, -⟩ := (hplain c List.mem_cons_self).ne
      have hdrop : (c :: rest).dropWhile (fun d => d != 61) = [] :=
        List.dropWhile_eq_nil_iff.mpr fun d hd => by simpa using (hplain d hd).ne.2.2.2.2.1
      rw [parseLine, if_neg (by simp [h35, h59]), if_neg h91, hdrop]

/-- A line that is written has no newline in it. -/
theorem Item.WellFormed.not_mem {item : Item} (h : item.WellFormed) : 10 ∉ item.text := by
  cases item with
  | blank => exact List.not_mem_nil
  | comment text => exact fun hmem => h (by simpa [Item.text] using hmem)
  | header name =>
      intro hmem
      have hname : (10 : UInt8) ∈ name := by simpa [Item.text] using hmem
      exact (h.2 10 hname).ne.1 rfl
  | assign key v =>
      intro hmem
      have hor : (10 : UInt8) ∈ key ∨ (10 : UInt8) ∈ v := by simpa [Item.text] using hmem
      rcases hor with hkey | hv
      · exact (h.1.2 10 hkey).ne.1 rfl
      · exact h.2 hv

/-- **What is written is read**, and what stands behind it is read in the section that is open
there. -/
theorem scan_print_append {items : List Item} (h : ∀ item ∈ items, item.WellFormed)
    (sect rest : Text) :
    scan sect (lines (print items ++ rest)) =
      assigned sect items ++ scan (sectionAfter sect items) (lines rest) := by
  induction items generalizing sect with
  | nil => rfl
  | cons item items ih =>
      have hitem := h item List.mem_cons_self
      have ih := ih fun other hother => h other (List.mem_cons_of_mem _ hother)
      have hlines : lines (print (item :: items) ++ rest) =
          item.text :: lines (print items ++ rest) := by
        rw [← lines_append_newline hitem.not_mem]
        simp [print]
      rw [hlines, scan]
      cases item with
      | blank => exact ih sect
      | comment text =>
          rw [Item.text, readLine_comment]
          exact ih sect
      | header name =>
          rw [Item.text, readLine_header hitem]
          exact ih name
      | assign key v =>
          rw [Item.text, readLine_assign hitem.1]
          exact congrArg _ (ih sect)

/-- An assignment is read, and what stands behind it is read in the same section. -/
theorem scan_assign_append (sect : Text) {key v : Text} (hkey : IsName key) (hv : 10 ∉ v)
    (rest : Text) :
    scan sect (lines (key ++ 61 :: v ++ 10 :: rest)) =
      { sect := sect, key := key, value := value v } :: scan sect (lines rest) := by
  have hitem : (Item.assign key v).WellFormed := ⟨hkey, hv⟩
  have hline : 10 ∉ key ++ 61 :: v := hitem.not_mem
  rw [lines_append_newline hline, scan, readLine_assign hkey]

/-! ### Settings -/

/-- The value that is assigned last to a setting. -/
def lastValue (sect key : Text) (as : List Assignment) : Option Text :=
  ((as.filter fun a => a.sect = sect ∧ a.key = key).getLast?).map Assignment.value

/-- **A setting has the value that is assigned to it last**, or the one it had. -/
theorem foldl_setting {σ β : Type*} {apply : σ → Assignment → σ} {field : σ → β}
    {read : Text → β} {sect key : Text}
    (h : ∀ s a, field (apply s a) =
      if a.sect = sect ∧ a.key = key then read a.value else field s) (s : σ)
    (as : List Assignment) :
    field (as.foldl apply s) = (lastValue sect key as).elim (field s) read := by
  induction as using List.reverseRecOn with
  | nil => rfl
  | append_singleton as a ih =>
      rw [List.foldl_append, List.foldl_cons, List.foldl_nil, h, lastValue, List.filter_append]
      by_cases ha : a.sect = sect ∧ a.key = key
      · rw [if_pos ha, List.filter_cons_of_pos (by simpa using ha)]
        simp
      · rw [if_neg ha, List.filter_cons_of_neg (by simpa using ha), ih, lastValue]
        simp

/-- Nothing is assigned last exactly where nothing is assigned. -/
theorem lastValue_eq_none_iff {sect key : Text} {as : List Assignment} :
    lastValue sect key as = none ↔ ∀ a ∈ as, ¬ (a.sect = sect ∧ a.key = key) := by
  rw [lastValue, Option.map_eq_none_iff, List.getLast?_eq_none_iff, List.filter_eq_nil_iff]
  simp only [decide_eq_true_eq]

/-- What comes last in two lists of assignments. -/
theorem lastValue_append (sect key : Text) (as bs : List Assignment) :
    lastValue sect key (as ++ bs) = (lastValue sect key bs).or (lastValue sect key as) := by
  rw [lastValue, lastValue, lastValue, List.filter_append, List.getLast?_append]
  cases (bs.filter fun a => a.sect = sect ∧ a.key = key).getLast? <;> simp

/-! ### Cuts -/

/-- A front of two texts is a front of the first, or the first and a front of the second. -/
theorem prefix_append_cases {α : Type*} {q x y : List α} (h : q <+: x ++ y) :
    q <+: x ∨ ∃ r, q = x ++ r ∧ r <+: y := by
  rcases le_total q.length x.length with hle | hle
  · exact .inl (List.prefix_of_prefix_length_le h (List.prefix_append x y) hle)
  · obtain ⟨r, rfl⟩ := List.prefix_of_prefix_length_le (List.prefix_append x y) h hle
    exact .inr ⟨r, rfl, (List.prefix_append_right_inj x).mp h⟩

/-- **How an assignment reads that is cut**: not at all in front of the equals sign, and with
the part of the value that is there behind it. -/
theorem scan_cut_assign (sect : Text) {key v q : Text} (hkey : IsName key) (hv : 10 ∉ v)
    (hq : q <+: key ++ 61 :: v) :
    (q <+: key ∧ scan sect (lines q) = []) ∨
      ∃ w, w <+: v ∧ q = key ++ 61 :: w ∧
        scan sect (lines q) = [{ sect := sect, key := key, value := value w }] := by
  have hitem : (Item.assign key v).WellFormed := ⟨hkey, hv⟩
  have hnot : 10 ∉ q := fun hmem => hitem.not_mem (hq.subset hmem)
  rw [scan_lines_of_not_mem sect hnot]
  rcases prefix_append_cases hq with hfront | ⟨r, rfl, hr⟩
  · refine .inl ⟨hfront, ?_⟩
    rw [scan, readLine_name fun c hc => hkey.2 c (hfront.subset hc)]
    rfl
  · cases r with
    | nil =>
        rw [List.append_nil] at hnot ⊢
        refine .inl ⟨List.prefix_rfl, ?_⟩
        rw [scan, readLine_name hkey.2]
        rfl
    | cons c w =>
        obtain ⟨rfl, hw⟩ := List.cons_prefix_cons.mp hr
        refine .inr ⟨w, hw, rfl, ?_⟩
        rw [scan, readLine_assign hkey]
        rfl

/-- A cut in the first line says nothing but what the line says. -/
theorem scan_cut_item {item : Item} (h : item.WellFormed) {sect q : Text} (hq : q <+: item.text)
    {a : Assignment} (ha : a ∈ scan sect (lines q)) :
    ∃ b ∈ assigned sect [item], b.sect = a.sect ∧ b.key = a.key := by
  have hnot : 10 ∉ q := fun hmem => h.not_mem (hq.subset hmem)
  have hscan := scan_lines_of_not_mem sect hnot
  cases item with
  | assign key v =>
      rcases scan_cut_assign sect h.1 h.2 hq with ⟨-, hnil⟩ | ⟨w, -, -, hone⟩
      · rw [hnil] at ha
        cases ha
      · rw [hone, List.mem_singleton] at ha
        rw [ha]
        exact ⟨_, List.mem_singleton.mpr rfl, rfl, rfl⟩
  | blank =>
      obtain rfl : q = [] := List.prefix_nil.mp hq
      cases ha
  | comment text =>
      cases q with
      | nil => cases ha
      | cons c q =>
          obtain ⟨rfl, -⟩ := List.cons_prefix_cons.mp hq
          rw [hscan, scan, readLine_comment] at ha
          cases ha
  | header name =>
      cases q with
      | nil => cases ha
      | cons c q =>
          obtain ⟨rfl, -⟩ := List.cons_prefix_cons.mp hq
          rw [hscan, scan] at ha
          rcases readLine_bracket q with hskip | ⟨other, hheader⟩
          · rw [hskip] at ha
            cases ha
          · rw [hheader] at ha
            cases ha

/-- **A cut assigns to nothing new**: what is read from a part of a file assigns to settings
that the file assigns to. -/
theorem scan_cut {items : List Item} (h : ∀ item ∈ items, item.WellFormed) {sect q : Text}
    (hq : q <+: print items) {a : Assignment} (ha : a ∈ scan sect (lines q)) :
    ∃ b ∈ assigned sect items, b.sect = a.sect ∧ b.key = a.key := by
  induction items generalizing sect q with
  | nil =>
      obtain rfl : q = [] := List.prefix_nil.mp hq
      cases ha
  | cons item items ih =>
      have hitem := h item List.mem_cons_self
      have hitems : ∀ other ∈ items, other.WellFormed := fun other hother =>
        h other (List.mem_cons_of_mem _ hother)
      have hone : ∀ other ∈ [item], other.WellFormed := by simpa using hitem
      have hassigned : assigned sect (item :: items) =
          assigned sect [item] ++ assigned (sectionAfter sect [item]) items := by
        cases item <;> rfl
      have hprint : print (item :: items) = item.text ++ 10 :: print items := by simp [print]
      rw [hassigned]
      rw [hprint] at hq
      have hfirst : q <+: item.text → ∃ b ∈ assigned sect [item] ++
          assigned (sectionAfter sect [item]) items, b.sect = a.sect ∧ b.key = a.key := by
        intro hcut
        obtain ⟨b, hb, heq⟩ := scan_cut_item hitem hcut ha
        exact ⟨b, List.mem_append_left _ hb, heq⟩
      rcases prefix_append_cases hq with hcut | ⟨r, rfl, hr⟩
      · exact hfirst hcut
      · cases r with
        | nil => exact hfirst (by rw [List.append_nil])
        | cons c r =>
            obtain ⟨rfl, hrest⟩ := List.cons_prefix_cons.mp hr
            have hfront : item.text ++ 10 :: r = print [item] ++ r := by simp [print]
            rw [hfront, scan_print_append hone] at ha
            rcases List.mem_append.mp ha with ha | ha
            · exact ⟨a, List.mem_append_left _ ha, rfl, rfl⟩
            · obtain ⟨b, hb, heq⟩ := ih hitems hrest ha
              exact ⟨b, List.mem_append_right _ hb, heq⟩

/-- A setting that a file does not assign to is not assigned to in a part of it. -/
theorem lastValue_cut {items : List Item} (h : ∀ item ∈ items, item.WellFormed)
    {sect s key q : Text} (hq : q <+: print items)
    (hnone : lastValue s key (assigned sect items) = none) :
    lastValue s key (scan sect (lines q)) = none := by
  rw [lastValue_eq_none_iff] at hnone ⊢
  rintro a ha ⟨rfl, rfl⟩
  obtain ⟨b, hb, heq⟩ := scan_cut h hq ha
  exact hnone b hb heq

end RSDWServerAPI.Ini
