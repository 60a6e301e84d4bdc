import RSDWServerAPI.Ascii
import Mathlib.Data.List.Basic

/-!
# Words of a POSIX shell command

How a POSIX shell reads a command text, as far as it takes to tell one simple command with
literal words from everything else: quoting by backslash, single and double quotes, the
operators, comments, and the marks of expansion, of pathname patterns and of tilde prefixes.
Text is a list of bytes, read in the C locale.

The lexer is a machine that takes one byte at a time. `simpleCommand` is the list of words of
a text that the shell takes for exactly one simple command, in which nothing is expanded,
redirected, assigned or run besides; it is `none` for every other text.

## Main results

* `run_append`: the text may be read in pieces.
* `run_singleQuote`: **a text is read back from its single-quoted form**, whatever its bytes.
-/

namespace Shell

open Ascii (isBlank)

/-! ### The lexer -/

/-- A part of a word. -/
inductive Part
  /-- A byte that stands for itself; the flag says whether it is quoted. -/
  | literal (c : UInt8) (quoted : Bool)
  /-- A `$` or a backquote at which an expansion starts. -/
  | expansion (c : UInt8)
  deriving DecidableEq, Repr

/-- A token of a command text. -/
inductive Token
  | word (parts : List Part)
  | operator (c : UInt8)
  | newline
  deriving DecidableEq, Repr

/-- What the next byte is read as. -/
inductive Mode
  | plain
  /-- Behind a backslash outside quotes. -/
  | escape
  /-- Between single quotes. -/
  | single
  /-- Between double quotes. -/
  | double
  /-- Behind a backslash between double quotes. -/
  | doubleEscape
  | comment
  deriving DecidableEq, Repr

/-- The lexer: the mode, the word that is being read, and the tokens before it. -/
structure State where
  mode : Mode := .plain
  word : Option (List Part) := none
  tokens : List Token := []
  deriving DecidableEq, Repr

namespace State

/-- One more part of the word, which starts a word where there is none. -/
def push (s : State) (part : Part) : State :=
  { s with word := some (s.word.getD [] ++ [part]) }

/-- A word is there, even if nothing is put into it. -/
def start (s : State) : State :=
  { s with word := some (s.word.getD []) }

/-- The end of the word, if there is one. -/
def flush (s : State) : State :=
  { s with
    word := none
    tokens := s.tokens ++ s.word.toList.map .word }

/-- One more token. -/
def token (s : State) (t : Token) : State :=
  { s with tokens := s.tokens ++ [t] }

end State

/-- The bytes of which the operators `&&`, `||`, `;`, `<<`, `>` and so on consist. -/
def isOperator (c : UInt8) : Bool :=
  c == 38 || c == 124 || c == 59 || c == 60 || c == 62 || c == 40 || c == 41

/-- One byte of the text. -/
def step (s : State) (c : UInt8) : State :=
  match s.mode with
  | .plain =>
      if c = 92 then { s with mode := .escape }
      else if c = 39 then { s.start with mode := .single }
      else if c = 34 then { s.start with mode := .double }
      else if c = 36 ∨ c = 96 then s.push (.expansion c)
      else if isBlank c then s.flush
      else if c = 10 then s.flush.token .newline
      else if isOperator c then s.flush.token (.operator c)
      else if c = 35 ∧ s.word = none then { s with mode := .comment }
      else s.push (.literal c false)
  | .escape =>
      -- a backslash in front of a line end joins the lines
      if c = 10 then { s with mode := .plain }
      else { s.push (.literal c true) with mode := .plain }
  | .single =>
      if c = 39 then { s with mode := .plain } else s.push (.literal c true)
  | .double =>
      if c = 34 then { s with mode := .plain }
      else if c = 92 then { s with mode := .doubleEscape }
      else if c = 36 ∨ c = 96 then s.push (.expansion c)
      else s.push (.literal c true)
  | .doubleEscape =>
      if c = 10 then { s with mode := .double }
      else if c = 36 ∨ c = 96 ∨ c = 34 ∨ c = 92 then
        { s.push (.literal c true) with mode := .double }
      else { (s.push (.literal 92 true)).push (.literal c true) with mode := .double }
  | .comment => if c = 10 then { s.token .newline with mode := .plain } else s

/-- A stretch of text. -/
def run (s : State) (text : List UInt8) : State :=
  text.foldl step s

/-- The tokens of a text; `none` where it ends in quotes or behind a backslash. -/
def tokens (text : List UInt8) : Option (List Token) :=
  let s := run {} text
  match s.mode with
  | .plain | .comment => some s.flush.tokens
  | _ => none

/-! ### Simple commands -/

/-- The byte of a part that stands for itself and is no pattern character. -/
def Part.literal? : Part → Option UInt8
  | literal c quoted => if !quoted && (c == 42 || c == 63 || c == 91) then none else some c
  | expansion _ => none

/-- The text of a word in which nothing is expanded. -/
def literalWord : Token → Option (List UInt8)
  | .word parts =>
      if parts.head? = some (.literal 126 false) then none else parts.mapM Part.literal?
  | _ => none

/-- An unquoted byte that a name may have. -/
def Part.isName (first : Bool) : Part → Bool
  | literal c false =>
      c == 95 || (65 ≤ c && c ≤ 90) || (97 ≤ c && c ≤ 122) || (!first && 48 ≤ c && c ≤ 57)
  | _ => false

/-- A word that is read as an assignment: a name and an unquoted equals sign behind it. -/
def isAssignment : Token → Bool
  | .word parts =>
      match parts.takeWhile fun part => part != .literal 61 false with
      | [] => false
      | first :: rest => first.isName true && rest.all (Part.isName false) &&
          rest.length + 1 < parts.length
  | _ => false

/-- The reserved words of the shell. -/
def reserved : List String :=
  ["!", "\x7b", "\x7d", "case", "do", "done", "elif", "else", "esac", "fi", "for", "if", "in",
    "then", "until", "while"]

/-- A word that is read as a reserved word where a command may start. -/
def isReserved : Token → Bool
  | .word parts =>
      reserved.any fun w => parts == w.toList.map fun c => .literal (UInt8.ofNat c.toNat) false
  | _ => false

/-- Tokens at whose start a simple command starts. -/
def startsCommand : List Token → Bool
  | [] => false
  | first :: _ => !isAssignment first && !isReserved first

/-- The words of a text that is exactly one simple command with literal words. -/
def simpleCommand (text : List UInt8) : Option (List (List UInt8)) :=
  match tokens text with
  | some ts => if startsCommand ts then ts.mapM literalWord else none
  | none => none

/-- What starts a command starts one with more behind it. -/
theorem startsCommand_append {ts : List Token} (h : startsCommand ts = true)
    (more : List Token) : startsCommand (ts ++ more) = true := by
  cases ts with
  | nil => cases h
  | cons first rest => exact h

/-! ### Reading in pieces -/

/-- Two texts are read one after the other. -/
theorem run_append (s : State) (x y : List UInt8) : run s (x ++ y) = run (run s x) y :=
  List.foldl_append

/-- The empty text changes nothing. -/
@[simp] theorem run_nil (s : State) : run s [] = s := rfl

/-- A text is read byte by byte. -/
theorem run_cons (s : State) (c : UInt8) (text : List UInt8) :
    run s (c :: text) = run (step s c) text := rfl

/-! ### Single quotes -/

/-- A text between single quotes; a single quote in it is written by closing the quotes,
escaping it and opening them again. -/
def singleQuote (text : List UInt8) : List UInt8 :=
  39 :: (text.flatMap fun c => if c = 39 then [39, 92, 39, 39] else [c]) ++ [39]

/-- A text without a quote stands between two. -/
theorem singleQuote_of_not_mem {text : List UInt8} (h : 39 ∉ text) :
    singleQuote text = 39 :: text ++ [39] := by
  have hflat : (text.flatMap fun c => if c = 39 then [39, 92, 39, 39] else [c]) = text := by
    induction text with
    | nil => rfl
    | cons c text ih =>
        have hc : c ≠ 39 := fun hc => h (by simp [hc])
        rw [List.flatMap_cons, if_neg hc, ih fun ht => h (List.mem_cons_of_mem _ ht)]
        rfl
  rw [singleQuote, hflat]

/-- The parts that a quoted text is read as. -/
def quotedParts (text : List UInt8) : List Part :=
  text.map fun c => .literal c true

/-- Between the quotes every byte is read as itself. -/
theorem run_between_quotes (word : List Part) (ts : List Token) (text : List UInt8) :
    run ⟨.single, some word, ts⟩
        (text.flatMap fun c => if c = 39 then [39, 92, 39, 39] else [c]) =
      ⟨.single, some (word ++ quotedParts text), ts⟩ := by
  induction text generalizing word with
  | nil => simp [quotedParts]
  | cons c text ih =>
      have hstep : run ⟨.single, some word, ts⟩ (if c = 39 then [39, 92, 39, 39] else [c]) =
          ⟨.single, some (word ++ [.literal c true]), ts⟩ := by
        by_cases hc : c = 39
        · subst hc
          rfl
        · simp [hc, run, step, State.push]
      rw [List.flatMap_cons, run_append, hstep, ih]
      simp [quotedParts]

/-- **A single-quoted text is read back as it is**, as a part of the word it stands in. -/
theorem run_singleQuote (word : Option (List Part)) (ts : List Token) (text : List UInt8) :
    run ⟨.plain, word, ts⟩ (singleQuote text) =
      ⟨.plain, some (word.getD [] ++ quotedParts text), ts⟩ := by
  have hopen : step ⟨.plain, word, ts⟩ 39 = ⟨.single, some (word.getD []), ts⟩ := rfl
  rw [singleQuote, List.cons_append, run_cons, hopen, run_append, run_between_quotes]
  rfl

/-- Two texts that are quoted, with a blank between them, are two words. -/
theorem run_two_words (ts : List Token) (x y : List UInt8) :
    run ⟨.plain, none, ts⟩ (singleQuote x ++ 32 :: singleQuote y) =
      ⟨.plain, some (quotedParts y), ts ++ [.word (quotedParts x)]⟩ := by
  have hblank : step ⟨.plain, some (quotedParts x), ts⟩ 32 =
      ⟨.plain, none, ts ++ [.word (quotedParts x)]⟩ := rfl
  rw [run_append, run_singleQuote, run_cons, Option.getD_none, List.nil_append, hblank,
    run_singleQuote, Option.getD_none, List.nil_append]

/-- Nothing is expanded in a word that is quoted as a whole. -/
theorem literalWord_quotedParts (text : List UInt8) :
    literalWord (.word (quotedParts text)) = some text := by
  have hhead : (quotedParts text).head? ≠ some (.literal 126 false) := by
    cases text <;> simp [quotedParts]
  have hparts : ∀ t : List UInt8, (quotedParts t).mapM Part.literal? = some t := by
    intro t
    induction t with
    | nil => rfl
    | cons c t ih =>
        rw [quotedParts, List.map_cons, List.mapM_cons, ← quotedParts, ih]
        rfl
  rw [literalWord, if_neg hhead, hparts]

end Shell
