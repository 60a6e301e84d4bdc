import RSDWServerAPI.Json
import RSDWServerAPI.Shell
import Mathlib.Data.List.TakeWhile

/-!
# `discord/webhook.cpp`: chat lines on a command line

`Sender::Send` hands a chat line to `curl` through `popen`, so the text that players type ends
up in a command that a shell reads: escaped as JSON, then between single quotes, with the URL
of the webhook behind it.

## Main results

* `simpleCommand_send`: **the shell reads exactly one `curl` command**, whose last words are
  the payload and the URL byte for byte.
-/

namespace RSDWServerAPI.Discord

open Shell

/-- The bytes that `UrlIsSafe` does not let through. -/
def unsafeBytes : Bytes :=
  bytes "'\"\x60$;|&<>\\\n\r"

/-- `UrlIsSafe`. -/
def urlIsSafe (url : Bytes) : Bool :=
  (bytes "https://").isPrefixOf url && url.all fun c => c ∉ unsafeBytes

/-- The `payload` of `Send`. -/
def payload (username content : Bytes) : Bytes :=
  bytes "\x7b\"username\":\"" ++ Json.escape username ++
    bytes "\",\"content\":\"" ++ Json.escape content ++
    bytes "\",\"allowed_mentions\":\x7b\"parse\":[]\x7d\x7d"

/-- The loop of `Send` that builds `quoted`. -/
def quoted (text : Bytes) : Bytes :=
  bytes "'" ++ (text.flatMap fun c => if c = 39 then bytes "'\\''" else [c]) ++ bytes "'"

/-- The start of every `command`. -/
def commandStart : Bytes :=
  bytes "curl -s -o /dev/null -m 10 -X POST -H 'Content-Type: application/json' -d "

/-- The `command` of `Send`. -/
def command (username content url : Bytes) : Bytes :=
  commandStart ++ quoted (payload username content) ++ bytes " '" ++ url ++ bytes "'"

/-- `Send`: the text that `popen` gets to see, which is `command.c_str()`. -/
def send (username content url : Bytes) : Bytes :=
  (command username content url).takeWhile fun c => c != 0

/-- The words in front of the payload. -/
def curlWords : List Bytes :=
  [bytes "curl", bytes "-s", bytes "-o", bytes "/dev/null", bytes "-m", bytes "10", bytes "-X",
    bytes "POST", bytes "-H", bytes "Content-Type: application/json", bytes "-d"]

/-- The loop of `Send` quotes as the shell asks for it. -/
theorem quoted_eq (text : Bytes) : quoted text = singleQuote text := rfl

/-- A URL that is let through has no single quote. -/
theorem quote_not_mem {url : Bytes} (h : urlIsSafe url = true) : 39 ∉ url := by
  intro hmem
  have hall := ((Bool.and_eq_true _ _).mp h).2
  have := List.all_eq_true.mp hall 39 hmem
  revert this
  decide

/-- There is no NUL in the payload. -/
theorem nul_not_mem_payload (username content : Bytes) : 0 ∉ payload username content := by
  have hescape : ∀ s, (0 : UInt8) ∉ Json.escape s := fun s h =>
    absurd (Json.le_of_mem_escape h) (by decide)
  simp [payload, bytes, hescape]

/-- Quoting adds no NUL. -/
theorem nul_not_mem_quoted {text : Bytes} (h : 0 ∉ text) : 0 ∉ quoted text := by
  intro hmem
  simp only [quoted, List.mem_append, List.mem_flatMap] at hmem
  rcases hmem with (hmem | ⟨c, hc, hmem⟩) | hmem
  · revert hmem
    decide
  · split at hmem
    · revert hmem
      decide
    · exact h (List.mem_singleton.mp hmem ▸ hc)
  · revert hmem
    decide

/-- `popen` gets to see the whole command. -/
theorem send_eq_command {username content url : Bytes} (h : 0 ∉ url) :
    send username content url = command username content url := by
  have hstart : (0 : UInt8) ∉ commandStart := by
    rw [commandStart, bytes_ofList]
    decide
  have hquoted := nul_not_mem_quoted (nul_not_mem_payload username content)
  have hnul : 0 ∉ command username content url := by
    simp [command, hstart, hquoted, h, bytes]
  rw [send, List.takeWhile_eq_self_iff]
  intro c hc
  simpa using ne_of_mem_of_not_mem hc hnul

/-- The command in the form in which the shell reads it. -/
theorem command_eq {url : Bytes} (h : 39 ∉ url) (username content : Bytes) :
    command username content url =
      commandStart ++ (singleQuote (payload username content) ++ 32 :: singleQuote url) := by
  have hurl : bytes " '" ++ url ++ bytes "'" = 32 :: singleQuote url := by
    rw [singleQuote_of_not_mem h]
    rfl
  rw [command, quoted_eq, ← hurl]
  simp only [List.append_assoc]

/-- What the lexer makes of a text that ends between two words, by running it. -/
theorem exists_tokens {text : Bytes} {words : List Bytes}
    (h : run {} text = ⟨.plain, none, (run {} text).tokens⟩ ∧
      (run {} text).tokens.mapM literalWord = some words ∧
      startsCommand (run {} text).tokens = true) :
    ∃ ts, run {} text = ⟨.plain, none, ts⟩ ∧ ts.mapM literalWord = some words ∧
      startsCommand ts = true :=
  ⟨_, h⟩

/-- What the lexer makes of the start of the command. -/
theorem run_commandStart : ∃ ts, run {} commandStart = ⟨.plain, none, ts⟩ ∧
    ts.mapM literalWord = some curlWords ∧ startsCommand ts = true := by
  rw [commandStart, bytes_ofList]
  exact exists_tokens (by decide +kernel)

/-- **The shell reads exactly one simple command**, for every chat line and every user name:
the words of `curl`, the payload byte for byte, and the URL byte for byte. -/
theorem simpleCommand_send (username content url : Bytes) (hsafe : urlIsSafe url = true)
    (hnul : 0 ∉ url) : simpleCommand (send username content url) =
      some (curlWords ++ [payload username content, url]) := by
  obtain ⟨ts, hstart, hwords, hfirst⟩ := run_commandStart
  have htokens : tokens (command username content url) = some (ts ++
      [.word (quotedParts (payload username content)), .word (quotedParts url)]) := by
    rw [tokens, command_eq (quote_not_mem hsafe), run_append, hstart, run_two_words]
    simp [State.flush]
  have hmap : (ts ++ [Token.word (quotedParts (payload username content)),
      Token.word (quotedParts url)]).mapM literalWord =
        some (curlWords ++ [payload username content, url]) := by
    rw [List.mapM_append, hwords]
    simp [List.mapM_cons, literalWord_quotedParts]
  rw [send_eq_command hnul, simpleCommand, htokens]
  dsimp only
  rw [startsCommand_append hfirst, if_pos rfl, hmap]

/-- A chat line that tries to end the quotes. -/
theorem simpleCommand_send_injection :
    simpleCommand (send (bytes "Dragonwilds") (bytes "'; reboot #\"") (bytes "https://x/hook")) =
      some (curlWords ++ [payload (bytes "Dragonwilds") (bytes "'; reboot #\""),
        bytes "https://x/hook"]) :=
  simpleCommand_send _ _ _ (by decide) (by decide)

end RSDWServerAPI.Discord
