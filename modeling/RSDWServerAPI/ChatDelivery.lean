import RSDWServerAPI.Chat

/-!
# `engine/chat.cpp`: swallowed or passed on

What becomes of a chat line at `SendThunk`: whether it is handed to the listeners by `Deliver`, and
whether the thunk goes on to the original function, which shows it to the other players. The body
that the client sent need not be the body that the thunk reads: the locals of the frame or the text
may be unreadable, and then the line is passed on without a look at it.

## Main results

* `effects_of_suppressed`, `effects_of_passed`: a line reaches nobody, or everybody once.
* `passedOnOnce_iff`: **a line is swallowed if it is a command and passed on exactly once if it is
  none, exactly when it is no command, or it can be read and its sender is on the roster.**
-/

namespace RSDWServerAPI.DomChat

/-- A line that arrives at the thunk. -/
structure Line where
  payload : Payload
  /-- `Mem::Readable` of the locals, and whether `ReadFString` can read the body. -/
  localsReadable : Bool
  bodyReadable : Bool
  deriving DecidableEq, Repr

/-- The payload as the thunk reads it; a body that cannot be read is empty. -/
def Line.read (line : Line) : Option Payload :=
  if line.localsReadable then
    some { line.payload with body := if line.bodyReadable then line.payload.body else [] }
  else none

/-- What reaches somebody else: a listener, by its place in `g_Listeners`, or the original
function. -/
inductive Effect
  | listener (index : ℕ) (message : Message)
  | original (context : Ptr)
  deriving DecidableEq, Repr

/-- `Deliver`, with a number of listeners: each is called once, also when one before it throws. -/
def deliver (listeners : ℕ) (message : Message) : List Effect :=
  (List.range listeners).map fun index => .listener index message

/-- What a call made by the thunk leads to. -/
def effectsOf (listeners : ℕ) : Call → List Effect
  | .deliver message => deliver listeners message
  | .originalSend context => [.original context]
  | _ => []

/-- What a line leads to. -/
def effects (w : ChatWorld) (context : Ptr) (listeners : ℕ) (line : Line) : List Effect :=
  (sendThunk w context line.read).flatMap (effectsOf listeners)

/-- The body can be read and is looked at: the engine is up and the frame layout is known. -/
def Line.isRead (w : ChatWorld) (line : Line) : Bool :=
  line.localsReadable && line.bodyReadable && reads w

/-- **Swallowed, or passed on once**: a command reaches nobody; any other line reaches the original
function once and, when it is read and not empty, each listener once. -/
structure PassedOnOnce (w : ChatWorld) (context : Ptr) (listeners : ℕ) (line : Line) : Prop where
  command : isCommand line.payload.body = true → effects w context listeners line = []
  forwarded : isCommand line.payload.body = false →
    (effects w context listeners line).count (.original context) = 1
  delivered : isCommand line.payload.body = false → line.isRead w = true →
    line.payload.body ≠ [] → ∀ index < listeners,
      (effects w context listeners line).count (.listener index (messageOf w line.payload)) = 1 ∧
      ∀ message, message ≠ messageOf w line.payload →
        Effect.listener index message ∉ effects w context listeners line

/-! ### Lines -/

variable {w : ChatWorld} {context : Ptr} {listeners : ℕ} {line : Line} {sender : PlayerInfo}
  {body : Bytes}

/-- Every listener has the message once. -/
theorem mem_deliver {index : ℕ} {message message' : Message} :
    Effect.listener index message' ∈ deliver listeners message ↔
      index < listeners ∧ message' = message := by
  rw [deliver, List.mem_map]
  simp only [List.mem_range, Effect.listener.injEq]
  constructor
  · rintro ⟨i, hi, rfl, rfl⟩
    exact ⟨hi, rfl⟩
  · rintro ⟨hi, rfl⟩
    exact ⟨index, hi, rfl, rfl⟩

/-- `Deliver` calls no listener twice. -/
theorem nodup_deliver (listeners : ℕ) (message : Message) : (deliver listeners message).Nodup :=
  List.nodup_range.map fun _ _ h => (Effect.listener.inj h).1

/-- What a command does reaches neither a listener nor the original function. -/
theorem effectsOf_runCommand (listeners : ℕ) (w : ChatWorld) (sender : PlayerInfo) (command : Bytes)
    (args : List Bytes) :
    ∀ call ∈ runCommand w sender command args, effectsOf listeners call = [] := by
  rw [runCommand.eq_def]
  split_ifs
  · intro call hmem
    obtain ⟨text, -, rfl⟩ := List.mem_map.mp hmem
    rfl
  all_goals
    rcases args with - | ⟨player, - | ⟨item, rest⟩⟩
    all_goals simp [effectsOf, reply]

/-- What `HandleCommand` does reaches neither. -/
theorem effectsOf_handleCommand (listeners : ℕ) (w : ChatWorld) (sender : PlayerInfo)
    (body : Bytes) : ∀ call ∈ (handleCommand w sender body).2, effectsOf listeners call = [] := by
  rw [handleCommand]
  cases words body with
  | nil => simp
  | cons part args =>
      dsimp only
      split_ifs
      · simp [effectsOf, reply]
      · intro call hmem
        rcases List.mem_cons.mp hmem with rfl | hmem
        · rfl
        · exact effectsOf_runCommand listeners w sender _ args call hmem
      · simp

/-- `HandleCommand` takes exactly the commands. -/
theorem handleCommand_fst (w : ChatWorld) (sender : PlayerInfo) (hslash : body.head? = some 47) :
    (handleCommand w sender body).1 = isCommand body := by
  rw [handleCommand, isCommand, hslash]
  cases words body with
  | nil => rfl
  | cons part args =>
      dsimp only
      split_ifs with hcommand
      all_goals simp [hcommand]

/-- What `HandleCommand` does not take it does nothing about. -/
theorem handleCommand_eq_of_fst (h : (handleCommand w sender body).1 = false) :
    handleCommand w sender body = (false, []) := by
  revert h
  rw [handleCommand]
  cases words body with
  | nil => exact fun _ => rfl
  | cons part args =>
      dsimp only
      split_ifs
      · exact False.elim
      · exact False.elim
      · exact fun _ => rfl

/-- A line that is read is read as it was sent. -/
theorem read_of_isRead (h : line.isRead w = true) :
    line.read = some line.payload ∧ reads w = true := by
  simp only [Line.isRead, Bool.and_eq_true] at h
  obtain ⟨⟨hlocals, hbody⟩, hreads⟩ := h
  refine ⟨?_, hreads⟩
  rw [Line.read, if_pos hlocals, if_pos hbody]

/-- A line that is not read, or is empty, goes straight to the original function. -/
theorem sendThunk_of_not_read (hw : w.hasOriginal = true)
    (h : ¬ (line.isRead w = true ∧ line.payload.body ≠ [])) :
    sendThunk w context line.read = [.originalSend context] := by
  rw [sendThunk.eq_def, Line.read]
  cases hlocals : line.localsReadable with
  | false => simp [hw]
  | true =>
      by_cases hread : (w.initialized && w.frameLayoutReady &&
          (if line.bodyReadable then line.payload.body else []) != []) = true
      · exfalso
        simp only [Bool.and_eq_true, bne_iff_ne, ne_eq, ite_eq_right_iff, Classical.not_imp]
          at hread
        obtain ⟨⟨hup, hlayout⟩, hbody, hne⟩ := hread
        exact h ⟨by simp [Line.isRead, reads, hlocals, hbody, hup, hlayout], hne⟩
      · simp only [if_true, eq_false_of_ne_true hread]
        simp [hw]

/-- A line that is read goes through `readMessage`. -/
theorem sendThunk_of_read (hread : line.isRead w = true) (hne : line.payload.body ≠ []) :
    sendThunk w context line.read =
      (readMessage w line.payload).2 ++
        if !(readMessage w line.payload).1 && w.hasOriginal then [.originalSend context]
        else [] := by
  obtain ⟨hline, hreads⟩ := read_of_isRead hread
  simp only [reads, Bool.and_eq_true] at hreads
  rw [hline, sendThunk]
  simp [hreads.1, hreads.2, hne]

/-- A command is not empty and begins with a slash. -/
theorem head_of_isCommand (h : isCommand body = true) : body.head? = some 47 ∧ body ≠ [] := by
  have hhead : body.head? = some 47 := by
    simpa using ((Bool.and_eq_true _ _).mp h).1
  refine ⟨hhead, fun hempty => ?_⟩
  rw [hempty] at hhead
  cases hhead

/-- A command that is read, of a sender on the roster, is kept from everybody. -/
theorem effects_of_suppressed (hcommand : isCommand line.payload.body = true)
    (hread : line.isRead w = true) (hsender : senderOf w line.payload.identity = some sender) :
    effects w context listeners line = [] := by
  obtain ⟨hslash, hne⟩ := head_of_isCommand hcommand
  have htaken := handleCommand_fst w sender hslash
  rw [hcommand] at htaken
  have hmessage : readMessage w line.payload = handleCommand w sender line.payload.body := by
    rw [readMessage, hsender]
    simp [hslash, htaken]
  rw [effects, sendThunk_of_read hread hne, hmessage, htaken]
  simpa using effectsOf_handleCommand listeners w sender line.payload.body

/-- Any other line goes to the original function, and to the listeners if it is read. -/
theorem effects_of_passed (hw : w.hasOriginal = true)
    (h : isCommand line.payload.body = false ∨ line.isRead w = false ∨
      senderOf w line.payload.identity = none) :
    effects w context listeners line =
      (if line.isRead w = true ∧ line.payload.body ≠ [] then
        deliver listeners (messageOf w line.payload) else []) ++ [.original context] := by
  rw [effects]
  split_ifs with hread
  · obtain ⟨hread, hne⟩ := hread
    have hmessage : readMessage w line.payload =
        (false, [.deliver (messageOf w line.payload)]) := by
      rw [readMessage]
      cases hsender : senderOf w line.payload.identity with
      | none => rfl
      | some sender =>
          have hplain : isCommand line.payload.body = false := by
            rcases h with h | h | h
            · exact h
            · rw [hread] at h
              cases h
            · rw [hsender] at h
              cases h
          by_cases hslash : line.payload.body.head? = some 47
          · have htaken := handleCommand_fst w sender hslash
            rw [hplain] at htaken
            simp [hslash, handleCommand_eq_of_fst htaken]
          · simp [hslash]
    rw [sendThunk_of_read hread hne, hmessage, hw]
    simp [effectsOf]
  · rw [sendThunk_of_not_read hw hread]
    rfl

/-- **When a line is swallowed as a command or passed on exactly once**: when it is no command, or
when it can be read and its sender is on the roster, and not otherwise. -/
theorem passedOnOnce_iff (hw : w.hasOriginal = true) (context : Ptr) (listeners : ℕ) (line : Line) :
    PassedOnOnce w context listeners line ↔
      (isCommand line.payload.body = true →
        line.isRead w = true ∧ ∃ sender, senderOf w line.payload.identity = some sender) := by
  constructor
  · intro h hcommand
    by_contra hnot
    have hleft : line.isRead w = false ∨ senderOf w line.payload.identity = none := by
      rw [not_and_or] at hnot
      refine hnot.imp eq_false_of_ne_true fun hnobody => ?_
      rw [Option.eq_none_iff_forall_ne_some]
      exact fun sender hsender => hnobody ⟨sender, hsender⟩
    have heffects : effects w context listeners line = _ := effects_of_passed hw (.inr hleft)
    rw [h.command hcommand] at heffects
    simp at heffects
  · intro h
    refine ⟨fun hcommand => ?_, fun hplain => ?_, fun hplain hread hne index hindex => ?_⟩
    · obtain ⟨hread, sender, hsender⟩ := h hcommand
      exact effects_of_suppressed hcommand hread hsender
    · have hnone : Effect.original context ∉
          (if line.isRead w = true ∧ line.payload.body ≠ [] then
            deliver listeners (messageOf w line.payload) else []) := by
        split_ifs
        · simp [deliver]
        · exact List.not_mem_nil
      rw [effects_of_passed hw (.inl hplain), List.count_append, List.count_eq_zero.mpr hnone]
      simp
    · rw [effects_of_passed hw (.inl hplain), if_pos ⟨hread, hne⟩, List.count_append,
        List.count_eq_one_of_mem (nodup_deliver _ _) (mem_deliver.mpr ⟨hindex, rfl⟩)]
      refine ⟨by simp, fun message hother hmem => ?_⟩
      rcases List.mem_append.mp hmem with hmem | hmem
      · exact hother (mem_deliver.mp hmem).2
      · simp at hmem

/-- A line in a world with the hook in place. -/
theorem passedOnOnce_iff_takeover :
    PassedOnOnce takeoverWorld 0x4000 2 ⟨⟨⟨[], [], 7⟩, bytes "/ban Warden"⟩, true, true⟩ ↔
      (isCommand (bytes "/ban Warden") = true →
        (Line.isRead takeoverWorld ⟨⟨⟨[], [], 7⟩, bytes "/ban Warden"⟩, true, true⟩) = true ∧
          ∃ sender, senderOf takeoverWorld ⟨[], [], 7⟩ = some sender) :=
  passedOnOnce_iff rfl _ _ _

/-- A player id that nobody on the roster has: the command is shown to everybody. -/
theorem not_passedOnOnce_stranger :
    ¬ PassedOnOnce takeoverWorld 0x4000 1 ⟨⟨⟨[], [], 9⟩, bytes "/kick Warden"⟩, true, true⟩ := by
  intro h
  have heffects := h.command (by decide)
  exact absurd heffects (by decide)

end RSDWServerAPI.DomChat
