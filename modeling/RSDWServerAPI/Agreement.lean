import RSDWServerAPI.FrontEnds

/-!
# The front ends agree

The chat, RCON and the API have each their own code to read a command and to answer it. What a
command of the chat asks for is read off `HandleCommand` here, and it is what a line of RCON with
the same words asks for; a request with the same texts in its body asks for it too; and what each
of them answers is the outcome of that one operation.

## Main results

* `chatAskedBy_iff`: **a command of the chat asks for what the same words ask for in RCON**.
* `runCommand_eq`, `chatCalls_of_not_asked`: what the chat does for a line that asks for something,
  and for one that does not.
* `agreement_spec`: **the three front ends bring about the same state** and answer with the same
  outcome.
-/

namespace RSDWServerAPI.FrontEnds

open AccessControl (allows)
open Administration DomBans
open DomChat (Call ChatWorld Payload)

/-! ### The reason behind a command -/

/-- A word is not empty. -/
theorem ne_nil_of_mem_words {s word : Bytes} (h : word ∈ words s) : word ≠ [] := by
  rw [words] at h
  simpa using (List.mem_filter.mp h).2

/-- `Join` of words is what RCON makes of them. -/
theorem join_eq_joined {first : Bytes} {rest : List Bytes} (h : first ≠ []) :
    DomChat.join (first :: rest) = Rcon.joined first rest := by
  have hfold : ∀ (rest : List Bytes) (out : Bytes), out ≠ [] →
      rest.foldl (fun out part => (if out = [] then [] else out ++ bytes " ") ++ part) out =
        rest.foldl (fun out arg => out ++ (bytes " " ++ arg)) out := by
    intro rest
    induction rest with
    | nil => exact fun out _ => rfl
    | cons part rest ih =>
        intro out hout
        rw [List.foldl_cons, List.foldl_cons, if_neg hout, List.append_assoc]
        exact ih _ (List.append_ne_nil_of_left_ne_nil hout _)
  rw [DomChat.join, Rcon.joined, List.foldl_cons, if_pos rfl, List.nil_append]
  exact hfold rest first h

/-- The reason that is typed is the same in the chat and in RCON. -/
theorem reasonOr_eq {fallback : String} {parts : List Bytes} (h : ∀ part ∈ parts, part ≠ []) :
    DomChat.reasonOr fallback parts = Rcon.reasonFrom fallback parts := by
  cases parts with
  | nil => rfl
  | cons first rest =>
      rw [DomChat.reasonOr, if_neg (List.cons_ne_nil _ _),
        join_eq_joined (h first List.mem_cons_self)]
      rfl

/-! ### The answers of the chat -/

/-- What the chat answers to an operation. -/
def chatTold : Operation → Except Bytes Bytes → Bytes
  | .kick player _, .ok _ => bytes "Kicked " ++ player
  | .kick _ _, .error error => bytes "Kick failed: " ++ error
  | _, result => Rcon.message result

/-- The call for an operation, and the answer to it. -/
def chatDone (w : GameWorld) (s : AdminState) (sender : PlayerInfo) (operation : Operation)
    (call : Call) : List Call :=
  [call, DomChat.reply sender (chatTold operation (perform w.toAdminWorld s operation).1)]

variable {w : GameWorld} {s : AdminState} {sender : PlayerInfo}

/-- The chat says of a kick what RCON would say. -/
theorem kickResult_eq (player reason : Bytes) :
    DomChat.kickResult (w.chatWorld s.bans) player =
      chatTold (.kick player reason) (perform w.toAdminWorld s (.kick player reason)).1 := by
  have hresult : (perform w.toAdminWorld s (.kick player reason)).1 =
      (RSDWServerAPI.kickPlayer w.kick w.initialized w.roster player).map fun _ => [] := rfl
  have hkick : RSDWServerAPI.kickPlayer (w.chatWorld s.bans).kick (w.chatWorld s.bans).initialized
      (w.chatWorld s.bans).players player =
    RSDWServerAPI.kickPlayer w.kick w.initialized w.roster player := rfl
  rw [hresult, DomChat.kickResult, hkick]
  cases RSDWServerAPI.kickPlayer w.kick w.initialized w.roster player with
  | ok m => rfl
  | error message => rfl

/-- The chat says of a ban what RCON would say. -/
theorem banResult_eq (player reason : Bytes) :
    DomChat.banResult (w.chatWorld s.bans) player reason =
      chatTold (.ban player reason) (perform w.toAdminWorld s (.ban player reason)).1 := by
  have hban : ban (w.chatWorld s.bans).initialized (w.chatWorld s.bans).players player reason
      (w.chatWorld s.bans).now (w.chatWorld s.bans).bans =
    ban w.initialized w.roster player reason w.now s.bans := rfl
  have htarget : banTarget (w.chatWorld s.bans).players player = banTarget w.roster player := rfl
  rw [DomChat.banResult, hban, htarget, perform, banPlayer]
  cases ban w.initialized w.roster player reason w.now s.bans with
  | error message => rfl
  | ok bans =>
      cases banTarget w.roster player with
      | error message => rfl
      | ok target => rfl

/-- The chat says of a lifted ban what RCON would say. -/
theorem unbanResult_eq (identifier : Bytes) :
    DomChat.unbanResult (w.chatWorld s.bans) identifier =
      chatTold (.unban identifier) (perform w.toAdminWorld s (.unban identifier)).1 := by
  have hunban : unban identifier (w.chatWorld s.bans).bans = unban identifier s.bans := rfl
  rw [DomChat.unbanResult, hunban, perform, unbanPlayer]
  cases unban identifier s.bans with
  | error message => rfl
  | ok found => rfl

/-- The chat says of items what RCON would say. -/
theorem giveResult_eq (player item : Bytes) (count : Int32) :
    DomChat.giveResult (w.chatWorld s.bans) player item count =
      chatTold (.give player item count)
        (perform w.toAdminWorld s (.give player item count)).1 := by
  have hgive : DomItems.giveItem (w.chatWorld s.bans).give (w.chatWorld s.bans).players player item
      count = DomItems.giveItem w.give w.roster player item count := rfl
  rw [DomChat.giveResult, hgive, perform, giveToPlayer]
  cases DomItems.giveItem w.give w.roster player item count with
  | error message => rfl
  | ok message => rfl

/-! ### A command of the chat -/

/-- What a command asks for in `HandleCommand`. -/
def chatAskedBy (command : Bytes) (args : List Bytes) : Option Operation :=
  if command = bytes "/kick" then
    args.head?.map fun player =>
      .kick player (DomChat.reasonOr "Kicked by an administrator" args.tail)
  else if command = bytes "/ban" then
    args.head?.map fun player =>
      .ban player (DomChat.reasonOr "Banned by an administrator" args.tail)
  else if command = bytes "/unban" then args.head?.map .unban
  else if command = bytes "/give" then
    match args with
    | player :: item :: rest => some (.give player item (rest.head?.elim 1 atoi))
    | _ => none
  else none

/-- What a line of the chat asks for. -/
def chatAsked (body : Bytes) : Option Operation :=
  match words body with
  | [] => none
  | command :: args => chatAskedBy (lower command) args

/-- **The part of `HandleCommand` behind the admin check** makes the call for the operation that
the words ask for, and tells the outcome. -/
theorem runCommand_eq {command : Bytes} {args : List Bytes} {operation : Operation}
    (h : chatAskedBy command args = some operation) :
    ∃ call, operationOf call = some operation ∧
      DomChat.runCommand (w.chatWorld s.bans) sender command args =
        chatDone w s sender operation call := by
  unfold chatAskedBy at h
  split_ifs at h with hkick hban hunban hgive
  · subst hkick
    cases args with
    | nil => cases h
    | cons player rest =>
        obtain rfl := Option.some.inj h
        refine ⟨.kickPlayer player (DomChat.reasonOr "Kicked by an administrator" rest), rfl, ?_⟩
        rw [chatDone, ← kickResult_eq]
        rfl
  · subst hban
    cases args with
    | nil => cases h
    | cons player rest =>
        obtain rfl := Option.some.inj h
        refine ⟨.ban player (DomChat.reasonOr "Banned by an administrator" rest), rfl, ?_⟩
        rw [chatDone, ← banResult_eq]
        rfl
  · subst hunban
    cases args with
    | nil => cases h
    | cons identifier rest =>
        obtain rfl := Option.some.inj h
        refine ⟨.unban identifier, rfl, ?_⟩
        rw [chatDone, ← unbanResult_eq]
        rfl
  · subst hgive
    rcases args with - | ⟨player, - | ⟨item, rest⟩⟩
    · cases h
    · cases h
    · obtain rfl := Option.some.inj h
      refine ⟨.giveItem player item (rest.head?.elim 1 atoi), rfl, ?_⟩
      rw [chatDone, ← giveResult_eq]
      rfl

/-- A command that asks for nothing makes no call that changes something. -/
theorem runCommand_of_not_asked {command : Bytes} (hcommand : command ∈ DomChat.commands)
    {args : List Bytes} (h : chatAskedBy command args = none) :
    (DomChat.runCommand (w.chatWorld s.bans) sender command args).filterMap operationOf = [] := by
  simp only [DomChat.commands, List.mem_cons, List.not_mem_nil, or_false] at hcommand
  rcases hcommand with rfl | rfl | rfl | rfl | rfl
  · cases args with
    | nil => rfl
    | cons player rest => cases h
  · cases args with
    | nil => rfl
    | cons player rest => cases h
  · cases args with
    | nil => rfl
    | cons identifier rest => cases h
  · rcases args with - | ⟨player, - | ⟨item, rest⟩⟩
    · rfl
    · rfl
    · cases h
  · rfl

/-- A command that asks for something is one of those that `HandleCommand` knows. -/
theorem mem_commands_of_chatAskedBy {command : Bytes} {args : List Bytes} {operation : Operation}
    (h : chatAskedBy command args = some operation) : command ∈ DomChat.commands := by
  unfold chatAskedBy at h
  split_ifs at h with hkick hban hunban hgive
  · exact hkick ▸ (by decide)
  · exact hban ▸ (by decide)
  · exact hunban ▸ (by decide)
  · exact hgive ▸ (by decide)

/-- Only `broadcast` broadcasts. -/
theorem askedBy_ne_broadcast {name : Bytes} (h : name ≠ bytes "broadcast") (args : List Bytes)
    (body : Bytes) : Rcon.askedBy true name args ≠ some (.broadcast body) := by
  intro hasked
  rw [Rcon.askedBy, if_neg h] at hasked
  split_ifs at hasked
  · cases args <;> cases hasked
  · cases args <;> cases hasked
  · cases args <;> cases hasked
  · rcases args with - | ⟨player, - | ⟨item, rest⟩⟩ <;> cases hasked

/-- A command of the chat asks for what it asks for in RCON, if it is not `broadcast`. -/
theorem chatAskedBy_eq {name : Bytes} {args : List Bytes} (hargs : ∀ arg ∈ args, arg ≠ []) :
    chatAskedBy (bytes "/" ++ name) args =
      if name = bytes "broadcast" then none else Rcon.askedBy true name args := by
  have hreason : ∀ fallback, DomChat.reasonOr fallback args.tail =
      Rcon.reasonFrom fallback args.tail := fun _ =>
    reasonOr_eq fun part hpart => hargs part (List.mem_of_mem_tail hpart)
  have hslash : ∀ text, name ≠ text → bytes "/" ++ name ≠ bytes "/" ++ text :=
    fun _ hne h => hne (List.append_cancel_left h)
  unfold chatAskedBy
  rw [Rcon.askedBy, hreason, hreason]
  by_cases hkick : name = bytes "kick"
  · subst hkick
    rfl
  by_cases hban : name = bytes "ban"
  · subst hban
    rfl
  by_cases hunban : name = bytes "unban"
  · subst hunban
    rfl
  by_cases hgive : name = bytes "give"
  · subst hgive
    rcases args with - | ⟨player, - | ⟨item, rest⟩⟩ <;> rfl
  rw [if_neg (show bytes "/" ++ name ≠ bytes "/kick" from hslash _ hkick),
    if_neg (show bytes "/" ++ name ≠ bytes "/ban" from hslash _ hban),
    if_neg (show bytes "/" ++ name ≠ bytes "/unban" from hslash _ hunban),
    if_neg (show bytes "/" ++ name ≠ bytes "/give" from hslash _ hgive), if_neg hunban,
    if_neg (show ¬ (!true) = true by decide), if_neg hkick, if_neg hban, if_neg hgive]
  by_cases hbroadcast : name = bytes "broadcast"
  · rw [if_pos hbroadcast]
  · rw [if_neg hbroadcast, if_neg hbroadcast]

/-- **A command of the chat asks for what the same words ask for in RCON**, but for `broadcast`,
which the chat does not have. -/
theorem chatAskedBy_iff {name : Bytes} {args : List Bytes} (hargs : ∀ arg ∈ args, arg ≠ [])
    (operation : Operation) :
    chatAskedBy (bytes "/" ++ name) args = some operation ↔
      Rcon.askedBy true name args = some operation ∧ ∀ body, operation ≠ .broadcast body := by
  rw [chatAskedBy_eq hargs]
  by_cases hbroadcast : name = bytes "broadcast"
  · rw [if_pos hbroadcast]
    constructor
    · intro h
      cases h
    · rintro ⟨hasked, hnot⟩
      subst hbroadcast
      cases args with
      | nil => cases hasked
      | cons first rest => exact absurd (Option.some.inj hasked).symm (hnot _)
  · rw [if_neg hbroadcast]
    exact ⟨fun h => ⟨h, fun body heq => askedBy_ne_broadcast hbroadcast args body (heq ▸ h)⟩,
      And.left⟩

/-- A line that does not begin with a space has a word. -/
theorem words_ne_nil {c : UInt8} (hc : isSpace c = false) (rest : Bytes) :
    words (c :: rest) ≠ [] := by
  rw [words, List.splitOnP_cons_eq_if_modifyHead, if_neg (by simp [hc])]
  cases hpieces : rest.splitOnP isSpace with
  | nil => exact absurd hpieces (List.splitOnP_ne_nil _ _)
  | cons first others =>
      rw [List.modifyHead_cons, List.filter_cons_of_pos (by simp)]
      exact List.cons_ne_nil _ _

/-- A byte in front of a line belongs to its first word, if the line does not begin with a
space. -/
theorem words_cons {c : UInt8} (hc : isSpace c = false) {line name : Bytes} {args : List Bytes}
    (hline : line.head?.any isSpace = false) (h : words line = name :: args) :
    words (c :: line) = (c :: name) :: args := by
  cases line with
  | nil =>
      rw [words, List.splitOnP_nil] at h
      cases h
  | cons d rest =>
      have hd : isSpace d = false := hline
      rw [words, List.splitOnP_cons_eq_if_modifyHead, if_neg (by simp [hd])] at h
      rw [words, List.splitOnP_cons_eq_if_modifyHead, if_neg (by simp [hc]),
        List.splitOnP_cons_eq_if_modifyHead, if_neg (by simp [hd])]
      cases hpieces : rest.splitOnP isSpace with
      | nil => exact absurd hpieces (List.splitOnP_ne_nil _ _)
      | cons first others =>
          rw [hpieces, List.modifyHead_cons, List.filter_cons_of_pos (by simp)] at h
          rw [List.modifyHead_cons, List.modifyHead_cons, List.filter_cons_of_pos (by simp)]
          obtain ⟨hname, hargs⟩ := List.cons.inj h
          rw [← hname, ← hargs]

/-- An admin types a line that begins with a slash, and the server reads it. -/
structure Typed (w : GameWorld) (bans : List BanEntry) (payload : Payload)
    (sender : PlayerInfo) : Prop where
  initialized : w.initialized = true
  frameLayoutReady : w.frameLayoutReady = true
  sender_eq : DomChat.senderOf (w.chatWorld bans) payload.identity = some sender
  isAdmin : DomChat.isAdmin (w.chatWorld bans) sender.controllerPtr = true
  head_slash : payload.body.head? = some 47

/-- The calls behind a line that an admin types. -/
theorem chatCalls_of_typed {context : Ptr} {payload : Payload}
    (h : Typed w s.bans payload sender) {operation : Operation}
    (hasked : chatAsked payload.body = some operation) :
    ∃ call, operationOf call = some operation ∧ chatCalls w s context (some payload) =
      .isAdmin sender.controllerPtr true :: chatDone w s sender operation call := by
  rw [chatAsked] at hasked
  split at hasked
  · cases hasked
  next part args hwords =>
  obtain ⟨call, hcall, hrun⟩ := @runCommand_eq w s sender _ _ _ hasked
  refine ⟨call, hcall, ?_⟩
  have hhandled : DomChat.handleCommand (w.chatWorld s.bans) sender payload.body =
      (true, .isAdmin sender.controllerPtr true :: chatDone w s sender operation call) := by
    rw [DomChat.handleCommand, hwords]
    dsimp only
    rw [if_neg (not_not.mpr (mem_commands_of_chatAskedBy hasked)), h.isAdmin, hrun]
    rfl
  have hread : DomChat.readMessage (w.chatWorld s.bans) payload =
      (true, .isAdmin sender.controllerPtr true :: chatDone w s sender operation call) := by
    rw [DomChat.readMessage, h.sender_eq]
    simp only [if_pos h.head_slash, hhandled, if_true]
  have hbody : payload.body ≠ [] := fun hnil => by simpa [hnil] using h.head_slash
  have hreads : ((w.chatWorld s.bans).initialized && (w.chatWorld s.bans).frameLayoutReady &&
      payload.body != []) = true := by
    change (w.initialized && w.frameLayoutReady && payload.body != []) = true
    rw [h.initialized, h.frameLayoutReady]
    simpa using hbody
  rw [chatCalls, DomChat.sendThunk]
  simp only [if_pos hreads, hread]
  exact List.append_nil _

/-- **A line that asks for nothing**, or that nobody with a right to it has typed, makes no call
that changes something. -/
theorem chatCalls_of_not_asked {context : Ptr} {payload : Option Payload}
    (h : ∀ p ∈ payload, ∀ sender, Typed w s.bans p sender → chatAsked p.body = none) :
    (chatCalls w s context payload).filterMap operationOf = [] := by
  rw [chatCalls]
  cases hgrants : DomChat.grants (DomChat.sendThunk (w.chatWorld s.bans) context payload) with
  | false => exact no_operation_of_not_grants hgrants
  | true =>
      cases payload with
      | none =>
          rw [DomChat.sendThunk] at hgrants
          cases hasOriginal : (w.chatWorld s.bans).hasOriginal <;>
            simp [DomChat.grants, Call.isGrant, hasOriginal] at hgrants
      | some payload =>
          obtain ⟨⟨hreads, hcommand⟩, sender, hsender, hadmin⟩ :=
            DomChat.grants_sendThunk_iff.mp hgrants
          rw [DomChat.isCommand, Bool.and_eq_true, beq_iff_eq] at hcommand
          obtain ⟨hslash, hknown⟩ := hcommand
          rw [DomChat.reads, Bool.and_eq_true] at hreads
          have hasked := h payload rfl sender ⟨hreads.1, hreads.2, hsender, hadmin, hslash⟩
          obtain ⟨own, hown, heq⟩ :=
            DomChat.sendThunk_eq (w.chatWorld s.bans) context payload.identity payload.body
          have hnone : own.filterMap operationOf = [] := List.filterMap_eq_nil_iff.mpr fun c hc =>
            operationOf_of_not_privileged (hown c hc).2
          rw [heq, List.filterMap_append, hnone, List.append_nil, hsender, Option.elim_some]
          split
          · rw [chatAsked] at hasked
            rw [DomChat.handleCommand]
            cases hwords : words payload.body with
            | nil => rfl
            | cons part args =>
                rw [hwords] at hasked hknown
                dsimp only at hasked ⊢
                rw [if_neg (not_not.mpr (of_decide_eq_true hknown)), hadmin]
                exact runCommand_of_not_asked (of_decide_eq_true hknown) hasked
          · rfl

/-! ### The three of them -/

/-- A line that the limiter lets through on a connection that has given the password. -/
theorem onPacket_command {service : Rcon.Service} (hallow : service.allow 0 = true)
    (id : Int32) (line : Bytes) :
    Rcon.onPacket service { authenticated := true } ⟨id, Rcon.execCommand, line⟩ =
      ({ authenticated := true
         asked := 1
         dispatched := [line]
         sent := Rcon.responsePackets id (service.dispatch 0 line) }, true) := by
  rw [Rcon.onPacket, if_neg (show Rcon.execCommand ≠ Rcon.auth by decide)]
  dsimp only
  rw [if_neg (by decide), if_neg (by simp), hallow, if_neg (by decide)]
  rfl

/-- A connection that goes on as it was. -/
theorem withSession_self {s : System} {client : ℕ} {c : Connection}
    (h : s.sessions client = some c) : s.withSession client (some c) = s := by
  rw [System.withSession, h, Nat.add_sub_cancel, ← h, Function.update_eq_self]

/-- A command on a connection that has given the password, where the limiter lets it through. -/
theorem step_command {settings : Settings} {s : System} {client : ℕ} {c : Connection}
    (hsession : s.sessions client = some c) (hauth : c.authenticated = true)
    (hallow : (s.limiter.allow s.now c.peer).1 = true) (id : Int32) (line : Bytes) :
    step settings s (.packet w client ⟨id, Rcon.execCommand, line⟩) =
      ({ s with
          admin := (Rcon.dispatch (Rcon.registry w.toConsole) line s.admin).2
          limiter := (s.limiter.allow s.now c.peer).2 },
        .packets (Rcon.responsePackets id
          (Rcon.dispatch (Rcon.registry w.toConsole) line s.admin).1)) := by
  have hpacket : afterPacket settings w s c ⟨id, Rcon.execCommand, line⟩ =
      ({ authenticated := true
         asked := 1
         dispatched := [line]
         sent := Rcon.responsePackets id
          (Rcon.dispatch (Rcon.registry w.toConsole) line s.admin).1 }, true) := by
    rw [afterPacket, hauth]
    exact onPacket_command hallow id line
  have hconnection : (⟨c.peer, true⟩ : Connection) = c := by rw [← hauth]
  simp only [step, stepThrough, hsession, hpacket, connectionAfter, if_true, hconnection]
  rw [withSession_self]
  · rfl
  · exact hsession

/-- The words of a line behind a slash. -/
theorem chatAsked_slash {line : Bytes} (hline : line.head?.any isSpace = false)
    (operation : Operation) : chatAsked (bytes "/" ++ line) = some operation ↔
      Rcon.asked true line = some operation ∧ ∀ body, operation ≠ .broadcast body := by
  rw [Rcon.asked]
  cases hwords : words line with
  | nil =>
      obtain rfl : line = [] := by
        cases line with
        | nil => rfl
        | cons c rest => exact absurd hwords (words_ne_nil hline rest)
      constructor
      · intro h
        cases h
      · rintro ⟨h, -⟩
        cases h
  | cons name args =>
      have hbody : words (bytes "/" ++ line) = (bytes "/" ++ name) :: args :=
        words_cons (by decide) hline hwords
      have hlower : lower (bytes "/" ++ name) = bytes "/" ++ lower name := by
        rw [lower, List.map_append]
        rfl
      rw [chatAsked, hbody]
      dsimp only
      rw [hlower]
      exact chatAskedBy_iff (fun arg harg =>
        ne_nil_of_mem_words (by rw [hwords]; exact List.mem_cons_of_mem name harg)) operation

/-- **The front ends agree.** An operation that a request, a line of RCON or a command of the chat
asks for changes the shared lists in the same way wherever it comes from, and each of them answers
with the outcome of that one operation; what is typed behind a slash in the chat asks for what it
asks for in RCON, but for `broadcast`, which the chat does not have; and a line of the chat that
asks for nothing, or that no admin has typed, changes nothing. -/
theorem agreement_spec (settings : Settings) (s : System) (w : GameWorld) (operation : Operation) :
    let after : System := { s with admin := (perform w.toAdminWorld s.admin operation).2 }
    let result := (perform w.toAdminWorld s.admin operation).1
    (∀ peer net req, allows settings.httpRules peer = true →
      ((ApiRoutes.apiServer w.toConsole s.admin).serve settings.bearerToken net).called = some req →
      ApiRoutes.requested w.initialized req = some operation → ∃ response,
        step settings s (.http w peer net) =
          (after, .response (some (HttpServer.responseText response))) ∧
        HttpServer.SentAs response (HttpServer.responseText response) ∧
        JsonText.Reads response.body (ApiRoutes.answerData operation result)) ∧
    (∀ client c id line, s.sessions client = some c → c.authenticated = true →
      (s.limiter.allow s.now c.peer).1 = true → Rcon.asked w.initialized line = some operation →
        step settings s (.packet w client ⟨id, Rcon.execCommand, line⟩) =
          ({ after with limiter := (s.limiter.allow s.now c.peer).2 },
            .packets (Rcon.responsePackets id (Rcon.told operation result)))) ∧
    (∀ context payload sender, Typed w s.admin.bans payload sender →
      chatAsked payload.body = some operation →
        ∃ call, operationOf call = some operation ∧
          step settings s (.chat w context (some payload)) =
            (after, .calls [.isAdmin sender.controllerPtr true, call,
              DomChat.reply sender (chatTold operation result)])) ∧
    (∀ line, line.head?.any isSpace = false →
      (chatAsked (bytes "/" ++ line) = some operation ↔
        Rcon.asked true line = some operation ∧ ∀ body, operation ≠ .broadcast body)) ∧
    ∀ context payload,
      (∀ p ∈ payload, ∀ sender, Typed w s.admin.bans p sender → chatAsked p.body = none) →
        (step settings s (.chat w context payload)).1 = s := by
  refine ⟨fun peer net req hallows hcalled hasked => ?_,
    fun client c id line hsession hauth hallow hasked => ?_,
    fun context payload sender htyped hasked => ?_,
    fun line hline => chatAsked_slash hline operation, fun context payload hnone => ?_⟩
  · have hserve := ApiRoutes.serve_eq settings.bearerToken w.toConsole s.admin net
    rw [hcalled] at hserve
    dsimp only at hserve
    obtain ⟨-, -, -, hanswer⟩ := hserve
    rw [hasked] at hanswer
    dsimp only at hanswer
    refine ⟨_, ?_, HttpServer.sentAs_responseText _, ApiRoutes.reads_answered operation _⟩
    rw [step, stepThrough, hallows, hanswer]
    rfl
  · have hdispatch := Rcon.dispatch_of_asked hasked s.admin
    rw [step_command hsession hauth hallow id line, hdispatch]
  · obtain ⟨call, hcall, hcalls⟩ := @chatCalls_of_typed w s.admin sender context _ htyped _ hasked
    refine ⟨call, hcall, ?_⟩
    have hplain : (chatDone w s.admin sender operation call).filterMap operationOf =
      [operation] := by
      rw [chatDone, List.filterMap_cons_some hcall]
      rfl
    rw [step, stepThrough, hcalls]
    simp only [List.filterMap_cons, operationOf, hplain]
    rfl
  · rw [step, stepThrough]
    dsimp only
    rw [chatCalls_of_not_asked hnone]
    rfl

end RSDWServerAPI.FrontEnds
