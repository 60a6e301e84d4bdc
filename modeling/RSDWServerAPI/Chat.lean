import RSDWServerAPI.Bans
import RSDWServerAPI.Kick
import RSDWServerAPI.Items
import Mathlib.Data.List.Perm.Subperm

/-!
# `engine/chat.cpp`: commands typed into the chat

`SendThunk` stands in for the RPC with which a client sends a chat message. `context` is the
chat component the RPC arrived at, which belongs to the controller of the client that sent
it; everything in the payload is filled in by the client. The thunk looks the sender up by
the player id in the payload, and `HandleCommand` asks `IsAdmin` about the player found.

A call of the thunk is modelled by the calls it makes in turn. What the administrative
functions answer is computed by their own models, on the state found at that moment.

## Main results

* `grants_sendThunk_iff`: when the admin check is passed.
* `senderBound_iff`: **the authority depends on who sent the RPC exactly when the body is no
  command that is read, or no connected player that a player id finds is an admin.**
* `not_senderBound_takeover`: a player who is no admin bans through an admin's player id.
* `ownersOnly_of_honest`: a payload that names the owner of the component is judged rightly.
-/

namespace RSDWServerAPI.DomChat

open DomBans DomItems

/-! ### Messages and calls -/

/-- The identity fields of the payload, as the client sends them. -/
structure Identity where
  senderNetId : Bytes := []
  characterGuid : Bytes := []
  playerId : Int32
  deriving DecidableEq, Repr

/-- `FChatMessageData`, the fields that `SendThunk` reads. -/
structure Payload where
  identity : Identity
  body : Bytes
  deriving DecidableEq, Repr

/-- `DomChat::Message`. -/
structure Message where
  senderName : Bytes
  senderNetId : Bytes
  characterGuid : Bytes
  playerId : Int32
  body : Bytes
  deriving DecidableEq, Repr

/-- What `SendThunk` finds around it when it is called. -/
structure ChatWorld where
  /-- `Engine::GetAllPlayers`, which takes no roster of more than 512 players. -/
  players : List PlayerInfo
  players_le : players.length ≤ 512
  initialized : Bool
  /-- `GameThread::FrameLayoutReady`. -/
  frameLayoutReady : Bool
  adminFunction : Ptr
  adminLibrary : Ptr
  /-- `NativeCall::IsNative`, and whether `NativeCall::Invoke` goes through. -/
  isNative : Ptr → Bool
  invokeAdmin : Bool
  /-- `params.ReturnValue`, the game's own answer for a controller. -/
  returnValue : Ptr → Bool
  /-- `Mem::ReadPtr(controller + kControllerChatComponent)`. -/
  chatComponent : Ptr → Ptr
  /-- What the administrative functions work on. -/
  kick : KickWorld
  bans : List BanEntry
  now : Bytes
  give : GiveWorld
  /-- Whether `g_OriginalSend` is set. -/
  hasOriginal : Bool

/-- The calls that `SendThunk` and `HandleCommand` make. -/
inductive Call
  | isAdmin (controller : Ptr) (granted : Bool)
  | sendToPlayer (player : PlayerInfo) (body : Bytes)
  | kickPlayer (player reason : Bytes)
  | ban (player reason : Bytes)
  | unban (identifier : Bytes)
  | giveItem (player item : Bytes) (count : Int32)
  | deliver (message : Message)
  | originalSend (context : Ptr)
  deriving DecidableEq, Repr

namespace Call

/-- The calls that only an admin may bring about. -/
def isPrivileged : Call → Bool
  | kickPlayer .. | ban .. | unban .. | giveItem .. => true
  | _ => false

/-- An admin check that is passed. -/
def isGrant : Call → Bool
  | isAdmin _ granted => granted
  | _ => false

end Call

/-- `IsAdmin`. -/
def isAdmin (w : ChatWorld) (controller : Ptr) : Bool :=
  controller != 0 && w.adminFunction != 0 && w.adminLibrary != 0 &&
    w.isNative w.adminFunction && w.invokeAdmin && w.returnValue controller

/-! ### `HandleCommand` -/

/-- The first words that make a message a command. -/
def commands : List Bytes :=
  [bytes "/kick", bytes "/ban", bytes "/unban", bytes "/give", bytes "/help"]

/-- `Join` of the words from `from` on, which the caller cuts off. -/
def join (parts : List Bytes) : Bytes :=
  parts.foldl (fun out part => (if out = [] then [] else out ++ bytes " ") ++ part) []

/-- The reason typed behind the player, or the one that stands in for it. -/
def reasonOr (fallback : String) (parts : List Bytes) : Bytes :=
  if parts = [] then bytes fallback else join parts

/-- A line that the server sends to the player who typed a command. -/
def reply (sender : PlayerInfo) (text : Bytes) : Call :=
  .sendToPlayer sender (bytes "[Server] " ++ text)

/-- The text that `Engine::KickPlayer` leads to. -/
def kickResult (w : ChatWorld) (player : Bytes) : Bytes :=
  match kickPlayer w.kick w.initialized w.players player with
  | .ok _ => bytes "Kicked " ++ player
  | .error error => bytes "Kick failed: " ++ error

/-- The message that `DomBans::Ban` leaves. -/
def banResult (w : ChatWorld) (player reason : Bytes) : Bytes :=
  match ban w.initialized w.players player reason w.now w.bans, banTarget w.players player with
  | .ok _, .ok (netId, name) =>
      banMessage netId name reason
        (kickPlayer w.kick w.initialized w.players netId).toBool
  | .ok _, .error message | .error message, _ => message

/-- The message that `DomBans::Unban` leaves. -/
def unbanResult (w : ChatWorld) (identifier : Bytes) : Bytes :=
  match unban identifier w.bans with
  | .ok (entry, _) => unbanMessage entry
  | .error message => message

/-- The message that `DomItems::GiveItem` leaves. -/
def giveResult (w : ChatWorld) (player item : Bytes) (count : Int32) : Bytes :=
  match giveItem w.give w.players player item count with
  | .ok message | .error message => message

/-- The lines of `/help`. -/
def helpLines : List Bytes :=
  [bytes "/kick <player> [reason]", bytes "/ban <player> [reason]",
    bytes "/unban <player or SteamID64>", bytes "/give <player> <item> [count]"]

/-- The part of `HandleCommand` behind the admin check. -/
def runCommand (w : ChatWorld) (sender : PlayerInfo) (command : Bytes) (args : List Bytes) :
    List Call :=
  if command = bytes "/help" then helpLines.map (reply sender)
  else if command = bytes "/kick" then
    match args with
    | [] => [reply sender (bytes "Usage: /kick <player> [reason]")]
    | player :: rest =>
        [.kickPlayer player (reasonOr "Kicked by an administrator" rest),
          reply sender (kickResult w player)]
  else if command = bytes "/ban" then
    match args with
    | [] => [reply sender (bytes "Usage: /ban <player> [reason]")]
    | player :: rest =>
        let reason := reasonOr "Banned by an administrator" rest
        [.ban player reason, reply sender (banResult w player reason)]
  else if command = bytes "/unban" then
    match args with
    | [] => [reply sender (bytes "Usage: /unban <player or SteamID64>")]
    | player :: _ => [.unban player, reply sender (unbanResult w player)]
  else
    match args with
    | player :: item :: rest =>
        let count := rest.head?.elim 1 atoi
        [.giveItem player item count, reply sender (giveResult w player item count)]
    | _ => [reply sender (bytes "Usage: /give <player> <item> [count]")]

/-- `HandleCommand`: whether the message is taken for a command, and the calls made. -/
def handleCommand (w : ChatWorld) (sender : PlayerInfo) (body : Bytes) : Bool × List Call :=
  match words body with
  | [] => (false, [])
  | part :: args =>
      let command := lower part
      if command ∉ commands then (false, [])
      else if !isAdmin w sender.controllerPtr then
        (true, [.isAdmin sender.controllerPtr false,
          reply sender (bytes "You are not an admin.")])
      else
        (true, .isAdmin sender.controllerPtr true :: runCommand w sender command args)

/-! ### `SendThunk` -/

/-- The roster loop of `SendThunk`: the first player with the id that the payload names. -/
def senderOf (w : ChatWorld) (i : Identity) : Option PlayerInfo :=
  w.players.find? fun player => player.playerId == i.playerId

/-- The message that is handed to the listeners. -/
def messageOf (w : ChatWorld) (payload : Payload) : Message where
  senderName := (senderOf w payload.identity).elim [] fun player =>
    if player.characterName = [] then player.name else player.characterName
  senderNetId :=
    if payload.identity.senderNetId = [] then
      (senderOf w payload.identity).elim [] PlayerInfo.uniqueNetId
    else payload.identity.senderNetId
  characterGuid := payload.identity.characterGuid
  playerId := payload.identity.playerId
  body := payload.body

/-- The branch of `SendThunk` for a message with a body: `suppress`, and the calls made. -/
def readMessage (w : ChatWorld) (payload : Payload) : Bool × List Call :=
  let handled :=
    match senderOf w payload.identity with
    | some sender =>
        if payload.body.head? = some 47 then handleCommand w sender payload.body else (false, [])
    | none => (false, [])
  if handled.1 then handled else (false, handled.2 ++ [.deliver (messageOf w payload)])

/-- `SendThunk`, for a call that arrived at the chat component `context`. The payload is
`none` when the locals of the frame cannot be read. -/
def sendThunk (w : ChatWorld) (context : Ptr) (payload : Option Payload) : List Call :=
  let read :=
    match payload with
    | some payload =>
        if w.initialized && w.frameLayoutReady && payload.body != [] then readMessage w payload
        else (false, [])
    | none => (false, [])
  read.2 ++ if !read.1 && w.hasOriginal then [.originalSend context] else []

/-! ### Who is asked about -/

/-- A body that `SendThunk` hands to `HandleCommand` and that names one of the commands. -/
def isCommand (body : Bytes) : Bool :=
  body.head? == some 47 && match words body with
    | [] => false
    | part :: _ => lower part ∈ commands

/-- Whether the admin check is made and passed. -/
def grants (calls : List Call) : Bool :=
  calls.any Call.isGrant

/-- `HandleCommand` grants, and makes privileged calls, only for a command typed by a player
whose controller passes `IsAdmin`. -/
theorem handleCommand_spec (w : ChatWorld) (sender : PlayerInfo) {body : Bytes}
    (hbody : body.head? = some 47) :
    grants (handleCommand w sender body).2 = (isCommand body && isAdmin w sender.controllerPtr) ∧
      ((∃ c ∈ (handleCommand w sender body).2, c.isPrivileged = true) →
        isCommand body = true ∧ isAdmin w sender.controllerPtr = true) := by
  rw [handleCommand, isCommand]
  cases words body with
  | nil => simp [grants]
  | cons part args =>
      by_cases hcmd : lower part ∈ commands
      · cases hadmin : isAdmin w sender.controllerPtr with
        | false =>
            simp [hcmd, grants, Call.isGrant, Call.isPrivileged, reply]
        | true => simp [hcmd, hbody, grants, Call.isGrant]
      · simp [hcmd, grants]

/-- The conditions under which `SendThunk` reads the message at all. -/
def reads (w : ChatWorld) : Bool :=
  w.initialized && w.frameLayoutReady

/-- Calls that neither pass the admin check nor need it. -/
def Plain (calls : List Call) : Prop :=
  ∀ c ∈ calls, c.isGrant = false ∧ c.isPrivileged = false

/-- The calls of `HandleCommand` come first, if the message gets there; those that
`SendThunk` makes itself are plain. -/
theorem sendThunk_eq (w : ChatWorld) (context : Ptr) (i : Identity) (body : Bytes) :
    ∃ own, Plain own ∧ sendThunk w context (some ⟨i, body⟩) =
      (if reads w ∧ body.head? = some 47 then
        (senderOf w i).elim [] fun p => (handleCommand w p body).2 else []) ++ own := by
  have hplain : ∀ calls, Plain calls → ∀ b : Bool,
      Plain (calls ++ if b then [.originalSend context] else []) := by
    intro calls hcalls b c hc
    rcases List.mem_append.mp hc with hc | hc
    · exact hcalls c hc
    · cases b <;> simp_all [Call.isGrant, Call.isPrivileged]
  have hdeliver : ∀ message, Plain [.deliver message] := by
    simp [Plain, Call.isGrant, Call.isPrivileged]
  have hnil : Plain [] := by simp [Plain]
  have hrest : Plain ([.deliver (messageOf w ⟨i, body⟩)] ++
      if w.hasOriginal then [.originalSend context] else []) := hplain _ (hdeliver _) _
  rw [sendThunk, reads]
  by_cases hread : (w.initialized && w.frameLayoutReady) = true
  · by_cases hbody : body = []
    · exact ⟨_, hplain [] hnil w.hasOriginal, by simp [hbody]⟩
    · simp only [hread, true_and, bne_iff_ne, ne_eq, hbody, not_false_eq_true,
        Bool.true_and, if_true, readMessage]
      by_cases hslash : body.head? = some 47
      · cases hs : senderOf w i with
        | none => exact ⟨_, hrest, by simp⟩
        | some p =>
            simp only [hslash, if_true, Option.elim_some]
            cases hsup : (handleCommand w p body).1 with
            | true => exact ⟨_, hplain [] hnil false, by simp [hsup]⟩
            | false => exact ⟨_, hrest, by simp⟩
      · refine ⟨_, hrest, ?_⟩
        cases senderOf w i <;> simp [hslash]
  · exact ⟨_, hplain [] hnil w.hasOriginal, by simp [hread]⟩

/-- What `SendThunk` does with a command: it grants, and makes privileged calls, exactly
through the first player on the roster with the player id in the payload. -/
theorem sendThunk_spec (w : ChatWorld) (context : Ptr) (i : Identity) (body : Bytes) :
    (grants (sendThunk w context (some ⟨i, body⟩)) = true ↔
      (reads w = true ∧ isCommand body = true) ∧
        ∃ p, senderOf w i = some p ∧ isAdmin w p.controllerPtr = true) ∧
    ((∃ c ∈ sendThunk w context (some ⟨i, body⟩), c.isPrivileged = true) →
      grants (sendThunk w context (some ⟨i, body⟩)) = true) := by
  obtain ⟨own, hown, heq⟩ := sendThunk_eq w context i body
  have hgrant : grants own = false := by
    simpa [grants] using fun c hc => (hown c hc).1
  have hpriv : ¬ ∃ c ∈ own, c.isPrivileged = true := by
    rintro ⟨c, hc, h⟩
    simp [(hown c hc).2] at h
  have happend : ∀ calls, grants (calls ++ own) = grants calls := by
    intro calls
    rw [grants, List.any_append, ← grants, ← grants, hgrant, Bool.or_false]
  rw [heq, happend]
  by_cases hhead : reads w ∧ body.head? = some 47
  · rw [if_pos hhead]
    cases hs : senderOf w i with
    | none =>
        simp only [Option.elim_none, List.nil_append]
        exact ⟨by simp [grants], fun h => absurd h hpriv⟩
    | some p =>
        obtain ⟨hg, hp⟩ := handleCommand_spec w p hhead.2
        simp only [Option.elim_some, hg, Bool.and_eq_true, hhead.1, true_and,
          Option.some.injEq, exists_eq_left']
        rintro ⟨c, hc, h⟩
        rcases List.mem_append.mp hc with hc | hc
        · exact hp ⟨c, hc, h⟩
        · exact absurd ⟨c, hc, h⟩ hpriv
  · rw [if_neg hhead]
    refine ⟨?_, fun h => absurd h hpriv⟩
    simp only [grants, List.any_nil, Bool.false_eq_true, false_iff, not_and]
    rintro ⟨hread, hcmd⟩
    exact absurd ⟨hread, by simpa using ((Bool.and_eq_true _ _).mp hcmd).1⟩ hhead

/-- **When the admin check is passed**: for a command that is read, if the player that the
payload's player id finds is an admin. The component the call arrived at plays no part. -/
theorem grants_sendThunk_iff {w : ChatWorld} {context : Ptr} {i : Identity} {body : Bytes} :
    grants (sendThunk w context (some ⟨i, body⟩)) = true ↔
      (reads w = true ∧ isCommand body = true) ∧
        ∃ p, senderOf w i = some p ∧ isAdmin w p.controllerPtr = true :=
  (sendThunk_spec w context i body).1

/-! ### Who ought to be asked about -/

/-- The controller that the chat component belongs to passes `IsAdmin`. -/
def OwnerIsAdmin (w : ChatWorld) (context : Ptr) : Prop :=
  ∃ controller, w.chatComponent controller = context ∧ isAdmin w controller = true

/-- Two calls at one component with one body get the same admin decision. -/
def DecisionsAgree (w : ChatWorld) (context : Ptr) (body : Bytes) : Prop :=
  ∀ i j : Identity, grants (sendThunk w context (some ⟨i, body⟩)) =
    grants (sendThunk w context (some ⟨j, body⟩))

/-- Privileged calls are made only for the admin who owns the component. -/
def OwnersOnly (w : ChatWorld) (context : Ptr) (body : Bytes) : Prop :=
  ∀ i : Identity, ∀ c ∈ sendThunk w context (some ⟨i, body⟩), c.isPrivileged = true →
    OwnerIsAdmin w context

/-- **The authority depends on who sent the RPC**, not on what the RPC says. -/
def SenderBound (w : ChatWorld) (context : Ptr) (body : Bytes) : Prop :=
  DecisionsAgree w context body ∧ OwnersOnly w context body

/-- A player id finds an admin on the roster. -/
def AdminFound (w : ChatWorld) : Prop :=
  ∃ i p, senderOf w i = some p ∧ isAdmin w p.controllerPtr = true

/-- Some player id belongs to nobody on the roster. -/
theorem exists_senderOf_none (w : ChatWorld) : ∃ i, senderOf w i = none := by
  by_contra hcon
  let ids : List Int32 := (List.range 513).map Int32.ofNat
  have hnodup : ids.Nodup := by
    refine List.Nodup.map_on (fun a ha b hb hab => ?_) List.nodup_range
    have ha' := Int32.toInt_ofNat_of_lt (n := a) (by have := List.mem_range.mp ha; omega)
    have hb' := Int32.toInt_ofNat_of_lt (n := b) (by have := List.mem_range.mp hb; omega)
    rw [hab, hb'] at ha'
    omega
  have hsub : ids ⊆ w.players.map PlayerInfo.playerId := by
    intro id _
    rcases hid : senderOf w { playerId := id } with - | p
    · exact absurd ⟨_, hid⟩ hcon
    · refine List.mem_map.mpr ⟨p, List.mem_of_find?_eq_some hid, ?_⟩
      simpa using List.find?_some hid
  have hle := (List.subperm_of_subset hnodup hsub).length_le
  have hplayers := w.players_le
  simp only [ids, List.length_map, List.length_range] at hle
  omega

/-- **The authority depends on who sent the RPC exactly when** the message is no command
that is read, or no connected player that a player id finds is an admin. -/
theorem senderBound_iff (w : ChatWorld) (context : Ptr) (body : Bytes) :
    SenderBound w context body ↔
      ¬ (reads w = true ∧ isCommand body = true) ∨ ¬ AdminFound w := by
  constructor
  · rintro ⟨hagree, -⟩
    by_contra hcon
    obtain ⟨hread, i, p, hp, hadmin⟩ : (reads w = true ∧ isCommand body = true) ∧
        AdminFound w := by simpa [not_or, not_not] using hcon
    obtain ⟨j, hj⟩ := exists_senderOf_none w
    have hi : grants (sendThunk w context (some ⟨i, body⟩)) = true :=
      grants_sendThunk_iff.mpr ⟨hread, p, hp, hadmin⟩
    rw [hagree i j] at hi
    obtain ⟨-, q, hq, -⟩ := grants_sendThunk_iff.mp hi
    simp [hj] at hq
  · intro hcon
    have hnone : ∀ i, grants (sendThunk w context (some ⟨i, body⟩)) = false := by
      intro i
      rw [Bool.eq_false_iff]
      intro hi
      obtain ⟨hread, p, hp, hadmin⟩ := grants_sendThunk_iff.mp hi
      rcases hcon with hcon | hcon
      · exact hcon hread
      · exact hcon ⟨i, p, hp, hadmin⟩
    refine ⟨fun i j => by rw [hnone i, hnone j], fun i c hc hpriv => ?_⟩
    have := (sendThunk_spec w context i body).2 ⟨c, hc, hpriv⟩
    simp [hnone i] at this

/-- An admin whose id 7 everybody on the roster can see, and a player with id 8. -/
def takeoverWorld : ChatWorld where
  players := [⟨bytes "Warden", 7, [], [], bytes "76561190000000007", 0x7000, 0x1000⟩,
    ⟨bytes "Griefer", 8, [], [], bytes "76561190000000008", 0x8000, 0x3000⟩]
  players_le := by decide
  initialized := true
  frameLayoutReady := true
  adminFunction := 0x10
  adminLibrary := 0x20
  isNative := fun _ => true
  invokeAdmin := true
  returnValue := fun c => c == 0x1000
  chatComponent := fun c => if c = 0x1000 then 0x2000 else if c = 0x3000 then 0x4000 else 0
  kick := ⟨0, 0, 0, 0, fun _ => false, false, [], .dropped, false, false, fun _ => false⟩
  bans := []
  now := bytes "2025-01-01T00:00:00Z"
  give := ⟨.ok (), fun _ => none, fun _ _ _ => false⟩
  hasOriginal := true

/-- **A player who is no admin bans** by sending the admin's player id: the call arrives at
the component of the player with id 8, and the ban goes through. -/
theorem not_senderBound_takeover :
    ¬ SenderBound takeoverWorld 0x4000 (bytes "/ban Warden") := by
  rintro ⟨-, howners⟩
  have hban : Call.ban (bytes "Warden") (bytes "Banned by an administrator") ∈
      sendThunk takeoverWorld 0x4000 (some ⟨⟨[], [], 7⟩, bytes "/ban Warden"⟩) := by
    decide
  obtain ⟨controller, hcomp, hadmin⟩ := howners _ _ hban rfl
  obtain ⟨-, rfl⟩ : controller ≠ 0 ∧ controller = 0x1000 := by
    simpa [isAdmin, takeoverWorld] using hadmin
  exact absurd hcomp (by decide)

/-- A payload that names the owner of the component is judged rightly. -/
theorem ownersOnly_of_honest {w : ChatWorld} {context : Ptr} {i : Identity} {body : Bytes}
    (h : ∀ p, senderOf w i = some p → w.chatComponent p.controllerPtr = context) :
    ∀ c ∈ sendThunk w context (some ⟨i, body⟩), c.isPrivileged = true →
      OwnerIsAdmin w context := by
  intro c hc hpriv
  have hgrant := (sendThunk_spec w context i body).2 ⟨c, hc, hpriv⟩
  obtain ⟨-, p, hp, hadmin⟩ := grants_sendThunk_iff.mp hgrant
  exact ⟨p.controllerPtr, h p hp, hadmin⟩

end RSDWServerAPI.DomChat
