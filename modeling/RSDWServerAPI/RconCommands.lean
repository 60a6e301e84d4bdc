import RSDWServerAPI.Administration
import RSDWServerAPI.Chat
import RSDWServerAPI.JsonReplies

/-!
# The commands of RCON

`Dispatch` (`rcon/rcon_commands.cpp`) cuts a line into words and calls the handler of the command
that the first one names; `RegisterSystemCommands` and `RegisterPlayerCommands`
(`rcon/commands_system.cpp`, `rcon/commands_players.cpp`) fill the registry. `asked` is what a line
asks for, read off the words alone, and `told` is the answer to it.

## Main results

* `dispatch_of_name`: **a line runs the command that its first word names**, however it is
  written, with the other words.
* `dispatch_spec`: **a line does what it asks for and nothing else**: one operation, or none, and
  then the state is as it was.
-/

namespace RSDWServerAPI

/-! ### Numbers in the console -/

/-- The number `mantissa * 2 ^ exponent` in units of the `k`th decimal place. -/
def places (k mantissa : ℕ) : ℤ → ℕ
  | .ofNat e => mantissa * 2 ^ e * 10 ^ k
  | .negSucc e => roundEven (mantissa * 10 ^ k) (2 ^ (e + 1))

/-- The last `k` digits of a number. -/
def lastDigits (k t : ℕ) : Bytes :=
  (List.range k).map fun i => 48 + UInt8.ofNat (t / 10 ^ (k - 1 - i) % 10)

/-- The conversion `%.kf`. -/
def fixedText (k : ℕ) : FloatValue → Bytes
  | .nan negative => signText negative ++ bytes "nan"
  | .infinity negative => signText negative ++ bytes "inf"
  | .finite negative mantissa exponent =>
      let t := places k mantissa exponent
      signText negative ++ natDecimal (t / 10 ^ k) ++
        if k = 0 then [] else bytes "." ++ lastDigits k t

/-- With three places it is the conversion of the JSON texts. -/
theorem fixedText_three (x : FloatValue) : fixedText 3 x = fixed3 x := by
  cases x with
  | nan negative => rfl
  | infinity negative => rfl
  | finite negative mantissa exponent =>
      have hplaces : places 3 mantissa exponent = thousandths mantissa exponent := by
        cases exponent with
        | ofNat e => rfl
        | negSucc e => rfl
      have hdigits : ∀ t, bytes "." ++ lastDigits 3 t = 46 :: fractionDigits t := by
        intro t
        simp [lastDigits, fractionDigits, List.range_succ, bytes]
      rw [fixedText, fixed3, hplaces, if_neg (by decide), hdigits]
      rfl

namespace Rcon

open Administration ApiRoutes

/-! ### The registry -/

/-- `Rcon::Command`. The handler sees the usages and descriptions of all commands, and may throw;
the text of the exception is `none` if it is not an `std::exception`. -/
structure Command (σ : Type) where
  name : Bytes
  usage : Bytes
  description : Bytes
  handler : List (Bytes × Bytes) → List Bytes → σ → Except (Option Bytes) Bytes × σ

/-- `Dispatch`. -/
def dispatch {σ : Type} (registry : List (Command σ)) (line : Bytes) (s : σ) : Bytes × σ :=
  match words line with
  | [] => ([], s)
  | name :: args =>
      match registry.find? fun command => lower command.name == lower name with
      | none => (bytes "Unknown command '" ++ name ++ bytes "'. Try 'help'.", s)
      | some command =>
          match command.handler (registry.map fun c => (c.usage, c.description)) args s with
          | (.ok text, s) => (text, s)
          | (.error (some what), s) => (bytes "Command failed: " ++ what, s)
          | (.error none, s) => (bytes "Command failed.", s)

/-- `ServerInfo`, the fields that are shown. -/
structure ServerInfo where
  ownerId : Bytes := []
  serverName : Bytes := []
  worldName : Bytes := []
  serverGuid : Bytes := []
  isDedicatedServer : Bool := false
  crossplayEnabled : Bool := false
  hardcoreState : Int32 := -1
  deriving DecidableEq, Repr

/-- `DiscoveryInfo`, the fields that are shown. -/
structure DiscoveryInfo where
  gObjectsSource : Bytes := []
  gNamesSource : Bytes := []
  worldSource : Bytes := []
  objectCount : Int32 := 0
  deriving DecidableEq, Repr

/-- What a command finds: what an operation finds, `runtime.h`, `GetServerInfo` and
`GetDiscoveryInfo`. -/
structure Console extends AdminWorld where
  uptimeSeconds : CDouble
  restRunning : Bool
  restPort : Int32
  rconRunning : Bool
  rconPort : Int32
  server : ServerInfo
  discovery : DiscoveryInfo

/-- `Runtime::Version`. -/
def version : Bytes := bytes "0.1.1"

/-- The answer while there is no engine. -/
def notReady : Bytes := bytes "Engine not initialized yet."

/-- A handler that always answers, and changes nothing. -/
def answering (text : List Bytes → AdminState → Bytes) (_ : List (Bytes × Bytes)) :
    List Bytes → AdminState → Except (Option Bytes) Bytes × AdminState :=
  showing fun args s => .ok (text args s)

/-- The words from the first one on, with blanks between them. -/
def joined (first : Bytes) (rest : List Bytes) : Bytes :=
  rest.foldl (fun out arg => out ++ (bytes " " ++ arg)) first

/-- The reason behind the name of a player, or the one that stands in for it. -/
def reasonFrom (fallback : String) : List Bytes → Bytes
  | [] => bytes fallback
  | first :: rest => joined first rest

/-! ### `commands_system.cpp` -/

/-- `Pad` of `commands_system.cpp`, which does not cut. -/
def padUsage (value : Bytes) (width : ℕ) : Bytes :=
  value ++ List.replicate (width - value.length) 32

/-- `help`. -/
def helpCommand : Command AdminState where
  name := bytes "help"
  usage := bytes "help"
  description := bytes "List available commands."
  handler := fun all _ s =>
    (.ok (bytes "RSDWRestAPI " ++ version ++ bytes " - available commands:\n" ++
      all.flatMap fun command =>
        bytes "  " ++ padUsage command.1 32 ++ command.2 ++ bytes "\n"), s)

/-- `health`, as far as it fits into `char buf[256]`. -/
def healthCommand (w : Console) : Command AdminState where
  name := bytes "health"
  usage := bytes "health"
  description := bytes "Mod and engine readiness in one line."
  handler := answering fun _ _ =>
    (bytes "status=" ++ (if w.initialized then bytes "healthy" else bytes "starting") ++
      bytes " uptime=" ++ fixedText 1 w.uptimeSeconds.value ++
      bytes "s engine=" ++ (if w.initialized then bytes "ready" else bytes "waiting") ++
      bytes " rest=" ++ (if w.restRunning then bytes "up" else bytes "down") ++
      bytes ":" ++ decimal w.restPort.toInt ++
      bytes " rcon=" ++ (if w.rconRunning then bytes "up" else bytes "down") ++
      bytes ":" ++ decimal w.rconPort.toInt).take 255

/-- `yes` or `no`. -/
def yesNo (b : Bool) : Bytes :=
  if b then bytes "yes" else bytes "no"

/-- `status`. -/
def statusCommand (w : Console) : Command AdminState where
  name := bytes "status"
  usage := bytes "status"
  description := bytes "Server identity, world and engine discovery."
  handler := answering fun _ _ =>
    if !w.initialized then notReady
    else
      bytes "Server name   : " ++ w.server.serverName ++ bytes "\n" ++
      bytes "World         : " ++ w.server.worldName ++ bytes "\n" ++
      bytes "Owner id      : " ++ w.server.ownerId ++ bytes "\n" ++
      bytes "Server guid   : " ++ w.server.serverGuid ++ bytes "\n" ++
      bytes "Dedicated     : " ++ yesNo w.server.isDedicatedServer ++ bytes "\n" ++
      bytes "Crossplay     : " ++ yesNo w.server.crossplayEnabled ++ bytes "\n" ++
      bytes "Hardcore state: " ++ decimal w.server.hardcoreState.toInt ++ bytes "\n" ++
      bytes "Objects       : " ++ decimal w.discovery.objectCount.toInt ++ bytes "\n" ++
      bytes "GObjects      : " ++ w.discovery.gObjectsSource ++ bytes "\n" ++
      bytes "GNames        : " ++ w.discovery.gNamesSource ++ bytes "\n" ++
      bytes "World lookup  : " ++ w.discovery.worldSource

/-! ### `commands_players.cpp` -/

/-- `Pad` of `serialize.cpp`, which cuts. -/
def pad (value : Bytes) (width : ℕ) : Bytes :=
  value.take width ++ List.replicate (width - value.length) 32

/-- A cell of the table that is written with `snprintf` if there is something to write. -/
def cell (has : Bool) (size : ℕ) (text : Bytes) : Bytes :=
  if has then text.take (size - 1) else bytes "-"

/-- A line of `PlayersTable`. -/
def playerRow (p : Serialize.PlayerInfo) : Bytes :=
  pad p.name 20 ++ pad p.characterName 18 ++ pad (decimal p.playerId.toInt) 5 ++
    pad (decimal p.pingMs.toInt) 6 ++
    pad (cell p.hasHealth 32
      (fixedText 0 p.health.value ++ bytes "/" ++ fixedText 0 p.maxHealth.value)) 12 ++
    pad (cell p.hasSustenance 32 (fixedText 0 p.sustenance.value)) 8 ++
    pad (cell p.hasHydration 32 (fixedText 0 p.hydration.value)) 8 ++
    (if p.hasLocation then
      (fixedText 0 p.x.value ++ bytes " " ++ fixedText 0 p.y.value ++ bytes " " ++
        fixedText 0 p.z.value).take 63
    else bytes "not spawned") ++ bytes "\n"

/-- `Serialize::PlayersTable`. -/
def playersTable (players : List Serialize.PlayerInfo) : Bytes :=
  if players = [] then bytes "No players connected."
  else
    pad (bytes "NAME") 20 ++ pad (bytes "CHARACTER") 18 ++ pad (bytes "ID") 5 ++
      pad (bytes "PING") 6 ++ pad (bytes "HP") 12 ++ pad (bytes "FOOD") 8 ++
      pad (bytes "WATER") 8 ++ bytes "LOCATION\n" ++ players.flatMap playerRow ++
      bytes "\n" ++ decimal players.length ++ bytes " player(s) connected."

/-- `players`. -/
def playersCommand (w : Console) : Command AdminState where
  name := bytes "players"
  usage := bytes "players [json]"
  description := bytes "List connected players. 'json' returns the API payload."
  handler := answering fun args _ =>
    if !w.initialized then notReady
    else if args.head?.map lower = some (bytes "json") then Serialize.players w.players
    else playersTable w.players

/-- `playercount`. -/
def playercountCommand (w : Console) : Command AdminState where
  name := bytes "playercount"
  usage := bytes "playercount"
  description := bytes "Number of connected players."
  handler := answering fun _ _ =>
    if !w.initialized then notReady else decimal w.players.length

/-- `player`. -/
def playerCommand (w : Console) : Command AdminState where
  name := bytes "player"
  usage := bytes "player <name>"
  description := bytes "Everything known about one player, as JSON."
  handler := answering fun args _ =>
    if !w.initialized then notReady
    else
      match args with
      | [] => bytes "Usage: player <name>"
      | first :: rest =>
          let wanted := lower (joined first rest)
          match w.players.find? fun p => lower p.name == wanted ||
              lower p.characterName == wanted || lower p.uniqueNetId == wanted with
          | some p => Serialize.player p
          | none => bytes "No connected player matches '" ++ wanted ++ bytes "'."

/-- `kick`. -/
def kickCommand (w : Console) : Command AdminState where
  name := bytes "kick"
  usage := bytes "kick <player> [reason]"
  description := bytes "Disconnect a player from the server."
  handler := fun _ args s =>
    if !w.initialized then (.ok notReady, s)
    else
      match args with
      | [] => (.ok (bytes "Usage: kick <player> [reason]"), s)
      | player :: rest =>
          let reason := reasonFrom "Kicked by an administrator" rest
          match perform w.toAdminWorld s (.kick player reason) with
          | (.error error, s) => (.ok (bytes "Kick failed: " ++ error), s)
          | (.ok _, s) => (.ok (bytes "Kicked " ++ player ++ bytes " (" ++ reason ++ bytes ")"), s)

/-- `broadcast`. -/
def broadcastCommand (w : Console) : Command AdminState where
  name := bytes "broadcast"
  usage := bytes "broadcast <message>"
  description := bytes "Send a message to every player."
  handler := fun _ args s =>
    if !w.initialized then (.ok notReady, s)
    else
      match args with
      | [] => (.ok (bytes "Usage: broadcast <message>"), s)
      | first :: rest =>
          match perform w.toAdminWorld s (.broadcast (bytes "[Server] " ++ joined first rest)) with
          | (.error error, s) => (.ok (bytes "Broadcast failed: " ++ error), s)
          | (.ok _, s) => (.ok (bytes "Broadcast sent."), s)

/-- The message of a function that has one whether it succeeds or not. -/
def message : Except Bytes Bytes → Bytes
  | .ok text | .error text => text

/-- `give`. -/
def giveCommand (w : Console) : Command AdminState where
  name := bytes "give"
  usage := bytes "give <player> <item> [count]"
  description := bytes "Give an item to a player."
  handler := fun _ args s =>
    if !w.initialized then (.ok notReady, s)
    else
      match args with
      | player :: item :: rest =>
          let (result, s) := perform w.toAdminWorld s (.give player item (rest.head?.elim 1 atoi))
          (.ok (message result), s)
      | _ => (.ok (bytes "Usage: give <player> <item> [count]"), s)

/-- `items`. -/
def itemsCommand (w : Console) : Command AdminState where
  name := bytes "items"
  usage := bytes "items [search]"
  description := bytes "List loaded items."
  handler := answering fun args _ =>
    if !w.initialized then notReady
    else
      let shown := w.loaded.filter (itemKept (args.head?.elim [] lower))
      (shown.flatMap fun item => item.name ++ bytes "\n") ++ decimal shown.length ++
        bytes " item(s)."

/-- `ban`. -/
def banCommand (w : Console) : Command AdminState where
  name := bytes "ban"
  usage := bytes "ban <player> [reason]"
  description := bytes "Ban a player. Offline players by SteamID64."
  handler := fun _ args s =>
    if !w.initialized then (.ok notReady, s)
    else
      match args with
      | [] => (.ok (bytes "Usage: ban <player> [reason]"), s)
      | player :: rest =>
          let (result, s) := perform w.toAdminWorld s
            (.ban player (reasonFrom "Banned by an administrator" rest))
          (.ok (message result), s)

/-- `unban`, which does not ask for the engine. -/
def unbanCommand (w : Console) : Command AdminState where
  name := bytes "unban"
  usage := bytes "unban <player or SteamID64>"
  description := bytes "Remove a ban."
  handler := fun _ args s =>
    match args with
    | [] => (.ok (bytes "Usage: unban <player or SteamID64>"), s)
    | identifier :: _ =>
        let (result, s) := perform w.toAdminWorld s (.unban identifier)
        (.ok (message result), s)

/-- `bans`. -/
def bansCommand : Command AdminState where
  name := bytes "bans"
  usage := bytes "bans"
  description := bytes "List bans."
  handler := answering fun _ s =>
    if s.bans = [] then bytes "No bans."
    else s.bans.flatMap fun ban =>
      ban.netId ++ bytes "  " ++ ban.name ++ bytes "  " ++ ban.reason ++ bytes "  " ++
        ban.bannedAt ++ bytes "\n"

/-- The registry behind `RegisterAll`. -/
def registry (w : Console) : List (Command AdminState) :=
  [helpCommand, healthCommand w, statusCommand w, playersCommand w, playercountCommand w,
    playerCommand w, kickCommand w, broadcastCommand w, giveCommand w, itemsCommand w,
    banCommand w, unbanCommand w, bansCommand]

/-! ### What a line asks for -/

/-- The operation that `give` with these words asks for. -/
def giveAsked : List Bytes → Option Operation
  | player :: item :: rest => some (.give player item (rest.head?.elim 1 atoi))
  | _ => none

/-- The operation that a command with these words asks for. -/
def askedBy (ready : Bool) (command : Bytes) (args : List Bytes) : Option Operation :=
  if command = bytes "unban" then args.head?.map .unban
  else if !ready then none
  else if command = bytes "kick" then
    args.head?.map fun player => .kick player (reasonFrom "Kicked by an administrator" args.tail)
  else if command = bytes "ban" then
    args.head?.map fun player => .ban player (reasonFrom "Banned by an administrator" args.tail)
  else if command = bytes "broadcast" then
    args.head?.map fun first => .broadcast (bytes "[Server] " ++ joined first args.tail)
  else if command = bytes "give" then giveAsked args
  else none

/-- The operation that a line asks for. -/
def asked (ready : Bool) (line : Bytes) : Option Operation :=
  match words line with
  | [] => none
  | command :: args => askedBy ready (lower command) args

/-- The answer to an operation. -/
def told : Operation → Except Bytes Bytes → Bytes
  | .kick player reason, .ok _ => bytes "Kicked " ++ player ++ bytes " (" ++ reason ++ bytes ")"
  | .kick _ _, .error error => bytes "Kick failed: " ++ error
  | .broadcast _, .ok _ => bytes "Broadcast sent."
  | .broadcast _, .error error => bytes "Broadcast failed: " ++ error
  | _, result => message result

/-- A command does what its words ask for: one operation, or none. -/
def Obeys (w : Console) (command : Command AdminState) : Prop :=
  ∀ all args s,
    match askedBy w.initialized (lower command.name) args with
    | some operation =>
        command.handler all args s =
          (.ok (told operation (perform w.toAdminWorld s operation).1),
            (perform w.toAdminWorld s operation).2)
    | none => ∃ text, command.handler all args s = (.ok text, s)

variable {w : Console}

/-- The commands that ask for something. -/
theorem mem_of_askedBy {ready : Bool} {command : Bytes} {args : List Bytes}
    {operation : Operation} (h : askedBy ready command args = some operation) :
    command ∈ [bytes "unban", bytes "kick", bytes "ban", bytes "broadcast", bytes "give"] := by
  by_contra hnot
  simp only [List.mem_cons, List.not_mem_nil, or_false, not_or] at hnot
  obtain ⟨hunban, hkick, hban, hbroadcast, hgive⟩ := hnot
  rw [askedBy, if_neg hunban, if_neg hkick, if_neg hban, if_neg hbroadcast, if_neg hgive] at h
  cases ready <;> cases h

/-- Without an engine only `unban` is asked for. -/
theorem askedBy_not_ready {command : Bytes} (h : command ≠ bytes "unban") (args : List Bytes) :
    askedBy false command args = none := by
  rw [askedBy, if_neg h]
  rfl

/-- A command that changes nothing, and has no name of the others. -/
theorem obeys_keeping {command : Command AdminState}
    (hname : lower command.name ∉
      [bytes "unban", bytes "kick", bytes "ban", bytes "broadcast", bytes "give"])
    (hkeep : ∀ all args s, ∃ text, command.handler all args s = (.ok text, s)) :
    Obeys w command := by
  intro all args s
  have hasked : askedBy w.initialized (lower command.name) args = none := by
    cases hasked : askedBy w.initialized (lower command.name) args with
    | some operation => exact absurd (mem_of_askedBy hasked) hname
    | none => rfl
  rw [hasked]
  exact hkeep all args s

/-- A command that asks for the engine first, while there is none. -/
theorem obeys_not_ready {command : Command AdminState} (hready : w.initialized = false)
    (hname : lower command.name ≠ bytes "unban")
    (h : ∀ all args s, command.handler all args s = (.ok notReady, s)) : Obeys w command := by
  intro all args s
  rw [hready, askedBy_not_ready hname]
  exact ⟨notReady, h all args s⟩

/-- `kick` does what it is asked for. -/
theorem obeys_kick : Obeys w (kickCommand w) := by
  have hname : lower (kickCommand w).name = bytes "kick" := by
    change lower (bytes "kick") = _
    decide
  cases hready : w.initialized with
  | false =>
      refine obeys_not_ready hready (by rw [hname]; decide) fun all args s => ?_
      simp only [kickCommand, hready]
      rfl
  | true =>
      intro all args s
      rw [hname, hready, askedBy, if_neg (by decide), if_neg (by decide), if_pos rfl]
      simp only [kickCommand, hready]
      cases args with
      | nil => exact ⟨_, rfl⟩
      | cons player rest =>
          dsimp only [List.head?_cons, Option.map_some, List.tail_cons]
          generalize perform _ _ _ = outcome
          obtain ⟨result, t⟩ := outcome
          cases result <;> rfl

/-- `ban` does what it is asked for. -/
theorem obeys_ban : Obeys w (banCommand w) := by
  have hname : lower (banCommand w).name = bytes "ban" := by
    change lower (bytes "ban") = _
    decide
  cases hready : w.initialized with
  | false =>
      refine obeys_not_ready hready (by rw [hname]; decide) fun all args s => ?_
      simp only [banCommand, hready]
      rfl
  | true =>
      intro all args s
      rw [hname, hready, askedBy, if_neg (by decide), if_neg (by decide), if_neg (by decide),
        if_pos rfl]
      simp only [banCommand, hready]
      cases args with
      | nil => exact ⟨_, rfl⟩
      | cons player rest => rfl

/-- `broadcast` does what it is asked for. -/
theorem obeys_broadcast : Obeys w (broadcastCommand w) := by
  have hname : lower (broadcastCommand w).name = bytes "broadcast" := by
    change lower (bytes "broadcast") = _
    decide
  cases hready : w.initialized with
  | false =>
      refine obeys_not_ready hready (by rw [hname]; decide) fun all args s => ?_
      simp only [broadcastCommand, hready]
      rfl
  | true =>
      intro all args s
      rw [hname, hready, askedBy, if_neg (by decide), if_neg (by decide), if_neg (by decide),
        if_neg (by decide), if_pos rfl]
      simp only [broadcastCommand, hready]
      cases args with
      | nil => exact ⟨_, rfl⟩
      | cons player rest =>
          dsimp only [List.head?_cons, Option.map_some, List.tail_cons]
          generalize perform _ _ _ = outcome
          obtain ⟨result, t⟩ := outcome
          cases result <;> rfl

/-- `give` does what it is asked for. -/
theorem obeys_give : Obeys w (giveCommand w) := by
  have hname : lower (giveCommand w).name = bytes "give" := by
    change lower (bytes "give") = _
    decide
  cases hready : w.initialized with
  | false =>
      refine obeys_not_ready hready (by rw [hname]; decide) fun all args s => ?_
      simp only [giveCommand, hready]
      rfl
  | true =>
      intro all args s
      rw [hname, hready, askedBy, if_neg (by decide), if_neg (by decide), if_neg (by decide),
        if_neg (by decide), if_neg (by decide), if_pos rfl]
      simp only [giveCommand, hready]
      rcases args with - | ⟨player, - | ⟨item, rest⟩⟩
      · exact ⟨_, rfl⟩
      · exact ⟨_, rfl⟩
      · rfl

/-- `unban` does what it is asked for. -/
theorem obeys_unban : Obeys w (unbanCommand w) := by
  intro all args s
  have hname : lower (unbanCommand w).name = bytes "unban" := by
    change lower (bytes "unban") = _
    decide
  rw [hname, askedBy, if_pos rfl]
  cases args with
  | nil => exact ⟨_, rfl⟩
  | cons identifier rest => rfl

/-- **Every registered command does what its words ask for.** -/
theorem obeys_of_mem {command : Command AdminState} (h : command ∈ registry w) :
    Obeys w command := by
  simp only [registry, List.mem_cons, List.not_mem_nil, or_false] at h
  rcases h with rfl | rfl | rfl | rfl | rfl | rfl | rfl | rfl | rfl | rfl | rfl | rfl | rfl
  · exact obeys_keeping (by decide) fun _ _ _ => ⟨_, rfl⟩
  · exact obeys_keeping (by change lower (bytes "health") ∉ _; decide) fun _ _ _ => ⟨_, rfl⟩
  · exact obeys_keeping (by change lower (bytes "status") ∉ _; decide) fun _ _ _ => ⟨_, rfl⟩
  · exact obeys_keeping (by change lower (bytes "players") ∉ _; decide) fun _ _ _ => ⟨_, rfl⟩
  · exact obeys_keeping (by change lower (bytes "playercount") ∉ _; decide) fun _ _ _ => ⟨_, rfl⟩
  · exact obeys_keeping (by change lower (bytes "player") ∉ _; decide) fun _ _ _ => ⟨_, rfl⟩
  · exact obeys_kick
  · exact obeys_broadcast
  · exact obeys_give
  · exact obeys_keeping (by change lower (bytes "items") ∉ _; decide) fun _ _ _ => ⟨_, rfl⟩
  · exact obeys_ban
  · exact obeys_unban
  · exact obeys_keeping (by change lower (bytes "bans") ∉ _; decide) fun _ _ _ => ⟨_, rfl⟩

/-- The names of the commands, which differ in whatever case they are written. -/
theorem names_nodup (w : Console) : ((registry w).map fun c => lower c.name).Nodup := by
  change ([bytes "help", bytes "health", bytes "status", bytes "players", bytes "playercount",
    bytes "player", bytes "kick", bytes "broadcast", bytes "give", bytes "items", bytes "ban",
    bytes "unban", bytes "bans"].map lower).Nodup
  decide

/-! ### What a line does -/

/-- A command is found by its name, when no two have the same. -/
theorem find_of_nodup {σ : Type} {commands : List (Command σ)}
    (hdistinct : (commands.map fun c => lower c.name).Nodup) {command : Command σ}
    (h : command ∈ commands) {name : Bytes} (hname : lower command.name = lower name) :
    (commands.find? fun c => lower c.name == lower name) = some command := by
  induction commands with
  | nil => cases h
  | cons c commands ih =>
      rw [List.map_cons, List.nodup_cons] at hdistinct
      rcases List.mem_cons.mp h with rfl | hrest
      · rw [List.find?_cons, hname, beq_self_eq_true]
      · have hne : lower c.name ≠ lower name := fun heq =>
          hdistinct.1 (List.mem_map.mpr ⟨command, hrest, by rw [hname, heq]⟩)
        rw [List.find?_cons, beq_eq_false_iff_ne.mpr hne]
        exact ih hdistinct.2 hrest

/-- **A line runs the command that its first word names**, in whatever case it is written, with
the other words; and every command can be run. -/
theorem dispatch_of_name {command : Command AdminState} (h : command ∈ registry w)
    {line name : Bytes} {args : List Bytes} (hline : words line = name :: args)
    (hname : lower command.name = lower name) (s : AdminState) :
    ∃ text t, command.handler ((registry w).map fun c => (c.usage, c.description)) args s =
      (.ok text, t) ∧ dispatch (registry w) line s = (text, t) := by
  have hobeys := obeys_of_mem h ((registry w).map fun c => (c.usage, c.description)) args s
  have hhandler : ∃ text t, command.handler ((registry w).map fun c => (c.usage, c.description))
      args s = (.ok text, t) := by
    split at hobeys
    · exact ⟨_, _, hobeys⟩
    · obtain ⟨text, htext⟩ := hobeys
      exact ⟨text, s, htext⟩
  obtain ⟨text, t, htext⟩ := hhandler
  refine ⟨text, t, htext, ?_⟩
  rw [dispatch, hline]
  dsimp only
  rw [find_of_nodup (names_nodup w) h hname]
  dsimp only
  rw [htext]

/-- The registered commands are those that ask for something, and some more. -/
theorem exists_of_askedBy {ready : Bool} {command : Bytes} {args : List Bytes}
    {operation : Operation} (h : askedBy ready command args = some operation) :
    ∃ c ∈ registry w, lower c.name = command := by
  have hmem := mem_of_askedBy h
  simp only [List.mem_cons, List.not_mem_nil, or_false] at hmem
  rcases hmem with rfl | rfl | rfl | rfl | rfl
  · exact ⟨unbanCommand w, by simp [registry], by change lower (bytes "unban") = _; decide⟩
  · exact ⟨kickCommand w, by simp [registry], by change lower (bytes "kick") = _; decide⟩
  · exact ⟨banCommand w, by simp [registry], by change lower (bytes "ban") = _; decide⟩
  · exact ⟨broadcastCommand w, by simp [registry], by change lower (bytes "broadcast") = _; decide⟩
  · exact ⟨giveCommand w, by simp [registry], by change lower (bytes "give") = _; decide⟩

/-- What a line does, if it asks for an operation. -/
theorem dispatch_of_asked {line : Bytes} {operation : Operation}
    (h : asked w.initialized line = some operation) (s : AdminState) :
    dispatch (registry w) line s = (told operation (perform w.toAdminWorld s operation).1,
      (perform w.toAdminWorld s operation).2) := by
  rw [asked] at h
  split at h
  · cases h
  · next name args hline =>
      obtain ⟨command, hmem, hname⟩ := exists_of_askedBy (w := w) h
      obtain ⟨text, t, htext, hdispatch⟩ := dispatch_of_name hmem hline hname s
      have hobeys := obeys_of_mem hmem ((registry w).map fun c => (c.usage, c.description)) args s
      rw [hname, h] at hobeys
      dsimp only at hobeys
      rw [htext] at hobeys
      obtain ⟨hout, rfl⟩ := Prod.mk.inj hobeys
      rw [hdispatch, Except.ok.inj hout]

/-- A line that asks for no operation changes nothing. -/
theorem dispatch_of_not_asked {line : Bytes} (h : asked w.initialized line = none)
    (s : AdminState) : (dispatch (registry w) line s).2 = s := by
  rw [asked] at h
  rw [dispatch]
  split
  · rfl
  · next name args hline =>
      rw [hline] at h
      dsimp only at h
      split
      · rfl
      · next command hfind =>
          have hname : lower command.name = lower name := by
            simpa using List.find?_some hfind
          have hobeys := obeys_of_mem (List.mem_of_find?_eq_some hfind)
            ((registry w).map fun c => (c.usage, c.description)) args s
          rw [hname, h] at hobeys
          obtain ⟨text, htext⟩ := hobeys
          rw [htext]

/-- **`Dispatch` does what a line asks for and nothing else.** Every registered command is run by
each line whose first word is its name in any case, with the other words; a line that asks for an
operation performs that one operation and is told its outcome, and any other line, of a command
that only shows something, with arguments missing, or of no command, leaves the state as it is. -/
theorem dispatch_spec (w : Console) (s : AdminState) :
    (∀ command ∈ registry w, ∀ line name args, words line = name :: args →
      lower command.name = lower name →
        ∃ text t, command.handler ((registry w).map fun c => (c.usage, c.description)) args s =
          (.ok text, t) ∧ dispatch (registry w) line s = (text, t)) ∧
    ∀ line,
      match asked w.initialized line with
      | some operation =>
          dispatch (registry w) line s = (told operation (perform w.toAdminWorld s operation).1,
            (perform w.toAdminWorld s operation).2)
      | none => (dispatch (registry w) line s).2 = s := by
  refine ⟨fun command hmem line name args hline hname =>
    dispatch_of_name hmem hline hname s, fun line => ?_⟩
  cases hasked : asked w.initialized line with
  | some operation => exact dispatch_of_asked hasked s
  | none => exact dispatch_of_not_asked hasked s

end Rcon

end RSDWServerAPI
