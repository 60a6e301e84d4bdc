import RSDWServerAPI.BanList
import RSDWServerAPI.EnforcementReach
import RSDWServerAPI.Items
import RSDWServerAPI.Serialize

/-!
# What an administrator can do

The HTTP API, RCON and the chat offer the same five things: to kick, to ban, to unban, to give an
item and to broadcast a line (`engine/kick.cpp`, `engine/bans.cpp`, `engine/items.cpp`,
`engine/chat.cpp`). Here each is one step on the state that the server keeps, the bans with their
file and the kicks it remembers, together with what has been done in the game.

## Main results

* `Sound.perform`, `Sound.enforce`: **an operation keeps the lists well formed**: nobody is listed
  twice, and nobody without a net id.
* `InSync.perform`: **`bans.json` is that of the list** after every operation that changes it.
-/

namespace RSDWServerAPI.Administration

open DomBans DomItems

/-! ### What an operation finds -/

/-- What `Broadcast` asks of the game. -/
structure BroadcastWorld where
  /-- `g_ReceiveFunction`. -/
  receiveFunction : Ptr
  /-- `GameThread::IsReady`, `GameThread::Status` and `GameThread::HasProcessEvent`. -/
  ready : Bool
  status : Bytes
  hasProcessEvent : Bool
  /-- What comes of the call of `GameThread::RunSync`. -/
  sync : SyncOutcome
  /-- What `SendToPlayer` returns for a player. -/
  sendToPlayer : PlayerInfo → Bool

/-- What an operation finds when it is asked for. -/
structure AdminWorld where
  /-- `g_Engine` is set and initialised. -/
  initialized : Bool
  /-- `GetAllPlayers`, which takes no roster of more than 512 players. -/
  players : List Serialize.PlayerInfo
  players_le : players.length ≤ 512
  kick : KickWorld
  give : GiveWorld
  /-- `ListLoaded`. -/
  loaded : List ItemInfo
  chat : BroadcastWorld
  /-- `Now`. -/
  now : Bytes
  /-- `bans.json` can be opened for writing. -/
  opened : Bool

/-- The players, with the fields that an operation looks at. -/
def AdminWorld.roster (w : AdminWorld) : List PlayerInfo :=
  w.players.map (·.toPlayerInfo)

/-- The roster has no more players than the player array has room for. -/
theorem AdminWorld.length_roster_le (w : AdminWorld) : w.roster.length ≤ 512 :=
  (List.length_map _).trans_le w.players_le

/-- What is done in the game. -/
inductive Deed
  | kick (player : PlayerInfo)
  | give (controller itemData : Ptr) (count : Int32)
  | say (player : PlayerInfo) (body : Bytes)
  deriving DecidableEq, Repr

/-- `g_Bans` with the content of `bans.json`, `g_Kicked`, and what has been done in the game. -/
structure AdminState where
  bans : List BanEntry
  kicked : List KickedPlayer := []
  file : Option Bytes := none
  deeds : List Deed := []
  deriving DecidableEq, Repr

/-- A handler that looks at the lists and changes nothing. -/
def showing {ι ω : Type} (f : ι → AdminState → ω) (input : ι) (s : AdminState) : ω × AdminState :=
  (f input s, s)

/-! ### The operations -/

/-- `Engine::KickPlayer`. -/
def kickPlayer (w : AdminWorld) (s : AdminState) (identifier reason : Bytes) :
    KickResult × AdminState :=
  let outcome := kick w.kick w.initialized w.roster identifier
  (outcome.result, { s with
    kicked := Enforcement.remember outcome reason s.kicked
    deeds := s.deeds ++ (outcome.invoked.map Deed.kick).toList })

/-- `SaveLocked`, for a list that has changed. -/
def saved (w : AdminWorld) (s : AdminState) (bans : List BanEntry) : AdminState :=
  { s with bans, file := if w.opened then some (saveLocked bans) else s.file }

/-- `DomBans::Ban`. -/
def banPlayer (w : AdminWorld) (s : AdminState) (player reason : Bytes) :
    Except Bytes Bytes × AdminState :=
  match ban w.initialized w.roster player reason w.now s.bans, banTarget w.roster player with
  | .ok bans, .ok (netId, name) =>
      let (online, s) := kickPlayer w (saved w s bans) netId reason
      (.ok (banMessage netId name reason online.toBool), s)
  | .ok _, .error message | .error message, _ => (.error message, s)

/-- `DomBans::Unban`. -/
def unbanPlayer (w : AdminWorld) (s : AdminState) (identifier : Bytes) :
    Except Bytes Bytes × AdminState :=
  match unban identifier s.bans with
  | .ok (entry, rest) => (.ok (unbanMessage entry), saved w s rest)
  | .error message => (.error message, s)

/-- The call of `GiveItemToController` that `GiveItem` comes to. -/
def giveCall (w : AdminWorld) (player item : Bytes) (count : Int32) : Option Deed :=
  match w.give.resolveGive, w.give.findItem item, giveTarget w.roster player with
  | .ok (), some (itemData, _), .ok (controller, _) =>
      if count ≤ 0 then none else some (.give controller itemData count)
  | _, _, _ => none

/-- `DomItems::GiveItem`. -/
def giveToPlayer (w : AdminWorld) (s : AdminState) (player item : Bytes) (count : Int32) :
    Except Bytes Bytes × AdminState :=
  (giveItem w.give w.roster player item count,
    { s with deeds := s.deeds ++ (giveCall w player item count).toList })

/-- The work of `Broadcast` on the game thread: the players that take the line. -/
def recipients (w : AdminWorld) : List PlayerInfo :=
  w.roster.filter w.chat.sendToPlayer

/-- The part of `Broadcast` in front of `RunSync`: the text of the test that fails. -/
def broadcastRefusal (w : AdminWorld) (body : Bytes) : Option Bytes :=
  if !w.initialized then some (bytes "engine not initialised")
  else if w.chat.receiveFunction = 0 then some (bytes "Client_ReceiveChatMessage not found")
  else if !w.chat.ready then
    some (bytes "broadcast needs the game thread pump: " ++ w.chat.status)
  else if !w.chat.hasProcessEvent then
    some (bytes "broadcast needs ProcessEvent, which has not been located yet")
  else if body = [] then some (bytes "message is empty")
  else if w.roster = [] then some (bytes "no players to broadcast to")
  else none

/-- `DomChat::Broadcast`. -/
def broadcast (w : AdminWorld) (s : AdminState) (body : Bytes) :
    Except Bytes Bytes × AdminState :=
  match broadcastRefusal w body with
  | some message => (.error message, s)
  | none =>
      (if !w.chat.sync.returned then
          .error (bytes "the game thread did not run the broadcast within 10s")
        else if recipients w = [] then .error (bytes "the game accepted no recipients")
        else .ok [],
        { s with deeds := s.deeds ++
          if w.chat.sync.isRun then (recipients w).map (Deed.say · body) else [] })

/-- What the front ends ask for. -/
inductive Operation
  | kick (player reason : Bytes)
  | ban (player reason : Bytes)
  | unban (identifier : Bytes)
  | give (player item : Bytes) (count : Int32)
  | broadcast (body : Bytes)
  deriving DecidableEq, Repr

/-- An operation: the text that it leaves for its caller, and the state. `KickPlayer` and
`Broadcast` leave a text only when they fail. -/
def perform (w : AdminWorld) (s : AdminState) : Operation → Except Bytes Bytes × AdminState
  | .kick player reason =>
      let (result, s) := kickPlayer w s player reason
      (result.map fun _ => [], s)
  | .ban player reason => banPlayer w s player reason
  | .unban identifier => unbanPlayer w s identifier
  | .give player item count => giveToPlayer w s player item count
  | .broadcast body => broadcast w s body

/-- What the init thread does every two seconds: `Engine::EnforceKicks`, then
`DomBans::Enforce`. -/
def enforce (w : AdminWorld) (s : AdminState) : AdminState :=
  let kicks := Enforcement.enforceKicks w.kick w.initialized w.roster s.kicked
  let bans := Enforcement.enforceBans w.kick w.initialized w.roster s.bans kicks.2
  { s with kicked := bans.2, deeds := s.deeds ++ (kicks.1 ++ bans.1).map Deed.kick }

/-! ### What an operation keeps -/

/-- The lists are well formed. -/
structure Sound (s : AdminState) : Prop where
  bans_nodup : (netIds s.bans).Nodup
  bans_named : [] ∉ netIds s.bans
  kicked_nodup : (kickedNetIds s.kicked).Nodup
  kicked_named : [] ∉ kickedNetIds s.kicked

variable {w : AdminWorld} {s : AdminState}

/-- `RememberKick` lists nobody twice. -/
theorem nodup_rememberKick {netId name reason : Bytes} {kicked : List KickedPlayer}
    (h : (kickedNetIds kicked).Nodup) :
    (kickedNetIds (rememberKick netId name reason kicked)).Nodup := by
  rw [rememberKick]
  split
  · exact h
  · split
    · exact h
    · next hany =>
        have hnew : netId ∉ kickedNetIds kicked := by simpa [kickedNetIds] using hany
        simpa [kickedNetIds] using h.concat hnew

/-- What a kick leaves in `g_Kicked` is well formed. -/
theorem remember_sound (outcome : KickOutcome) (reason : Bytes) {kicked : List KickedPlayer}
    (hnodup : (kickedNetIds kicked).Nodup) (hnamed : [] ∉ kickedNetIds kicked) :
    (kickedNetIds (Enforcement.remember outcome reason kicked)).Nodup ∧
      [] ∉ kickedNetIds (Enforcement.remember outcome reason kicked) := by
  rw [Enforcement.remember]
  cases outcome.remembered with
  | none => exact ⟨hnodup, hnamed⟩
  | some p =>
      refine ⟨nodup_rememberKick hnodup, fun h => ?_⟩
      rcases mem_rememberKick.mp h with hold | ⟨hnil, hne⟩
      · exact hnamed hold
      · exact hne hnil.symm

/-- A kick keeps the lists sound. -/
theorem Sound.kickPlayer (h : Sound s) (identifier reason : Bytes) :
    Sound (kickPlayer w s identifier reason).2 :=
  have ⟨hnodup, hnamed⟩ := remember_sound (kick w.kick w.initialized w.roster identifier) reason
    h.kicked_nodup h.kicked_named
  ⟨h.bans_nodup, h.bans_named, hnodup, hnamed⟩

/-- A ban keeps the lists sound. -/
theorem Sound.banPlayer (h : Sound s) (player reason : Bytes) :
    Sound (banPlayer w s player reason).2 := by
  rw [Administration.banPlayer]
  split
  · next bans netId name hban htarget =>
      obtain ⟨-, netId', name', htarget', hnew, hbans⟩ := ban_ok hban
      rw [htarget] at htarget'
      obtain ⟨rfl, rfl⟩ := Prod.mk.inj (Except.ok.inj htarget')
      have hids : netIds bans = netIds s.bans ++ [netId] := by simp [hbans, netIds]
      have hne := netId_ne_nil_of_banTarget htarget
      have hsaved : Sound (saved w s bans) := by
        refine ⟨?_, ?_, h.kicked_nodup, h.kicked_named⟩
        · rw [saved, hids, ← List.concat_eq_append]
          exact h.bans_nodup.concat hnew
        · rw [saved, hids, List.mem_append, List.mem_singleton]
          exact not_or.mpr ⟨h.bans_named, Ne.symm hne⟩
      exact hsaved.kickPlayer netId reason
  · exact h
  · exact h

/-- Lifting a ban keeps the lists sound. -/
theorem Sound.unbanPlayer (h : Sound s) (identifier : Bytes) :
    Sound (unbanPlayer w s identifier).2 := by
  rw [Administration.unbanPlayer]
  cases hunban : unban identifier s.bans with
  | error message => exact h
  | ok result =>
      obtain ⟨entry, rest⟩ := result
      obtain ⟨before, after, hbans, rfl, -⟩ := unban_ok hunban
      have hsub : (netIds (before ++ after)).Sublist (netIds s.bans) := by
        rw [hbans, netIds, netIds]
        exact (List.Sublist.append_left (List.sublist_cons_self _ _) _).map _
      exact ⟨h.bans_nodup.sublist hsub, fun hmem => h.bans_named (hsub.subset hmem),
        h.kicked_nodup, h.kicked_named⟩

/-- **An operation keeps the lists well formed.** -/
theorem Sound.perform (h : Sound s) (operation : Operation) :
    Sound (perform w s operation).2 := by
  cases operation with
  | kick player reason => exact h.kickPlayer player reason
  | ban player reason => exact h.banPlayer player reason
  | unban identifier => exact h.unbanPlayer identifier
  | give player item count => exact ⟨h.1, h.2, h.3, h.4⟩
  | broadcast body =>
      rw [Administration.perform, broadcast]
      split <;> exact ⟨h.1, h.2, h.3, h.4⟩

/-- The lists of remembered kicks that are well formed. -/
def SoundKicks (kicked : List KickedPlayer) : Prop :=
  (kickedNetIds kicked).Nodup ∧ [] ∉ kickedNetIds kicked

/-- `EnforceKicks` keeps the kicks sound. -/
theorem enforceKicksLoop_sound (k : KickWorld) (players : List PlayerInfo) {todo : List PlayerInfo}
    {kicked : List KickedPlayer} (h : SoundKicks kicked) :
    SoundKicks (Enforcement.enforceKicksLoop k players todo kicked).2 := by
  induction todo generalizing kicked with
  | nil => exact h
  | cons player todo ih =>
      rw [Enforcement.enforceKicksLoop]
      split
      · exact ih h
      · split
        · exact ih h
        · exact ih (remember_sound _ _ h.1 h.2)

/-- `Enforce` keeps the kicks sound. -/
theorem enforceBansLoop_sound (k : KickWorld) (players : List PlayerInfo) (bans : List BanEntry)
    {todo : List PlayerInfo} {kicked : List KickedPlayer} (h : SoundKicks kicked) :
    SoundKicks (Enforcement.enforceBansLoop k players bans todo kicked).2 := by
  induction todo generalizing kicked with
  | nil => exact h
  | cons player todo ih =>
      rw [Enforcement.enforceBansLoop]
      split
      · exact ih h
      · split
        · exact ih h
        · exact ih (remember_sound _ _ h.1 h.2)

/-- **Enforcement keeps the lists well formed.** -/
theorem Sound.enforce (h : Sound s) : Sound (enforce w s) := by
  have hkicks : SoundKicks
      (Enforcement.enforceKicks w.kick w.initialized w.roster s.kicked).2 := by
    rw [Enforcement.enforceKicks]
    split_ifs
    · exact ⟨h.kicked_nodup, h.kicked_named⟩
    · exact ⟨h.kicked_nodup, h.kicked_named⟩
    · exact enforceKicksLoop_sound _ _ ⟨h.kicked_nodup, h.kicked_named⟩
  have hbans : SoundKicks (Enforcement.enforceBans w.kick w.initialized w.roster s.bans
      (Enforcement.enforceKicks w.kick w.initialized w.roster s.kicked).2).2 := by
    rw [Enforcement.enforceBans]
    split_ifs
    · exact hkicks
    · exact hkicks
    · exact enforceBansLoop_sound _ _ _ hkicks
  exact ⟨h.bans_nodup, h.bans_named, hbans.1, hbans.2⟩

/-- The file is that of the list, or nothing has changed since it was loaded. -/
def InSync (start s : AdminState) : Prop :=
  s.file = some (saveLocked s.bans) ∨ (s.bans = start.bans ∧ s.file = start.file)

/-- After `SaveLocked` the file has the text of the list. -/
theorem inSync_saved {start : AdminState} (hopened : w.opened = true) (bans : List BanEntry) :
    InSync start (saved w s bans) := by
  rw [InSync, saved, if_pos hopened]
  exact Or.inl rfl

/-- **An operation keeps the file in step with the list**, if the file can be written. -/
theorem InSync.perform {start : AdminState} (h : InSync start s) (hopened : w.opened = true)
    (operation : Operation) : InSync start (perform w s operation).2 := by
  cases operation with
  | kick player reason => exact h
  | ban player reason =>
      rw [Administration.perform, Administration.banPlayer]
      split
      · exact inSync_saved hopened _
      · exact h
      · exact h
  | unban identifier =>
      rw [Administration.perform, Administration.unbanPlayer]
      split
      · exact inSync_saved hopened _
      · exact h
  | give player item count => exact h
  | broadcast body =>
      rw [Administration.perform, broadcast]
      split <;> exact h

end RSDWServerAPI.Administration
