import RSDWServerAPI.GameReads

/-!
# The players in memory

`Engine::GetAllPlayers` (`engine/players.cpp`) makes the list of players that everything else in the
server works with. It goes through the player array of the game state; what belongs to a player
lies behind pointers to the state, the pawn, the controller and their components. The components
for sustenance and hydration are found by a sweep over all objects, by the pawn that is their
outer object.

## Main results

* `getAllPlayers_eq`: **the list as an equation**: `playerAt` gives each of its members by where
  the fields lie.
* `getAllPlayers_spec`: **no read of `GetAllPlayers` faults**, and the players are the states of the
  array that can be read, in their order; `Complete` says what holds of each.
* `runs_addComponents`: **the components of a pawn** are the first ones of their class.
* `characterName_spec`: **a character has the name of the last entry with its GUID**.
-/

namespace RSDWServerAPI.DomEngine

open Loops Mem RawMemory
open Serialize (SkillInfo AttributeInfo)

namespace Offsets

/-- `GameStateBase_PlayerArray`. -/
def gameStateBasePlayerArray : Ptr := 0x2D8

/-- `DomGameState_DisplayNameComponent`. -/
def domGameStateDisplayNameComponent : Ptr := 0x3E8

/-- `DisplayName_OriginalCharacterNames`. -/
def displayNameOriginalCharacterNames : Ptr := 0xE0

/-- `CharDisplayName_CharacterGuid`. -/
def charDisplayNameCharacterGuid : Ptr := 0x98

/-- `CharDisplayName_CharacterName`. -/
def charDisplayNameCharacterName : Ptr := 0xA8

/-- `CharDisplayName_Size`. -/
def charDisplayNameSize : ℕ := 0xB8

/-- `PlayerState_Score`. -/
def playerStateScore : Ptr := 0x2C0

/-- `PlayerState_PlayerId`. -/
def playerStatePlayerId : Ptr := 0x2C4

/-- `PlayerState_CompressedPing`. -/
def playerStateCompressedPing : Ptr := 0x2C8

/-- `PlayerState_Flags`. -/
def playerStateFlags : Ptr := 0x2CA

/-- `PlayerState_StartTime`. -/
def playerStateStartTime : Ptr := 0x2CC

/-- `PlayerState_UniqueID`. -/
def playerStateUniqueID : Ptr := 0x2D0

/-- `PlayerState_PawnPrivate`. -/
def playerStatePawnPrivate : Ptr := 0x338

/-- `PlayerState_PlayerName`. -/
def playerStatePlayerName : Ptr := 0x350

/-- `DomPlayerState_CharacterGuid`. -/
def domPlayerStateCharacterGuid : Ptr := 0x3D0

/-- `DomPlayerState_PlayerColor`. -/
def domPlayerStatePlayerColor : Ptr := 0x458

/-- `DomPlayerState_PlatformData`. -/
def domPlayerStatePlatformData : Ptr := 0x480

/-- `PlayerColor_Color`. -/
def playerColorColor : Ptr := 0x00

/-- `PlayerColor_HexString`. -/
def playerColorHexString : Ptr := 0x10

/-- `PlatformData_UniqueID`. -/
def platformDataUniqueID : Ptr := 0x00

/-- `PlatformData_PlatformName`. -/
def platformDataPlatformName : Ptr := 0x40

/-- `Actor_RootComponent`. -/
def actorRootComponent : Ptr := 0x1D0

/-- `Pawn_Controller`. -/
def pawnController : Ptr := 0x2F0

/-- `Character_CharacterMovement`. -/
def characterCharacterMovement : Ptr := 0x348

/-- `SceneComp_RelativeLocation`. -/
def sceneCompRelativeLocation : Ptr := 0x148

/-- `SceneComp_RelativeRotation`. -/
def sceneCompRelativeRotation : Ptr := 0x160

/-- `MovementComp_Velocity`. -/
def movementCompVelocity : Ptr := 0xD8

/-- `CharMove_MovementMode`. -/
def charMoveMovementMode : Ptr := 0x241

/-- `DomPlayerChar_AttributesComponent`. -/
def domPlayerCharAttributesComponent : Ptr := 0x1448

/-- `DomPlayerChar_HealthComponent`. -/
def domPlayerCharHealthComponent : Ptr := 0x1458

/-- `DomPlayerController_SkillComponent`. -/
def domPlayerControllerSkillComponent : Ptr := 0x820

/-- `Attributes_FloatAttributes`. -/
def attributesFloatAttributes : Ptr := 0xD0

/-- `Attributes_SharedFloatAttributes`. -/
def attributesSharedFloatAttributes : Ptr := 0xE0

/-- `Attributes_AttributeValues`. -/
def attributesAttributeValues : Ptr := 0xF0

/-- `Attributes_SharedAttributeValues`. -/
def attributesSharedAttributeValues : Ptr := 0x100

/-- `FloatAttribute_BaseValue`. -/
def floatAttributeBaseValue : Ptr := 0x38

/-- `Health_bCanDie`. -/
def healthBCanDie : Ptr := 0x140

/-- `SurvivalStat_Current`. -/
def survivalStatCurrent : Ptr := 0x130

/-- `SurvivalStat_CurrentMax`. -/
def survivalStatCurrentMax : Ptr := 0x134

/-- `Skill_Skills`. -/
def skillSkills : Ptr := 0x188

/-- `FSkill_CurrentXP`. -/
def fSkillCurrentXP : Ptr := 0x00

/-- `FSkill_SkillData`. -/
def fSkillSkillData : Ptr := 0x08

/-- `FSkill_Size`. -/
def fSkillSize : ℕ := 0x10

end Offsets

/-! ### Arrays -/

/-- `FUEArray`, without its `Max`, which is not looked at. -/
structure UEArray where
  data : Ptr
  num : ℤ
  deriving DecidableEq, Repr

/-- The array that some bytes are. -/
def arrayOf (bs : Bytes) : UEArray :=
  ⟨ptrOf (bs.take 8), (i32Of ((bs.drop 8).take 4)).toInt⟩

/-- The condition that every reader of an array has. -/
def UEArray.Usable (a : UEArray) (maxCount : ℤ) : Prop :=
  a.data ≠ 0 ∧ 0 < a.num ∧ a.num ≤ maxCount

instance (a : UEArray) (maxCount : ℤ) : Decidable (a.Usable maxCount) :=
  inferInstanceAs (Decidable (_ ∧ _))

/-- `ReadArray`: the array, `none` for the result `false`. -/
def readArray (p : Process) (address : Ptr) (maxCount : ℤ) : Except Fault (Option UEArray) := do
  if !p.readable address 16 then return none
  let out := arrayOf (← load p.mem address.toNat 16)
  return if out.Usable maxCount then some out else none

/-- The element of an array that is read directly. -/
def element (p : Process) (a : UEArray) (size : ℕ) (i : ℕ) : Except Fault Bytes :=
  load p.mem (a.data + UInt64.ofNat (i * size)).toNat size

/-- `ReadDoubleTriple`, the values that are written if there are any. -/
def readDoubleTriple (p : Process) (address : Ptr) :
    Except Fault (Option (CDouble × CDouble × CDouble)) := do
  if !p.readable address 24 then return none
  let values ← load p.mem address.toNat 24
  return some (doubleOf (values.take 8), doubleOf ((values.drop 8).take 8),
    doubleOf ((values.drop 16).take 8))

namespace Engine

variable (e : Engine) (p : Process)

/-! ### Attributes and skills -/

/-- The name of a class without the suffix `Attribute`. -/
def withoutSuffix (name : Bytes) : Bytes :=
  if (bytes "Attribute").length < name.length ∧ bytes "Attribute" <:+ name then
    name.take (name.length - (bytes "Attribute").length)
  else name

/-- The body of the loop of `ReadAttributeArrays`. -/
def addAttribute (attributes values : UEArray) (shared : Bool) (out : List AttributeInfo)
    (i : ℕ) : Except Fault (List AttributeInfo) := do
  let object := ptrOf (← element p attributes 8 i)
  if object = 0 then return out
  let name ← e.getObjectClassName p object
  if name = [] then return out
  let value := floatOf (← element p values 4 i)
  let baseValue ← p.readFloat (object + Offsets.floatAttributeBaseValue)
  return out ++ [{ name := withoutSuffix name, value, baseValue, shared }]

/-- `ReadAttributeArrays`. -/
def readAttributeArrays (attributesComponent attributesOffset valuesOffset : Ptr) (shared : Bool)
    (out : List AttributeInfo) : Except Fault (List AttributeInfo) := do
  match ← readArray p (attributesComponent + attributesOffset) 512 with
  | none => return out
  | some attributes =>
      match ← readArray p (attributesComponent + valuesOffset) 512 with
      | none => return out
      | some values =>
          if !p.readable attributes.data (8 * attributes.num.toNat) then return out
          if !p.readable values.data (4 * values.num.toNat) then return out
          let count := if attributes.num < values.num then attributes.num else values.num
          (List.range count.toNat).foldlM (e.addAttribute p attributes values shared) out

/-- The loop over the attributes in `ReadHealthAndAttributes`. -/
def noteHealth (info : Serialize.PlayerInfo) (a : AttributeInfo) : Serialize.PlayerInfo :=
  if a.name = bytes "Health" then { info with health := a.value, hasHealth := true }
  else if a.name = bytes "MaxHealth" then { info with maxHealth := a.value, hasHealth := true }
  else info

/-- `value <= 0.0f`. -/
def atMostZero (value : FloatValue) : Bool :=
  match value with
  | .nan _ => false
  | .infinity negative => negative
  | .finite negative mantissa _ => negative || mantissa == 0

/-- `ReadHealthAndAttributes`. -/
def readHealthAndAttributes (info : Serialize.PlayerInfo) : Except Fault Serialize.PlayerInfo := do
  if !(← e.isA p info.pawnPtr (bytes "DominionPlayerCharacter")) then return info
  let health ← p.readPtr (info.pawnPtr + Offsets.domPlayerCharHealthComponent)
  if health = 0 ∨ p.readable health 0x1B8 = false then return info
  let info := { info with canDie := (← p.readU8 (health + Offsets.healthBCanDie)) != 0 }
  let component ← p.readPtr (info.pawnPtr + Offsets.domPlayerCharAttributesComponent)
  if component = 0 ∨ p.readable component 0x1B8 = false then return info
  let own ← e.readAttributeArrays p component Offsets.attributesFloatAttributes
    Offsets.attributesAttributeValues false info.attributes
  let attributes ← e.readAttributeArrays p component Offsets.attributesSharedFloatAttributes
    Offsets.attributesSharedAttributeValues true own
  let info := attributes.foldl noteHealth { info with attributes }
  return { info with isDead := info.hasHealth && atMostZero info.health.value }

/-- The body of the loop of `ReadSkills`. -/
def addSkill (list : UEArray) (skills : List SkillInfo) (i : ℕ) :
    Except Fault (List SkillInfo) := do
  let entry := list.data + UInt64.ofNat (i * Offsets.fSkillSize)
  let skillData ← p.readPtr (entry + Offsets.fSkillSkillData)
  if skillData = 0 then return skills
  let skill ← e.getObjectName p skillData
  if skill = [] then return skills
  let currentXP ← p.readI32 (entry + Offsets.fSkillCurrentXP)
  return skills ++ [{ skill := skill, currentXP := currentXP }]

/-- `ReadSkills`. -/
def readSkills (info : Serialize.PlayerInfo) : Except Fault Serialize.PlayerInfo := do
  if info.controllerPtr = 0 then return info
  if !(← e.isA p info.controllerPtr (bytes "DominionPlayerControllerBase")) then return info
  let skills ← p.readPtr (info.controllerPtr + Offsets.domPlayerControllerSkillComponent)
  if skills = 0 ∨ p.readable skills 0x210 = false then return info
  match ← readArray p (skills + Offsets.skillSkills) 256 with
  | none => return info
  | some list =>
      if !p.readable list.data (Offsets.fSkillSize * list.num.toNat) then return info
      let skills ← (List.range list.num.toNat).foldlM (e.addSkill p list) info.skills
      return { info with skills }

/-! ### `GetAllPlayers`: the names of the characters -/

/-- The body of the loop over `OriginalCharacterNames`. The latest entry of a key stands first. -/
def addCharacterName (list : UEArray) (names : List (Bytes × Bytes)) (i : ℕ) :
    Except Fault (List (Bytes × Bytes)) := do
  let entry := list.data + UInt64.ofNat (i * Offsets.charDisplayNameSize)
  let guid ← readGuid p (entry + Offsets.charDisplayNameCharacterGuid)
  let name ← readFString p (entry + Offsets.charDisplayNameCharacterName)
  return if guid ≠ [] ∧ name ≠ [] then (guid, name) :: names else names

/-- `characterNames`. -/
def readCharacterNames (gameState : Ptr) : Except Fault (List (Bytes × Bytes)) := do
  if !(← e.isA p gameState (bytes "DominionGameStateBase")) then return []
  let displayNames ← p.readPtr (gameState + Offsets.domGameStateDisplayNameComponent)
  if displayNames = 0 then return []
  match ← readArray p (displayNames + Offsets.displayNameOriginalCharacterNames) 4096 with
  | none => return []
  | some list =>
      if !p.readable list.data (Offsets.charDisplayNameSize * list.num.toNat) then return []
      (List.range list.num.toNat).foldlM (addCharacterName p list) []

/-! ### `GetAllPlayers`: the players -/

/-- The net id and its source, from the platform data if the player state has had none. -/
def readPlatformNetId (platformData : Ptr) (info : Serialize.PlayerInfo) :
    Except Fault (Bytes × Bytes) :=
  if info.uniqueNetId = [] then readUniqueNetId p (platformData + Offsets.platformDataUniqueID)
  else .ok (info.uniqueNetId, info.uniqueNetIdSource)

/-- The four numbers of the colour, if they can be read. -/
def readColor (colorAddress : Ptr) (color : Vector CFloat 4) : Except Fault (Vector CFloat 4) := do
  if !p.readable (colorAddress + Offsets.playerColorColor) 16 then return color
  let bs ← load p.mem (colorAddress + Offsets.playerColorColor).toNat 16
  return #v[floatOf (bs.take 4), floatOf ((bs.drop 4).take 4), floatOf ((bs.drop 8).take 4),
    floatOf ((bs.drop 12).take 4)]

/-- The fields that only an `ADominionPlayerState` has. -/
def readDominionState (names : List (Bytes × Bytes)) (playerState : Ptr)
    (info : Serialize.PlayerInfo) : Except Fault Serialize.PlayerInfo := do
  let characterGuid ← readGuid p (playerState + Offsets.domPlayerStateCharacterGuid)
  let platformData := playerState + Offsets.domPlayerStatePlatformData
  let platform ← readFString p (platformData + Offsets.platformDataPlatformName)
  let (uniqueNetId, uniqueNetIdSource) ← readPlatformNetId p platformData info
  let colorAddress := playerState + Offsets.domPlayerStatePlayerColor
  let color ← readColor p colorAddress info.color
  let colorHex ← readFString p (colorAddress + Offsets.playerColorHexString)
  return { info with
    characterGuid, platform, uniqueNetId, uniqueNetIdSource, color, colorHex
    characterName := (names.lookup characterGuid).getD info.characterName }

/-- Where the pawn stands. -/
def readLocation (root : Ptr) (info : Serialize.PlayerInfo) :
    Except Fault Serialize.PlayerInfo := do
  let location ← readDoubleTriple p (root + Offsets.sceneCompRelativeLocation)
  let rotation ← readDoubleTriple p (root + Offsets.sceneCompRelativeRotation)
  let (x, y, z) := location.getD (info.x, info.y, info.z)
  let (pitch, yaw, roll) := rotation.getD (info.pitch, info.yaw, info.roll)
  return { info with x, y, z, pitch, yaw, roll, hasLocation := true }

/-- How the pawn moves. -/
def readMovement (pawn : Ptr) (info : Serialize.PlayerInfo) :
    Except Fault Serialize.PlayerInfo := do
  if !(← e.isA p pawn (bytes "Character")) then return info
  let movement ← p.readPtr (pawn + Offsets.characterCharacterMovement)
  if movement = 0 ∨ p.readable movement 0x300 = false then return info
  let velocity ← readDoubleTriple p (movement + Offsets.movementCompVelocity)
  let (vx, vy, vz) := velocity.getD (info.vx, info.vy, info.vz)
  let movementMode ← p.readU8 (movement + Offsets.charMoveMovementMode)
  return { info with vx, vy, vz, hasVelocity := true, movementMode }

/-- The fields that lie behind the pawn. -/
def readPawn (playerState : Ptr) (info : Serialize.PlayerInfo) :
    Except Fault Serialize.PlayerInfo := do
  let pawn ← p.readPtr (playerState + Offsets.playerStatePawnPrivate)
  if pawn = 0 ∨ p.readable pawn 0x400 = false then return info
  let pawnClass ← e.getObjectClassName p pawn
  let controllerPtr ← p.readPtr (pawn + Offsets.pawnController)
  let info := { info with spawned := true, pawnPtr := pawn, pawnClass, controllerPtr }
  let root ← p.readPtr (pawn + Offsets.actorRootComponent)
  let info ← if root ≠ 0 ∧ p.readable root 0x200 then readLocation p root info else pure info
  e.readMovement p pawn info

/-- The body of the loop over the player array, for a state that can be read. -/
def readPlayerState (names : List (Bytes × Bytes)) (playerState : Ptr) :
    Except Fault Serialize.PlayerInfo := do
  let name ← readFString p (playerState + Offsets.playerStatePlayerName)
  let playerId ← p.readI32 (playerState + Offsets.playerStatePlayerId)
  let score ← p.readFloat (playerState + Offsets.playerStateScore)
  let startTime ← p.readI32 (playerState + Offsets.playerStateStartTime)
  let ping ← p.readU8 (playerState + Offsets.playerStateCompressedPing)
  let flags ← p.readU8 (playerState + Offsets.playerStateFlags)
  let (uniqueNetId, uniqueNetIdSource) ←
    readUniqueNetId p (playerState + Offsets.playerStateUniqueID)
  let info : Serialize.PlayerInfo := {
    playerStatePtr := playerState, name, playerId, score, startTime
    pingMs := Int32.ofNat ping.toNat * 4
    isSpectator := flags &&& ((1 : UInt8) <<< 1) != 0
    isBot := flags &&& ((1 : UInt8) <<< 3) != 0
    isInactive := flags &&& ((1 : UInt8) <<< 5) != 0
    uniqueNetId, uniqueNetIdSource }
  let info ←
    if ← e.isA p playerState (bytes "DominionPlayerState") then
      readDominionState p names playerState info
    else pure info
  e.readPawn p playerState info

/-- The loop over the player array. -/
def addPlayer (names : List (Bytes × Bytes)) (playerArray : UEArray)
    (players : List Serialize.PlayerInfo) (i : ℕ) : Except Fault (List Serialize.PlayerInfo) := do
  let playerState := ptrOf (← element p playerArray 8 i)
  if playerState = 0 ∨ p.readable playerState 0x370 = false then return players
  return players ++ [← e.readPlayerState p names playerState]

/-! ### `GetAllPlayers`: the components -/

/-- `!slot && IsA(object, className)`. -/
def fitsSlot (slot object : Ptr) (className : Bytes) : Except Fault Bool :=
  if slot = 0 then e.isA p object className else .ok false

/-- The body of the loop over the objects. A `PawnComponents` is the pair of its two pointers, and
`byPawn` has the pair of nulls where the map has nothing. -/
def addComponent (pawnSet : List Ptr) (byPawn : Ptr → Ptr × Ptr) (i : ℤ) :
    Except Fault (Ptr → Ptr × Ptr) := do
  let object ← e.getObjectByIndex p i
  if object = 0 then return byPawn
  let outer ← p.readPtr (object + Offsets.uObjectOuter)
  if outer = 0 ∨ outer ∉ pawnSet then return byPawn
  let slots := byPawn outer
  if ← e.fitsSlot p slots.1 object (bytes "SustenanceComponent") then
    return Function.update byPawn outer (object, slots.2)
  if ← e.fitsSlot p slots.2 object (bytes "HydrationComponent") then
    return Function.update byPawn outer (slots.1, object)
  return byPawn

/-- The values of a component for survival. -/
def readSurvivalStat (component : Ptr) : Except Fault (Option (CFloat × CFloat)) := do
  if component = 0 ∨ p.readable component 0x140 = false then return none
  let current ← p.readFloat (component + Offsets.survivalStatCurrent)
  let currentMax ← p.readFloat (component + Offsets.survivalStatCurrentMax)
  return some (current, currentMax)

/-- The values of the components of a player, for those that there are. -/
def readSurvival (slots : Ptr × Ptr) (info : Serialize.PlayerInfo) :
    Except Fault Serialize.PlayerInfo := do
  let info := match ← readSurvivalStat p slots.1 with
    | none => info
    | some (sustenance, maxSustenance) =>
        { info with hasSustenance := true, sustenance, maxSustenance }
  return match ← readSurvivalStat p slots.2 with
    | none => info
    | some (hydration, maxHydration) => { info with hasHydration := true, hydration, maxHydration }

/-- The body of the loop over the players. -/
def completePlayer (byPawn : Ptr → Ptr × Ptr) (info : Serialize.PlayerInfo) :
    Except Fault Serialize.PlayerInfo := do
  if info.pawnPtr = 0 then return info
  let info ← e.readHealthAndAttributes p info
  let info ← e.readSkills p info
  readSurvival p (byPawn info.pawnPtr) info

/-- `pawnSet`. -/
def pawnSet (players : List Serialize.PlayerInfo) : List Ptr :=
  (players.map (·.pawnPtr)).filter (· ≠ 0)

/-- `GetAllPlayers`. -/
def getAllPlayers : Except Fault (List Serialize.PlayerInfo) := do
  if !e.initialized then return []
  let gameState ← e.getGameState p
  if gameState = 0 then return []
  match ← readArray p (gameState + Offsets.gameStateBasePlayerArray) 512 with
  | none => return []
  | some playerArray =>
      if !p.readable playerArray.data (8 * playerArray.num.toNat) then return []
      let names ← e.readCharacterNames p gameState
      let players ← (List.range playerArray.num.toNat).foldlM (e.addPlayer p names playerArray) []
      if pawnSet players = [] then return players
      let byPawn ← (indexes (← e.getObjectCount p)).foldlM
        (e.addComponent p (pawnSet players)) fun _ => (0, 0)
      players.mapM (e.completePlayer p byPawn)

/-! ### Reading arrays -/

variable {e p}

variable (p) in
/-- The array at an address, if it is usable. -/
def arrayAt (address : Ptr) (maxCount : ℤ) : Option UEArray :=
  let a := arrayOf (contents p.mem address.toNat 16)
  if p.readable address 16 = true ∧ a.Usable maxCount then some a else none

/-- `ReadArray` does not fault. -/
@[simp] theorem readArray_eq (address : Ptr) (maxCount : ℤ) :
    readArray p address maxCount = .ok (arrayAt p address maxCount) := by
  rw [readArray, arrayAt]
  cases h : p.readable address 16 with
  | false => rfl
  | true =>
      rw [if_neg (by simp), load_of_readable h, ok_bind, pure_eq_ok]
      simp only [true_and]

/-- `ReadArray` returns a usable array. -/
theorem usable_of_arrayAt {address : Ptr} {maxCount : ℤ} {a : UEArray}
    (h : arrayAt p address maxCount = some a) : a.Usable maxCount := by
  rw [arrayAt] at h
  obtain ⟨⟨-, husable⟩, ha⟩ := Option.ite_none_right_eq_some.mp h
  obtain rfl := Option.some.inj ha
  exact husable

variable (p) in
/-- The array at an address, if it is usable and its elements can be read. -/
def elementsAt (address : Ptr) (maxCount : ℤ) (size : ℕ) : Option UEArray :=
  (arrayAt p address maxCount).filter fun a => p.readable a.data (size * a.num.toNat)

/-- An array whose elements can be read is usable. -/
theorem usable_of_elementsAt {address : Ptr} {maxCount : ℤ} {size : ℕ} {a : UEArray}
    (h : elementsAt p address maxCount size = some a) : a.Usable maxCount :=
  usable_of_arrayAt (Option.filter_eq_some_iff.mp h).1

/-- No array has more elements than the reader takes. -/
theorem toNat_num_le {address : Ptr} {maxCount size : ℕ} {a : UEArray}
    (h : elementsAt p address maxCount size = some a) : a.num.toNat ≤ maxCount := by
  have hmax := (usable_of_elementsAt h).2.2
  omega

variable (p) in
/-- The bytes of an element. -/
def elementAt (a : UEArray) (size i : ℕ) : Bytes :=
  contents p.mem (a.data + UInt64.ofNat (i * size)).toNat size

/-- An element of an array that has been checked is read. -/
theorem element_eq {a : UEArray} {size n i : ℕ} (h : p.readable a.data (size * n) = true)
    (hsize : 0 < size) (hi : i < n) : element p a size i = .ok (elementAt p a size i) := by
  have huser := readable_user h
  have hle : i * size + size ≤ size * n := by
    have hmul := Nat.mul_le_mul_left size (Nat.succ_le_of_lt hi)
    rw [Nat.mul_succ, Nat.mul_comm size i] at hmul
    exact hmul
  have hoffset : (UInt64.ofNat (i * size)).toNat = i * size :=
    UInt64.toNat_ofNat_of_lt' (by change _ < 2 ^ 64; omega)
  rw [element, elementAt, load_of_readable (readable_sub h hsize (by rw [hoffset]; exact hle))]

variable (p) in
/-- The three numbers at an address, if they can be read. -/
def tripleAt (address : Ptr) : Option (CDouble × CDouble × CDouble) :=
  let values := contents p.mem address.toNat 24
  if p.readable address 24 = true then
    some (doubleOf (values.take 8), doubleOf ((values.drop 8).take 8),
      doubleOf ((values.drop 16).take 8))
  else none

/-- `ReadDoubleTriple` does not fault. -/
@[simp] theorem readDoubleTriple_eq (address : Ptr) :
    readDoubleTriple p address = .ok (tripleAt p address) := by
  rw [readDoubleTriple, tripleAt]
  cases h : p.readable address 24 with
  | false => rfl
  | true => rw [if_neg (by simp), load_of_readable h, ok_bind, pure_eq_ok, if_pos rfl]

variable (p) in
/-- What the pointer at an address points to, if that can be read. -/
def targetAt (address : Ptr) (size : ℕ) : Option Ptr :=
  if p.ptr address ≠ 0 ∧ p.readable (p.ptr address) size = true then some (p.ptr address) else none

/-- What is pointed to is not null. -/
theorem targetAt_ne_zero {address target : Ptr} {size : ℕ}
    (h : targetAt p address size = some target) : target ≠ 0 := by
  obtain ⟨⟨hne, -⟩, htarget⟩ := Option.ite_none_right_eq_some.mp h
  obtain rfl := Option.some.inj htarget
  exact hne

/-- A pointer is read and followed, if what it points to can be read. -/
theorem readTarget_eq {α : Type} (address : Ptr) (size : ℕ) (other : Except Fault α)
    (f : Ptr → Except Fault α) :
    (do
      let target ← p.readPtr address
      if target = 0 ∨ p.readable target size = false then other else f target) =
      (targetAt p address size).elim other f := by
  rw [readPtr_eq, ok_bind, targetAt]
  by_cases h : p.ptr address = 0 ∨ p.readable (p.ptr address) size = false
  · rw [if_pos h, if_neg (by simpa [or_iff_not_imp_left] using h), Option.elim_none]
  · rw [if_neg h, if_pos (by simpa using h), Option.elim_some]

/-! ### Attributes and health -/

/-- Attributes that have been read. -/
structure GoodAttributes (attributes : List AttributeInfo) : Prop where
  named : ∀ a ∈ attributes, a.name ≠ []
  few : attributes.length ≤ 1024

/-- What is left of a name is not empty. -/
theorem withoutSuffix_ne_nil {name : Bytes} (h : name ≠ []) : withoutSuffix name ≠ [] := by
  rw [withoutSuffix]
  split
  · next hlong =>
      intro hnil
      have hlen := congrArg List.length hnil
      rw [List.length_take, List.length_nil] at hlen
      have hpos := List.length_pos_iff.mpr h
      omega
  · exact h

variable (e p) in
/-- The attribute at an index of the two arrays, if there is one with a class name. -/
def attributeAt (attributes values : UEArray) (shared : Bool) (i : ℕ) : Option AttributeInfo :=
  let object := ptrOf (elementAt p attributes 8 i)
  if object = 0 ∨ e.className p object = [] then none
  else some {
    name := withoutSuffix (e.className p object)
    value := floatOf (elementAt p values 4 i)
    baseValue := p.float (object + Offsets.floatAttributeBaseValue)
    shared }

/-- **Step lemma**: the loop of `ReadAttributeArrays` appends the attribute at the index. -/
theorem addAttribute_eq {attributes values : UEArray} {m n i : ℕ}
    (hattributes : p.readable attributes.data (8 * m) = true)
    (hvalues : p.readable values.data (4 * n) = true) (hm : i < m) (hn : i < n) (shared : Bool)
    (out : List AttributeInfo) :
    e.addAttribute p attributes values shared out i =
      .ok (out ++ (e.attributeAt p attributes values shared i).toList) := by
  rw [addAttribute, element_eq hattributes (by omega) hm, ok_bind, attributeAt]
  dsimp only
  generalize ptrOf (elementAt p attributes 8 i) = object
  by_cases hnull : object = 0
  · rw [if_pos hnull, if_pos (Or.inl hnull), Option.toList_none, List.append_nil, pure_eq_ok]
  rw [if_neg hnull, getObjectClassName_eq, ok_bind]
  by_cases hname : e.className p object = []
  · rw [if_pos hname, if_pos (Or.inr hname), Option.toList_none, List.append_nil, pure_eq_ok]
  rw [if_neg hname, if_neg (not_or.mpr ⟨hnull, hname⟩), element_eq hvalues (by omega) hn, ok_bind,
    readFloat_eq, ok_bind, pure_eq_ok, Option.toList_some]

/-- An attribute has a name, and says whether it is a shared one. -/
theorem attributeAt_good {attributes values : UEArray} {shared : Bool} {i : ℕ} {a : AttributeInfo}
    (h : e.attributeAt p attributes values shared i = some a) :
    a.name ≠ [] ∧ a.shared = shared := by
  rw [attributeAt] at h
  generalize ptrOf (elementAt p attributes 8 i) = object at h
  obtain ⟨hnamed, ha⟩ := Option.ite_none_left_eq_some.mp h
  obtain rfl := Option.some.inj ha
  exact ⟨withoutSuffix_ne_nil (not_or.mp hnamed).2, rfl⟩

variable (e p) in
/-- The attributes in two arrays of a component. -/
def attributesIn (component attributesOffset valuesOffset : Ptr) (shared : Bool) :
    List AttributeInfo :=
  (elementsAt p (component + attributesOffset) 512 8).elim [] fun attributes =>
    (elementsAt p (component + valuesOffset) 512 4).elim [] fun values =>
      (List.range (min attributes.num values.num).toNat).filterMap
        (e.attributeAt p attributes values shared)

/-- **`ReadAttributeArrays` appends the attributes of the two arrays.** -/
theorem readAttributeArrays_eq (component attributesOffset valuesOffset : Ptr) (shared : Bool)
    (out : List AttributeInfo) :
    e.readAttributeArrays p component attributesOffset valuesOffset shared out =
      .ok (out ++ e.attributesIn p component attributesOffset valuesOffset shared) := by
  rw [readAttributeArrays, attributesIn, elementsAt, elementsAt, readArray_eq, ok_bind]
  cases arrayAt p (component + attributesOffset) 512 with
  | none => rw [Option.filter_none, Option.elim_none, List.append_nil, pure_eq_ok]
  | some attributes =>
  dsimp only
  rw [readArray_eq, ok_bind, Option.filter_some]
  cases arrayAt p (component + valuesOffset) 512 with
  | none =>
      dsimp only
      rw [Option.filter_none, pure_eq_ok]
      split
      · rw [Option.elim_some, Option.elim_none, List.append_nil]
      · rw [Option.elim_none, List.append_nil]
  | some values =>
  dsimp only
  rw [Option.filter_some]
  cases hattributes : p.readable attributes.data (8 * attributes.num.toNat) with
  | false => simp
  | true =>
  cases hvalues : p.readable values.data (4 * values.num.toNat) with
  | false => simp
  | true =>
  rw [if_neg (by simp), if_neg (by simp), if_pos rfl, if_pos rfl, Option.elim_some,
    Option.elim_some, ← min_def_lt]
  refine foldlM_filterMap (fun i hi out => ?_) out
  rw [List.mem_range] at hi
  exact addAttribute_eq hattributes hvalues (by omega) (by omega) shared out

/-- Two arrays have at most 512 attributes. -/
theorem length_attributesIn_le (component attributesOffset valuesOffset : Ptr) (shared : Bool) :
    (e.attributesIn p component attributesOffset valuesOffset shared).length ≤ 512 := by
  rw [attributesIn]
  cases hattributes : elementsAt p (component + attributesOffset) 512 8 with
  | none => simp
  | some attributes =>
  cases elementsAt p (component + valuesOffset) 512 4 with
  | none => simp
  | some values =>
      have hmax := (usable_of_elementsAt hattributes).2.2
      have hlen := List.length_filterMap_le (e.attributeAt p attributes values shared)
        (List.range (min attributes.num values.num).toNat)
      rw [List.length_range] at hlen
      rw [Option.elim_some, Option.elim_some]
      omega

/-- An attribute of two arrays has a name, and says whether it is a shared one. -/
theorem mem_attributesIn {component attributesOffset valuesOffset : Ptr} {shared : Bool}
    {a : AttributeInfo}
    (h : a ∈ e.attributesIn p component attributesOffset valuesOffset shared) :
    a.name ≠ [] ∧ a.shared = shared := by
  rw [attributesIn] at h
  cases hattributes : elementsAt p (component + attributesOffset) 512 8 with
  | none =>
      rw [hattributes] at h
      exact absurd h List.not_mem_nil
  | some attributes =>
  cases hvalues : elementsAt p (component + valuesOffset) 512 4 with
  | none =>
      rw [hattributes, hvalues] at h
      exact absurd h List.not_mem_nil
  | some values =>
      rw [hattributes, hvalues, Option.elim_some, Option.elim_some, List.mem_filterMap] at h
      obtain ⟨i, -, hi⟩ := h
      exact attributeAt_good hi

/-- The value of the last attribute of a name. -/
def lastValue (name : Bytes) (attributes : List AttributeInfo) (default : CFloat) : CFloat :=
  ((attributes.reverse.find? (·.name = name)).map (·.value)).getD default

/-- The attributes have a health of the player. -/
def showHealth (attributes : List AttributeInfo) : Bool :=
  attributes.any fun a => a.name = bytes "Health" || a.name = bytes "MaxHealth"

/-- A later attribute of the name takes the place of the others. -/
theorem lastValue_concat (name : Bytes) (attributes : List AttributeInfo) (a : AttributeInfo)
    (default : CFloat) :
    lastValue name (attributes ++ [a]) default =
      if a.name = name then a.value else lastValue name attributes default := by
  rw [lastValue, List.reverse_append, List.reverse_singleton, List.singleton_append,
    List.find?_cons]
  by_cases h : a.name = name
  · simp [h]
  · simp [h, lastValue]

/-- What the loop over the attributes leaves. -/
theorem foldl_noteHealth (attributes : List AttributeInfo) (info : Serialize.PlayerInfo) :
    attributes.foldl noteHealth info = { info with
      health := lastValue (bytes "Health") attributes info.health
      maxHealth := lastValue (bytes "MaxHealth") attributes info.maxHealth
      hasHealth := info.hasHealth || showHealth attributes } := by
  have hdistinct : bytes "MaxHealth" ≠ bytes "Health" := by decide
  induction attributes using List.reverseRecOn with
  | nil => simp [lastValue, showHealth]
  | append_singleton attributes a ih =>
      have hshow : showHealth (attributes ++ [a]) = (showHealth attributes ||
          (a.name = bytes "Health" || a.name = bytes "MaxHealth")) := by
        simp [showHealth, List.any_append]
      rw [List.foldl_append, ih, List.foldl_cons, List.foldl_nil, noteHealth, lastValue_concat,
        lastValue_concat, hshow]
      by_cases hhealth : a.name = bytes "Health"
      · have hmax : a.name ≠ bytes "MaxHealth" := fun h => hdistinct (h.symm.trans hhealth)
        rw [if_pos hhealth, if_pos hhealth, if_neg hmax]
        simp [hhealth]
      · rw [if_neg hhealth, if_neg hhealth]
        by_cases hmax : a.name = bytes "MaxHealth"
        · rw [if_pos hmax, if_pos hmax]
          simp [hmax]
        · rw [if_neg hmax, if_neg hmax]
          simp [hhealth, hmax]

variable (e p) in
/-- The component for the health of a pawn, if the pawn is the character of a player. -/
def healthOf (pawn : Ptr) : Option Ptr :=
  if e.isKind p pawn (bytes "DominionPlayerCharacter") = true then
    targetAt p (pawn + Offsets.domPlayerCharHealthComponent) 0x1B8
  else none

variable (e p) in
/-- The pawn can die. -/
def canDieOf (pawn : Ptr) : Bool :=
  (e.healthOf p pawn).any fun health => p.u8 (health + Offsets.healthBCanDie) != 0

variable (e p) in
/-- The attributes of a pawn with health: its own, and behind them the shared ones. -/
def attributesOf (pawn : Ptr) : List AttributeInfo :=
  ((e.healthOf p pawn).bind fun _ =>
    targetAt p (pawn + Offsets.domPlayerCharAttributesComponent) 0x1B8).elim [] fun component =>
      e.attributesIn p component Offsets.attributesFloatAttributes
          Offsets.attributesAttributeValues false ++
        e.attributesIn p component Offsets.attributesSharedFloatAttributes
          Offsets.attributesSharedAttributeValues true

/-- A pawn has at most 1024 attributes, each with a name. -/
theorem attributesOf_good (pawn : Ptr) : GoodAttributes (e.attributesOf p pawn) := by
  rw [attributesOf]
  cases (e.healthOf p pawn).bind fun _ =>
      targetAt p (pawn + Offsets.domPlayerCharAttributesComponent) 0x1B8 with
  | none => exact ⟨by simp, by simp⟩
  | some component =>
      refine ⟨fun a ha => ?_, ?_⟩
      · rcases List.mem_append.mp ha with hown | hshared
        · exact (mem_attributesIn hown).1
        · exact (mem_attributesIn hshared).1
      · rw [Option.elim_some, List.length_append]
        exact Nat.add_le_add (length_attributesIn_le _ _ _ _) (length_attributesIn_le _ _ _ _)

/-- What is still at its default before the loop over the players. -/
structure Unread (info : Serialize.PlayerInfo) : Prop where
  canDie : info.canDie = false
  attributes : info.attributes = []
  hasHealth : info.hasHealth = false
  isDead : info.isDead = false

/-- The player with attributes. -/
def withAttributes (info : Serialize.PlayerInfo) (canDie : Bool)
    (attributes : List AttributeInfo) : Serialize.PlayerInfo :=
  { info with
    canDie, attributes
    health := lastValue (bytes "Health") attributes info.health
    maxHealth := lastValue (bytes "MaxHealth") attributes info.maxHealth
    hasHealth := showHealth attributes
    isDead := showHealth attributes &&
      atMostZero (lastValue (bytes "Health") attributes info.health).value }

/-- A player without attributes. -/
theorem withAttributes_nil {info : Serialize.PlayerInfo} (h : Unread info) (canDie : Bool) :
    withAttributes info canDie [] = { info with canDie } := by
  obtain ⟨-, hattributes, hhealth, hdead⟩ := h
  simp only [withAttributes, showHealth, List.any_nil, Bool.false_and, lastValue,
    List.reverse_nil, List.find?_nil, Option.map_none, Option.getD_none, hattributes, hhealth,
    hdead]

/-- **`ReadHealthAndAttributes`** gives the player the attributes of the pawn, and what follows
from them. -/
theorem readHealthAndAttributes_eq {info : Serialize.PlayerInfo} (h : Unread info) :
    e.readHealthAndAttributes p info =
      .ok (withAttributes info (e.canDieOf p info.pawnPtr) (e.attributesOf p info.pawnPtr)) := by
  have hnone : withAttributes info false [] = info := by
    rw [withAttributes_nil h, ← h.canDie]
  rw [readHealthAndAttributes, isA_eq, ok_bind, canDieOf, attributesOf, healthOf]
  cases hkind : e.isKind p info.pawnPtr (bytes "DominionPlayerCharacter") with
  | false => exact congrArg Except.ok hnone.symm
  | true =>
  rw [if_neg (by simp), if_pos rfl, readTarget_eq]
  cases targetAt p (info.pawnPtr + Offsets.domPlayerCharHealthComponent) 0x1B8 with
  | none => exact congrArg Except.ok hnone.symm
  | some health =>
  rw [Option.elim_some, readU8_eq, ok_bind, Option.bind_some, Option.any_some]
  dsimp only
  rw [readTarget_eq]
  cases targetAt p (info.pawnPtr + Offsets.domPlayerCharAttributesComponent) 0x1B8 with
  | none =>
      rw [Option.elim_none, Option.elim_none, withAttributes_nil h]
      rfl
  | some component =>
      rw [Option.elim_some, Option.elim_some, readAttributeArrays_eq, ok_bind,
        readAttributeArrays_eq, ok_bind, h.attributes, List.nil_append, foldl_noteHealth,
        pure_eq_ok]
      simp only [withAttributes, h.hasHealth, Bool.false_or]

/-! ### Skills -/

/-- Skills that have been read. -/
structure GoodSkills (skills : List SkillInfo) : Prop where
  named : ∀ skill ∈ skills, skill.skill ≠ []
  few : skills.length ≤ 256

variable (e p) in
/-- The skill in an entry of the list, if it has a name. -/
def skillAt (list : UEArray) (i : ℕ) : Option SkillInfo :=
  let entry := list.data + UInt64.ofNat (i * Offsets.fSkillSize)
  let skillData := p.ptr (entry + Offsets.fSkillSkillData)
  if skillData = 0 ∨ e.name p skillData = [] then none
  else some { skill := e.name p skillData, currentXP := p.i32 (entry + Offsets.fSkillCurrentXP) }

/-- **Step lemma**: the loop of `ReadSkills` appends the skill in the entry. -/
theorem addSkill_eq (list : UEArray) (skills : List SkillInfo) (i : ℕ) :
    e.addSkill p list skills i = .ok (skills ++ (e.skillAt p list i).toList) := by
  rw [addSkill, readPtr_eq, ok_bind, skillAt]
  generalize list.data + UInt64.ofNat (i * Offsets.fSkillSize) = entry
  by_cases hnull : p.ptr (entry + Offsets.fSkillSkillData) = 0
  · rw [if_pos hnull, if_pos (Or.inl hnull), Option.toList_none, List.append_nil, pure_eq_ok]
  rw [if_neg hnull, getObjectName_eq, ok_bind]
  by_cases hname : e.name p (p.ptr (entry + Offsets.fSkillSkillData)) = []
  · rw [if_pos hname, if_pos (Or.inr hname), Option.toList_none, List.append_nil, pure_eq_ok]
  rw [if_neg hname, if_neg (not_or.mpr ⟨hnull, hname⟩), readI32_eq, ok_bind, pure_eq_ok,
    Option.toList_some]

variable (e p) in
/-- The list of skills behind a controller. -/
def skillsListOf (controller : Ptr) : Option UEArray :=
  if controller ≠ 0 ∧ e.isKind p controller (bytes "DominionPlayerControllerBase") = true then
    (targetAt p (controller + Offsets.domPlayerControllerSkillComponent) 0x210).bind fun skills =>
      elementsAt p (skills + Offsets.skillSkills) 256 Offsets.fSkillSize
  else none

variable (e p) in
/-- The skills behind a controller. -/
def skillsOf (controller : Ptr) : List SkillInfo :=
  (e.skillsListOf p controller).elim [] fun list =>
    (List.range list.num.toNat).filterMap (e.skillAt p list)

/-- Without a controller there are no skills. -/
@[simp] theorem skillsOf_zero : e.skillsOf p 0 = [] := by
  rw [skillsOf, skillsListOf, if_neg (by simp), Option.elim_none]

/-- A controller has at most 256 skills, each with a name. -/
theorem skillsOf_good (controller : Ptr) : GoodSkills (e.skillsOf p controller) := by
  rw [skillsOf]
  cases hlist : e.skillsListOf p controller with
  | none => exact ⟨by simp, by simp⟩
  | some list =>
      rw [skillsListOf] at hlist
      obtain ⟨-, hbind⟩ := Option.ite_none_right_eq_some.mp hlist
      obtain ⟨skills, -, hskills⟩ := Option.bind_eq_some_iff.mp hbind
      refine ⟨fun skill hskill => ?_, ?_⟩
      · obtain ⟨i, -, hi⟩ := List.mem_filterMap.mp hskill
        rw [skillAt] at hi
        obtain ⟨hnamed, hsome⟩ := Option.ite_none_left_eq_some.mp hi
        obtain rfl := Option.some.inj hsome
        exact (not_or.mp hnamed).2
      · refine (List.length_filterMap_le _ _).trans ?_
        rw [List.length_range]
        exact toNat_num_le hskills

/-- **`ReadSkills`** gives the player the skills behind the controller. -/
theorem readSkills_eq {info : Serialize.PlayerInfo} (h : info.skills = []) :
    e.readSkills p info = .ok { info with skills := e.skillsOf p info.controllerPtr } := by
  have hnone : (.ok info : Except Fault _) = .ok { info with skills := [] } := by rw [← h]
  rw [readSkills, skillsOf, skillsListOf]
  by_cases hnull : info.controllerPtr = 0
  · rw [if_pos hnull, if_neg (by simp [hnull])]
    exact hnone
  rw [if_neg hnull, isA_eq, ok_bind]
  cases hkind : e.isKind p info.controllerPtr (bytes "DominionPlayerControllerBase") with
  | false =>
      rw [if_pos (by simp), if_neg (by simp)]
      exact hnone
  | true =>
  rw [if_neg (by simp), if_pos ⟨hnull, rfl⟩, readTarget_eq]
  cases targetAt p (info.controllerPtr + Offsets.domPlayerControllerSkillComponent) 0x210 with
  | none => exact hnone
  | some skills =>
  rw [Option.elim_some, Option.bind_some, readArray_eq, ok_bind, elementsAt]
  cases arrayAt p (skills + Offsets.skillSkills) 256 with
  | none => exact hnone
  | some list =>
  dsimp only
  rw [Option.filter_some]
  cases p.readable list.data (Offsets.fSkillSize * list.num.toNat) with
  | false => exact hnone
  | true =>
      rw [if_neg (by simp), if_pos rfl, Option.elim_some,
        foldlM_filterMap fun i _ skills => addSkill_eq list skills i, ok_bind, h, List.nil_append,
        pure_eq_ok]

/-! ### The state of a player -/

variable (e p) in
/-- The net id of a player and its source, from the platform data if the state has none. -/
def netIdOf (playerState : Ptr) : Bytes × Bytes :=
  let platformData := playerState + Offsets.domPlayerStatePlatformData
  if (netId p (playerState + Offsets.playerStateUniqueID)).1 = [] ∧
      e.isKind p playerState (bytes "DominionPlayerState") = true then
    netId p (platformData + Offsets.platformDataUniqueID)
  else netId p (playerState + Offsets.playerStateUniqueID)

/-- Whichever place the net id is from, it is printable and short. -/
theorem netIdOf_good (playerState : Ptr) :
    GoodNetId (e.netIdOf p playerState).1 (e.netIdOf p playerState).2 := by
  rw [netIdOf]
  split
  · exact netId_good _
  · exact netId_good _

variable (p) in
/-- The four numbers of a colour, zeros if they cannot be read. -/
def colorAt (address : Ptr) : Vector CFloat 4 :=
  let bs := contents p.mem address.toNat 16
  if p.readable address 16 = true then
    #v[floatOf (bs.take 4), floatOf ((bs.drop 4).take 4), floatOf ((bs.drop 8).take 4),
      floatOf ((bs.drop 12).take 4)]
  else .replicate 4 {}

/-- The colour is read without a fault. -/
theorem readColor_eq (colorAddress : Ptr) :
    readColor p colorAddress (.replicate 4 {}) =
      .ok (colorAt p (colorAddress + Offsets.playerColorColor)) := by
  rw [readColor, colorAt]
  cases h : p.readable (colorAddress + Offsets.playerColorColor) 16 with
  | false => rfl
  | true => rw [if_neg (by simp), load_of_readable h, ok_bind, pure_eq_ok, if_pos rfl]

variable (e p) in
/-- What the memory shows of a player at the state itself. The GUID of the character and what
follows are only there for a state of the game's own class. -/
def stateAt (names : List (Bytes × Bytes)) (playerState : Ptr) : Serialize.PlayerInfo :=
  let flags := p.u8 (playerState + Offsets.playerStateFlags)
  let dominion := e.isKind p playerState (bytes "DominionPlayerState")
  let guid := guid p (playerState + Offsets.domPlayerStateCharacterGuid)
  let platformData := playerState + Offsets.domPlayerStatePlatformData
  let color := playerState + Offsets.domPlayerStatePlayerColor
  { playerStatePtr := playerState
    name := textAt p (playerState + Offsets.playerStatePlayerName)
    playerId := p.i32 (playerState + Offsets.playerStatePlayerId)
    score := p.float (playerState + Offsets.playerStateScore)
    startTime := p.i32 (playerState + Offsets.playerStateStartTime)
    pingMs := Int32.ofNat (p.u8 (playerState + Offsets.playerStateCompressedPing)).toNat * 4
    isSpectator := flags &&& ((1 : UInt8) <<< 1) != 0
    isBot := flags &&& ((1 : UInt8) <<< 3) != 0
    isInactive := flags &&& ((1 : UInt8) <<< 5) != 0
    uniqueNetId := (e.netIdOf p playerState).1
    uniqueNetIdSource := (e.netIdOf p playerState).2
    characterGuid := if dominion then guid else []
    characterName := if dominion then (names.lookup guid).getD [] else []
    platform := if dominion then textAt p (platformData + Offsets.platformDataPlatformName) else []
    color := if dominion then colorAt p (color + Offsets.playerColorColor) else .replicate 4 {}
    colorHex := if dominion then textAt p (color + Offsets.playerColorHexString) else [] }

/-! ### The pawn of a player -/

variable (p) in
/-- The pawn of a player, if it can be read. -/
def pawnOf (playerState : Ptr) : Option Ptr :=
  targetAt p (playerState + Offsets.playerStatePawnPrivate) 0x400

variable (p) in
/-- The root component of a pawn, if it can be read. -/
def rootOf (pawn : Ptr) : Option Ptr :=
  targetAt p (pawn + Offsets.actorRootComponent) 0x200

variable (e p) in
/-- The component that moves a pawn, if the pawn is a character and it can be read. -/
def movementOf (pawn : Ptr) : Option Ptr :=
  if e.isKind p pawn (bytes "Character") = true then
    targetAt p (pawn + Offsets.characterCharacterMovement) 0x300
  else none

variable (p) in
/-- Three numbers of a component, zeros if there is none or they cannot be read. -/
def tripleOf (component : Option Ptr) (offset : Ptr) : CDouble × CDouble × CDouble :=
  (component.bind fun address => tripleAt p (address + offset)).getD ({}, {}, {})

variable (e p) in
/-- A player as the memory shows it at the state and at the pawn. -/
def listedAt (names : List (Bytes × Bytes)) (playerState : Ptr) : Serialize.PlayerInfo :=
  let pawn := pawnOf p playerState
  let root := pawn.bind (rootOf p)
  let movement := pawn.bind (e.movementOf p)
  let location := tripleOf p root Offsets.sceneCompRelativeLocation
  let rotation := tripleOf p root Offsets.sceneCompRelativeRotation
  let velocity := tripleOf p movement Offsets.movementCompVelocity
  { e.stateAt p names playerState with
    spawned := pawn.isSome
    pawnPtr := pawn.getD 0
    pawnClass := pawn.elim [] (e.className p)
    controllerPtr := pawn.elim 0 fun address => p.ptr (address + Offsets.pawnController)
    hasLocation := root.isSome
    x := location.1, y := location.2.1, z := location.2.2
    pitch := rotation.1, yaw := rotation.2.1, roll := rotation.2.2
    hasVelocity := movement.isSome
    vx := velocity.1, vy := velocity.2.1, vz := velocity.2.2
    movementMode := movement.elim 0 fun address => p.u8 (address + Offsets.charMoveMovementMode) }

/-- Where the pawn stands is read without a fault. -/
theorem readLocation_eq (root : Ptr) (info : Serialize.PlayerInfo) :
    readLocation p root info = .ok (
      let location := (tripleAt p (root + Offsets.sceneCompRelativeLocation)).getD
        (info.x, info.y, info.z)
      let rotation := (tripleAt p (root + Offsets.sceneCompRelativeRotation)).getD
        (info.pitch, info.yaw, info.roll)
      { info with
        x := location.1, y := location.2.1, z := location.2.2
        pitch := rotation.1, yaw := rotation.2.1, roll := rotation.2.2
        hasLocation := true }) := by
  rw [readLocation, readDoubleTriple_eq, ok_bind, readDoubleTriple_eq, ok_bind]
  dsimp only
  rw [pure_eq_ok]

/-- How the pawn moves is read without a fault. -/
theorem readMovement_eq (pawn : Ptr) (info : Serialize.PlayerInfo) :
    e.readMovement p pawn info = .ok ((e.movementOf p pawn).elim info fun movement =>
      let velocity := (tripleAt p (movement + Offsets.movementCompVelocity)).getD
        (info.vx, info.vy, info.vz)
      { info with
        vx := velocity.1, vy := velocity.2.1, vz := velocity.2.2
        hasVelocity := true
        movementMode := p.u8 (movement + Offsets.charMoveMovementMode) }) := by
  rw [readMovement, isA_eq, ok_bind, movementOf]
  cases e.isKind p pawn (bytes "Character") with
  | false => rfl
  | true =>
  rw [if_neg (by simp), if_pos rfl, readTarget_eq]
  cases targetAt p (pawn + Offsets.characterCharacterMovement) 0x300 with
  | none => rfl
  | some movement =>
      rw [Option.elim_some, Option.elim_some, readDoubleTriple_eq, ok_bind]
      dsimp only
      rw [readU8_eq, ok_bind, pure_eq_ok]

/-- **What lies behind the pawn** is read without a fault. -/
theorem readPawn_eq (names : List (Bytes × Bytes)) (playerState : Ptr) :
    e.readPawn p playerState (e.stateAt p names playerState) =
      .ok (e.listedAt p names playerState) := by
  rw [readPawn, readTarget_eq, listedAt, pawnOf]
  cases targetAt p (playerState + Offsets.playerStatePawnPrivate) 0x400 with
  | none =>
      simp only [stateAt, tripleOf, Option.elim_none, Option.bind_none, Option.isSome_none,
        Option.getD_none, pure_eq_ok]
  | some pawn =>
  rw [Option.elim_some, getObjectClassName_eq, ok_bind, readPtr_eq, ok_bind]
  dsimp only
  rw [readPtr_eq, ok_bind]
  by_cases hroot : p.ptr (pawn + Offsets.actorRootComponent) ≠ 0 ∧
      p.readable (p.ptr (pawn + Offsets.actorRootComponent)) 0x200 = true
  · have hsome : rootOf p pawn = some (p.ptr (pawn + Offsets.actorRootComponent)) := by
      rw [rootOf, targetAt, if_pos hroot]
    rw [if_pos hroot, readLocation_eq, ok_bind, readMovement_eq, Option.bind_some,
      Option.bind_some, hsome]
    cases e.movementOf p pawn with
    | none => simp only [stateAt, tripleOf, Option.elim_some, Option.elim_none, Option.bind_some,
        Option.bind_none, Option.isSome_some, Option.isSome_none, Option.getD_some,
        Option.getD_none]
    | some movement => simp only [stateAt, tripleOf, Option.elim_some, Option.bind_some,
        Option.isSome_some, Option.getD_some]
  · have hnone : rootOf p pawn = none := by rw [rootOf, targetAt, if_neg hroot]
    rw [if_neg hroot, pure_eq_ok, ok_bind, readMovement_eq, Option.bind_some,
      Option.bind_some, hnone]
    cases e.movementOf p pawn with
    | none => simp only [stateAt, tripleOf, Option.elim_some, Option.elim_none, Option.bind_none,
        Option.isSome_some, Option.isSome_none, Option.getD_some, Option.getD_none]
    | some movement => simp only [stateAt, tripleOf, Option.elim_some, Option.bind_some,
        Option.bind_none, Option.isSome_some, Option.isSome_none, Option.getD_some,
        Option.getD_none]

/-- **The loop over the player array** reads a state without a fault. -/
theorem readPlayerState_eq (names : List (Bytes × Bytes)) (playerState : Ptr) :
    e.readPlayerState p names playerState = .ok (e.listedAt p names playerState) := by
  rw [readPlayerState, readFString_eq, ok_bind, readI32_eq, ok_bind, readFloat_eq, ok_bind,
    readI32_eq, ok_bind, readU8_eq, ok_bind, readU8_eq, ok_bind, readUniqueNetId_eq, ok_bind]
  dsimp only
  rw [isA_eq, ok_bind]
  refine Eq.trans ?_ (readPawn_eq names playerState)
  rw [stateAt, netIdOf]
  cases e.isKind p playerState (bytes "DominionPlayerState") with
  | false => simp only [Bool.false_eq_true, and_false, if_false, pure_eq_ok, ok_bind]
  | true =>
  rw [if_pos rfl, readDominionState, readGuid_eq, ok_bind]
  dsimp only
  rw [readFString_eq, ok_bind, readPlatformNetId, readUniqueNetId_eq]
  by_cases hempty : (netId p (playerState + Offsets.playerStateUniqueID)).1 = []
  · rw [if_pos hempty, ok_bind]
    simp only [readColor_eq, readFString_eq, ok_bind, pure_eq_ok, hempty, and_self, if_true]
  · rw [if_neg hempty, ok_bind]
    simp only [readColor_eq, readFString_eq, ok_bind, pure_eq_ok, hempty, false_and, if_false,
      if_true]

/-! ### The list of the players -/

/-- The state at an index of the player array, if it can be read. -/
def listedState (p : Process) (a : UEArray) (i : ℕ) : Option Ptr :=
  let playerState := ptrOf (elementAt p a 8 i)
  if playerState = 0 ∨ p.readable playerState 0x370 = false then none else some playerState

/-- The states in an array that can be read. -/
def listedStates (p : Process) (a : UEArray) (n : ℕ) : List Ptr :=
  (List.range n).filterMap (listedState p a)

/-- **The loop over the player array** lists the states that can be read, in their order. -/
theorem foldlM_addPlayer (names : List (Bytes × Bytes)) {a : UEArray} {n : ℕ}
    (h : p.readable a.data (8 * n) = true) :
    (List.range n).foldlM (e.addPlayer p names a) [] =
      .ok ((listedStates p a n).map (e.listedAt p names)) := by
  rw [listedStates, List.map_filterMap]
  refine foldlM_filterMap (fun i hi players => ?_) []
  rw [addPlayer, element_eq h (by omega) (List.mem_range.mp hi), ok_bind, listedState]
  dsimp only
  generalize ptrOf (elementAt p a 8 i) = playerState
  by_cases hskip : playerState = 0 ∨ p.readable playerState 0x370 = false
  · rw [if_pos hskip, if_pos hskip, Option.map_none, Option.toList_none, List.append_nil,
      pure_eq_ok]
  · rw [if_neg hskip, if_neg hskip, Option.map_some, Option.toList_some, readPlayerState_eq,
      ok_bind, pure_eq_ok]

/-! ### The components of a pawn -/

variable (e p) in
/-- The objects whose outer object is the pawn, in the order of `GObjects`. -/
def objectsOf (pawn : Ptr) : List Ptr :=
  (e.objects p).filter fun object => p.ptr (object + Offsets.uObjectOuter) = pawn

variable (e p) in
/-- An object for sustenance. -/
def isSustenance (object : Ptr) : Bool :=
  e.isKind p object (bytes "SustenanceComponent")

variable (e p) in
/-- An object for hydration. -/
def isHydration (object : Ptr) : Bool :=
  e.isKind p object (bytes "HydrationComponent")

variable (e p) in
/-- The components that are taken for a pawn: the first one for sustenance, and of the others the
first one for hydration. -/
def componentsOf (pawn : Ptr) : Ptr × Ptr :=
  (((e.objectsOf p pawn).find? (e.isSustenance p)).getD 0,
    (((e.objectsOf p pawn).eraseP (e.isSustenance p)).find? (e.isHydration p)).getD 0)

/-- A slot is filled once. -/
theorem fitsSlot_eq (slot object : Ptr) (className : Bytes) :
    e.fitsSlot p slot object className =
      .ok (decide (slot = 0 ∧ e.isKind p object className = true)) := by
  rw [fitsSlot, isA_eq]
  by_cases hslot : slot = 0
  · simp [hslot]
  · simp [hslot]

/-- What the sweep does with an object. -/
theorem addComponent_eq (set : List Ptr) (byPawn : Ptr → Ptr × Ptr) (i : ℤ) :
    e.addComponent p set byPawn i =
      .ok (if e.objectAt p i = 0 then byPawn
        else if p.ptr (e.objectAt p i + Offsets.uObjectOuter) = 0 ∨
            p.ptr (e.objectAt p i + Offsets.uObjectOuter) ∉ set then byPawn
        else Function.update byPawn (p.ptr (e.objectAt p i + Offsets.uObjectOuter))
          (fillSlots 0 (e.isSustenance p) (e.isHydration p)
            (byPawn (p.ptr (e.objectAt p i + Offsets.uObjectOuter))) (e.objectAt p i))) := by
  rw [addComponent, getObjectByIndex_eq, ok_bind]
  generalize e.objectAt p i = object
  by_cases hnull : object = 0
  · rw [if_pos hnull, if_pos hnull]
    rfl
  rw [if_neg hnull, if_neg hnull, readPtr_eq, ok_bind]
  generalize p.ptr (object + Offsets.uObjectOuter) = outer
  by_cases houter : outer = 0 ∨ outer ∉ set
  · rw [if_pos houter, if_pos houter]
    rfl
  rw [if_neg houter, if_neg houter, fillSlots, isSustenance, isHydration]
  dsimp only
  rw [fitsSlot_eq, ok_bind]
  by_cases hfirst : (byPawn outer).1 = 0 ∧
      e.isKind p object (bytes "SustenanceComponent") = true
  · rw [if_pos (decide_eq_true hfirst), if_pos hfirst]
    rfl
  rw [if_neg (by rw [decide_eq_true_iff]; exact hfirst), if_neg hfirst, fitsSlot_eq, ok_bind]
  by_cases hsecond : (byPawn outer).2 = 0 ∧
      e.isKind p object (bytes "HydrationComponent") = true
  · rw [if_pos (decide_eq_true hsecond), if_pos hsecond]
    rfl
  rw [if_neg (by rw [decide_eq_true_iff]; exact hsecond), if_neg hsecond,
    Function.update_eq_self]
  rfl

/-- **The sweep over the objects** leaves for each pawn the components that are taken for it. -/
theorem runs_addComponents (set : List Ptr) :
    Runs ((indexes (e.objectCount p)).foldlM (e.addComponent p set) fun _ => (0, 0)) fun byPawn =>
      ∀ pawn ∈ set, pawn ≠ 0 → byPawn pawn = e.componentsOf p pawn := by
  have hloop := Runs.foldlM (I := fun done (byPawn : Ptr → Ptr × Ptr) =>
      ∀ pawn ∈ set, pawn ≠ 0 → byPawn pawn =
        ((((done.map (e.objectAt p)).filter (· ≠ 0)).filter fun object =>
          p.ptr (object + Offsets.uObjectOuter) = pawn).foldl
            (fillSlots 0 (e.isSustenance p) (e.isHydration p)) (0, 0)))
      (f := e.addComponent p set) (b := fun _ => (0, 0)) (l := indexes (e.objectCount p))
      (fun pawn _ _ => rfl) fun done i byPawn _ hdone => by
    rw [addComponent_eq, runs_ok]
    intro pawn hpawn hpawn0
    have hold := hdone pawn hpawn hpawn0
    rw [List.map_append, List.map_singleton, List.filter_append]
    by_cases hnull : e.objectAt p i = 0
    · rw [if_pos hnull, List.filter_cons_of_neg (by simpa using hnull), List.filter_nil,
        List.append_nil]
      exact hold
    rw [if_neg hnull, List.filter_cons_of_pos (by simpa using hnull), List.filter_nil,
      List.filter_append]
    by_cases houter : p.ptr (e.objectAt p i + Offsets.uObjectOuter) = pawn
    · rw [List.filter_cons_of_pos (by simpa using houter), List.filter_nil, List.foldl_append,
        ← hold, houter, if_neg (by simp [hpawn, hpawn0]), Function.update_self]
      rfl
    · rw [List.filter_cons_of_neg (by simpa using houter), List.filter_nil, List.append_nil, ← hold]
      split
      · rfl
      · rw [Function.update_of_ne (Ne.symm houter)]
  refine hloop.mono fun byPawn h pawn hpawn hpawn0 => ?_
  rw [h pawn hpawn hpawn0, componentsOf]
  refine foldl_fillSlots fun object hobject => ?_
  have hne := (List.mem_filter.mp (List.mem_filter.mp hobject).1).2
  simpa using hne

/-! ### Completing a player -/

variable (p) in
/-- The values of a component for survival, if it can be read. -/
def survivalStat (component : Ptr) : Option (CFloat × CFloat) :=
  if component = 0 ∨ p.readable component 0x140 = false then none
  else some (p.float (component + Offsets.survivalStatCurrent),
    p.float (component + Offsets.survivalStatCurrentMax))

/-- The values of a component are read without a fault. -/
@[simp] theorem readSurvivalStat_eq (component : Ptr) :
    readSurvivalStat p component = .ok (survivalStat p component) := by
  rw [readSurvivalStat, survivalStat, readFloat_eq, ok_bind, readFloat_eq, ok_bind]
  split
  · rfl
  · rfl

variable (e p) in
/-- A player as the memory shows it, with all that lies behind its pawn. -/
def playerAt (names : List (Bytes × Bytes)) (playerState : Ptr) : Serialize.PlayerInfo :=
  let info := e.listedAt p names playerState
  let pawn := pawnOf p playerState
  let sustenance := pawn.bind fun address => survivalStat p (e.componentsOf p address).1
  let hydration := pawn.bind fun address => survivalStat p (e.componentsOf p address).2
  { withAttributes info (pawn.any (e.canDieOf p)) (pawn.elim [] (e.attributesOf p)) with
    skills := e.skillsOf p info.controllerPtr
    hasSustenance := sustenance.isSome
    sustenance := (sustenance.getD ({}, {})).1
    maxSustenance := (sustenance.getD ({}, {})).2
    hasHydration := hydration.isSome
    hydration := (hydration.getD ({}, {})).1
    maxHydration := (hydration.getD ({}, {})).2 }

/-- Nothing behind the pawn's components is read before the list of players is there. -/
theorem unread_listedAt (names : List (Bytes × Bytes)) (playerState : Ptr) :
    Unread (e.listedAt p names playerState) := by
  constructor
  all_goals simp only [listedAt, stateAt]

section Fields

variable (names : List (Bytes × Bytes)) (playerState : Ptr)

/-- A listed player has the pawn behind its state. -/
theorem listedAt_pawnPtr :
    (e.listedAt p names playerState).pawnPtr = (pawnOf p playerState).getD 0 := by
  rw [listedAt]

/-- A listed player has no skills yet. -/
theorem listedAt_skills : (e.listedAt p names playerState).skills = [] := by
  simp only [listedAt, stateAt]

/-- A player has the pawn behind its state. -/
theorem playerAt_pawnPtr :
    (e.playerAt p names playerState).pawnPtr = (pawnOf p playerState).getD 0 := by
  simp only [playerAt, withAttributes, listedAt]

/-- A player with a pawn has spawned. -/
theorem playerAt_spawned :
    (e.playerAt p names playerState).spawned = (pawnOf p playerState).isSome := by
  simp only [playerAt, withAttributes, listedAt]

/-- A player has the attributes of its pawn. -/
theorem playerAt_attributes : (e.playerAt p names playerState).attributes =
    (pawnOf p playerState).elim [] (e.attributesOf p) := by
  simp only [playerAt, withAttributes]

end Fields

/-- A player without a pawn is complete. -/
theorem playerAt_of_no_pawn (names : List (Bytes × Bytes)) {playerState : Ptr}
    (h : pawnOf p playerState = none) :
    e.playerAt p names playerState = e.listedAt p names playerState := by
  have hcontroller : (e.listedAt p names playerState).controllerPtr = 0 := by
    rw [listedAt, h, Option.elim_none]
  rw [playerAt, h, hcontroller, skillsOf_zero, Option.elim_none, Option.any_none,
    withAttributes_nil (unread_listedAt names playerState), listedAt, stateAt]
  simp only [Option.bind_none, Option.isSome_none, Option.getD_none]

/-- **`GetAllPlayers` completes a player** with what lies behind its own pawn. -/
theorem completePlayer_eq (names : List (Bytes × Bytes)) (playerState : Ptr)
    {byPawn : Ptr → Ptr × Ptr}
    (hbyPawn : ∀ pawn, pawnOf p playerState = some pawn → byPawn pawn = e.componentsOf p pawn) :
    e.completePlayer p byPawn (e.listedAt p names playerState) =
      .ok (e.playerAt p names playerState) := by
  have hptr := listedAt_pawnPtr (e := e) (p := p) names playerState
  have hskills : ∀ canDie attributes,
      (withAttributes (e.listedAt p names playerState) canDie attributes).skills = [] :=
    fun canDie attributes => by rw [withAttributes, listedAt_skills]
  rw [completePlayer, readHealthAndAttributes_eq (unread_listedAt names playerState), hptr]
  cases hpawn : pawnOf p playerState with
  | none => rw [Option.getD_none, if_pos rfl, playerAt_of_no_pawn names hpawn, pure_eq_ok]
  | some pawn =>
  rw [hpawn, Option.getD_some] at hptr
  rw [Option.getD_some, if_neg (targetAt_ne_zero hpawn), ok_bind, readSkills_eq (hskills _ _),
    ok_bind]
  simp only [withAttributes, hptr, hbyPawn pawn hpawn]
  rw [readSurvival, readSurvivalStat_eq, ok_bind]
  dsimp only
  rw [readSurvivalStat_eq, ok_bind, pure_eq_ok, playerAt, hpawn, Option.any_some,
    Option.elim_some, Option.bind_some, Option.bind_some]
  cases survivalStat p (e.componentsOf p pawn).1 with
  | none =>
      cases survivalStat p (e.componentsOf p pawn).2 with
      | none =>
          simp only [withAttributes, listedAt, stateAt, hpawn, Option.isSome_none,
            Option.getD_none, Option.getD_some]
      | some values =>
          simp only [withAttributes, listedAt, stateAt, hpawn, Option.isSome_none,
            Option.isSome_some, Option.getD_none, Option.getD_some]
  | some values =>
      cases survivalStat p (e.componentsOf p pawn).2 with
      | none =>
          simp only [withAttributes, listedAt, stateAt, hpawn, Option.isSome_none,
            Option.isSome_some, Option.getD_none, Option.getD_some]
      | some values' => simp only [withAttributes, hptr, Option.isSome_some, Option.getD_some]

/-- What the state of a player has on its own. -/
structure GoodIdentity (info : Serialize.PlayerInfo) : Prop where
  netId : GoodNetId info.uniqueNetId info.uniqueNetIdSource
  characterGuid : info.characterGuid = [] ∨ info.characterGuid.length = 32

/-- What lies behind the pawn, if there is one. -/
structure GoodPawn (info : Serialize.PlayerInfo) : Prop where
  spawned : info.spawned = true ↔ info.pawnPtr ≠ 0
  location : info.hasLocation = true → info.spawned = true
  velocity : info.hasVelocity = true → info.spawned = true
  controller : info.controllerPtr ≠ 0 → info.spawned = true

/-- The attributes of a player, and what follows from them. -/
structure GoodHealth (info : Serialize.PlayerInfo) : Prop where
  attributes : GoodAttributes info.attributes
  hasHealth : info.hasHealth = showHealth info.attributes
  health : info.health = lastValue (bytes "Health") info.attributes {}
  maxHealth : info.maxHealth = lastValue (bytes "MaxHealth") info.attributes {}
  isDead : info.isDead = (info.hasHealth && atMostZero info.health.value)

/-- The GUID of the character and its name, which only some states have. -/
def Named (e : Engine) (p : Process) (names : List (Bytes × Bytes)) (playerState : Ptr)
    (info : Serialize.PlayerInfo) : Prop :=
  if e.isKind p playerState (bytes "DominionPlayerState") then
    info.characterGuid = guid p (playerState + Offsets.domPlayerStateCharacterGuid) ∧
      info.characterName = (names.lookup info.characterGuid).getD []
  else info.characterGuid = [] ∧ info.characterName = []

/-- A value for survival is that of a component. -/
def ShowsStat (stat : Option (CFloat × CFloat)) (has : Bool) (current currentMax : CFloat) : Prop :=
  has = stat.isSome ∧ ∀ values, stat = some values → current = values.1 ∧ currentMax = values.2

/-- A player of the list, with what lies behind the pawn. -/
structure Complete (e : Engine) (p : Process) (names : List (Bytes × Bytes)) (playerState : Ptr)
    (info : Serialize.PlayerInfo) : Prop extends
    GoodIdentity info, GoodPawn info, GoodHealth info where
  shown : info = e.playerAt p names playerState
  skills : GoodSkills info.skills
  statePtr : info.playerStatePtr = playerState
  named : Named e p names playerState info
  sustenance : ShowsStat (if info.pawnPtr = 0 then none
      else survivalStat p (e.componentsOf p info.pawnPtr).1)
    info.hasSustenance info.sustenance info.maxSustenance
  hydration : ShowsStat (if info.pawnPtr = 0 then none
      else survivalStat p (e.componentsOf p info.pawnPtr).2)
    info.hasHydration info.hydration info.maxHydration

/-- There is nothing behind a pawn that is not there. -/
theorem goodPawn_playerAt (names : List (Bytes × Bytes)) (playerState : Ptr) :
    GoodPawn (e.playerAt p names playerState) := by
  have hspawned := playerAt_spawned (e := e) (p := p) names playerState
  have hptr := playerAt_pawnPtr (e := e) (p := p) names playerState
  cases hpawn : pawnOf p playerState with
  | none =>
      rw [hpawn] at hspawned hptr
      rw [playerAt_of_no_pawn names hpawn] at hspawned hptr ⊢
      refine ⟨by simp [hspawned, hptr], fun h => ?_, fun h => ?_, fun h => ?_⟩
      all_goals
        rw [listedAt, hpawn] at h
        simp at h
  | some pawn =>
      rw [hpawn] at hspawned hptr
      refine ⟨?_, fun _ => hspawned, fun _ => hspawned, fun _ => hspawned⟩
      rw [hspawned, hptr]
      exact ⟨fun _ => targetAt_ne_zero hpawn, fun _ => rfl⟩

/-- What is said of the health follows from the attributes. -/
theorem goodHealth_playerAt (names : List (Bytes × Bytes)) (playerState : Ptr) :
    GoodHealth (e.playerAt p names playerState) := by
  refine ⟨?_, ?_, ?_, ?_, ?_⟩
  · rw [playerAt_attributes]
    cases pawnOf p playerState with
    | none => exact ⟨by simp, by simp⟩
    | some pawn => exact attributesOf_good pawn
  · simp only [playerAt, withAttributes]
  · simp only [playerAt, withAttributes, listedAt, stateAt]
  · simp only [playerAt, withAttributes, listedAt, stateAt]
  · simp only [playerAt, withAttributes]

/-- A player has the GUID of its state, and the name that goes with it. -/
theorem named_playerAt (names : List (Bytes × Bytes)) (playerState : Ptr) :
    Named e p names playerState (e.playerAt p names playerState) := by
  simp only [Named, playerAt, withAttributes, listedAt, stateAt]
  split
  · exact ⟨rfl, rfl⟩
  · exact ⟨rfl, rfl⟩

/-- The values are those that were read. -/
theorem showsStat_getD (stat : Option (CFloat × CFloat)) :
    ShowsStat stat stat.isSome (stat.getD ({}, {})).1 (stat.getD ({}, {})).2 :=
  ⟨rfl, fun values hvalues => by rw [hvalues]; exact ⟨rfl, rfl⟩⟩

/-- What is looked for behind the pawn, if there is one. -/
theorem bind_pawnOf {α : Type} (playerState : Ptr) (f : Ptr → Option α) :
    (pawnOf p playerState).bind f =
      if (pawnOf p playerState).getD 0 = 0 then none else f ((pawnOf p playerState).getD 0) := by
  cases hpawn : pawnOf p playerState with
  | none => rw [Option.bind_none, Option.getD_none, if_pos rfl]
  | some pawn => rw [Option.bind_some, Option.getD_some, if_neg (targetAt_ne_zero hpawn)]

/-- **What the memory shows of a player is well formed.** -/
theorem complete_playerAt (names : List (Bytes × Bytes)) (playerState : Ptr) :
    Complete e p names playerState (e.playerAt p names playerState) := by
  have hptr := playerAt_pawnPtr (e := e) (p := p) names playerState
  have hnamed := named_playerAt (e := e) (p := p) names playerState
  refine ⟨⟨?_, ?_⟩, goodPawn_playerAt names playerState, goodHealth_playerAt names playerState, rfl,
    ?_, ?_, hnamed, ?_, ?_⟩
  · simp only [playerAt, withAttributes, listedAt, stateAt]
    exact netIdOf_good playerState
  · rw [Named] at hnamed
    split at hnamed
    · rw [hnamed.1]
      exact guid_length _
    · exact Or.inl hnamed.1
  · simp only [playerAt]
    exact skillsOf_good _
  · simp only [playerAt, withAttributes, listedAt, stateAt]
  · rw [hptr, ← bind_pawnOf playerState fun pawn => survivalStat p (e.componentsOf p pawn).1]
    simp only [playerAt]
    exact showsStat_getD _
  · rw [hptr, ← bind_pawnOf playerState fun pawn => survivalStat p (e.componentsOf p pawn).2]
    simp only [playerAt]
    exact showsStat_getD _

/-! ### The names of the characters -/

variable (p) in
/-- Entry `i` of `OriginalCharacterNames`: the GUID of a character, and its name. -/
def characterEntry (list : UEArray) (i : ℕ) : Bytes × Bytes :=
  let entry := list.data + UInt64.ofNat (i * Offsets.charDisplayNameSize)
  (guid p (entry + Offsets.charDisplayNameCharacterGuid),
    textAt p (entry + Offsets.charDisplayNameCharacterName))

variable (p) in
/-- The entries that count, the latest first. -/
def characterEntries (list : UEArray) (n : ℕ) : List (Bytes × Bytes) :=
  ((List.range n).reverse.map (characterEntry p list)).filter fun entry =>
    entry.1 ≠ [] ∧ entry.2 ≠ []

/-- An entry counts if it has a GUID and a name. -/
theorem addCharacterName_eq (list : UEArray) (names : List (Bytes × Bytes)) (i : ℕ) :
    addCharacterName p list names i =
      .ok (if (characterEntry p list i).1 ≠ [] ∧ (characterEntry p list i).2 ≠ [] then
        characterEntry p list i :: names else names) := by
  rw [addCharacterName, readGuid_eq, ok_bind, readFString_eq, ok_bind, pure_eq_ok, characterEntry]

/-- The loop over the entries is without a fault. -/
theorem foldlM_addCharacterName (list : UEArray) (n : ℕ) :
    (List.range n).foldlM (addCharacterName p list) [] = .ok (characterEntries p list n) := by
  induction n with
  | zero => rfl
  | succ n ih =>
      rw [List.range_succ, List.foldlM_append, ih, ok_bind, List.foldlM_cons, addCharacterName_eq,
        ok_bind, List.foldlM_nil, pure_eq_ok, characterEntries, characterEntries, List.range_succ,
        List.reverse_append, List.reverse_singleton, List.singleton_append, List.map_cons,
        List.filter_cons]
      simp only [decide_eq_true_eq]

variable (e p) in
/-- The array of the names of the characters. -/
def namesArray (gameState : Ptr) : Option UEArray :=
  if e.isKind p gameState (bytes "DominionGameStateBase") = true ∧
      p.ptr (gameState + Offsets.domGameStateDisplayNameComponent) ≠ 0 then
    elementsAt p (p.ptr (gameState + Offsets.domGameStateDisplayNameComponent) +
      Offsets.displayNameOriginalCharacterNames) 4096 Offsets.charDisplayNameSize
  else none

variable (e p) in
/-- The names of the characters, the latest first. -/
def characterNames (gameState : Ptr) : List (Bytes × Bytes) :=
  (e.namesArray p gameState).elim [] fun list => characterEntries p list list.num.toNat

/-- The names of the characters are read without a fault. -/
@[simp] theorem readCharacterNames_eq (gameState : Ptr) :
    e.readCharacterNames p gameState = .ok (e.characterNames p gameState) := by
  rw [readCharacterNames, characterNames, namesArray, isA_eq, ok_bind]
  cases hkind : e.isKind p gameState (bytes "DominionGameStateBase") with
  | false => rfl
  | true =>
      rw [if_neg (by simp), readPtr_eq, ok_bind]
      generalize p.ptr (gameState + Offsets.domGameStateDisplayNameComponent) = displayNames
      by_cases hnull : displayNames = 0
      · rw [if_pos hnull, if_neg (by simp [hnull])]
        rfl
      rw [if_neg hnull, if_pos ⟨rfl, hnull⟩, readArray_eq, ok_bind, elementsAt]
      cases arrayAt p (displayNames + Offsets.displayNameOriginalCharacterNames) 4096 with
      | none => rfl
      | some list =>
          dsimp only
          cases hread : p.readable list.data (Offsets.charDisplayNameSize * list.num.toNat) with
          | false =>
              rw [Option.filter_some, hread, if_neg Bool.false_ne_true]
              rfl
          | true =>
              rw [if_neg (by simp), foldlM_addCharacterName, Option.filter_some, if_pos hread]
              rfl

/-! ### All players -/

variable (e p) in
/-- The game state. -/
def gameState : Ptr :=
  if (e.world p).1 = 0 then 0 else p.ptr ((e.world p).1 + Offsets.worldGameState)

/-- `GetGameState` does not fault. -/
@[simp] theorem getGameState_eq : e.getGameState p = .ok (e.gameState p) := by
  obtain ⟨w, hw⟩ : ∃ w, e.getWorld p = .ok w := ⟨_, getWorld_eq⟩
  have hworld : e.world p = w := by rw [world, hw, result_ok]
  rw [getGameState, gameState, hw, hworld, ok_bind]
  dsimp only
  by_cases hnull : w.1 = 0
  · rw [if_pos hnull, if_pos hnull]
    rfl
  · rw [if_neg hnull, if_neg hnull, readPtr_eq]

variable (e p) in
/-- The player array. -/
def playerArray : Option UEArray :=
  if e.initialized = true ∧ e.gameState p ≠ 0 then
    elementsAt p (e.gameState p + Offsets.gameStateBasePlayerArray) 512 8
  else none

variable (e p) in
/-- The player states that are listed, in the order of the player array. -/
def playerStates : List Ptr :=
  (e.playerArray p).elim [] fun a => listedStates p a a.num.toNat

/-- The pawn of a listed player is in the set. -/
theorem mem_pawnSet {states : List Ptr} (names : List (Bytes × Bytes)) {playerState pawn : Ptr}
    (hstate : playerState ∈ states) (hpawn : pawnOf p playerState = some pawn) :
    pawn ∈ pawnSet (states.map (e.listedAt p names)) := by
  have hptr : (e.listedAt p names playerState).pawnPtr = pawn := by
    rw [listedAt_pawnPtr, hpawn, Option.getD_some]
  refine List.mem_filter.mpr ⟨?_, by simpa using targetAt_ne_zero hpawn⟩
  exact List.mem_map.mpr ⟨_, List.mem_map_of_mem hstate, hptr⟩

/-- Without pawns the list is complete. -/
theorem map_listedAt_of_no_pawn (names : List (Bytes × Bytes)) {states : List Ptr}
    (h : pawnSet (states.map (e.listedAt p names)) = []) :
    states.map (e.listedAt p names) = states.map (e.playerAt p names) := by
  refine List.map_congr_left fun playerState hstate => ?_
  cases hpawn : pawnOf p playerState with
  | none => exact (playerAt_of_no_pawn names hpawn).symm
  | some pawn => exact absurd (h ▸ mem_pawnSet names hstate hpawn) List.not_mem_nil

/-- Each player of the list is completed. -/
theorem mapM_completePlayer (names : List (Bytes × Bytes)) (states : List Ptr)
    {byPawn : Ptr → Ptr × Ptr}
    (hbyPawn : ∀ pawn ∈ pawnSet (states.map (e.listedAt p names)), pawn ≠ 0 →
      byPawn pawn = e.componentsOf p pawn) :
    (states.map (e.listedAt p names)).mapM (e.completePlayer p byPawn) =
      .ok (states.map (e.playerAt p names)) := by
  rw [List.mapM_map]
  refine mapM_eq_ok fun playerState hstate => ?_
  have hcomponents : ∀ pawn, pawnOf p playerState = some pawn →
      byPawn pawn = e.componentsOf p pawn := fun pawn hpawn =>
    hbyPawn pawn (mem_pawnSet names hstate hpawn) (targetAt_ne_zero hpawn)
  rw [Function.comp_apply, completePlayer_eq names playerState hcomponents]

/-- **`GetAllPlayers` reads the players that the memory shows**, whatever the memory is. -/
theorem getAllPlayers_eq : e.getAllPlayers p =
    .ok ((e.playerStates p).map (e.playerAt p (e.characterNames p (e.gameState p)))) := by
  rw [getAllPlayers, playerStates, playerArray]
  cases hinit : e.initialized with
  | false =>
      rw [if_pos (by simp), if_neg (by simp), Option.elim_none, List.map_nil, pure_eq_ok]
  | true =>
  rw [if_neg (by simp), getGameState_eq, ok_bind]
  generalize e.gameState p = gameState
  by_cases hnull : gameState = 0
  · rw [if_pos hnull, if_neg (by simp [hnull])]
    rfl
  rw [if_neg hnull, if_pos ⟨rfl, hnull⟩, readArray_eq, ok_bind, elementsAt]
  cases arrayAt p (gameState + Offsets.gameStateBasePlayerArray) 512 with
  | none => rfl
  | some a =>
  dsimp only
  rw [Option.filter_some]
  cases hread : p.readable a.data (8 * a.num.toNat) with
  | false => rfl
  | true =>
  rw [if_neg (by simp), if_pos rfl, Option.elim_some, readCharacterNames_eq, ok_bind,
    foldlM_addPlayer _ hread, ok_bind]
  by_cases hempty : pawnSet ((listedStates p a a.num.toNat).map
      (e.listedAt p (e.characterNames p gameState))) = []
  · rw [if_pos hempty, map_listedAt_of_no_pawn _ hempty, pure_eq_ok]
  rw [if_neg hempty, getObjectCount_eq, ok_bind]
  obtain ⟨byPawn, hloop, hbyPawn⟩ := runs_addComponents (e := e) (p := p)
    (pawnSet ((listedStates p a a.num.toNat).map (e.listedAt p (e.characterNames p gameState))))
  rw [hloop, ok_bind, mapM_completePlayer _ _ hbyPawn]

/-- At most 512 states are listed. -/
theorem length_playerStates_le : (e.playerStates p).length ≤ 512 := by
  rw [playerStates]
  cases harray : e.playerArray p with
  | none => exact Nat.zero_le _
  | some a =>
      rw [playerArray] at harray
      obtain ⟨-, helements⟩ := Option.ite_none_right_eq_some.mp harray
      refine (List.length_filterMap_le _ _).trans ?_
      rw [List.length_range]
      exact toNat_num_le helements

/-- **`GetAllPlayers` whatever the memory of the game is**: no read faults, and the players are
those of the states in the player array that can be read, in their order and at most 512, each as
the memory shows it at its state and behind its own pawn. -/
theorem getAllPlayers_spec (e : Engine) (p : Process) : ∃ players, e.getAllPlayers p = .ok players ∧
    players.length ≤ 512 ∧
    List.Forall₂ (Complete e p (e.characterNames p (e.gameState p))) (e.playerStates p)
      players := by
  refine ⟨_, getAllPlayers_eq, ?_, ?_⟩
  · rw [List.length_map]
    exact length_playerStates_le
  · rw [List.forall₂_map_right_iff, List.forall₂_same]
    exact fun playerState _ => complete_playerAt _ playerState

variable (p) in
/-- Entry `i` has a name, and the GUID at an address. -/
def IsNameOf (address : Ptr) (list : UEArray) (i : ℕ) : Prop :=
  let entry := list.data + UInt64.ofNat (i * Offsets.charDisplayNameSize)
  textAt p (entry + Offsets.charDisplayNameCharacterName) ≠ [] ∧
    p.readable (entry + Offsets.charDisplayNameCharacterGuid) 16 = true ∧
    contents p.mem (entry + Offsets.charDisplayNameCharacterGuid).toNat 16 =
      contents p.mem address.toNat 16

instance (address : Ptr) (list : UEArray) (i : ℕ) : Decidable (IsNameOf p address list i) :=
  inferInstanceAs (Decidable (_ ∧ _))

/-- Two GUIDs are the same sixteen bytes exactly when they are the same text. -/
theorem isNameOf_iff {address : Ptr} (h : guid p address ≠ []) (list : UEArray) (i : ℕ) :
    IsNameOf p address list i ↔
      (characterEntry p list i).2 ≠ [] ∧ (characterEntry p list i).1 = guid p address := by
  rw [IsNameOf, characterEntry]
  dsimp only
  rw [guid_eq_iff h]

/-- The name that is looked up is that of the first entry with the GUID. -/
theorem lookup_characterEntry {address : Ptr} (h : guid p address ≠ []) (list : UEArray)
    (indices : List ℕ) :
    ((indices.map (characterEntry p list)).filter fun entry => entry.1 ≠ [] ∧ entry.2 ≠ []).lookup
        (guid p address) =
      (indices.find? (IsNameOf p address list ·)).map fun i => (characterEntry p list i).2 := by
  induction indices with
  | nil => rfl
  | cons i indices ih =>
      have hiff := isNameOf_iff h list i
      rw [List.map_cons, List.find?_cons]
      generalize hentry : characterEntry p list i = entry at hiff ⊢
      by_cases hname : IsNameOf p address list i
      · obtain ⟨htext, hguid⟩ := hiff.mp hname
        rw [decide_eq_true hname, List.filter_cons_of_pos (by simp [htext, hguid, h]), ← hguid,
          List.lookup_cons, beq_self_eq_true]
        simp [hentry]
      · rw [decide_eq_false hname, ← ih]
        by_cases hkeep : entry.1 ≠ [] ∧ entry.2 ≠ []
        · have hother : (guid p address == entry.1) = false :=
            beq_eq_false_iff_ne.mpr fun heq => hname (hiff.mpr ⟨hkeep.2, heq.symm⟩)
          rw [List.filter_cons_of_pos (by simpa using hkeep), List.lookup_cons, hother]
        · rw [List.filter_cons_of_neg (by simpa using hkeep)]

/-- No entry has an empty GUID. -/
theorem lookup_characterEntries_nil (list : UEArray) (n : ℕ) :
    (characterEntries p list n).lookup [] = none := by
  rw [List.lookup_eq_none_iff]
  intro entry hentry
  have hne := of_decide_eq_true (List.mem_filter.mp hentry).2
  exact bne_iff_ne.mpr fun heq => hne.1 heq.symm

/-- **A character has the name of the last entry with its GUID**, compared as sixteen bytes, among
those that have a name; a character whose GUID has no text, or without an entry, has none. -/
theorem characterName_spec (e : Engine) (p : Process) (gameState address : Ptr) :
    (e.characterNames p gameState).lookup (guid p address) =
      if guid p address = [] then none
      else (e.namesArray p gameState).bind fun list =>
        ((List.range list.num.toNat).reverse.find? (IsNameOf p address list ·)).map fun i =>
          (characterEntry p list i).2 := by
  rw [characterNames]
  cases e.namesArray p gameState with
  | none => simp
  | some list =>
      rw [Option.elim_some, Option.bind_some]
      by_cases h : guid p address = []
      · rw [if_pos h, h, lookup_characterEntries_nil]
      · rw [if_neg h, characterEntries, lookup_characterEntry h]

end Engine

end RSDWServerAPI.DomEngine
