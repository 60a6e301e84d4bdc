import RSDWServerAPI.FloatText
import RSDWServerAPI.Roster

/-!
# The player list of the API

`Serialize::Player` and `Serialize::Players` (`api/serialize.cpp`) put the text of
`GET /api/players` together from what the engine has read out of the game's memory: texts that
are escaped, integers and truth values, and floating-point numbers that need not be numbers.

`playerData` says what the text of a player is to stand for, `none` where a number cannot be
written. The verdict about a text follows its parts, so one such number of one player makes the
whole list unreadable.

## Main results

* `verdict_player`, `verdict_players`: the texts stand for that data, or are broken.
* `listsPlayers_iff`: **every player is listed, in order, exactly if every number that is written
  can be**; `not_listsPlayers_nan` is a score that is not a number.
* `wellFormed_players_iff`: otherwise the text is not a JSON text at all.
-/

namespace RSDWServerAPI.Serialize

open Json JsonText ApiRoutes

/-! ### What is written -/

/-- `DomEngine::SkillInfo`. -/
structure SkillInfo where
  skill : Bytes := []
  currentXP : Int32 := 0
  deriving DecidableEq, Repr

/-- `DomEngine::AttributeInfo`. -/
structure AttributeInfo where
  name : Bytes := []
  value : CFloat := {}
  baseValue : CFloat := {}
  shared : Bool := false
  deriving DecidableEq, Repr

/-- `DomEngine::PlayerInfo`, with all the fields that are written. -/
structure PlayerInfo extends RSDWServerAPI.PlayerInfo where
  pingMs : Int32 := 0
  score : CFloat := {}
  startTime : Int32 := 0
  isSpectator : Bool := false
  isBot : Bool := false
  isInactive : Bool := false
  platform : Bytes := []
  uniqueNetIdSource : Bytes := []
  colorHex : Bytes := []
  color : Vector CFloat 4 := .replicate 4 {}
  spawned : Bool := false
  pawnClass : Bytes := []
  hasLocation : Bool := false
  x : CDouble := {}
  y : CDouble := {}
  z : CDouble := {}
  pitch : CDouble := {}
  yaw : CDouble := {}
  roll : CDouble := {}
  hasVelocity : Bool := false
  vx : CDouble := {}
  vy : CDouble := {}
  vz : CDouble := {}
  movementMode : UInt8 := 0
  hasHealth : Bool := false
  health : CFloat := {}
  maxHealth : CFloat := {}
  canDie : Bool := false
  isDead : Bool := false
  hasSustenance : Bool := false
  sustenance : CFloat := {}
  maxSustenance : CFloat := {}
  hasHydration : Bool := false
  hydration : CFloat := {}
  maxHydration : CFloat := {}
  skills : List SkillInfo := []
  attributes : List AttributeInfo := []
  pawnPtr : Ptr := 0
  deriving DecidableEq, Repr

/-! ### The text -/

/-- `Q`. -/
def q (value : Bytes) : Bytes :=
  bytes "\"" ++ escape value ++ bytes "\""

/-- `Bool`. -/
def bool (value : Bool) : Bytes :=
  if value then bytes "true" else bytes "false"

/-- A hexadecimal digit of `%X`. -/
def upperHexDigit (d : ℕ) : UInt8 :=
  if d < 10 then 48 + UInt8.ofNat d else 55 + UInt8.ofNat d

/-- The conversion `%llX`. -/
def upperHex (n : UInt64) : Bytes :=
  if n = 0 then [48] else (Nat.digits 16 n.toNat).reverse.map upperHexDigit

/-- What an `std::ostringstream` holds after a chain of `<<`. -/
def oss (pieces : List Bytes) : Bytes :=
  pieces.flatten

/-- `Player`, up to the colour. -/
def identityText (p : PlayerInfo) : Bytes :=
  oss [
    bytes "\"name\":", q p.name, bytes ",",
    bytes "\"characterName\":", q p.characterName, bytes ",",
    bytes "\"playerId\":", decimal p.playerId.toInt, bytes ",",
    bytes "\"uniqueNetId\":", q p.uniqueNetId, bytes ",",
    bytes "\"uniqueNetIdSource\":", q p.uniqueNetIdSource, bytes ",",
    bytes "\"characterGuid\":", q p.characterGuid, bytes ",",
    bytes "\"platform\":", q p.platform, bytes ",",
    bytes "\"pingMs\":", decimal p.pingMs.toInt, bytes ",",
    bytes "\"score\":", num p.score.value, bytes ",",
    bytes "\"startTime\":", decimal p.startTime.toInt, bytes ",",
    bytes "\"isSpectator\":", bool p.isSpectator, bytes ",",
    bytes "\"isBot\":", bool p.isBot, bytes ",",
    bytes "\"isInactive\":", bool p.isInactive, bytes ",",
    bytes "\"spawned\":", bool p.spawned, bytes ",",
    bytes "\"pawnClass\":", q p.pawnClass, bytes ","]

/-- `Player`, the colour. -/
def colorText (p : PlayerInfo) : Bytes :=
  oss [
    bytes "\"color\":\x7b",
    bytes "\"hex\":", q p.colorHex, bytes ",",
    bytes "\"r\":", num p.color[0].value, bytes ",",
    bytes "\"g\":", num p.color[1].value, bytes ",",
    bytes "\"b\":", num p.color[2].value, bytes ",",
    bytes "\"a\":", num p.color[3].value,
    bytes "\x7d,"]

/-- `Player`, where the player stands. -/
def locationText (p : PlayerInfo) : Bytes :=
  if p.hasLocation then
    oss [
      bytes "\"location\":\x7b\"x\":", num p.x.value, bytes ",\"y\":", num p.y.value,
      bytes ",\"z\":", num p.z.value, bytes "\x7d,",
      bytes "\"rotation\":\x7b\"pitch\":", num p.pitch.value, bytes ",\"yaw\":",
      num p.yaw.value, bytes ",\"roll\":", num p.roll.value, bytes "\x7d,"]
  else oss [bytes "\"location\":null,\"rotation\":null,"]

/-- `Player`, how the player moves. -/
def velocityText (p : PlayerInfo) : Bytes :=
  if p.hasVelocity then
    oss [
      bytes "\"velocity\":\x7b\"x\":", num p.vx.value, bytes ",\"y\":", num p.vy.value,
      bytes ",\"z\":", num p.vz.value, bytes "\x7d,",
      bytes "\"movementMode\":", decimal p.movementMode.toNat, bytes ","]
  else oss [bytes "\"velocity\":null,\"movementMode\":null,"]

/-- `Player`, the health. -/
def healthText (p : PlayerInfo) : Bytes :=
  if p.hasHealth then
    oss [
      bytes "\"health\":\x7b\"current\":", num p.health.value, bytes ",\"max\":",
      num p.maxHealth.value, bytes ",\"canDie\":", bool p.canDie, bytes ",\"isDead\":",
      bool p.isDead, bytes "\x7d,"]
  else oss [bytes "\"health\":null,"]

/-- A meter of the player: what there is of something and the most there can be. -/
def meterText (name : Bytes) (has : Bool) (current max : CFloat) : Bytes :=
  if has then
    oss [
      quoted name, bytes ":\x7b\"current\":", num current.value, bytes ",\"max\":",
      num max.value, bytes "\x7d,"]
  else oss [quoted name, bytes ":null,"]

/-- `Player`, the sustenance. -/
def sustenanceText (p : PlayerInfo) : Bytes :=
  meterText (bytes "sustenance") p.hasSustenance p.sustenance p.maxSustenance

/-- `Player`, the hydration. -/
def hydrationText (p : PlayerInfo) : Bytes :=
  meterText (bytes "hydration") p.hasHydration p.hydration p.maxHydration

/-- One attribute. -/
def attributeText (a : AttributeInfo) : Bytes :=
  oss [
    bytes "\x7b\"name\":", q a.name,
    bytes ",\"value\":", num a.value.value,
    bytes ",\"baseValue\":", num a.baseValue.value,
    bytes ",\"shared\":", bool a.shared, bytes "\x7d"]

/-- One skill. -/
def skillText (s : SkillInfo) : Bytes :=
  oss [bytes "\x7b\"skill\":", q s.skill, bytes ",\"currentXP\":", decimal s.currentXP.toInt,
    bytes "\x7d"]

/-- The loops with an index: `if (i) oss << ","` in front of every entry. -/
def indexed {α : Type} (entry : α → Bytes) (xs : List α) : Bytes :=
  listed (fun _ => true) entry true xs

/-- `Player`, the attributes and the skills. -/
def listsText (p : PlayerInfo) : Bytes :=
  oss [
    bytes "\"attributes\":[", indexed attributeText p.attributes, bytes "],",
    bytes "\"skills\":[", indexed skillText p.skills, bytes "],"]

/-- What `snprintf` makes of the three addresses. -/
def pointersFormat (p : PlayerInfo) : Bytes :=
  oss [
    bytes "\"pointers\":\x7b\"playerState\":\"0x", upperHex p.playerStatePtr,
    bytes "\",\"pawn\":\"0x", upperHex p.pawnPtr,
    bytes "\",\"controller\":\"0x", upperHex p.controllerPtr, bytes "\"\x7d"]

/-- `Player`, the addresses: what fits into `char pointers[128]`. -/
def pointersText (p : PlayerInfo) : Bytes :=
  (pointersFormat p).take 127

/-- `Player`. -/
def player (p : PlayerInfo) : Bytes :=
  oss [bytes "\x7b", identityText p, colorText p, locationText p, velocityText p, healthText p,
    sustenanceText p, hydrationText p, listsText p, pointersText p, bytes "\x7d"]

/-- `Players`. -/
def players (ps : List PlayerInfo) : Bytes :=
  oss [bytes "\x7b\"count\":", decimal ps.length, bytes ",\"players\":[", indexed player ps,
    bytes "]\x7d"]

/-! ### What the text is to stand for -/

/-- An object, if no member is broken. -/
def objectOf (members : List (Bytes × Option Data)) : Option Data :=
  (allMembers members).map .object

/-- A text. -/
def textOf (s : Bytes) : Option Data :=
  some (textData s)

/-- An integer. -/
def intOf (i : ℤ) : Option Data :=
  some (.number i)

/-- A truth value. -/
def boolOf (b : Bool) : Option Data :=
  some (.bool b)

/-- The members up to the colour. -/
def identityMembers (p : PlayerInfo) : List (Bytes × Option Data) :=
  [(bytes "name", textOf p.name), (bytes "characterName", textOf p.characterName),
    (bytes "playerId", intOf p.playerId.toInt), (bytes "uniqueNetId", textOf p.uniqueNetId),
    (bytes "uniqueNetIdSource", textOf p.uniqueNetIdSource),
    (bytes "characterGuid", textOf p.characterGuid), (bytes "platform", textOf p.platform),
    (bytes "pingMs", intOf p.pingMs.toInt), (bytes "score", numData p.score.value),
    (bytes "startTime", intOf p.startTime.toInt), (bytes "isSpectator", boolOf p.isSpectator),
    (bytes "isBot", boolOf p.isBot), (bytes "isInactive", boolOf p.isInactive),
    (bytes "spawned", boolOf p.spawned), (bytes "pawnClass", textOf p.pawnClass)]

/-- The colour. -/
def colorMembers (p : PlayerInfo) : List (Bytes × Option Data) :=
  [(bytes "color", objectOf [(bytes "hex", textOf p.colorHex),
    (bytes "r", numData p.color[0].value), (bytes "g", numData p.color[1].value),
    (bytes "b", numData p.color[2].value), (bytes "a", numData p.color[3].value)])]

/-- Where the player stands. -/
def locationMembers (p : PlayerInfo) : List (Bytes × Option Data) :=
  if p.hasLocation then
    [(bytes "location", objectOf [(bytes "x", numData p.x.value), (bytes "y", numData p.y.value),
      (bytes "z", numData p.z.value)]),
    (bytes "rotation", objectOf [(bytes "pitch", numData p.pitch.value),
      (bytes "yaw", numData p.yaw.value), (bytes "roll", numData p.roll.value)])]
  else [(bytes "location", some .null), (bytes "rotation", some .null)]

/-- How the player moves. -/
def velocityMembers (p : PlayerInfo) : List (Bytes × Option Data) :=
  if p.hasVelocity then
    [(bytes "velocity", objectOf [(bytes "x", numData p.vx.value),
      (bytes "y", numData p.vy.value), (bytes "z", numData p.vz.value)]),
    (bytes "movementMode", intOf p.movementMode.toNat)]
  else [(bytes "velocity", some .null), (bytes "movementMode", some .null)]

/-- The health. -/
def healthMembers (p : PlayerInfo) : List (Bytes × Option Data) :=
  if p.hasHealth then
    [(bytes "health", objectOf [(bytes "current", numData p.health.value),
      (bytes "max", numData p.maxHealth.value), (bytes "canDie", boolOf p.canDie),
      (bytes "isDead", boolOf p.isDead)])]
  else [(bytes "health", some .null)]

/-- A meter. -/
def meterMembers (name : Bytes) (has : Bool) (current max : CFloat) :
    List (Bytes × Option Data) :=
  if has then
    [(name, objectOf [(bytes "current", numData current.value), (bytes "max", numData max.value)])]
  else [(name, some .null)]

/-- The sustenance. -/
def sustenanceMembers (p : PlayerInfo) : List (Bytes × Option Data) :=
  meterMembers (bytes "sustenance") p.hasSustenance p.sustenance p.maxSustenance

/-- The hydration. -/
def hydrationMembers (p : PlayerInfo) : List (Bytes × Option Data) :=
  meterMembers (bytes "hydration") p.hasHydration p.hydration p.maxHydration

/-- An attribute. -/
def attributeData (a : AttributeInfo) : Option Data :=
  objectOf [(bytes "name", textOf a.name), (bytes "value", numData a.value.value),
    (bytes "baseValue", numData a.baseValue.value), (bytes "shared", boolOf a.shared)]

/-- A skill. -/
def skillData (s : SkillInfo) : Option Data :=
  objectOf [(bytes "skill", textOf s.skill), (bytes "currentXP", intOf s.currentXP.toInt)]

/-- An array, if no element is broken. -/
def arrayOf (elements : List (Option Data)) : Option Data :=
  (allElements elements).map .array

/-- The attributes and the skills. -/
def listsMembers (p : PlayerInfo) : List (Bytes × Option Data) :=
  [(bytes "attributes", arrayOf (p.attributes.map attributeData)),
    (bytes "skills", arrayOf (p.skills.map skillData))]

/-- An address, in hexadecimal. -/
def addressOf (ptr : Ptr) : Option Data :=
  textOf (bytes "0x" ++ upperHex ptr)

/-- The addresses. -/
def pointersMembers (p : PlayerInfo) : List (Bytes × Option Data) :=
  [(bytes "pointers", objectOf [(bytes "playerState", addressOf p.playerStatePtr),
    (bytes "pawn", addressOf p.pawnPtr), (bytes "controller", addressOf p.controllerPtr)])]

/-- A player: **an object, unless a number in it cannot be written**. -/
def playerData (p : PlayerInfo) : Option Data :=
  objectOf (identityMembers p ++ colorMembers p ++ locationMembers p ++ velocityMembers p ++
    healthMembers p ++ sustenanceMembers p ++ hydrationMembers p ++ listsMembers p ++
    pointersMembers p)

/-- The list of the players. -/
def playersData (ps : List PlayerInfo) : Option Data :=
  objectOf [(bytes "count", intOf ps.length),
    (bytes "players", arrayOf (ps.map playerData))]

/-! ### The verdict about each part -/

/-- Members with a comma behind each of them. -/
def VerdictMembers (t : Bytes) (members : List (Bytes × Option Data)) : Prop :=
  ∃ ts : List Bytes, t = ts.flatMap (· ++ [44]) ∧ List.Forall₂ VerdictMember ts members

/-- Members in front of others. -/
theorem VerdictMembers.append {t u : Bytes} {ms ns : List (Bytes × Option Data)}
    (ht : VerdictMembers t ms) (hu : VerdictMembers u ns) : VerdictMembers (t ++ u) (ms ++ ns) := by
  obtain ⟨ts, rfl, hts⟩ := ht
  obtain ⟨us, rfl, hus⟩ := hu
  exact ⟨ts ++ us, by rw [List.flatMap_append], List.rel_append hts hus⟩

/-- A name of letters is spelled as it is. -/
theorem plainKey_letters (l : List Char) (h : l.all Char.isAlpha = true) :
    PlainKey (bytes (String.ofList l)) := by
  intro c hc
  rw [bytes_ofList] at hc
  obtain ⟨d, hd, rfl⟩ := List.mem_map.mp hc
  have halpha : d.isAlpha = true := List.all_eq_true.mp h d hd
  have hrange : (65 ≤ d.toNat ∧ d.toNat ≤ 90) ∨ (97 ≤ d.toNat ∧ d.toNat ≤ 122) := by
    rcases (Bool.or_eq_true d.isUpper d.isLower).mp halpha with hupper | hlower
    · obtain ⟨hlow, hhigh⟩ := of_decide_eq_true hupper
      exact .inl ⟨UInt32.le_iff_toNat_le.mp hlow, UInt32.le_iff_toNat_le.mp hhigh⟩
    · obtain ⟨hlow, hhigh⟩ := (Bool.and_eq_true _ _).mp hlower
      exact .inr ⟨UInt32.le_iff_toNat_le.mp (of_decide_eq_true hlow),
        UInt32.le_iff_toNat_le.mp (of_decide_eq_true hhigh)⟩
  have hbyte : (UInt8.ofNat d.toNat).toNat = d.toNat := by
    rw [UInt8.toNat_ofNat', Nat.mod_eq_of_lt (by omega)]
  refine ⟨fun heq => ?_, fun heq => ?_, ?_⟩
  · rw [heq] at hbyte
    change 34 = d.toNat at hbyte
    omega
  · rw [heq] at hbyte
    change 92 = d.toNat at hbyte
    omega
  · rw [UInt8.le_iff_toNat_le, hbyte]
    change 32 ≤ d.toNat
    omega

/-- A member with a name of letters. -/
theorem verdictMember {l : List Char} {u : Bytes} {x : Option Data} (h : Verdict u x)
    (hl : l.all Char.isAlpha = true) :
    VerdictMember (memberText (bytes (String.ofList l)) u) (bytes (String.ofList l), x) := by
  obtain ⟨name, htext, hdecode⟩ := exists_str_plain (plainKey_letters l hl)
  refine ⟨name, u, ?_, hdecode, h⟩
  rw [memberText, ← htext]

/-- `Q` writes a string. -/
theorem verdict_q (s : Bytes) : Verdict (q s) (textOf s) := by
  have htext : q s = stringText s := by
    simp [q, stringText, bytes]
  rw [htext]
  exact reads_escape s

/-- An integer is well formed. -/
theorem verdict_int (i : ℤ) : Verdict (decimal i) (intOf i) :=
  reads_decimal i

/-- `Bool` writes a truth value. -/
theorem verdict_bool (b : Bool) : Verdict (bool b) (boolOf b) := by
  have hread : Reads (Value.bool b).text (.bool b) := Value.reads rfl
  cases b with
  | true => rwa [Value.text] at hread
  | false => rwa [Value.text] at hread

/-- The members up to the colour: the score is the one that can be broken. -/
theorem verdict_identity (p : PlayerInfo) :
    VerdictMembers (identityText p) (identityMembers p) := by
  refine ⟨[memberText (bytes "name") (q p.name),
    memberText (bytes "characterName") (q p.characterName),
    memberText (bytes "playerId") (decimal p.playerId.toInt),
    memberText (bytes "uniqueNetId") (q p.uniqueNetId),
    memberText (bytes "uniqueNetIdSource") (q p.uniqueNetIdSource),
    memberText (bytes "characterGuid") (q p.characterGuid),
    memberText (bytes "platform") (q p.platform),
    memberText (bytes "pingMs") (decimal p.pingMs.toInt),
    memberText (bytes "score") (num p.score.value),
    memberText (bytes "startTime") (decimal p.startTime.toInt),
    memberText (bytes "isSpectator") (bool p.isSpectator),
    memberText (bytes "isBot") (bool p.isBot),
    memberText (bytes "isInactive") (bool p.isInactive),
    memberText (bytes "spawned") (bool p.spawned),
    memberText (bytes "pawnClass") (q p.pawnClass)], ?_, ?_⟩
  · simp [identityText, oss, memberText, quoted, bytes]
  · exact .cons (verdictMember (verdict_q _) rfl) <|
      .cons (verdictMember (verdict_q _) rfl) <|
      .cons (verdictMember (verdict_int _) rfl) <|
      .cons (verdictMember (verdict_q _) rfl) <|
      .cons (verdictMember (verdict_q _) rfl) <|
      .cons (verdictMember (verdict_q _) rfl) <|
      .cons (verdictMember (verdict_q _) rfl) <|
      .cons (verdictMember (verdict_int _) rfl) <|
      .cons (verdictMember (verdict_num _) rfl) <|
      .cons (verdictMember (verdict_int _) rfl) <|
      .cons (verdictMember (verdict_bool _) rfl) <|
      .cons (verdictMember (verdict_bool _) rfl) <|
      .cons (verdictMember (verdict_bool _) rfl) <|
      .cons (verdictMember (verdict_bool _) rfl) <|
      .cons (verdictMember (verdict_q _) rfl) .nil

/-- `null` is well formed. -/
theorem verdict_null : Verdict (bytes "null") (some .null) := by
  have hread : Reads Value.null.text .null := Value.reads rfl
  rwa [Value.text] at hread

/-- An object is well formed exactly when each member is. -/
theorem verdict_objectOf {ts : List Bytes} {ms : List (Bytes × Option Data)}
    (h : List.Forall₂ VerdictMember ts ms) : Verdict (objectText ts) (objectOf ms) :=
  verdict_object h

/-- The colour. -/
theorem verdict_color (p : PlayerInfo) : VerdictMembers (colorText p) (colorMembers p) := by
  refine ⟨[memberText (bytes "color") (objectText [
    memberText (bytes "hex") (q p.colorHex),
    memberText (bytes "r") (num p.color[0].value),
    memberText (bytes "g") (num p.color[1].value),
    memberText (bytes "b") (num p.color[2].value),
    memberText (bytes "a") (num p.color[3].value)])], ?_, ?_⟩
  · simp [colorText, oss, objectText, bracket, commaJoin, memberText, quoted, bytes]
  · refine .cons (verdictMember (verdict_objectOf ?_) rfl) .nil
    exact .cons (verdictMember (verdict_q _) rfl) <|
      .cons (verdictMember (verdict_num _) rfl) <|
      .cons (verdictMember (verdict_num _) rfl) <|
      .cons (verdictMember (verdict_num _) rfl) <|
      .cons (verdictMember (verdict_num _) rfl) .nil

/-- A member that is `null`. -/
theorem verdictMember_null {l : List Char} (hl : l.all Char.isAlpha = true) :
    VerdictMember (memberText (bytes (String.ofList l)) (bytes "null"))
      (bytes (String.ofList l), some .null) :=
  verdictMember verdict_null hl

/-- Where the player stands, or twice `null`. -/
theorem verdict_location (p : PlayerInfo) :
    VerdictMembers (locationText p) (locationMembers p) := by
  rw [locationText, locationMembers]
  split
  · refine ⟨[memberText (bytes "location") (objectText [
      memberText (bytes "x") (num p.x.value),
      memberText (bytes "y") (num p.y.value),
      memberText (bytes "z") (num p.z.value)]),
      memberText (bytes "rotation") (objectText [
      memberText (bytes "pitch") (num p.pitch.value),
      memberText (bytes "yaw") (num p.yaw.value),
      memberText (bytes "roll") (num p.roll.value)])], ?_, ?_⟩
    · simp [oss, objectText, bracket, commaJoin, memberText, quoted, bytes]
    · refine .cons (verdictMember (verdict_objectOf ?_) rfl) <|
        .cons (verdictMember (verdict_objectOf ?_) rfl) .nil
      · exact .cons (verdictMember (verdict_num _) rfl) <|
          .cons (verdictMember (verdict_num _) rfl) <|
          .cons (verdictMember (verdict_num _) rfl) .nil
      · exact .cons (verdictMember (verdict_num _) rfl) <|
          .cons (verdictMember (verdict_num _) rfl) <|
          .cons (verdictMember (verdict_num _) rfl) .nil
  · refine ⟨[memberText (bytes "location") (bytes "null"),
      memberText (bytes "rotation") (bytes "null")], ?_, ?_⟩
    · simp [oss, memberText, quoted, bytes]
    · exact .cons (verdictMember_null rfl) (.cons (verdictMember_null rfl) .nil)

/-- How the player moves, or twice `null`. -/
theorem verdict_velocity (p : PlayerInfo) :
    VerdictMembers (velocityText p) (velocityMembers p) := by
  rw [velocityText, velocityMembers]
  split
  · refine ⟨[memberText (bytes "velocity") (objectText [
      memberText (bytes "x") (num p.vx.value),
      memberText (bytes "y") (num p.vy.value),
      memberText (bytes "z") (num p.vz.value)]),
      memberText (bytes "movementMode") (decimal p.movementMode.toNat)], ?_, ?_⟩
    · simp [oss, objectText, bracket, commaJoin, memberText, quoted, bytes]
    · refine .cons (verdictMember (verdict_objectOf ?_) rfl) <|
        .cons (verdictMember (verdict_int _) rfl) .nil
      exact .cons (verdictMember (verdict_num _) rfl) <|
        .cons (verdictMember (verdict_num _) rfl) <|
        .cons (verdictMember (verdict_num _) rfl) .nil
  · refine ⟨[memberText (bytes "velocity") (bytes "null"),
      memberText (bytes "movementMode") (bytes "null")], ?_, ?_⟩
    · simp [oss, memberText, quoted, bytes]
    · exact .cons (verdictMember_null rfl) (.cons (verdictMember_null rfl) .nil)

/-- The health, or `null`. -/
theorem verdict_health (p : PlayerInfo) :
    VerdictMembers (healthText p) (healthMembers p) := by
  rw [healthText, healthMembers]
  split
  · refine ⟨[memberText (bytes "health") (objectText [
      memberText (bytes "current") (num p.health.value),
      memberText (bytes "max") (num p.maxHealth.value),
      memberText (bytes "canDie") (bool p.canDie),
      memberText (bytes "isDead") (bool p.isDead)])], ?_, ?_⟩
    · simp [oss, objectText, bracket, commaJoin, memberText, quoted, bytes]
    · refine .cons (verdictMember (verdict_objectOf ?_) rfl) .nil
      exact .cons (verdictMember (verdict_num _) rfl) <|
        .cons (verdictMember (verdict_num _) rfl) <|
        .cons (verdictMember (verdict_bool _) rfl) <|
        .cons (verdictMember (verdict_bool _) rfl) .nil
  · refine ⟨[memberText (bytes "health") (bytes "null")], ?_, ?_⟩
    · simp [oss, memberText, quoted, bytes]
    · exact .cons (verdictMember_null rfl) .nil

/-- A meter, or `null`. -/
theorem verdict_meter {l : List Char} (hl : l.all Char.isAlpha = true) (has : Bool)
    (current max : CFloat) :
    VerdictMembers (meterText (bytes (String.ofList l)) has current max)
      (meterMembers (bytes (String.ofList l)) has current max) := by
  rw [meterText, meterMembers]
  split
  · refine ⟨[memberText (bytes (String.ofList l)) (objectText [
      memberText (bytes "current") (num current.value),
      memberText (bytes "max") (num max.value)])], ?_, ?_⟩
    · simp [oss, objectText, bracket, commaJoin, memberText, quoted, bytes]
    · refine .cons (verdictMember (verdict_objectOf ?_) hl) .nil
      exact .cons (verdictMember (verdict_num _) rfl) <|
        .cons (verdictMember (verdict_num _) rfl) .nil
  · refine ⟨[memberText (bytes (String.ofList l)) (bytes "null")], ?_, ?_⟩
    · simp [oss, memberText, quoted, bytes]
    · exact .cons (verdictMember_null hl) .nil

/-- The members for sustenance are well formed exactly when their numbers are. -/
theorem verdict_sustenance (p : PlayerInfo) :
    VerdictMembers (sustenanceText p) (sustenanceMembers p) :=
  verdict_meter rfl _ _ _

/-- The members for hydration are well formed exactly when their numbers are. -/
theorem verdict_hydration (p : PlayerInfo) :
    VerdictMembers (hydrationText p) (hydrationMembers p) :=
  verdict_meter rfl _ _ _

/-! ### Lists and addresses -/

/-- An attribute. -/
theorem verdict_attribute (a : AttributeInfo) : Verdict (attributeText a) (attributeData a) := by
  have htext : attributeText a = objectText [
      memberText (bytes "name") (q a.name),
      memberText (bytes "value") (num a.value.value),
      memberText (bytes "baseValue") (num a.baseValue.value),
      memberText (bytes "shared") (bool a.shared)] := by
    simp [attributeText, oss, objectText, bracket, commaJoin, memberText, quoted, bytes]
  rw [htext]
  refine verdict_objectOf ?_
  exact .cons (verdictMember (verdict_q _) rfl) <|
    .cons (verdictMember (verdict_num _) rfl) <|
    .cons (verdictMember (verdict_num _) rfl) <|
    .cons (verdictMember (verdict_bool _) rfl) .nil

/-- A skill: no number in it can be broken. -/
theorem verdict_skill (s : SkillInfo) : Verdict (skillText s) (skillData s) := by
  have htext : skillText s = objectText [
      memberText (bytes "skill") (q s.skill),
      memberText (bytes "currentXP") (decimal s.currentXP.toInt)] := by
    simp [skillText, oss, objectText, bracket, commaJoin, memberText, quoted, bytes]
  rw [htext]
  refine verdict_objectOf ?_
  exact .cons (verdictMember (verdict_q _) rfl) (.cons (verdictMember (verdict_int _) rfl) .nil)

/-- The loops between square brackets. -/
theorem verdict_indexed {α : Type} {entry : α → Bytes} {data : α → Option Data}
    (h : ∀ x, Verdict (entry x) (data x)) (xs : List α) :
    Verdict (bytes "[" ++ indexed entry xs ++ bytes "]") (arrayOf (xs.map data)) := by
  have hall : List.Forall₂ Verdict (xs.map entry) (xs.map data) := by
    rw [List.forall₂_map_left_iff, List.forall₂_map_right_iff, List.forall₂_same]
    exact fun x _ => h x
  have htext : bytes "[" ++ indexed entry xs ++ bytes "]" =
      bracket 91 93 noWs (xs.map entry) := by
    rw [indexed, listed_eq, List.filter_true, bracket]
    split
    · next hnil =>
        rw [hnil]
        rfl
    · rfl
  rw [htext]
  exact verdict_array hall

/-- The attributes and the skills. -/
theorem verdict_lists (p : PlayerInfo) : VerdictMembers (listsText p) (listsMembers p) := by
  refine ⟨[memberText (bytes "attributes")
      (bytes "[" ++ indexed attributeText p.attributes ++ bytes "]"),
    memberText (bytes "skills") (bytes "[" ++ indexed skillText p.skills ++ bytes "]")], ?_, ?_⟩
  · simp [listsText, oss, memberText, quoted, bytes]
  · exact .cons (verdictMember (verdict_indexed verdict_attribute _) rfl) <|
      .cons (verdictMember (verdict_indexed verdict_skill _) rfl) .nil

/-- An address has at most sixteen digits. -/
theorem upperHex_length (n : UInt64) : (upperHex n).length ≤ 16 := by
  rw [upperHex]
  split
  · simp
  · rw [List.length_map, List.length_reverse, Nat.digits_length_le_iff (by norm_num)]
    exact n.toNat_lt

/-- The addresses fit into their buffer. -/
theorem pointersText_eq (p : PlayerInfo) : pointersText p = pointersFormat p := by
  have hstate := upperHex_length p.playerStatePtr
  have hpawn := upperHex_length p.pawnPtr
  have hcontroller := upperHex_length p.controllerPtr
  refine List.take_of_length_le ?_
  simp [pointersFormat, oss, bytes]
  omega

/-- No byte of an address is escaped. -/
theorem plain_address (ptr : Ptr) : PlainKey (bytes "0x" ++ upperHex ptr) := by
  have hdigit : ∀ d < 16, upperHexDigit d ≠ 34 ∧ upperHexDigit d ≠ 92 ∧ 32 ≤ upperHexDigit d := by
    decide
  intro c hc
  rcases List.mem_append.mp hc with hc | hc
  · have hplain : PlainKey (bytes "0x") := by decide
    exact hplain c hc
  · rw [upperHex] at hc
    split at hc
    · obtain rfl := List.mem_singleton.mp hc
      decide
    · obtain ⟨d, hd, rfl⟩ := List.mem_map.mp hc
      exact hdigit d (Nat.digits_lt_base (by norm_num) (List.mem_reverse.mp hd))

/-- An address is a string. -/
theorem verdict_address (ptr : Ptr) :
    Verdict (bytes "\"0x" ++ upperHex ptr ++ bytes "\"") (addressOf ptr) := by
  have htext : bytes "\"0x" ++ upperHex ptr ++ bytes "\"" = q (bytes "0x" ++ upperHex ptr) := by
    rw [q, escape_plain (plain_address ptr)]
    simp [bytes]
  rw [htext]
  exact verdict_q _

/-- The addresses: the last member, with no comma behind it. -/
theorem verdict_pointers (p : PlayerInfo) : ∃ t, pointersText p = t ∧
    List.Forall₂ VerdictMember [t] (pointersMembers p) := by
  refine ⟨memberText (bytes "pointers") (objectText [
    memberText (bytes "playerState") (bytes "\"0x" ++ upperHex p.playerStatePtr ++ bytes "\""),
    memberText (bytes "pawn") (bytes "\"0x" ++ upperHex p.pawnPtr ++ bytes "\""),
    memberText (bytes "controller") (bytes "\"0x" ++ upperHex p.controllerPtr ++ bytes "\"")]),
    ?_, ?_⟩
  · rw [pointersText_eq]
    simp [pointersFormat, oss, objectText, bracket, commaJoin, memberText, quoted, bytes]
  · refine .cons (verdictMember (verdict_objectOf ?_) rfl) .nil
    exact .cons (verdictMember (verdict_address _) rfl) <|
      .cons (verdictMember (verdict_address _) rfl) <|
      .cons (verdictMember (verdict_address _) rfl) .nil

/-! ### Players -/

/-- **The verdict about a player.** -/
theorem verdict_player (p : PlayerInfo) : Verdict (player p) (playerData p) := by
  have hmembers := (((((((verdict_identity p).append (verdict_color p)).append
    (verdict_location p)).append (verdict_velocity p)).append (verdict_health p)).append
    (verdict_sustenance p)).append (verdict_hydration p)).append (verdict_lists p)
  obtain ⟨ts, htext, hts⟩ := hmembers
  obtain ⟨t, hpointers, ht⟩ := verdict_pointers p
  have hplayer : player p = objectText (ts ++ [t]) := by
    rw [objectText, bracket, if_neg (by simp), commaJoin_split, ← htext, ← hpointers]
    simp [player, oss, bytes]
  rw [hplayer]
  exact verdict_objectOf (List.rel_append hts ht)

/-- **The verdict about the player list.** -/
theorem verdict_players (ps : List PlayerInfo) : Verdict (players ps) (playersData ps) := by
  have htext : players ps = objectText [
      memberText (bytes "count") (decimal ps.length),
      memberText (bytes "players") (bytes "[" ++ indexed player ps ++ bytes "]")] := by
    simp [players, oss, objectText, bracket, commaJoin, memberText, quoted, bytes]
  rw [htext]
  refine verdict_objectOf ?_
  exact .cons (verdictMember (verdict_int _) rfl) <|
    .cons (verdictMember (verdict_indexed verdict_player _) rfl) .nil

/-! ### When the list is well formed -/

/-- The numbers that `Player` writes, those of the parts that are there. -/
def printed (p : PlayerInfo) : List FloatValue :=
  [p.score.value] ++
    [p.color[0].value, p.color[1].value, p.color[2].value, p.color[3].value] ++
    (if p.hasLocation then [p.x.value, p.y.value, p.z.value, p.pitch.value, p.yaw.value,
      p.roll.value] else []) ++
    (if p.hasVelocity then [p.vx.value, p.vy.value, p.vz.value] else []) ++
    (if p.hasHealth then [p.health.value, p.maxHealth.value] else []) ++
    (if p.hasSustenance then [p.sustenance.value, p.maxSustenance.value] else []) ++
    (if p.hasHydration then [p.hydration.value, p.maxHydration.value] else []) ++
    p.attributes.flatMap fun a => [a.value.value, a.baseValue.value]

/-- An object has data exactly when each member has. -/
@[simp] theorem objectOf_isSome_iff {ms : List (Bytes × Option Data)} :
    (objectOf ms).isSome ↔ ∀ m ∈ ms, m.2.isSome := by
  rw [objectOf, Option.isSome_map, allMembers_isSome_iff]

/-- An array has data exactly when each element has. -/
@[simp] theorem arrayOf_isSome_iff {xs : List (Option Data)} :
    (arrayOf xs).isSome ↔ ∀ x ∈ xs, x.isSome := by
  rw [arrayOf, Option.isSome_map, allElements_isSome_iff]

/-- A meter that is there is broken if one of its numbers is. -/
theorem meterMembers_isSome_iff (name : Bytes) (has : Bool) (current max : CFloat) :
    (∀ m ∈ meterMembers name has current max, m.2.isSome) ↔
      ∀ v ∈ if has then [current.value, max.value] else [], v.Prints := by
  rw [meterMembers]
  split <;> simp [numData_isSome_iff]

/-- A player is written exactly if every number of the player can be. -/
theorem playerData_isSome_iff (p : PlayerInfo) :
    (playerData p).isSome ↔ ∀ v ∈ printed p, v.Prints := by
  have hidentity : (∀ m ∈ identityMembers p, m.2.isSome) ↔ ∀ v ∈ [p.score.value], v.Prints := by
    simp [identityMembers, textOf, intOf, boolOf, numData_isSome_iff]
  have hcolor : (∀ m ∈ colorMembers p, m.2.isSome) ↔
      ∀ v ∈ [p.color[0].value, p.color[1].value, p.color[2].value, p.color[3].value],
        v.Prints := by
    simp [colorMembers, textOf, numData_isSome_iff]
  have hlocation : (∀ m ∈ locationMembers p, m.2.isSome) ↔
      ∀ v ∈ if p.hasLocation then [p.x.value, p.y.value, p.z.value, p.pitch.value, p.yaw.value,
        p.roll.value] else [], v.Prints := by
    rw [locationMembers]
    split <;> simp [numData_isSome_iff, and_assoc]
  have hvelocity : (∀ m ∈ velocityMembers p, m.2.isSome) ↔
      ∀ v ∈ if p.hasVelocity then [p.vx.value, p.vy.value, p.vz.value] else [], v.Prints := by
    rw [velocityMembers]
    split <;> simp [intOf, numData_isSome_iff]
  have hhealth : (∀ m ∈ healthMembers p, m.2.isSome) ↔
      ∀ v ∈ if p.hasHealth then [p.health.value, p.maxHealth.value] else [], v.Prints := by
    rw [healthMembers]
    split <;> simp [boolOf, numData_isSome_iff]
  have hlists : (∀ m ∈ listsMembers p, m.2.isSome) ↔
      ∀ v ∈ p.attributes.flatMap fun a => [a.value.value, a.baseValue.value], v.Prints := by
    rw [List.forall_mem_flatMap]
    simp [listsMembers, attributeData, skillData, textOf, intOf, boolOf, numData_isSome_iff]
  have hpointers : ∀ m ∈ pointersMembers p, m.2.isSome := by
    simp [pointersMembers, addressOf, textOf]
  rw [playerData, objectOf_isSome_iff, List.forall_mem_append, and_iff_left hpointers]
  simp only [printed, List.forall_mem_append, hidentity, hcolor, hlocation, hvelocity, hhealth,
    hlists, sustenanceMembers, hydrationMembers, meterMembers_isSome_iff]

/-- **One object for each player, in order**: the text is well formed and holds the count and the
array, whose entries are what the texts of the players stand for. -/
def ListsPlayers (ps : List PlayerInfo) : Prop :=
  ∃ entries : List Data,
    Reads (players ps)
      (.object [(bytes "count", .number ps.length), (bytes "players", .array entries)]) ∧
    entries.length = ps.length ∧
    List.Forall₂ (fun p x => ∃ members, x = .object members ∧ Reads (player p) x) ps entries

/-- The list has data exactly when every number in it prints. -/
theorem playersData_isSome_iff (ps : List PlayerInfo) :
    (playersData ps).isSome ↔ ∀ p ∈ ps, ∀ v ∈ printed p, v.Prints := by
  simp [playersData, intOf, playerData_isSome_iff]

/-- A player is an object. -/
theorem playerData_object (p : PlayerInfo) (x : Data) (h : playerData p = some x) :
    ∃ members, x = .object members := by
  obtain ⟨members, -, rfl⟩ := Option.map_eq_some_iff.mp h
  exact ⟨members, rfl⟩

/-- The list is well formed if no part is broken; its entries are then what the players' texts stand
for. -/
theorem listsPlayers_iff_isSome (ps : List PlayerInfo) :
    ListsPlayers ps ↔ (playersData ps).isSome := by
  constructor
  · rintro ⟨entries, hread, -, -⟩
    exact (verdict_players ps).wellFormed_iff.mp hread.wellFormed
  · intro h
    have hverdict := verdict_players ps
    have hentries : (allElements (ps.map playerData) = none ∧ ∃ p ∈ ps, Broken (player p)) ∨
        ∃ entries, allElements (ps.map playerData) = some entries ∧
          List.Forall₂ (fun p x => ∃ members, x = .object members ∧ Reads (player p) x) ps
            entries := by
      refine forall₂_mapM (Q := fun p x => x = playerData p) (fun p x hx => ?_) ?_
      · subst hx
        have hplayer := verdict_player p
        cases hdata : playerData p with
        | none =>
            rw [hdata] at hplayer
            exact .inl ⟨rfl, hplayer⟩
        | some x =>
            rw [hdata] at hplayer
            obtain ⟨members, rfl⟩ := playerData_object p x hdata
            exact .inr ⟨_, rfl, members, rfl, hplayer⟩
      · rw [List.forall₂_map_right_iff, List.forall₂_same]
        exact fun _ _ => rfl
    rcases hentries with ⟨hnone, -⟩ | ⟨entries, hentries, hlisted⟩
    · simp [playersData, objectOf, allMembers, arrayOf, hnone] at h
    · refine ⟨entries, ?_, hlisted.length_eq.symm, hlisted⟩
      rw [playersData, objectOf, allMembers, arrayOf, hentries] at hverdict
      rw [← verdict_some]
      simpa [intOf] using hverdict

/-- **The player list is well formed exactly if every number in it can be written.** -/
theorem wellFormed_players_iff (ps : List PlayerInfo) :
    WellFormed (players ps) ↔ ∀ p ∈ ps, ∀ v ∈ printed p, v.Prints :=
  (verdict_players ps).wellFormed_iff.trans (playersData_isSome_iff ps)

/-- **Every player is listed exactly if every number of every player can be written.** -/
theorem listsPlayers_iff (ps : List PlayerInfo) :
    ListsPlayers ps ↔ ∀ p ∈ ps, ∀ v ∈ printed p, v.Prints :=
  (listsPlayers_iff_isSome ps).trans (playersData_isSome_iff ps)

/-- A score that is not a number takes the whole list with it. -/
theorem not_listsPlayers_nan : ¬ ListsPlayers [{ score := ⟨0x7FC00000⟩ }] := by
  rw [listsPlayers_iff_isSome, playersData_isSome_iff]
  intro h
  exact h _ List.mem_cons_self (.nan false) List.mem_cons_self

end RSDWServerAPI.Serialize
