import RSDWServerAPI.Bytes

/-!
# Connected players

`DomEngine::PlayerInfo` as far as the administrative commands read it, and the two ways in
which the server turns an identifier typed by an administrator into a player:

* by **class**: `Engine::KickPlayer` goes through the identifying fields in the order
  player id, net id, character GUID, character name, display name, and compares exactly;
* by **first hit**: `DomBans::Ban` and `DomItems::GiveItem` go through the players in roster
  order and take the first one that matches in any field, ignoring ASCII case.

The abstract reading of the first way, `Selects` and `Ambiguous`, says which player a class
order picks without saying how; `RSDWServerAPI.Kick` connects the loops of the source to it.
-/

namespace RSDWServerAPI

/-- A `uintptr_t`: an address in the game process, `0` for a null pointer. -/
abbrev Ptr := UInt64

/-- `DomEngine::PlayerInfo`, the fields that identify and address a player. -/
structure PlayerInfo where
  name : Bytes := []
  playerId : Int32 := 0
  characterGuid : Bytes := []
  characterName : Bytes := []
  uniqueNetId : Bytes := []
  playerStatePtr : Ptr := 0
  controllerPtr : Ptr := 0
  deriving DecidableEq, Repr

/-- `std::to_string(player.playerId)`. -/
def PlayerInfo.idText (p : PlayerInfo) : Bytes :=
  decimal p.playerId.toInt

/-! ### First hit in any field -/

/-- The condition of the roster loop that `DomBans::Ban` and `DomItems::GiveItem` share. -/
def matchesAny (identifier : Bytes) (p : PlayerInfo) : Bool :=
  p.idText == identifier || lower p.uniqueNetId == lower identifier ||
    lower p.characterGuid == lower identifier || lower p.characterName == lower identifier ||
    lower p.name == lower identifier

/-- The player at which that loop breaks. -/
def firstHit (players : List PlayerInfo) (identifier : Bytes) : Option PlayerInfo :=
  players.find? (matchesAny identifier)

/-- `looksLikeSteamId`: seventeen decimal digits. -/
def looksLikeSteamId (s : Bytes) : Bool :=
  s.length == 17 && s.all isDigit

/-- A player id prints in at most eleven bytes, so it is never a SteamID64. -/
theorem idText_ne_of_looksLikeSteamId {s : Bytes} (hs : looksLikeSteamId s) (p : PlayerInfo) :
    p.idText ≠ s := by
  intro h
  have hlen : s.length = 17 := by
    have := (Bool.and_eq_true _ _).mp hs
    simpa using this.1
  have hle : p.idText.length ≤ 11 := decimal_length_le p.playerId
  rw [h] at hle
  omega

/-! ### The class order -/

/-- The identifying fields, from the most to the least stable. -/
inductive MatchClass
  | playerId
  | netId
  | characterGuid
  | characterName
  | name
  deriving DecidableEq, Repr

namespace MatchClass

/-- The order in which the classes are tried. -/
def order : List MatchClass :=
  [playerId, netId, characterGuid, characterName, name]

/-- The field a class compares. -/
def key : MatchClass → PlayerInfo → Bytes
  | playerId => PlayerInfo.idText
  | netId => PlayerInfo.uniqueNetId
  | characterGuid => PlayerInfo.characterGuid
  | characterName => PlayerInfo.characterName
  | name => PlayerInfo.name

/-- An exact match in a class; an empty field matches nothing. -/
def Matches (c : MatchClass) (identifier : Bytes) (p : PlayerInfo) : Prop :=
  c.key p ≠ [] ∧ c.key p = identifier

instance (c : MatchClass) (identifier : Bytes) (p : PlayerInfo) :
    Decidable (c.Matches identifier p) :=
  inferInstanceAs (Decidable (_ ∧ _))

/-- The players that a class offers for an identifier. Player ids are taken to be unique,
so that class offers the first match only. -/
def candidates (c : MatchClass) (players : List PlayerInfo) (identifier : Bytes) :
    List PlayerInfo :=
  match c with
  | playerId => (players.find? fun p => p.idText == identifier).toList
  | _ => players.filter fun p => c.Matches identifier p

end MatchClass

open MatchClass in
/-- A class settles nothing when it offers nobody, or one player without a controller. -/
def Unsettled (players : List PlayerInfo) (identifier : Bytes) (c : MatchClass) : Prop :=
  candidates c players identifier = [] ∨
    ∃ p, candidates c players identifier = [p] ∧ p.controllerPtr = 0

/-- The first class of `cs` that settles the identifier offers the players in `hits`. -/
def Settles (cs : List MatchClass) (players : List PlayerInfo) (identifier : Bytes)
    (hits : List PlayerInfo) : Prop :=
  ∃ before c after, cs = before ++ c :: after ∧
    (∀ d ∈ before, Unsettled players identifier d) ∧
    ¬ Unsettled players identifier c ∧ c.candidates players identifier = hits

/-- **The class order picks `p`**: in the first class that settles the identifier, `p` is
the only candidate. -/
def Selects (players : List PlayerInfo) (identifier : Bytes) (p : PlayerInfo) : Prop :=
  Settles MatchClass.order players identifier [p]

/-- **The class order finds several**: the first class that settles the identifier offers
the players in `hits`, more than one. -/
def Ambiguous (players : List PlayerInfo) (identifier : Bytes) (hits : List PlayerInfo) : Prop :=
  Settles MatchClass.order players identifier hits ∧ 1 < hits.length

/-- The first class either settles the identifier or leaves it to the others. -/
theorem settles_cons {c : MatchClass} {cs : List MatchClass} {players : List PlayerInfo}
    {identifier : Bytes} {hits : List PlayerInfo} :
    Settles (c :: cs) players identifier hits ↔
      (¬ Unsettled players identifier c ∧ c.candidates players identifier = hits) ∨
        (Unsettled players identifier c ∧ Settles cs players identifier hits) := by
  constructor
  · rintro ⟨before, d, after, hcs, hbefore, hd⟩
    rcases before with - | ⟨b, before⟩
    · obtain ⟨rfl, rfl⟩ : c = d ∧ cs = after := by simpa using hcs
      exact Or.inl hd
    · obtain ⟨rfl, rfl⟩ : c = b ∧ cs = before ++ d :: after := by simpa using hcs
      refine Or.inr ⟨hbefore c List.mem_cons_self, before, d, after, rfl, ?_, hd⟩
      exact fun e he => hbefore e (List.mem_cons_of_mem _ he)
  · rintro (hc | ⟨hc, before, d, after, rfl, hbefore, hd⟩)
    · exact ⟨[], c, cs, rfl, by simp, hc⟩
    · refine ⟨c :: before, d, after, rfl, ?_, hd⟩
      rintro e he
      rcases List.mem_cons.mp he with rfl | he
      · exact hc
      · exact hbefore e he

/-- No class settles nothing. -/
@[simp] theorem not_settles_nil {players : List PlayerInfo} {identifier : Bytes}
    {hits : List PlayerInfo} : ¬ Settles [] players identifier hits := by
  rintro ⟨before, c, after, h, -⟩
  simp at h

/-- One player with a controller settles a class. -/
theorem not_unsettled_singleton {c : MatchClass} {players : List PlayerInfo} {identifier : Bytes}
    {p : PlayerInfo} (h : c.candidates players identifier = [p]) (hp : p.controllerPtr ≠ 0) :
    ¬ Unsettled players identifier c := by
  rintro (h0 | ⟨q, hq, hq0⟩)
  · simp [h0] at h
  · obtain rfl : q = p := by simpa [hq] using h
    exact hp hq0

/-- A candidate is a connected player that matches in the class. -/
theorem mem_candidates {c : MatchClass} {players : List PlayerInfo} {identifier : Bytes}
    {p : PlayerInfo} (h : p ∈ c.candidates players identifier) :
    p ∈ players ∧ c.key p = identifier := by
  cases c with
  | playerId =>
      have hp : players.find? (fun p => p.idText == identifier) = some p := by
        simpa [MatchClass.candidates] using h
      have hk := List.find?_some hp
      exact ⟨List.mem_of_find?_eq_some hp, beq_iff_eq.mp hk⟩
  | netId | characterGuid | characterName | name =>
      obtain ⟨hp, hm⟩ := List.mem_filter.mp h
      exact ⟨hp, (of_decide_eq_true hm).2⟩

/-- A match in a class is a match in any field, case ignored. -/
theorem matchesAny_of_key {c : MatchClass} {identifier : Bytes} {p : PlayerInfo}
    (h : c.key p = identifier) : matchesAny identifier p = true := by
  subst h
  cases c <;> simp [matchesAny, MatchClass.key]

/-- Where the class order offers a player, the first-hit loop breaks somewhere. -/
theorem exists_firstHit {c : MatchClass} {players : List PlayerInfo} {identifier : Bytes}
    {p : PlayerInfo} (h : p ∈ c.candidates players identifier) :
    ∃ f, firstHit players identifier = some f := by
  obtain ⟨hp, hk⟩ := mem_candidates h
  rcases hf : firstHit players identifier with - | f
  · have := List.find?_eq_none.mp hf p hp
    exact absurd (matchesAny_of_key hk) this
  · exact ⟨f, rfl⟩

end RSDWServerAPI
