import RSDWServerAPI.AccessControl
import RSDWServerAPI.Roster
import RSDWServerAPI.Transition
import Mathlib.Data.List.Pairwise

/-!
# Death posts

Two detectors report deaths (`rsdwapi.cpp`, `InitThread`): the listener for player events, on the
game thread (`HandlePlayerEvent` in `engine/chat.cpp`), and the poll of the health of all
players. Both end in `reportDeath`, which posts nothing for a key that was posted less than ten
seconds ago. The poll takes the net id on the roster as the key; the listener takes the sender id
in the payload of the event if there is one.

An action is a player event, or a part of a poll: that is all that can come in between, since a
report looks at the map of the posts in one locked section. Each clock reading is an argument of
its own and the readings may be in any order.

## Main results

* `apart_of_keyed`: **two posts about one player are ten seconds apart in every run whose death
  events carry no sender id, or that of the player they are about**.
* `sound_reportDeath`: what a report that is filed under the player's own key keeps.
-/

namespace RSDWServerAPI.DeathReports

open Transition
open AccessControl (seconds)

/-! ### Data -/

/-- `DomEngine::PlayerInfo`, as far as the detectors read it. -/
structure Player extends PlayerInfo where
  hasHealth : Bool := false
  isDead : Bool := false
  hasLocation : Bool := false
  /-- `x`, `y` and `z` as `snprintf` writes them, with `"%.0f, %.0f, %.0f"`. -/
  location : Bytes := bytes "0, 0, 0"
  deriving DecidableEq, Repr

/-- The parameters of a player event in the game, as `HandlePlayerEvent` reads them. -/
structure Payload where
  /-- `NameToString` of the tag. -/
  tag : Bytes
  /-- `ReadGuid`. -/
  characterGuid : Bytes
  playerId : Int32
  /-- `ReadUniqueNetId`, empty when there is none. -/
  senderNetId : Bytes
  deriving DecidableEq, Repr

/-- `DomChat::PlayerEvent`. -/
structure PlayerEvent where
  senderName : Bytes
  senderNetId : Bytes
  characterGuid : Bytes
  playerId : Int32
  tag : Bytes
  deriving DecidableEq, Repr

/-- A post to the death webhook. -/
structure Post where
  /-- The reading of the clock in `reportDeath`. -/
  time : ℕ
  line : Bytes
  /-- History: the key, and the entry of the roster that was reported. -/
  key : Bytes
  about : Option Player
  deriving DecidableEq, Repr

/-- What the detectors remember. -/
structure State where
  /-- `g_RecentEvents`. -/
  recentEvents : Bytes → Option ℕ := fun _ => none
  deathPosted : Bytes → Option ℕ := fun _ => none
  wasDead : Bytes → Option Bool := fun _ => none
  nowDead : Bytes → Option Bool := fun _ => none
  /-- The players that the poll has not come to, `none` between polls. -/
  polling : Option (List Player) := none
  /-- History. -/
  posts : List Post := []

/-! ### `rsdwapi.cpp`: `reportDeath` -/

/-- The line of a death post. -/
def deathLine (name place : Bytes) : Bytes :=
  bytes ":skull: **" ++ name ++ bytes "** died" ++
    if place = [] then [] else bytes " at " ++ [96] ++ place ++ [96]

/-- `reportDeath`; `enabled` is `Discord::IsEnabled`. -/
def reportDeath (enabled : Bool) (now : ℕ) (about : Option Player) (key name place : Bytes)
    (s : State) : State :=
  if ∃ last ∈ s.deathPosted key, now < last + seconds 10 then s
  else
    { s with
      deathPosted := Function.update s.deathPosted key (some now)
      posts := if enabled then s.posts ++ [⟨now, deathLine name place, key, about⟩] else s.posts }

/-! ### `chat.cpp`: player events -/

/-- The key of `g_RecentEvents`. -/
def Payload.recentKey (p : Payload) : Bytes :=
  decimal p.playerId.toInt ++ bytes "|" ++ p.characterGuid ++ bytes "|" ++ p.tag

/-- The player is the sender, by player id or by character. -/
def Payload.isFrom (p : Payload) (player : Player) : Bool :=
  player.playerId = p.playerId ∨ p.characterGuid ≠ [] ∧ player.characterGuid = p.characterGuid

/-- The entry of the roster that the loop of `HandlePlayerEvent` stops at. -/
def Payload.sender (p : Payload) (roster : List Player) : Option Player :=
  roster.find? p.isFrom

/-- The event is passed on: it has a tag, and there was no such event in the last three
seconds. -/
def Payload.isPassedOn (p : Payload) (now : ℕ) (s : State) : Bool :=
  p.tag ≠ [] ∧ p.tag ≠ bytes "None" ∧
    ¬ ∃ last ∈ s.recentEvents p.recentKey, now < last + seconds 3

/-- The event as it is delivered to the listeners. -/
def Payload.event (p : Payload) (roster : List Player) : PlayerEvent where
  senderName := (p.sender roster).elim [] fun player =>
    if player.characterName = [] then player.name else player.characterName
  senderNetId :=
    if p.senderNetId = [] then (p.sender roster).elim [] fun player => player.uniqueNetId
    else p.senderNetId
  characterGuid := p.characterGuid
  playerId := p.playerId
  tag := p.tag

/-- The map behind the locked section of an event that is passed on. -/
def noteEvent (p : Payload) (now : ℕ) (recentEvents : Bytes → Option ℕ) : Bytes → Option ℕ :=
  fun key => (Function.update recentEvents p.recentKey (some now) key).filter
    fun time => ¬ time + seconds 30 < now

/-- The tags that the listener takes for a death. -/
def isDeathTag (tag : Bytes) : Bool :=
  (afterFirst (bytes "death") (lower tag)).isSome ||
    (afterFirst (bytes "died") (lower tag)).isSome ||
    (afterFirst (bytes "die") (lower tag)).isSome

/-- The place of the event: the location of the player with its player id. -/
def PlayerEvent.place (e : PlayerEvent) (roster : List Player) : Bytes :=
  match roster.find? fun player => player.playerId = e.playerId with
  | some player => if player.hasLocation then player.location else []
  | none => []

/-- The listener for player events; `about` is for the history. -/
def deathListener (enabled : Bool) (now : ℕ) (about : Option Player) (roster : List Player)
    (e : PlayerEvent) (s : State) : State :=
  if !isDeathTag e.tag then s
  else
    let name :=
      if e.senderName = [] then bytes "playerId " ++ decimal e.playerId.toInt else e.senderName
    let key := if e.senderNetId = [] then decimal e.playerId.toInt else e.senderNetId
    reportDeath enabled now about key name (e.place roster) s

/-- `HandlePlayerEvent` with the death listener. `seen` and `now` are its reading of the clock and
that of `reportDeath`. -/
def handlePlayerEvent (enabled : Bool) (seen now : ℕ) (roster : List Player) (p : Payload)
    (s : State) : State :=
  if !p.isPassedOn seen s then s
  else
    deathListener enabled now (p.sender roster) roster (p.event roster)
      { s with recentEvents := noteEvent p seen s.recentEvents }

/-! ### `rsdwapi.cpp`: the poll -/

/-- The body of the loop over the players. -/
def pollPlayer (enabled : Bool) (now : ℕ) (player : Player) (s : State) : State :=
  if player.uniqueNetId = [] ∨ !player.hasHealth then s
  else
    let s := { s with
      nowDead := Function.update s.nowDead player.uniqueNetId (some player.isDead) }
    let justDied := player.isDead ∧ s.wasDead player.uniqueNetId = some false
    if justDied then
      let name := if player.characterName = [] then player.name else player.characterName
      reportDeath enabled now (some player) player.uniqueNetId name player.location s
    else s

/-! ### Runs -/

/-- A player event, or a part of a poll. -/
inductive Action
  /-- A player event, with the roster that it finds: it runs on the game thread, which the roster
  belongs to. -/
  | event (enabled : Bool) (seen now : ℕ) (roster : List Player) (payload : Payload)
  /-- A poll reads the roster. -/
  | pollBegin (roster : List Player)
  | pollNext (enabled : Bool) (now : ℕ)
  /-- `wasDead.swap(nowDead)`. -/
  | pollEnd
  deriving DecidableEq, Repr

/-- One atomic action. -/
def step (s : State) : Action → Option State
  | .event enabled seen now roster payload =>
      some (handlePlayerEvent enabled seen now roster payload s)
  | .pollBegin roster =>
      match s.polling with
      | none => some { s with polling := some roster, nowDead := fun _ => none }
      | some _ => none
  | .pollNext enabled now =>
      match s.polling with
      | some (player :: rest) =>
          some (pollPlayer enabled now player { s with polling := some rest })
      | _ => none
  | .pollEnd =>
      match s.polling with
      | some [] => some { s with polling := none, wasDead := s.nowDead }
      | _ => none

/-! ### What is promised -/

/-- The posts are about one player, who has a net id. -/
def SamePlayer (a b : Post) : Prop :=
  ∃ p ∈ a.about, ∃ q ∈ b.about, p.uniqueNetId ≠ [] ∧ p.uniqueNetId = q.uniqueNetId

/-- Two posts about one player are at least ten seconds apart. -/
def Apart (s : State) : Prop :=
  s.posts.Pairwise fun a b => SamePlayer a b → a.time + seconds 10 ≤ b.time

/-- A death event that is passed on carries no sender id, or that of the player it is about, if
that player has a net id. -/
def Keyed (s : State) : Action → Prop
  | .event _ seen _ roster payload =>
      payload.isPassedOn seen s = true → isDeathTag payload.tag = true →
        ∀ player ∈ payload.sender roster, player.uniqueNetId ≠ [] →
          payload.senderNetId = [] ∨ payload.senderNetId = player.uniqueNetId
  | .pollBegin _ | .pollNext .. | .pollEnd => True

instance (s : State) (a : Action) : Decidable (Keyed s a) := by
  cases a with
  | event => exact inferInstanceAs (Decidable (_ → _))
  | pollBegin | pollNext | pollEnd => exact isTrue trivial

/-! ### The invariant -/

/-- What the posts rest on: a post about a player with a net id is filed under that net id, and
posts of one key are ten seconds apart, up to the time in the map. -/
structure Sound (s : State) : Prop where
  filed : ∀ post ∈ s.posts, ∀ player ∈ post.about, player.uniqueNetId ≠ [] →
    post.key = player.uniqueNetId
  noted : ∀ post ∈ s.posts, ∃ last ∈ s.deathPosted post.key, post.time ≤ last
  apart : s.posts.Pairwise fun a b => a.key = b.key → a.time + seconds 10 ≤ b.time

/-- The invariant holds before the first event. -/
theorem sound_start : Sound {} where
  filed _ h := absurd h List.not_mem_nil
  noted _ h := absurd h List.not_mem_nil
  apart := .nil

/-- The other fields do not matter. -/
theorem Sound.congr {s t : State} (hs : Sound s) (hposted : t.deathPosted = s.deathPosted)
    (hposts : t.posts = s.posts) : Sound t where
  filed := hposts ▸ hs.filed
  noted := hposts ▸ hposted ▸ hs.noted
  apart := hposts ▸ hs.apart

/-- A later time in the map covers the posts of its key. -/
theorem Sound.noted_update {s : State} (hs : Sound s) {key : Bytes} {now : ℕ}
    (hlast : ∀ last ∈ s.deathPosted key, last ≤ now) :
    ∀ post ∈ s.posts, ∃ last ∈ Function.update s.deathPosted key (some now) post.key,
      post.time ≤ last := by
  intro post hpost
  obtain ⟨last, hmem, hle⟩ := hs.noted post hpost
  by_cases hkey : post.key = key
  · refine ⟨now, by rw [hkey, Function.update_self]; rfl, ?_⟩
    exact hle.trans (hlast last (hkey ▸ hmem))
  · exact ⟨last, by rwa [Function.update_of_ne hkey], hle⟩

/-- **A report that is filed under the player's own key keeps the invariant.** -/
theorem sound_reportDeath {s : State} (hs : Sound s) (enabled : Bool) (now : ℕ)
    {about : Option Player} {key : Bytes} (name place : Bytes)
    (hkey : ∀ player ∈ about, player.uniqueNetId ≠ [] → key = player.uniqueNetId) :
    Sound (reportDeath enabled now about key name place s) := by
  rw [reportDeath]
  split
  · exact hs
  · next hfresh =>
      push Not at hfresh
      have hlast : ∀ last ∈ s.deathPosted key, last ≤ now := fun last hlast =>
        (Nat.le_add_right last _).trans (hfresh last hlast)
      have hnoted := hs.noted_update hlast
      cases enabled with
      | false => exact ⟨hs.filed, hnoted, hs.apart⟩
      | true =>
          refine ⟨?_, ?_, ?_⟩
          · simpa [or_imp, forall_and] using ⟨hs.filed, hkey⟩
          · simpa [or_imp, forall_and] using hnoted
          · refine List.pairwise_append.mpr ⟨hs.apart, List.pairwise_singleton _ _, ?_⟩
            intro a ha b hb heq
            obtain rfl := List.mem_singleton.mp hb
            have hsame : a.key = key := heq
            obtain ⟨last, hmem, hle⟩ := hs.noted a ha
            have := hfresh last (hsame ▸ hmem)
            dsimp only
            omega

/-- A player event that is keyed by the player it is about. -/
theorem sound_handlePlayerEvent {s : State} (hs : Sound s) (enabled : Bool) (seen now : ℕ)
    (roster : List Player) (p : Payload)
    (hkeyed : Keyed s (.event enabled seen now roster p)) :
    Sound (handlePlayerEvent enabled seen now roster p s) := by
  rw [handlePlayerEvent]
  split
  · exact hs
  · next hpassed =>
      have hs' : Sound { s with recentEvents := noteEvent p seen s.recentEvents } :=
        hs.congr rfl rfl
      rw [deathListener]
      split
      · exact hs'
      · next hdeath =>
          refine sound_reportDeath hs' enabled now _ _ fun player hplayer hne => ?_
          have hid := hkeyed (by simpa using hpassed) (by simpa [Payload.event] using hdeath) player
            hplayer hne
          have hevent : (p.event roster).senderNetId = player.uniqueNetId := by
            have hsome : p.sender roster = some player := hplayer
            rcases hid with hnil | hown
            · simp [Payload.event, hsome, hnil]
            · simp [Payload.event, hown, hne]
          rw [hevent, if_neg hne]

/-- The body of the poll files a report under the net id on the roster. -/
theorem sound_pollPlayer {s : State} (hs : Sound s) (enabled : Bool) (now : ℕ) (player : Player) :
    Sound (pollPlayer enabled now player s) := by
  rw [pollPlayer]
  split
  · exact hs
  · have hs' : Sound { s with
        nowDead := Function.update s.nowDead player.uniqueNetId (some player.isDead) } :=
      hs.congr rfl rfl
    dsimp only
    split
    · refine sound_reportDeath hs' enabled now _ _ fun p hp _ => ?_
      obtain rfl := Option.some.inj hp
      rfl
    · exact hs'

/-- **Step lemma**: every step whose death event is keyed keeps the invariant. -/
theorem sound_step {s t : State} {a : Action} (hs : Sound s) (hkeyed : Keyed s a)
    (h : step s a = some t) : Sound t := by
  cases a with
  | event enabled seen now roster payload =>
      obtain rfl := Option.some.inj h
      exact sound_handlePlayerEvent hs enabled seen now roster payload hkeyed
  | pollBegin roster =>
      simp only [step] at h
      split at h
      · obtain rfl := Option.some.inj h
        exact hs.congr rfl rfl
      · cases h
  | pollNext enabled now =>
      simp only [step] at h
      split at h
      · next player rest _ =>
          obtain rfl := Option.some.inj h
          have hs' : Sound { s with polling := some rest } := hs.congr rfl rfl
          exact sound_pollPlayer hs' enabled now player
      · cases h
  | pollEnd =>
      simp only [step] at h
      split at h
      · obtain rfl := Option.some.inj h
        exact hs.congr rfl rfl
      · cases h

/-- Posts about one player have one key. -/
theorem Sound.apart_samePlayer {s : State} (hs : Sound s) : Apart s := by
  refine hs.apart.imp_of_mem fun {a b} ha hb hapart hsame => ?_
  obtain ⟨p, hp, q, hq, hne, heq⟩ := hsame
  refine hapart ?_
  rw [hs.filed a ha p hp hne, hs.filed b hb q hq (heq ▸ hne), heq]

/-- **Two posts about one player are ten seconds apart** all along every run in which a death
event that is passed on carries no sender id, or that of the player it is about: for every
interleaving of player events and polls, every roster and every reading of the clocks. -/
theorem apart_of_keyed {as : List Action}
    (h : EveryStep step (fun s a _ => Keyed s a) {} as) : Always step Apart {} as := by
  refine (always_of_everyStep (I := Sound) ?_ sound_start h).mono fun s hs => hs.apart_samePlayer
  intro s a t hs hkeyed hstep
  exact sound_step hs hkeyed hstep

/-- Ada, alive. -/
def ada : Player where
  name := bytes "Ada"
  playerId := 7
  uniqueNetId := bytes "A"
  hasHealth := true

/-- A death event of hers, with the sender id given. -/
def adaDies (senderNetId : Bytes) : Payload where
  tag := bytes "Died"
  characterGuid := []
  playerId := 7
  senderNetId := senderNetId

/-- She is seen alive, the game reports her death, and she is seen dead a second later. -/
def adaRun (senderNetId : Bytes) : List Action :=
  [.pollBegin [ada], .pollNext true (seconds 1), .pollEnd,
    .event true (seconds 2) (seconds 2) [ada] (adaDies senderNetId),
    .pollBegin [{ ada with isDead := true }], .pollNext true (seconds 3), .pollEnd]

/-- When the event carries no sender id. -/
theorem apart_of_keyed_adaRun : Always step Apart {} (adaRun []) :=
  apart_of_keyed (by decide)

/-- When it carries the sender id `B` she is reported dead twice, the second time a second after
the first. -/
theorem not_apart_adaRun :
    (exec step {} (adaRun (bytes "B"))).map State.posts =
        some [⟨seconds 2, deathLine (bytes "Ada") [], bytes "B", some ada⟩,
          ⟨seconds 3, deathLine (bytes "Ada") (bytes "0, 0, 0"), bytes "A",
            some { ada with isDead := true }⟩] ∧
      ¬ Always step Apart {} (adaRun (bytes "B")) := by
  have hposts : (exec step {} (adaRun (bytes "B"))).map State.posts =
      some [⟨seconds 2, deathLine (bytes "Ada") [], bytes "B", some ada⟩,
        ⟨seconds 3, deathLine (bytes "Ada") (bytes "0, 0, 0"), bytes "A",
          some { ada with isDead := true }⟩] := by
    decide
  refine ⟨hposts, fun h => ?_⟩
  obtain ⟨t, ht, hlast⟩ := Option.map_eq_some_iff.mp hposts
  have hapart := h.last ht
  rw [Apart, hlast, List.pairwise_pair] at hapart
  have hsame : seconds 2 + seconds 10 ≤ seconds 3 :=
    hapart ⟨ada, rfl, _, rfl, by decide, rfl⟩
  exact absurd hsame (by decide)

end RSDWServerAPI.DeathReports
