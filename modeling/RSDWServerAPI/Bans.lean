import RSDWServerAPI.Json
import RSDWServerAPI.Roster

/-!
# `engine/bans.cpp`: the ban list

The list `g_Bans` and the operations on it. `Ban` is split where the source splits it: the
unlocked choice of a net id (`banTarget`), the section under the lock that appends the entry
and rewrites the file (`banLocked`), and the kick that follows without the lock. `saveLocked`
and `load` are the two directions of `bans.json`.

Functions that return `bool` and leave a text in `outMessage` return an `Except` whose error
is that text.

## Main results

* `ban_ok`, `unban_ok`: what a successful call does to the list.
* `netIds_unban`: lifting a ban takes away no other net id.
-/

namespace RSDWServerAPI

/-- `DomBans::BanEntry`. -/
structure BanEntry where
  netId : Bytes := []
  name : Bytes := []
  reason : Bytes := []
  bannedAt : Bytes := []
  deriving DecidableEq, Repr

namespace DomBans

/-- The net ids of a ban list. -/
def netIds (bans : List BanEntry) : List Bytes :=
  bans.map BanEntry.netId

/-- `IsBanned`. -/
def isBanned (bans : List BanEntry) (netId : Bytes) : Bool :=
  netId != [] && bans.any fun ban => ban.netId == netId

/-- A net id is banned if it is not empty and listed. -/
theorem isBanned_iff {bans : List BanEntry} {n : Bytes} :
    isBanned bans n = true ↔ n ≠ [] ∧ n ∈ netIds bans := by
  simp [isBanned, netIds]

/-! ### Look-ups -/

/-- No entry is found for a net id exactly when the net id is not in the list. -/
theorem find_eq_none_iff {α : Type*} {netId : α → Bytes} {entries : List α} {n : Bytes} :
    (entries.find? fun entry => netId entry == n) = none ↔ n ∉ entries.map netId := by
  rw [List.find?_eq_none, List.mem_map]
  constructor
  · rintro h ⟨entry, hmem, rfl⟩
    exact h entry hmem (beq_self_eq_true _)
  · intro h entry hmem heq
    exact h ⟨entry, hmem, beq_iff_eq.mp heq⟩

/-- A net id for which an entry is found is in the list. -/
theorem mem_of_find_eq_some {α : Type*} {netId : α → Bytes} {entries : List α} {n : Bytes}
    {entry : α} (h : (entries.find? fun entry => netId entry == n) = some entry) :
    n ∈ entries.map netId := by
  by_contra hnot
  rw [find_eq_none_iff.mpr hnot] at h
  cases h

/-! ### `bans.json` -/

/-- One entry as `SaveLocked` writes it, without the comma and the line end. -/
def entryText (ban : BanEntry) : Bytes :=
  bytes "  \x7b\"netId\":\"" ++ Json.escape ban.netId ++
    bytes "\",\"name\":\"" ++ Json.escape ban.name ++
    bytes "\",\"reason\":\"" ++ Json.escape ban.reason ++
    bytes "\",\"bannedAt\":\"" ++ Json.escape ban.bannedAt ++ bytes "\"\x7d"

/-- The loop of `SaveLocked`: a comma behind every entry but the last. -/
def entriesText : List BanEntry → Bytes
  | [] => []
  | [ban] => entryText ban ++ bytes "\n"
  | ban :: rest => entryText ban ++ bytes ",\n" ++ entriesText rest

/-- `SaveLocked`: the text it leaves in `bans.json`. -/
def saveLocked (bans : List BanEntry) : Bytes :=
  bytes "[\n" ++ entriesText bans ++ bytes "]\n"

/-- The objects that `Load` cuts out of the text: from a `\x7b` to the next `\x7d`, then on
from there. The first argument is the object being cut, `none` while looking for a `\x7b`;
an object without an end is dropped. -/
def objects : Option Bytes → Bytes → List Bytes
  | _, [] => []
  | none, c :: rest => if c = 123 then objects (some [c]) rest else objects none rest
  | some object, c :: rest =>
      if c = 125 then (object ++ [c]) :: objects none rest
      else objects (some (object ++ [c])) rest

/-- The four `GetString` calls on an object; a field that is not found stays empty. -/
def readEntry (object : Bytes) : BanEntry where
  netId := (Json.getString object (bytes "netId")).getD []
  name := (Json.getString object (bytes "name")).getD []
  reason := (Json.getString object (bytes "reason")).getD []
  bannedAt := (Json.getString object (bytes "bannedAt")).getD []

/-- `Load`: the ban list read from the text of `bans.json`. -/
def load (content : Bytes) : List BanEntry :=
  ((objects none content).map readEntry).filter fun ban => ban.netId ≠ []

/-! ### `Ban` -/

/-- The name under which a message refers to an entry. -/
def shownName (name netId : Bytes) : Bytes :=
  if name = [] then netId else name

/-- The unlocked part of `Ban`: the net id and name it will enter. -/
def banTarget (players : List PlayerInfo) (player : Bytes) : Except Bytes (Bytes × Bytes) :=
  let hit := firstHit players player
  let netId := hit.elim [] PlayerInfo.uniqueNetId
  let name := hit.elim [] PlayerInfo.name
  if netId = [] then
    if looksLikeSteamId player then .ok (player, name)
    else .error (bytes "no connected player matches '" ++ player ++
      bytes "'; to ban someone offline use their SteamID64")
  else .ok (netId, name)

/-- The section of `Ban` under `g_Mutex`: refuse a net id that is listed, else append. -/
def banLocked (netId name reason now : Bytes) (bans : List BanEntry) :
    Except Bytes (List BanEntry) :=
  if bans.any fun ban => ban.netId == netId then
    .error (shownName name netId ++ bytes " is already banned")
  else .ok (bans ++ [⟨netId, name, reason, now⟩])

/-- `Ban` up to the kick: the list that is written to `bans.json`, or the text of the refusal. -/
def ban (initialized : Bool) (players : List PlayerInfo) (player reason now : Bytes)
    (bans : List BanEntry) : Except Bytes (List BanEntry) := do
  if !initialized then throw (bytes "engine not initialised")
  let (netId, name) ← banTarget players player
  banLocked netId name reason now bans

/-- The message of a `Ban` that went through; `online` is what `KickPlayer` returned. -/
def banMessage (netId name reason : Bytes) (online : Bool) : Bytes :=
  bytes "banned " ++ shownName name netId ++ bytes " (" ++ reason ++ bytes ")" ++
    if online then [] else bytes ", not currently online"

/-- Which net id `Ban` enters: that of the first hit, or, when there is no hit or the hit has
none, the identifier itself if it is a SteamID64. -/
theorem banTarget_ok_iff {players : List PlayerInfo} {player n : Bytes} :
    (∃ name, banTarget players player = .ok (n, name)) ↔
      (∃ f, firstHit players player = some f ∧ f.uniqueNetId = n ∧ n ≠ []) ∨
        (looksLikeSteamId player = true ∧ n = player ∧
          ∀ f, firstHit players player = some f → f.uniqueNetId = []) := by
  rw [banTarget]
  cases firstHit players player with
  | none => cases looksLikeSteamId player <;> simp [eq_comm]
  | some f =>
      by_cases hf : f.uniqueNetId = []
      · cases looksLikeSteamId player <;> simp [hf, eq_comm]
      · simp only [Option.elim_some, hf, if_false, Except.ok.injEq, Prod.mk.injEq,
          exists_and_left, exists_eq', and_true, Option.some.injEq, exists_eq_left',
          and_false, or_false, forall_eq']
        constructor
        · rintro rfl
          exact ⟨rfl, hf⟩
        · exact fun h => h.1

/-- A `Ban` that goes through appends one entry, whose net id was not listed. -/
theorem banLocked_ok {netId name reason now : Bytes} {bans bans' : List BanEntry}
    (h : banLocked netId name reason now bans = .ok bans') :
    netId ∉ netIds bans ∧ bans' = bans ++ [⟨netId, name, reason, now⟩] := by
  rw [banLocked] at h
  split at h
  · cases h
  · next hany =>
      refine ⟨?_, (Except.ok.inj h).symm⟩
      simpa [netIds] using hany

/-- What a successful `Ban` call does: the engine was up, and one entry was appended. -/
theorem ban_ok {initialized : Bool} {players : List PlayerInfo} {player reason now : Bytes}
    {bans bans' : List BanEntry}
    (h : ban initialized players player reason now bans = .ok bans') :
    initialized = true ∧ ∃ netId name, banTarget players player = .ok (netId, name) ∧
      netId ∉ netIds bans ∧ bans' = bans ++ [⟨netId, name, reason, now⟩] := by
  cases initialized with
  | false => cases h
  | true =>
      cases ht : banTarget players player with
      | error e =>
          rw [ban, ht] at h
          cases h
      | ok target =>
          obtain ⟨netId, name⟩ := target
          rw [ban, ht] at h
          exact ⟨rfl, netId, name, rfl, banLocked_ok h⟩

/-- A net id that is not listed yet is entered at the end. -/
theorem ban_of_target {players : List PlayerInfo} {player netId name : Bytes}
    {bans : List BanEntry} (htarget : banTarget players player = .ok (netId, name))
    (hnew : netId ∉ netIds bans) (reason now : Bytes) :
    ban true players player reason now bans = .ok (bans ++ [⟨netId, name, reason, now⟩]) := by
  have hany : (bans.any fun ban => ban.netId == netId) = false := by
    simpa [netIds] using hnew
  rw [ban, htarget]
  change banLocked netId name reason now bans = _
  rw [banLocked, hany, if_neg Bool.false_ne_true]

/-! ### `Unban` -/

/-- The condition under which `Unban` takes an entry. -/
def unbanMatches (identifier : Bytes) (ban : BanEntry) : Bool :=
  lower ban.netId == lower identifier || lower ban.name == lower identifier

/-- `Unban`: the entry that is lifted and the list that is left. -/
def unban (identifier : Bytes) (bans : List BanEntry) :
    Except Bytes (BanEntry × List BanEntry) :=
  match bans.find? (unbanMatches identifier) with
  | some ban => .ok (ban, bans.eraseP (unbanMatches identifier))
  | none => .error (bytes "no ban matches '" ++ identifier ++ bytes "'")

/-- The message of an `Unban` that went through. -/
def unbanMessage (ban : BanEntry) : Bytes :=
  bytes "unbanned " ++ shownName ban.name ban.netId

/-- A successful `Unban` takes one entry out of the list, the first that matches. -/
theorem unban_ok {identifier : Bytes} {bans rest : List BanEntry} {ban : BanEntry}
    (h : unban identifier bans = .ok (ban, rest)) :
    ∃ before after, bans = before ++ ban :: after ∧ rest = before ++ after ∧
      unbanMatches identifier ban = true ∧ ∀ b ∈ before, unbanMatches identifier b = false := by
  rw [unban] at h
  split at h
  · next found hf =>
      obtain ⟨rfl, rfl⟩ := Prod.mk.inj (Except.ok.inj h)
      obtain ⟨hm, before, after, rfl, hbefore⟩ := List.find?_eq_some_iff_append.mp hf
      refine ⟨before, after, rfl, ?_, hm, fun b hb => by simpa using hbefore b hb⟩
      rw [List.eraseP_append_right _ (fun b hb => by simpa using hbefore b hb),
        List.eraseP_cons_of_pos hm]
  · cases h

/-- Lifting a ban takes away no other net id. -/
theorem netIds_unban {identifier n : Bytes} {bans rest : List BanEntry} {ban : BanEntry}
    (h : unban identifier bans = .ok (ban, rest)) (hn : n ∈ netIds bans)
    (hne : n ≠ ban.netId) : n ∈ netIds rest := by
  obtain ⟨before, after, rfl, rfl, -⟩ := unban_ok h
  simp only [netIds, List.map_append, List.map_cons, List.mem_append, List.mem_cons] at hn ⊢
  rcases hn with hn | rfl | hn
  · exact Or.inl hn
  · exact absurd rfl hne
  · exact Or.inr hn

end DomBans

end RSDWServerAPI
