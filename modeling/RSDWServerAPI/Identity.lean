import RSDWServerAPI.Bans
import RSDWServerAPI.Items
import RSDWServerAPI.Kick

/-!
# Do kick, ban and give mean the same player?

`Engine::KickPlayer` resolves an identifier by class, `DomBans::Ban` and `DomItems::GiveItem`
by first hit. `Agree` says that the three mean the same player; `agree_iff_sameTarget` is the
exact condition on the roster and the identifier, in terms of the player the class order
picks and the first player who matches in any field.

## Main results

* `agree_iff_sameTarget`: **when the three lookups agree**.
* `not_agree_impersonator`: a player whose display name is somebody else's SteamID64 and who
  stands earlier in the roster is banned in that person's place.
-/

namespace RSDWServerAPI

open DomBans DomItems

/-- Kick, ban and give mean the same player by `identifier`. -/
structure Agree (players : List PlayerInfo) (identifier : Bytes) : Prop where
  /-- `Ban` enters the net id of the player `KickPlayer` resolves to. -/
  ban : ∀ p l, kickLookup players identifier = .found ⟨p, l⟩ → p.uniqueNetId ≠ [] →
    ∃ name, banTarget players identifier = .ok (p.uniqueNetId, name)
  /-- `GiveItem` gives to the controller of that player. -/
  give : ∀ p l, kickLookup players identifier = .found ⟨p, l⟩ →
    ∃ name, giveTarget players identifier = .ok (p.controllerPtr, name)
  /-- When `KickPlayer` finds several players, the others act on none of them. -/
  several : ∀ hits, kickLookup players identifier = .several hits → ∀ p ∈ hits,
    (¬ ∃ name, banTarget players identifier = .ok (p.uniqueNetId, name)) ∧
      ¬ ∃ name, giveTarget players identifier = .ok (p.controllerPtr, name)
  /-- The SteamID64 of a connected player means a player with that net id, for all three. -/
  steamId : looksLikeSteamId identifier = true → (∃ q ∈ players, q.uniqueNetId = identifier) →
    (∀ p l, kickLookup players identifier = .found ⟨p, l⟩ → p.uniqueNetId = identifier) ∧
      (∀ n, (∃ name, banTarget players identifier = .ok (n, name)) → n = identifier) ∧
      ∀ c, (∃ name, giveTarget players identifier = .ok (c, name)) →
        ∃ q ∈ players, q.uniqueNetId = identifier ∧ q.controllerPtr = c

/-- The condition: the first player who matches in any field, case ignored, stands in the
place of the one the class order picks. -/
structure SameTarget (players : List PlayerInfo) (identifier : Bytes) : Prop where
  /-- The first hit has the controller and the net id of the player the class order picks; it
  may have no net id where the identifier is that player's SteamID64. -/
  selected : ∀ p, Selects players identifier p → ∃ f, firstHit players identifier = some f ∧
    f.controllerPtr = p.controllerPtr ∧
    (p.uniqueNetId ≠ [] → f.uniqueNetId = p.uniqueNetId ∨
      (f.uniqueNetId = [] ∧ p.uniqueNetId = identifier ∧ looksLikeSteamId identifier = true))
  /-- Where the class order finds several, the first hit shares neither net id nor controller
  with any of them. -/
  several : ∀ hits, Ambiguous players identifier hits → ∀ f, firstHit players identifier = some f →
    ∀ p ∈ hits, (f.uniqueNetId = p.uniqueNetId → f.uniqueNetId = []) ∧
      (looksLikeSteamId identifier = true → p.uniqueNetId = identifier → f.uniqueNetId ≠ []) ∧
      (f.controllerPtr = p.controllerPtr → f.controllerPtr = 0)
  /-- For the SteamID64 of a connected player, both lookups stay with that net id. -/
  steamId : looksLikeSteamId identifier = true → (∃ q ∈ players, q.uniqueNetId = identifier) →
    (∀ p, Selects players identifier p → p.uniqueNetId = identifier) ∧
      ∀ f, firstHit players identifier = some f →
        (f.uniqueNetId = identifier ∨ f.uniqueNetId = []) ∧
        (f.controllerPtr = 0 ∨
          ∃ q ∈ players, q.uniqueNetId = identifier ∧ q.controllerPtr = f.controllerPtr)

section

variable {players : List PlayerInfo} {identifier : Bytes}

/-- Where the class order offers players, the first-hit loop breaks at somebody. -/
theorem Ambiguous.exists_firstHit {hits : List PlayerInfo}
    (h : Ambiguous players identifier hits) : ∃ f, firstHit players identifier = some f := by
  obtain ⟨⟨before, c, after, -, -, -, hc⟩, hlen⟩ := h
  obtain ⟨p, hp⟩ := List.exists_mem_of_length_pos (Nat.lt_of_succ_lt hlen)
  exact RSDWServerAPI.exists_firstHit (hc ▸ hp)

/-- Look-ups with the same target agree. -/
theorem SameTarget.agree (h : SameTarget players identifier) : Agree players identifier := by
  refine ⟨fun p l hk hne => ?_, fun p l hk => ?_, fun hits hk p hp => ?_, fun hs hq => ?_⟩
  · obtain ⟨f, hf, -, hnet⟩ := h.selected p (kickLookup_eq_found_iff.mp ⟨l, hk⟩)
    refine banTarget_ok_iff.mpr ?_
    rcases hnet hne with hnet | ⟨hnil, hid, hsteam⟩
    · exact Or.inl ⟨f, hf, hnet, hne⟩
    · refine Or.inr ⟨hsteam, hid, fun f' hf' => ?_⟩
      obtain rfl : f = f' := Option.some.inj (hf.symm.trans hf')
      exact hnil
  · obtain ⟨f, hf, hctrl, -⟩ := h.selected p (kickLookup_eq_found_iff.mp ⟨l, hk⟩)
    exact giveTarget_ok_iff.mpr ⟨f, hf, hctrl, (mem_of_kickLookup_found hk).2⟩
  · have hamb := kickLookup_eq_several_iff.mp hk
    obtain ⟨f, hf⟩ := hamb.exists_firstHit
    obtain ⟨hnet, hsteam, hctrl⟩ := h.several hits hamb f hf p hp
    constructor
    · intro hban
      rcases banTarget_ok_iff.mp hban with ⟨f', hf', hn, hne⟩ | ⟨hs, hid, hnil⟩
      · obtain rfl : f = f' := Option.some.inj (hf.symm.trans hf')
        exact hne (hn ▸ hnet hn)
      · exact hsteam hs hid (hnil f hf)
    · intro hgive
      obtain ⟨f', hf', hc, hne⟩ := giveTarget_ok_iff.mp hgive
      obtain rfl : f = f' := Option.some.inj (hf.symm.trans hf')
      exact hne (hc ▸ hctrl hc)
  · obtain ⟨hsel, hfirst⟩ := h.steamId hs hq
    refine ⟨fun p l hk => hsel p (kickLookup_eq_found_iff.mp ⟨l, hk⟩), fun n hban => ?_,
      fun c hgive => ?_⟩
    · rcases banTarget_ok_iff.mp hban with ⟨f, hf, hn, hne⟩ | ⟨-, hid, -⟩
      · rcases (hfirst f hf).1 with hid | hnil
        · exact hn.symm.trans hid
        · exact absurd (hn.symm.trans hnil) hne
      · exact hid
    · obtain ⟨f, hf, rfl, hne⟩ := giveTarget_ok_iff.mp hgive
      exact (hfirst f hf).2.resolve_left hne

/-- Look-ups that agree have the same target. -/
theorem Agree.sameTarget (h : Agree players identifier) : SameTarget players identifier := by
  refine ⟨fun p hsel => ?_, fun hits hamb f hf p hp => ?_, fun hs hq => ?_⟩
  · obtain ⟨l, hk⟩ := kickLookup_eq_found_iff.mpr hsel
    obtain ⟨f, hf, hctrl, -⟩ := giveTarget_ok_iff.mp (h.give p l hk)
    refine ⟨f, hf, hctrl, fun hne => ?_⟩
    rcases banTarget_ok_iff.mp (h.ban p l hk hne) with ⟨f', hf', hn, -⟩ | ⟨hs, hid, hnil⟩
    · obtain rfl : f = f' := Option.some.inj (hf.symm.trans hf')
      exact Or.inl hn
    · exact Or.inr ⟨hnil f hf, hid, hs⟩
  · obtain ⟨hban, hgive⟩ := h.several hits (kickLookup_eq_several_iff.mpr hamb) p hp
    refine ⟨fun hn => ?_, fun hs hid hnil => ?_, fun hc => ?_⟩
    · by_contra hne
      exact hban (banTarget_ok_iff.mpr (Or.inl ⟨f, hf, hn, hn ▸ hne⟩))
    · refine hban (banTarget_ok_iff.mpr (Or.inr ⟨hs, hid, fun f' hf' => ?_⟩))
      obtain rfl : f = f' := Option.some.inj (hf.symm.trans hf')
      exact hnil
    · by_contra hne
      exact hgive (giveTarget_ok_iff.mpr ⟨f, hf, hc, hc ▸ hne⟩)
  · obtain ⟨hkick, hban, hgive⟩ := h.steamId hs hq
    refine ⟨fun p hsel => ?_, fun f hf => ⟨?_, ?_⟩⟩
    · obtain ⟨l, hk⟩ := kickLookup_eq_found_iff.mpr hsel
      exact hkick p l hk
    · by_cases hnil : f.uniqueNetId = []
      · exact Or.inr hnil
      · exact Or.inl (hban _ (banTarget_ok_iff.mpr (Or.inl ⟨f, hf, rfl, hnil⟩)))
    · by_cases hzero : f.controllerPtr = 0
      · exact Or.inl hzero
      · exact Or.inr (hgive _ (giveTarget_ok_iff.mpr ⟨f, hf, rfl, hzero⟩))

end

/-- **When kick, ban and give agree on who an identifier means**, for every roster and every
identifier. -/
theorem agree_iff_sameTarget (players : List PlayerInfo) (identifier : Bytes) :
    Agree players identifier ↔ SameTarget players identifier :=
  ⟨Agree.sameTarget, SameTarget.agree⟩

/-- A player who calls himself by the SteamID64 of another and joined first: `KickPlayer`
means the owner of the SteamID64, `Ban` enters the net id of the impersonator. -/
theorem not_agree_impersonator :
    ¬ ∀ (players : List PlayerInfo) (identifier : Bytes), Agree players identifier := by
  intro hall
  let target : PlayerInfo :=
    { playerId := 2, uniqueNetId := bytes "76561190000000001", controllerPtr := 2 }
  let impersonator : PlayerInfo :=
    { playerId := 1, name := bytes "76561190000000001", uniqueNetId := bytes "76561190000000002",
      controllerPtr := 1 }
  have h := (hall [impersonator, target] target.uniqueNetId).ban target (bytes "netId")
    (by decide) (by decide)
  obtain ⟨name, hban⟩ := h
  have hnet : banTarget [impersonator, target] target.uniqueNetId =
      .ok (impersonator.uniqueNetId, impersonator.name) := by decide
  have hne : impersonator.uniqueNetId ≠ target.uniqueNetId := by decide
  rw [hnet] at hban
  exact hne (congrArg Prod.fst (Except.ok.inj hban))

end RSDWServerAPI
