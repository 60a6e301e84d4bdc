import RSDWServerAPI.Bans
import RSDWServerAPI.Transition

/-!
# The ban list from `Load` on

The list that `Load` reads, changed by calls of `Ban` and `Unban`. Both hold `g_Mutex` while they
change the list and write `bans.json`, so that each is one step; the kick behind a `Ban` does not
touch the list.

`Unban` takes the first entry whose net id or name is the identifier, case ignored. The name is
chosen by the player, and a file may list a net id twice.

## Main results

* `Loaded.step`: no entry is without a net id.
* `everyStep_lifts_iff`: **`Unban` lifts the ban that it was asked to lift, and no other, exactly
  when the first entry that matches has that net id and no other entry has it**, and the file can
  be written.
-/

namespace RSDWServerAPI.DomBans

open Transition

/-! ### Calls -/

/-- The list, and what the last call returned and wrote to `bans.json`. -/
structure BanList where
  bans : List BanEntry
  returned : Bool := false
  written : Option Bytes := none
  deriving DecidableEq, Repr

/-- A call of `Ban` or `Unban`; `opened` is whether `SaveLocked` can open the file. -/
inductive BanCall
  | ban (initialized : Bool) (players : List PlayerInfo) (player reason now : Bytes)
      (opened : Bool)
  | unban (identifier : Bytes) (opened : Bool)
  deriving DecidableEq, Repr

/-- The list changes, and is written if the file can be opened. -/
def changed (bans : List BanEntry) (opened : Bool) : BanList where
  bans
  returned := true
  written := if opened then some (saveLocked bans) else none

/-- The list is the one that was passed on. -/
@[simp] theorem changed_bans (bans : List BanEntry) (opened : Bool) :
    (changed bans opened).bans = bans := rfl

/-- The list is written exactly when the file could be opened. -/
theorem changed_written_iff {bans : List BanEntry} {opened : Bool} :
    (changed bans opened).written = some (saveLocked bans) ↔ opened = true := by
  rw [changed]
  cases opened <;> simp

/-- One call. -/
def banStep (s : BanList) : BanCall → Option BanList
  | .ban initialized players player reason now opened =>
      match ban initialized players player reason now s.bans with
      | .ok bans => some (changed bans opened)
      | .error _ => some { bans := s.bans }
  | .unban identifier opened =>
      match unban identifier s.bans with
      | .ok (_, rest) => some (changed rest opened)
      | .error _ => some { bans := s.bans }

/-- The list after `Load` of a file. -/
def loaded (content : Bytes) : BanList where
  bans := load content

/-! ### What `Unban` is for -/

/-- **The ban of a net id is lifted, and no other**: the call returns `true`, the net id is not
banned any more, the entries with another net id are all there in their order, and the file is
written from the new list. -/
def Lifts (n : Bytes) (s t : BanList) : Prop :=
  t.returned = true ∧ isBanned t.bans n = false ∧
    (t.bans.filter fun ban => ban.netId ≠ n) = (s.bans.filter fun ban => ban.netId ≠ n) ∧
    t.written = some (saveLocked t.bans)

/-- The first entry that has the identifier for its net id or name, case ignored, has this net id,
and no other entry has it. -/
def FirstAndOnly (identifier n : Bytes) (bans : List BanEntry) : Prop :=
  (bans.find? (unbanMatches identifier)).map BanEntry.netId = some n ∧ (netIds bans).count n = 1

/-- No entry is without a net id. -/
def Loaded (s : BanList) : Prop :=
  [] ∉ netIds s.bans

/-- What `Load` leaves is a loaded list. -/
theorem loaded_load (content : Bytes) : Loaded (loaded content) := by
  intro h
  obtain ⟨ban, hmem, hempty⟩ := List.mem_map.mp h
  exact of_decide_eq_true (List.mem_filter.mp hmem).2 hempty

/-- `Ban` enters no empty net id. -/
theorem netId_ne_nil_of_banTarget {players : List PlayerInfo} {player netId name : Bytes}
    (h : banTarget players player = .ok (netId, name)) : netId ≠ [] := by
  rcases banTarget_ok_iff.mp ⟨name, h⟩ with ⟨f, -, -, hne⟩ | ⟨hsteam, rfl, -⟩
  · exact hne
  · rintro rfl
    cases hsteam

/-- **Step lemma**: no call leaves an entry without a net id. -/
theorem Loaded.step {s t : BanList} {call : BanCall} (h : Loaded s) (ht : banStep s call = some t) :
    Loaded t := by
  cases call with
  | ban initialized players player reason now opened =>
      rw [banStep] at ht
      cases hban : ban initialized players player reason now s.bans with
      | error message =>
          rw [hban] at ht
          obtain rfl := Option.some.inj ht
          exact h
      | ok bans =>
          rw [hban] at ht
          obtain rfl := Option.some.inj ht
          obtain ⟨-, netId, name, htarget, -, rfl⟩ := ban_ok hban
          intro hempty
          rw [changed, netIds, List.map_append, List.mem_append] at hempty
          rcases hempty with hempty | hempty
          · exact h hempty
          · exact netId_ne_nil_of_banTarget htarget (List.mem_singleton.mp hempty).symm
  | unban identifier opened =>
      rw [banStep] at ht
      cases hunban : unban identifier s.bans with
      | error message =>
          rw [hunban] at ht
          obtain rfl := Option.some.inj ht
          exact h
      | ok result =>
          obtain ⟨ban, rest⟩ := result
          rw [hunban] at ht
          obtain rfl := Option.some.inj ht
          obtain ⟨before, after, hsplit, rfl, -⟩ := unban_ok hunban
          intro hempty
          refine h ?_
          rw [hsplit, netIds]
          rw [changed, netIds] at hempty
          simp only [List.map_append, List.map_cons, List.mem_append, List.mem_cons] at hempty ⊢
          rcases hempty with hempty | hempty
          · exact .inl hempty
          · exact .inr (.inr hempty)

/-- **When one call lifts the ban that it was asked to lift.** -/
theorem lifts_iff {s t : BanList} {identifier n : Bytes} {opened : Bool} (h : Loaded s)
    (hn : n ∈ netIds s.bans) (hsame : lower n = lower identifier)
    (ht : banStep s (.unban identifier opened) = some t) :
    Lifts n s t ↔ opened = true ∧ FirstAndOnly identifier n s.bans := by
  have hne : n ≠ [] := fun hempty => h (hempty ▸ hn)
  obtain ⟨entry, hmem, rfl⟩ := List.mem_map.mp hn
  have hmatches : unbanMatches identifier entry = true := by
    rw [unbanMatches, Bool.or_eq_true]
    exact .inl (beq_iff_eq.mpr hsame)
  cases hfind : s.bans.find? (unbanMatches identifier) with
  | none => exact absurd hmatches (List.find?_eq_none.mp hfind entry hmem)
  | some first =>
      have hunban : unban identifier s.bans =
          .ok (first, s.bans.eraseP (unbanMatches identifier)) := by rw [unban, hfind]
      obtain ⟨before, after, hsplit, hrest, -⟩ := unban_ok hunban
      rw [banStep, hunban] at ht
      obtain rfl := Option.some.inj ht
      rw [Lifts, changed_bans, changed_written_iff, FirstAndOnly, hfind, hrest, hsplit,
        Option.map_some, Option.some.injEq]
      constructor
      · rintro ⟨-, hfree, hothers, hopened⟩
        have hfirst : first.netId = entry.netId := by
          by_contra hother
          have hlen := congrArg List.length hothers
          rw [List.filter_append, List.filter_append,
            List.filter_cons_of_pos (by simpa using hother), List.length_append,
            List.length_append, List.length_cons] at hlen
          omega
        refine ⟨hopened, hfirst, ?_⟩
        have hnot : entry.netId ∉ netIds (before ++ after) := fun hin => by
          rw [isBanned_iff.mpr ⟨hne, hin⟩] at hfree
          cases hfree
        rw [netIds, List.map_append, List.mem_append, not_or] at hnot
        rw [netIds, List.map_append, List.map_cons, List.count_append, List.count_cons, hfirst,
          List.count_eq_zero.mpr hnot.1, List.count_eq_zero.mpr hnot.2]
        simp
      · rintro ⟨hopened, hfirst, hcount⟩
        rw [netIds, List.map_append, List.map_cons, List.count_append, List.count_cons, hfirst,
          if_pos (beq_self_eq_true _)] at hcount
        refine ⟨rfl, ?_, ?_, hopened⟩
        · refine eq_false_of_ne_true fun hbanned => ?_
          have hin := (isBanned_iff.mp hbanned).2
          rw [netIds, List.map_append, ← List.count_pos_iff, List.count_append] at hin
          omega
        · rw [List.filter_append, List.filter_append,
            List.filter_cons_of_neg (by simpa using hfirst)]

/-- **When `Unban` lifts the ban that it was asked to lift, and no other**: in every run of `Ban`
and `Unban` calls on a list read from any file, for every identifier that is the net id of an
entry, case ignored. -/
theorem everyStep_lifts_iff (content : Bytes) (calls : List BanCall) :
    EveryStep banStep
      (fun s call t => ∀ identifier opened n, call = .unban identifier opened →
        n ∈ netIds s.bans → lower n = lower identifier →
          (Lifts n s t ↔ opened = true ∧ FirstAndOnly identifier n s.bans))
      (loaded content) calls := by
  refine EveryStep.of_invariant (I := Loaded) (fun s call t h ht => ⟨h.step ht, ?_⟩)
    (loaded_load content) calls
  rintro identifier opened n rfl hn hsame
  exact lifts_iff h hn hsame ht

/-- A player whose name is somebody's SteamID64 is banned, then that SteamID64 is; unbanning it
lifts the first ban. -/
theorem not_lifts_name :
    ¬ EveryStep banStep
      (fun s call t => ∀ identifier opened n, call = .unban identifier opened →
        n ∈ netIds s.bans → lower n = lower identifier → Lifts n s t)
      (loaded [])
      [.ban true [{ name := bytes "76561198000000001", uniqueNetId := bytes "7" }] (bytes "7")
          [] [] true,
        .ban true [] (bytes "76561198000000001") [] [] true,
        .unban (bytes "76561198000000001") true] := by
  intro h
  have hlifts := (h _ rfl).2 _ rfl |>.2 _ rfl |>.1 _ _ (bytes "76561198000000001") rfl
    (by decide) rfl
  exact absurd hlifts.2.1 (by decide)

end RSDWServerAPI.DomBans
