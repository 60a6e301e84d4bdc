import RSDWServerAPI.Roster

/-!
# `Engine::KickPlayer` and the remembered kicks

`kickLookup` is the lookup at the head of `Engine::KickPlayer`: a loop over the players for
the player id, then one pass over the players for each of the four fields, as long as no
controller has been found. `kickPlayer` is the whole function, with what the engine and the
game thread answer gathered in `KickWorld`. The module also has the list `g_Kicked` of
remembered kicks with its operations.

## Main results

* `kickLookup_eq_found_iff`, `kickLookup_eq_several_iff`: the loops compute the class order
  of `RSDWServerAPI.Roster`.
* `mem_rememberKick`: what `RememberKick` leaves in `g_Kicked`.
-/

namespace RSDWServerAPI

/-! ### The lookup -/

/-- What the lookup has found: `controller`, `matched` and `matchedNetId` are always
assigned together from one player, and `matchedBy` names the field. -/
structure KickMatch where
  player : PlayerInfo
  matchedBy : Bytes
  deriving DecidableEq, Repr

/-- How the lookup ends. -/
inductive KickLookup
  | found (m : KickMatch)
  | several (hits : List PlayerInfo)
  | nobody
  deriving DecidableEq, Repr

/-- The `fields` and `names` tables. -/
def kickFields : List (Bytes × (PlayerInfo → Bytes)) :=
  [(bytes "netId", PlayerInfo.uniqueNetId),
   (bytes "characterGuid", PlayerInfo.characterGuid),
   (bytes "characterName", PlayerInfo.characterName),
   (bytes "name", PlayerInfo.name)]

/-- The variable `controller`. -/
def controllerOf (m : Option KickMatch) : Ptr :=
  m.elim 0 fun m => m.player.controllerPtr

/-- The test behind the loops: a match without a controller is no match. -/
def kickSettle (m : Option KickMatch) : KickLookup :=
  match m with
  | some m => if m.player.controllerPtr = 0 then .nobody else .found m
  | none => .nobody

/-- The loop over the fields, which goes on while `controller` is null. -/
def kickByFields (players : List PlayerInfo) (identifier : Bytes) :
    List (Bytes × (PlayerInfo → Bytes)) → Option KickMatch → KickLookup
  | [], m => kickSettle m
  | (label, field) :: rest, m =>
      if controllerOf m ≠ 0 then kickSettle m
      else
        let hits := players.filter fun p => field p ≠ [] ∧ field p = identifier
        if hits.length > 1 then .several hits
        else
          match hits.getLast? with
          | some p => kickByFields players identifier rest (some ⟨p, label⟩)
          | none => kickByFields players identifier rest m

/-- The lookup of `Engine::KickPlayer`. -/
def kickLookup (players : List PlayerInfo) (identifier : Bytes) : KickLookup :=
  kickByFields players identifier kickFields <|
    (players.find? fun p => p.idText == identifier).map fun p => ⟨p, bytes "playerId"⟩

/-- Once a controller has been found the remaining fields are not looked at. -/
theorem kickByFields_of_controller {players : List PlayerInfo} {identifier : Bytes}
    {m : KickMatch} (hm : m.player.controllerPtr ≠ 0)
    (rest : List (Bytes × (PlayerInfo → Bytes))) :
    kickByFields players identifier rest (some m) = .found m := by
  cases rest with
  | nil => simp [kickByFields, kickSettle, hm]
  | cons f rest => simp [kickByFields, kickSettle, controllerOf, hm]

/-! ### The lookup computes the class order -/

/-- The label under which a class is reported. -/
def MatchClass.label : MatchClass → Bytes
  | playerId => bytes "playerId"
  | netId => bytes "netId"
  | characterGuid => bytes "characterGuid"
  | characterName => bytes "characterName"
  | name => bytes "name"

/-- The classes behind the `fields` table. -/
theorem kickFields_eq : kickFields =
    [MatchClass.netId, .characterGuid, .characterName, .name].map fun c => (c.label, c.key) :=
  rfl

section Fields

variable {players : List PlayerInfo} {identifier : Bytes} {c : MatchClass}
  {rest : List (Bytes × (PlayerInfo → Bytes))} {m : Option KickMatch}

/-- A pass over one field, while no controller has been found: several hits end the
lookup, otherwise the last hit, if there is one, replaces what was found before. -/
theorem kickByFields_cons (hc : c ≠ .playerId) (hm : controllerOf m = 0) :
    kickByFields players identifier ((c.label, c.key) :: rest) m =
      if 1 < (c.candidates players identifier).length then
        .several (c.candidates players identifier)
      else
        match (c.candidates players identifier).getLast? with
        | some p => kickByFields players identifier rest (some ⟨p, c.label⟩)
        | none => kickByFields players identifier rest m := by
  have hcand : (players.filter fun p => c.key p ≠ [] ∧ c.key p = identifier) =
      c.candidates players identifier := by
    cases c with
    | playerId => exact absurd rfl hc
    | netId | characterGuid | characterName | name => rfl
  rw [kickByFields, if_neg (by simpa using hm)]
  simp only [hcand, gt_iff_lt]

/-- A class that settles nothing leaves the lookup without a controller. -/
theorem kickByFields_unsettled (hc : c ≠ .playerId) (hm : controllerOf m = 0)
    (h : Unsettled players identifier c) (rest : List (Bytes × (PlayerInfo → Bytes))) :
    ∃ m', controllerOf m' = 0 ∧
      kickByFields players identifier ((c.label, c.key) :: rest) m =
        kickByFields players identifier rest m' := by
  rw [kickByFields_cons hc hm]
  rcases h with h | ⟨p, h, hp⟩
  · exact ⟨m, hm, by simp [h]⟩
  · exact ⟨some ⟨p, c.label⟩, hp, by simp [h]⟩

/-- A class that settles the identifier ends the lookup. -/
theorem kickByFields_settled (hc : c ≠ .playerId) (hm : controllerOf m = 0)
    (h : ¬ Unsettled players identifier c) :
    kickByFields players identifier ((c.label, c.key) :: rest) m =
      match c.candidates players identifier with
      | [p] => .found ⟨p, c.label⟩
      | hits => .several hits := by
  rw [kickByFields_cons hc hm]
  rcases hcand : c.candidates players identifier with - | ⟨p, - | ⟨q, hits⟩⟩
  · exact absurd (Or.inl hcand) h
  · have hp : p.controllerPtr ≠ 0 := fun h0 => h (Or.inr ⟨p, hcand, h0⟩)
    simpa using kickByFields_of_controller (m := ⟨p, c.label⟩) hp rest
  · simp

/-- The loop over the fields, as long as it has no controller, computes the class order of
the fields that are left. -/
theorem kickByFields_spec {cs : List MatchClass} (hcs : MatchClass.playerId ∉ cs)
    (hm : controllerOf m = 0) :
    (∀ p, (∃ l, kickByFields players identifier (cs.map fun c => (c.label, c.key)) m =
        .found ⟨p, l⟩) ↔ Settles cs players identifier [p]) ∧
      (∀ hits, kickByFields players identifier (cs.map fun c => (c.label, c.key)) m =
        .several hits ↔ Settles cs players identifier hits ∧ 1 < hits.length) := by
  induction cs generalizing m with
  | nil =>
      have hnobody : kickSettle m = .nobody := by
        rcases m with - | m
        · rfl
        · exact if_pos hm
      simp [kickByFields, hnobody]
  | cons c cs ih =>
      have hc : c ≠ .playerId := fun h => hcs (h ▸ List.mem_cons_self)
      have hcs' : MatchClass.playerId ∉ cs := fun h => hcs (List.mem_cons_of_mem _ h)
      rw [List.map_cons]
      by_cases hu : Unsettled players identifier c
      · obtain ⟨m', hm', hstep⟩ := kickByFields_unsettled hc hm hu
          (cs.map fun c => (c.label, c.key))
        simp only [settles_cons, hu, not_true_eq_false, false_and, true_and, false_or, hstep]
        exact ih hcs' hm'
      · simp only [settles_cons, hu, not_false_eq_true, true_and, false_and, or_false,
          kickByFields_settled hc hm hu]
        rcases hcand : c.candidates players identifier with - | ⟨p, - | ⟨q, hits⟩⟩
        · exact absurd (Or.inl hcand) hu
        · constructor
          · intro p'
            simp
          · rintro hits
            simp only [reduceCtorEq, false_iff, not_and, not_lt]
            rintro rfl
            simp
        · constructor
          · intro p'
            simp
          · intro hits'
            simp only [KickLookup.several.injEq]
            constructor
            · rintro rfl
              simp
            · exact fun h => h.1

end Fields

/-- The player-id loop settles its class or leaves the lookup without a controller. -/
theorem kickLookup_spec (players : List PlayerInfo) (identifier : Bytes) :
    (∀ p, (∃ l, kickLookup players identifier = .found ⟨p, l⟩) ↔
        Selects players identifier p) ∧
      (∀ hits, kickLookup players identifier = .several hits ↔
        Ambiguous players identifier hits) := by
  unfold Selects Ambiguous MatchClass.order
  have hcs : MatchClass.playerId ∉
      [MatchClass.netId, .characterGuid, .characterName, .name] := by decide
  have hcand : MatchClass.playerId.candidates players identifier =
      (players.find? fun p => p.idText == identifier).toList := rfl
  simp only [settles_cons (c := .playerId)]
  rw [kickLookup, kickFields_eq]
  cases hf : players.find? fun p => p.idText == identifier with
  | none =>
      have hu : Unsettled players identifier .playerId := Or.inl (by rw [hcand, hf]; rfl)
      simp only [hu, not_true_eq_false, false_and, true_and, false_or]
      exact kickByFields_spec hcs rfl
  | some p =>
      have hone : MatchClass.playerId.candidates players identifier = [p] := by
        rw [hcand, hf]
        rfl
      by_cases hp : p.controllerPtr = 0
      · have hu : Unsettled players identifier .playerId := Or.inr ⟨p, hone, hp⟩
        simp only [hu, not_true_eq_false, false_and, true_and, false_or]
        exact kickByFields_spec hcs hp
      · have hu := not_unsettled_singleton hone hp
        have hfound : kickByFields players identifier
            ([MatchClass.netId, .characterGuid, .characterName, .name].map fun c =>
              (c.label, c.key)) (some ⟨p, bytes "playerId"⟩) = .found ⟨p, bytes "playerId"⟩ :=
          kickByFields_of_controller hp _
        simp only [hu, not_false_eq_true, true_and, false_and, or_false, Option.map_some, hone,
          hfound]
        constructor
        · intro p'
          simp
        · intro hits
          simp only [reduceCtorEq, false_iff, not_and, not_lt]
          rintro rfl
          simp

/-- **The lookup finds exactly the player that the class order picks.** -/
theorem kickLookup_eq_found_iff {players : List PlayerInfo} {identifier : Bytes}
    {p : PlayerInfo} :
    (∃ l, kickLookup players identifier = .found ⟨p, l⟩) ↔ Selects players identifier p :=
  (kickLookup_spec players identifier).1 p

/-- **The lookup rejects exactly the identifiers for which the class order finds several.** -/
theorem kickLookup_eq_several_iff {players : List PlayerInfo} {identifier : Bytes}
    {hits : List PlayerInfo} :
    kickLookup players identifier = .several hits ↔ Ambiguous players identifier hits :=
  (kickLookup_spec players identifier).2 hits

/-- A player that is found is connected and has a controller. -/
theorem mem_of_kickLookup_found {players : List PlayerInfo} {identifier : Bytes}
    {m : KickMatch} (h : kickLookup players identifier = .found m) :
    m.player ∈ players ∧ m.player.controllerPtr ≠ 0 := by
  have hsel : Selects players identifier m.player :=
    kickLookup_eq_found_iff.mp ⟨m.matchedBy, h⟩
  obtain ⟨before, c, after, -, -, hc, hone⟩ := hsel
  have hmem : m.player ∈ c.candidates players identifier := by simp [hone]
  exact ⟨(mem_candidates hmem).1, fun h0 => hc (Or.inr ⟨m.player, hone, h0⟩)⟩

/-! ### The whole function -/

/-- What comes of the work that `GameThread::RunSync` is called with. Where the wait is over first,
the caller takes the work off the queue, unless the game thread has popped it already, and runs it
all the same. -/
inductive SyncOutcome
  /-- The work has been run in time. -/
  | done
  /-- The wait is over, and the game thread runs the work all the same. -/
  | late
  /-- The wait is over, and the work is never run. -/
  | dropped
  deriving DecidableEq, Repr

/-- What `RunSync` returns. -/
def SyncOutcome.returned : SyncOutcome → Bool
  | .done => true
  | .late | .dropped => false

/-- Whether the game thread runs the work. -/
def SyncOutcome.isRun : SyncOutcome → Bool
  | .done | .late => true
  | .dropped => false

/-- What `KickPlayer` asks of the engine and the game thread behind the lookup. -/
structure KickWorld where
  /-- `FindFunction` and `FindObject` for the kick and for `Conv_StringToText`. -/
  kickFunction : Ptr
  kickLibrary : Ptr
  textFunction : Ptr
  textLibrary : Ptr
  /-- `NativeCall::IsNative`. -/
  isNative : Ptr → Bool
  /-- `GameThread::IsReady` and `GameThread::Status`. -/
  ready : Bool
  status : Bytes
  /-- What comes of the call of `GameThread::RunSync`. -/
  sync : SyncOutcome
  /-- Whether the two `NativeCall::Invoke` calls of the job go through. -/
  invokeText : Bool
  invokeKick : Bool
  /-- `params.ReturnValue`, the game's own answer for a controller. -/
  returnValue : Ptr → Bool

/-- `ran`: what `RunSync` returns. -/
def KickWorld.ran (w : KickWorld) : Bool :=
  w.sync.returned

/-- `haveReason` after the job: the reason text could be built. -/
def KickWorld.haveReason (w : KickWorld) : Bool :=
  w.textFunction != 0 && w.textLibrary != 0 && w.isNative w.textFunction && w.invokeText

/-- The player that was kicked, or the text left in `outError`. -/
abbrev KickResult := Except Bytes KickMatch

/-- The part of `KickPlayer` behind the lookup, for the player that was found. -/
def kickController (w : KickWorld) (m : KickMatch) : KickResult :=
  if w.kickFunction = 0 then
    .error (bytes "KickPlayerController function not found in GObjects")
  else if w.kickLibrary = 0 then
    .error (bytes "RedpointFrameworkBlueprintLibrary default object not found")
  else if !w.isNative w.kickFunction then
    .error (bytes "KickPlayerController is not a native function")
  else if !w.ready then
    .error (bytes "kick needs the game thread pump: " ++ w.status)
  else if !w.ran then
    .error (bytes "the game thread did not run the kick within 10s")
  else if !w.haveReason then
    .error (bytes "could not build the kick reason text")
  else if !w.invokeKick then
    .error (bytes "could not invoke KickPlayerController")
  else if !w.returnValue m.player.controllerPtr then
    .error (bytes "the game refused the kick for '" ++ m.player.name ++ bytes "'")
  else .ok m

/-- `Engine::KickPlayer`, up to the call of `RememberKick` that follows a success. -/
def kickPlayer (w : KickWorld) (initialized : Bool) (players : List PlayerInfo)
    (identifier : Bytes) : KickResult :=
  if !initialized then .error (bytes "engine not initialised")
  else
    match kickLookup players identifier with
    | .several hits =>
        .error (bytes "'" ++ identifier ++ bytes "' matches " ++ decimal hits.length ++
          bytes " players; kick by netId or playerId instead")
    | .nobody => .error (bytes "no connected player matches '" ++ identifier ++ bytes "'")
    | .found m => kickController w m

/-- Only a player that the lookup has found is ever kicked. -/
theorem kickPlayer_eq_ok {w : KickWorld} {initialized : Bool} {players : List PlayerInfo}
    {identifier : Bytes} {m : KickMatch}
    (h : kickPlayer w initialized players identifier = .ok m) :
    kickLookup players identifier = .found m := by
  have hctrl : ∀ m', kickController w m' = .ok m → m' = m := by
    intro m' h'
    rw [kickController] at h'
    repeat (split at h'; · cases h')
    exact Except.ok.inj h'
  rw [kickPlayer] at h
  split at h
  · cases h
  · cases hl : kickLookup players identifier with
    | found m' =>
        rw [hl] at h
        rw [hctrl m' h]
    | several hits =>
        rw [hl] at h
        cases h
    | nobody =>
        rw [hl] at h
        cases h

/-! ### The remembered kicks -/

/-- An entry of `g_Kicked`. -/
structure KickedPlayer where
  netId : Bytes
  name : Bytes
  reason : Bytes
  deriving DecidableEq, Repr

/-- `Engine::RememberKick` on the list `g_Kicked`. -/
def rememberKick (netId name reason : Bytes) (kicked : List KickedPlayer) : List KickedPlayer :=
  if netId = [] then kicked
  else if kicked.any fun entry => entry.netId == netId then kicked
  else kicked ++ [⟨netId, name, reason⟩]

/-- `Engine::IsKicked`. -/
def isKicked (netId : Bytes) (kicked : List KickedPlayer) : Bool :=
  netId != [] && kicked.any fun entry => entry.netId == netId

/-- `Engine::KickedNetIds`. -/
def kickedNetIds (kicked : List KickedPlayer) : List Bytes :=
  kicked.map KickedPlayer.netId

/-- `Engine::ClearKick`, which nothing in the server calls. -/
def clearKick (netId : Bytes) (kicked : List KickedPlayer) : List KickedPlayer :=
  kicked.eraseP fun entry => entry.netId == netId

/-- `RememberKick` adds the net id it is given, unless that is empty, and no other. -/
theorem mem_rememberKick {netId name reason n : Bytes} {kicked : List KickedPlayer} :
    n ∈ kickedNetIds (rememberKick netId name reason kicked) ↔
      n ∈ kickedNetIds kicked ∨ (n = netId ∧ netId ≠ []) := by
  simp only [rememberKick, kickedNetIds]
  split
  · next h => simp [h]
  · next h =>
      split
      · next hany =>
          obtain ⟨e, he, heq⟩ := List.any_eq_true.mp hany
          have hmem : netId ∈ kicked.map KickedPlayer.netId :=
            List.mem_map.mpr ⟨e, he, beq_iff_eq.mp heq⟩
          constructor
          · exact Or.inl
          · rintro (hn | ⟨rfl, -⟩)
            · exact hn
            · exact hmem
      · simp [h]

end RSDWServerAPI
