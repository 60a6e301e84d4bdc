import RSDWServerAPI.Roster

/-!
# `engine/items.cpp`: giving an item to a player

`GiveItem` checks its arguments, looks the item up, takes the first connected player that
matches the identifier in any field, and hands the item to that player's controller.
-/

namespace RSDWServerAPI.DomItems

/-- `DomItems::ItemInfo`. -/
structure ItemInfo where
  name : Bytes := []
  maxStackSize : Int32 := 0
  object : Ptr := 0
  deriving DecidableEq, Repr

/-- What `GiveItem` asks of the rest of the server. -/
structure GiveWorld where
  /-- `ResolveGive`. -/
  resolveGive : Except Bytes Unit
  /-- `FindItem`: the item and the name it resolved to. -/
  findItem : Bytes → Option (Ptr × Bytes)
  /-- `GiveItemToController`. -/
  giveItemToController : Ptr → Ptr → Int32 → Bool

/-- The roster loop of `GiveItem`: the controller it will give to and the display name. -/
def giveTarget (players : List PlayerInfo) (player : Bytes) : Except Bytes (Ptr × Bytes) :=
  let hit := firstHit players player
  let controller := hit.elim 0 PlayerInfo.controllerPtr
  let matched := hit.elim [] PlayerInfo.name
  if controller = 0 then
    .error (bytes "no connected player matches '" ++ player ++ bytes "'")
  else .ok (controller, matched)

/-- The text `n x item to name` of both messages. -/
def giveText (count : Int32) (resolved matched : Bytes) : Bytes :=
  decimal count.toInt ++ bytes " x " ++ resolved ++ bytes " to " ++ matched

/-- `GiveItem`: the message, an error for a `false` return. -/
def giveItem (w : GiveWorld) (players : List PlayerInfo) (player item : Bytes)
    (count : Int32) : Except Bytes Bytes := do
  w.resolveGive
  if count ≤ 0 then throw (bytes "count must be at least 1")
  match w.findItem item with
  | none => throw (bytes "no loaded item matches '" ++ item ++ bytes "'")
  | some (itemData, resolved) =>
      let (controller, matched) ← giveTarget players player
      if w.giveItemToController controller itemData count then
        pure (bytes "gave " ++ giveText count resolved matched)
      else throw (bytes "the game refused to give " ++ giveText count resolved matched)

/-- Which controller `GiveItem` acts on: that of the first hit, unless it is null. -/
theorem giveTarget_ok_iff {players : List PlayerInfo} {player : Bytes} {c : Ptr} :
    (∃ name, giveTarget players player = .ok (c, name)) ↔
      ∃ f, firstHit players player = some f ∧ f.controllerPtr = c ∧ c ≠ 0 := by
  rw [giveTarget]
  cases firstHit players player with
  | none => simp
  | some f =>
      by_cases hf : f.controllerPtr = 0
      · simp only [Option.elim_some, hf, if_pos, reduceCtorEq, exists_false, false_iff]
        rintro ⟨f', hf', hc, hne⟩
        obtain rfl : f = f' := Option.some.inj hf'
        exact hne (hc ▸ hf)
      · simp only [Option.elim_some, hf, if_false, Except.ok.injEq, Prod.mk.injEq,
          exists_and_left, exists_eq', and_true, Option.some.injEq, exists_eq_left']
        constructor
        · rintro rfl
          exact ⟨rfl, hf⟩
        · exact fun h => h.1

end RSDWServerAPI.DomItems
