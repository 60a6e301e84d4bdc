import RSDWServerAPI.Bans
import RSDWServerAPI.KickOutcome

/-!
# Whom an enforcement tick reaches

`Engine::EnforceKicks` and `DomBans::Enforce` go through the connected players, and for each one
that is listed they call `KickPlayer`, not with the player but with the player's net id. Here a
tick runs while the roster does not change, so that both loops and every lookup see the same
players; what a call does is `kick` of `RSDWServerAPI.KickOutcome`. A kick that succeeds puts its
target into `g_Kicked`, where the same loop finds it later on.

## Main results

* `mem_enforceKicks_iff`, `mem_enforceBans_iff`: the players on whom a loop invokes the kick are
  those that the class order picks for the net ids of listed players.
* `missesNobody_iff`: **nobody is missed exactly when the class order picks every listed player**
  (or one with the same controller) for the net id of some listed player.
* `picksAll_of_alone`: it does when no listed player shares a net id, and no player id of somebody
  with a controller reads like one.
-/

namespace RSDWServerAPI.Enforcement

open DomBans

/-! ### The two loops -/

/-- What `KickPlayer` leaves in `g_Kicked`. -/
def remember (outcome : KickOutcome) (reason : Bytes) (kicked : List KickedPlayer) :
    List KickedPlayer :=
  match outcome.remembered with
  | some p => rememberKick p.uniqueNetId p.name reason kicked
  | none => kicked

/-- The loop of `Engine::EnforceKicks` over its players: those on whom the kick is invoked, and
`g_Kicked` afterwards. -/
def enforceKicksLoop (w : KickWorld) (players : List PlayerInfo) :
    List PlayerInfo → List KickedPlayer → List PlayerInfo × List KickedPlayer
  | [], kicked => ([], kicked)
  | player :: todo, kicked =>
      if player.uniqueNetId = [] then enforceKicksLoop w players todo kicked
      else
        match kicked.find? fun entry => entry.netId == player.uniqueNetId with
        | none => enforceKicksLoop w players todo kicked
        | some entry =>
            let outcome := kick w true players player.uniqueNetId
            let rest := enforceKicksLoop w players todo (remember outcome entry.reason kicked)
            (outcome.invoked.toList ++ rest.1, rest.2)

/-- `Engine::EnforceKicks`. -/
def enforceKicks (w : KickWorld) (initialized : Bool) (players : List PlayerInfo)
    (kicked : List KickedPlayer) : List PlayerInfo × List KickedPlayer :=
  if !initialized || !w.ready then ([], kicked)
  else if kickedNetIds kicked = [] then ([], kicked)
  else enforceKicksLoop w players players kicked

/-- The loop of `DomBans::Enforce`, with the bans it has copied. -/
def enforceBansLoop (w : KickWorld) (players : List PlayerInfo) (bans : List BanEntry) :
    List PlayerInfo → List KickedPlayer → List PlayerInfo × List KickedPlayer
  | [], kicked => ([], kicked)
  | player :: todo, kicked =>
      if player.uniqueNetId = [] then enforceBansLoop w players bans todo kicked
      else
        match bans.find? fun ban => ban.netId == player.uniqueNetId with
        | none => enforceBansLoop w players bans todo kicked
        | some ban =>
            let outcome := kick w true players player.uniqueNetId
            let rest := enforceBansLoop w players bans todo (remember outcome ban.reason kicked)
            (outcome.invoked.toList ++ rest.1, rest.2)

/-- `DomBans::Enforce`. -/
def enforceBans (w : KickWorld) (initialized : Bool) (players : List PlayerInfo)
    (bans : List BanEntry) (kicked : List KickedPlayer) : List PlayerInfo × List KickedPlayer :=
  if !initialized || !w.ready then ([], kicked)
  else if bans = [] then ([], kicked)
  else enforceBansLoop w players bans players kicked

/-! ### Who is to be reached -/

/-- **Nobody is missed**: the kick is invoked with the controller of every connected player who
has one and whose net id is in `g_Kicked`, by `EnforceKicks`, or in `g_Bans`, by `Enforce`. -/
structure MissesNobody (w : KickWorld) (players : List PlayerInfo) (kicked : List KickedPlayer)
    (bans : List BanEntry) : Prop where
  kicks : ∀ p ∈ players, p.controllerPtr ≠ 0 → p.uniqueNetId ≠ [] →
    p.uniqueNetId ∈ kickedNetIds kicked →
      ∃ hit ∈ (enforceKicks w true players kicked).1, hit.controllerPtr = p.controllerPtr
  bans : ∀ p ∈ players, p.controllerPtr ≠ 0 → p.uniqueNetId ≠ [] → p.uniqueNetId ∈ netIds bans →
    ∃ hit ∈ (enforceBans w true players bans (enforceKicks w true players kicked).2).1,
      hit.controllerPtr = p.controllerPtr

/-- The net ids in `g_Kicked` when `EnforceKicks` has gone through some of the players: those that
were there, and those of players whom the class order has picked for one of these players. -/
inductive Known (w : KickWorld) (players : List PlayerInfo) (kicked : List KickedPlayer) :
    List PlayerInfo → Bytes → Prop
  | listed {before : List PlayerInfo} {n : Bytes} (h : n ∈ kickedNetIds kicked) :
      Known w players kicked before n
  | picked {before after : List PlayerInfo} {q p : PlayerInfo} (hq : q.uniqueNetId ≠ [])
      (hknown : Known w players kicked before q.uniqueNetId)
      (hp : Selects players q.uniqueNetId p) (htaken : w.takes p.controllerPtr = true)
      (hne : p.uniqueNetId ≠ []) : Known w players kicked (before ++ q :: after) p.uniqueNetId

/-- **The class order picks every listed player**, or one with the same controller, for the net id
of a player who is listed when the loop comes to that player. -/
structure PicksAll (w : KickWorld) (players : List PlayerInfo) (kicked : List KickedPlayer)
    (bans : List BanEntry) : Prop where
  kicks : ∀ p ∈ players, p.controllerPtr ≠ 0 → p.uniqueNetId ≠ [] →
    p.uniqueNetId ∈ kickedNetIds kicked →
      ∃ before q after hit, players = before ++ q :: after ∧ q.uniqueNetId ≠ [] ∧
        Known w players kicked before q.uniqueNetId ∧ Selects players q.uniqueNetId hit ∧
        hit.controllerPtr = p.controllerPtr
  bans : ∀ p ∈ players, p.controllerPtr ≠ 0 → p.uniqueNetId ≠ [] → p.uniqueNetId ∈ netIds bans →
    ∃ q ∈ players, ∃ hit, q.uniqueNetId ≠ [] ∧ q.uniqueNetId ∈ netIds bans ∧
      Selects players q.uniqueNetId hit ∧ hit.controllerPtr = p.controllerPtr

/-! ### One kick -/

variable {w : KickWorld} {players : List PlayerInfo} {kicked : List KickedPlayer}
  {bans : List BanEntry} {identifier n : Bytes} {hit p : PlayerInfo}

/-- The kick is invoked on the player whom the class order picks. -/
theorem mem_invoked_iff (hw : w.invokes = true) :
    hit ∈ (kick w true players identifier).invoked.toList ↔ Selects players identifier hit := by
  rw [Option.mem_toList]
  constructor
  · intro h
    by_contra hnot
    have hnobody : ∀ p, ¬ Selects players identifier p := fun p hp => by
      obtain rfl := Option.some.inj ((kick_of_selects hw hp).1.symm.trans h)
      exact hnot hp
    rw [(kick_eq_nothing fun _ => hnobody).2] at h
    cases h
  · exact fun h => (kick_of_selects hw h).1

/-- A kick that does not succeed is not remembered. -/
theorem remembered_eq_none (h : (kick w true players identifier).result.toOption = none) :
    (kick w true players identifier).remembered = none := by
  rw [kick] at h ⊢
  dsimp only at h ⊢
  rw [h]
  rfl

/-- Who is remembered: the player whom the class order picks, if the game takes the kick. -/
theorem remembered_eq_some_iff (hw : w.invokes = true) :
    (kick w true players identifier).remembered = some p ↔
      Selects players identifier p ∧ w.takes p.controllerPtr = true := by
  constructor
  · intro h
    by_cases hsome : ∃ q, Selects players identifier q
    · obtain ⟨q, hq⟩ := hsome
      rw [(kick_of_selects hw hq).2] at h
      split_ifs at h with htaken
      obtain rfl := Option.some.inj h
      exact ⟨hq, htaken⟩
    · have hnone : (kick w true players identifier).remembered = none :=
        remembered_eq_none (kick_eq_nothing fun _ q hq => hsome ⟨q, hq⟩).1
      rw [hnone] at h
      cases h
  · rintro ⟨hp, htaken⟩
    rw [(kick_of_selects hw hp).2, if_pos htaken]

/-- What a kick adds to `g_Kicked`. -/
theorem mem_remember_iff (hw : w.invokes = true) (reason : Bytes) :
    n ∈ kickedNetIds (remember (kick w true players identifier) reason kicked) ↔
      n ∈ kickedNetIds kicked ∨ ∃ p, Selects players identifier p ∧
        w.takes p.controllerPtr = true ∧ p.uniqueNetId ≠ [] ∧ p.uniqueNetId = n := by
  rw [remember]
  cases hremembered : (kick w true players identifier).remembered with
  | none =>
      refine ⟨.inl, ?_⟩
      rintro (h | ⟨p, hp, htaken, -⟩)
      · exact h
      · rw [(remembered_eq_some_iff hw).mpr ⟨hp, htaken⟩] at hremembered
        cases hremembered
  | some p =>
      obtain ⟨hp, htaken⟩ := (remembered_eq_some_iff hw).mp hremembered
      dsimp only
      rw [mem_rememberKick]
      refine or_congr_right ⟨fun h => ⟨p, hp, htaken, h.2, h.1.symm⟩, ?_⟩
      rintro ⟨q, hq, htaken', hne, rfl⟩
      have hsame := (remembered_eq_some_iff hw).mpr ⟨hq, htaken'⟩
      obtain rfl := Option.some.inj (hremembered.symm.trans hsame)
      exact ⟨rfl, hne⟩

/-- A kick that is invoked is asked for while the engine is ready. -/
theorem ready_of_invokes (hw : w.invokes = true) : w.ready = true := by
  simp only [KickWorld.invokes, Bool.and_eq_true] at hw
  exact hw.1.1.1.2

/-! ### `EnforceKicks` -/

/-- One player more that the loop has gone through. -/
theorem known_append_singleton {before : List PlayerInfo} {q : PlayerInfo} :
    Known w players kicked (before ++ [q]) n ↔
      Known w players kicked before n ∨
        (q.uniqueNetId ≠ [] ∧ Known w players kicked before q.uniqueNetId ∧
          ∃ p, Selects players q.uniqueNetId p ∧ w.takes p.controllerPtr = true ∧
            p.uniqueNetId ≠ [] ∧ p.uniqueNetId = n) := by
  constructor
  · intro h
    generalize hpassed : before ++ [q] = passed at h
    cases h with
    | listed h => exact .inl (.listed h)
    | @picked before' after q' p hq hknown hp htaken hne =>
        rcases List.eq_nil_or_concat after with rfl | ⟨after, last, rfl⟩
        · obtain ⟨rfl, hlast⟩ := List.append_inj' hpassed rfl
          obtain rfl := List.singleton_inj.mp hlast
          exact .inr ⟨hq, hknown, p, hp, htaken, hne, rfl⟩
        · have hsplit : before ++ [q] = (before' ++ q' :: after) ++ [last] := by
            rw [hpassed]
            simp
          obtain ⟨rfl, -⟩ := List.append_inj' hsplit rfl
          exact .inl (.picked hq hknown hp htaken hne)
  · rintro (h | ⟨hq, hknown, p, hp, htaken, hne, rfl⟩)
    · cases h with
      | listed h => exact .listed h
      | picked hq hknown hp htaken hne =>
          rw [List.append_assoc, List.cons_append]
          exact .picked hq hknown hp htaken hne
    · exact .picked hq hknown hp htaken hne

/-- A property of some place in a list, by the first element. -/
theorem exists_place_cons {α : Type*} {P : List α → α → Prop} {x : α} {xs : List α} :
    (∃ passed y after, x :: xs = passed ++ y :: after ∧ P passed y) ↔
      P [] x ∨ ∃ passed y after, xs = passed ++ y :: after ∧ P (x :: passed) y := by
  constructor
  · rintro ⟨passed, y, after, hsplit, h⟩
    rcases List.cons_eq_append_iff.mp hsplit with ⟨rfl, hcons⟩ | ⟨passed, rfl, hrest⟩
    · obtain ⟨rfl, rfl⟩ := List.cons.inj hcons
      exact .inl h
    · exact .inr ⟨passed, y, after, hrest, h⟩
  · rintro (h | ⟨passed, y, after, rfl, h⟩)
    · exact ⟨[], x, xs, rfl, h⟩
    · exact ⟨x :: passed, y, after, rfl, h⟩

/-- **The loop of `EnforceKicks`** invokes the kick on the players whom the class order picks for
the players that are listed when it comes to them. -/
theorem mem_enforceKicksLoop_iff (hw : w.invokes = true) {before todo : List PlayerInfo}
    {kicked' : List KickedPlayer}
    (hknown : ∀ n, n ∈ kickedNetIds kicked' ↔ Known w players kicked before n) :
    hit ∈ (enforceKicksLoop w players todo kicked').1 ↔
      ∃ passed q after, todo = passed ++ q :: after ∧
        (q.uniqueNetId ≠ [] ∧ Known w players kicked (before ++ passed) q.uniqueNetId ∧
          Selects players q.uniqueNetId hit) := by
  induction todo generalizing before kicked' with
  | nil =>
      rw [enforceKicksLoop]
      refine ⟨fun h => (nomatch h), ?_⟩
      rintro ⟨passed, q, after, hsplit, -⟩
      simp at hsplit
  | cons q todo ih =>
      rw [exists_place_cons, List.append_nil, ← hknown, enforceKicksLoop]
      split_ifs with hempty
      · have hknown' : ∀ n, n ∈ kickedNetIds kicked' ↔ Known w players kicked (before ++ [q]) n :=
          fun n => by rw [known_append_singleton, hknown]; simp [hempty]
        rw [ih hknown']
        simp [hempty]
      · cases hfind : kicked'.find? fun entry => entry.netId == q.uniqueNetId with
        | none =>
            have hnot : q.uniqueNetId ∉ kickedNetIds kicked' := find_eq_none_iff.mp hfind
            have hknown' : ∀ n, n ∈ kickedNetIds kicked' ↔
                Known w players kicked (before ++ [q]) n := fun n => by
              rw [known_append_singleton, ← hknown, ← hknown]
              simp [hnot]
            dsimp only
            rw [ih hknown']
            simp [hnot]
        | some entry =>
            have hlisted : q.uniqueNetId ∈ kickedNetIds kicked' := mem_of_find_eq_some hfind
            have hknown' : ∀ n, n ∈ kickedNetIds
                (remember (kick w true players q.uniqueNetId) entry.reason kicked') ↔
                  Known w players kicked (before ++ [q]) n := fun n => by
              rw [mem_remember_iff hw, known_append_singleton, ← hknown, ← hknown]
              simp [hempty, hlisted]
            dsimp only
            rw [List.mem_append, mem_invoked_iff hw, ih hknown']
            simp [hempty, hlisted]

/-- **`EnforceKicks`**, when someone is remembered. -/
theorem mem_enforceKicks_iff (hw : w.invokes = true) (hsome : kickedNetIds kicked ≠ []) :
    hit ∈ (enforceKicks w true players kicked).1 ↔
      ∃ before q after, players = before ++ q :: after ∧
        (q.uniqueNetId ≠ [] ∧ Known w players kicked before q.uniqueNetId ∧
          Selects players q.uniqueNetId hit) := by
  have hstart : ∀ n, n ∈ kickedNetIds kicked ↔ Known w players kicked [] n := fun n => by
    refine ⟨.listed, fun h => ?_⟩
    generalize hpassed : ([] : List PlayerInfo) = passed at h
    cases h with
    | listed h => exact h
    | picked => simp at hpassed
  rw [enforceKicks, if_neg (by simp [ready_of_invokes hw]), if_neg hsome,
    mem_enforceKicksLoop_iff hw hstart]
  simp only [List.nil_append]

/-! ### `Enforce` -/

/-- **The loop of `Enforce`** invokes the kick on the players whom the class order picks for the
players that are banned. -/
theorem mem_enforceBansLoop_iff (hw : w.invokes = true) {todo : List PlayerInfo} :
    hit ∈ (enforceBansLoop w players bans todo kicked).1 ↔
      ∃ q ∈ todo, q.uniqueNetId ≠ [] ∧ q.uniqueNetId ∈ netIds bans ∧
        Selects players q.uniqueNetId hit := by
  induction todo generalizing kicked with
  | nil => simp [enforceBansLoop]
  | cons q todo ih =>
      rw [enforceBansLoop]
      split_ifs with hempty
      · rw [ih]
        simp [hempty]
      · cases hfind : bans.find? fun ban => ban.netId == q.uniqueNetId with
        | none =>
            have hnot : q.uniqueNetId ∉ netIds bans := find_eq_none_iff.mp hfind
            dsimp only
            rw [ih]
            simp [hnot]
        | some ban =>
            have hlisted : q.uniqueNetId ∈ netIds bans := mem_of_find_eq_some hfind
            dsimp only
            rw [List.mem_append, mem_invoked_iff hw, ih]
            simp [hempty, hlisted]

/-- **`Enforce`**, when someone is banned. -/
theorem mem_enforceBans_iff (hw : w.invokes = true) (hsome : bans ≠ []) :
    hit ∈ (enforceBans w true players bans kicked).1 ↔
      ∃ q ∈ players, q.uniqueNetId ≠ [] ∧ q.uniqueNetId ∈ netIds bans ∧
        Selects players q.uniqueNetId hit := by
  rw [enforceBans, if_neg (by simp [ready_of_invokes hw]), if_neg hsome, mem_enforceBansLoop_iff hw]

/-! ### A tick -/

/-- **Who is alone with a net id is reached**: a tick misses nobody when nobody shares the net id
of a listed player, and nobody with a controller has a player id that reads like one. -/
theorem picksAll_of_alone (w : KickWorld)
    (halone : ∀ p ∈ players, p.controllerPtr ≠ 0 → p.uniqueNetId ≠ [] →
      p.uniqueNetId ∈ kickedNetIds kicked ∨ p.uniqueNetId ∈ netIds bans →
        MatchClass.netId.matching players p.uniqueNetId = [p] ∧
          ∀ r ∈ players, r.idText = p.uniqueNetId → r.controllerPtr = 0) :
    PicksAll w players kicked bans := by
  have hself : ∀ p ∈ players, p.controllerPtr ≠ 0 → p.uniqueNetId ≠ [] →
      p.uniqueNetId ∈ kickedNetIds kicked ∨ p.uniqueNetId ∈ netIds bans →
        Selects players p.uniqueNetId p := fun p hp hcontroller hne hlisted => by
    obtain ⟨honly, hids⟩ := halone p hp hcontroller hne hlisted
    exact selects_of_alone honly hcontroller hids
  refine ⟨fun p hp hcontroller hne hlisted => ?_, fun p hp hcontroller hne hlisted => ?_⟩
  · obtain ⟨before, after, hsplit⟩ := List.append_of_mem hp
    exact ⟨before, p, after, p, hsplit, hne, .listed hlisted,
      hself p hp hcontroller hne (.inl hlisted), rfl⟩
  · exact ⟨p, hp, p, hne, hlisted, hself p hp hcontroller hne (.inr hlisted), rfl⟩

/-- **When a tick misses nobody**: exactly when the class order picks every listed player, or one
with the same controller, for the net id of a player who is listed when the loop comes by. -/
theorem missesNobody_iff (hw : w.invokes = true) (players : List PlayerInfo)
    (kicked : List KickedPlayer) (bans : List BanEntry) :
    MissesNobody w players kicked bans ↔ PicksAll w players kicked bans := by
  constructor
  · intro h
    refine ⟨fun p hp hcontroller hne hlisted => ?_, fun p hp hcontroller hne hlisted => ?_⟩
    · obtain ⟨hit, hhit, hsame⟩ := h.kicks p hp hcontroller hne hlisted
      obtain ⟨before, q, after, hsplit, hq, hknown, hpick⟩ :=
        (mem_enforceKicks_iff hw (List.ne_nil_of_mem hlisted)).mp hhit
      exact ⟨before, q, after, hit, hsplit, hq, hknown, hpick, hsame⟩
    · obtain ⟨hit, hhit, hsame⟩ := h.bans p hp hcontroller hne hlisted
      have hsome : bans ≠ [] := fun hnil => List.ne_nil_of_mem hlisted (congrArg netIds hnil)
      obtain ⟨q, hmem, hq, hbanned, hpick⟩ := (mem_enforceBans_iff hw hsome).mp hhit
      exact ⟨q, hmem, hit, hq, hbanned, hpick, hsame⟩
  · intro h
    refine ⟨fun p hp hcontroller hne hlisted => ?_, fun p hp hcontroller hne hlisted => ?_⟩
    · obtain ⟨before, q, after, hit, hsplit, hq, hknown, hpick, hsame⟩ :=
        h.kicks p hp hcontroller hne hlisted
      exact ⟨hit, (mem_enforceKicks_iff hw (List.ne_nil_of_mem hlisted)).mpr
        ⟨before, q, after, hsplit, hq, hknown, hpick⟩, hsame⟩
    · obtain ⟨q, hmem, hit, hq, hbanned, hpick, hsame⟩ := h.bans p hp hcontroller hne hlisted
      have hsome : bans ≠ [] := fun hnil => List.ne_nil_of_mem hlisted (congrArg netIds hnil)
      exact ⟨hit, (mem_enforceBans_iff hw hsome).mpr ⟨q, hmem, hq, hbanned, hpick⟩, hsame⟩

/-- One player is banned, one is remembered as kicked, and a third is listed nowhere. -/
def listedRoster : List PlayerInfo :=
  [{ name := bytes "Ada", playerId := 1, uniqueNetId := bytes "A", controllerPtr := 5 },
    { name := bytes "Bob", playerId := 2, uniqueNetId := bytes "B", controllerPtr := 6 },
    { name := bytes "Cyd", playerId := 3, uniqueNetId := bytes "C", controllerPtr := 7 }]

/-- A tick that removes both of them. -/
theorem missesNobody_iff_listed :
    MissesNobody kickWorldOk listedRoster [⟨bytes "B", bytes "Bob", []⟩]
      [⟨bytes "A", bytes "Ada", [], []⟩] :=
  (missesNobody_iff (by decide) listedRoster _ _).mpr
    (picksAll_of_alone kickWorldOk (by decide))

/-- Two player states of one account, as there are during a reconnect: the net id of the banned
player matches both, and neither is removed. -/
theorem not_missesNobody_reconnect :
    ¬ MissesNobody kickWorldOk
        [{ playerId := 1, uniqueNetId := bytes "A", controllerPtr := 5 },
          { playerId := 2, uniqueNetId := bytes "A", controllerPtr := 6 }] []
        [⟨bytes "A", [], [], []⟩] := by
  intro h
  obtain ⟨hit, hhit, -⟩ := h.bans { playerId := 1, uniqueNetId := bytes "A", controllerPtr := 5 }
    List.mem_cons_self (by decide) (by decide) (by decide)
  exact absurd hhit (List.not_mem_nil (a := hit))

end RSDWServerAPI.Enforcement
