import RSDWServerAPI.Bans
import RSDWServerAPI.Transition

/-!
# Startup and the persisted bans

`InitThread` (`rsdwapi.cpp`) starts the REST and RCON listeners, waits for the engine,
installs the game-thread pump, hooks the chat and only then calls `DomBans::Load`. Requests
arrive from the moment the listeners are up, and `DomBans::Ban` asks no more than that the
engine is initialised. This module interleaves the steps of `InitThread`, its early returns
included, with `Ban` and `Unban` requests, and says when the bans in `bans.json` survive.

`bans.json` is taken as the list of entries it holds, and its reads and writes succeed.
A request is one action: its effect is that of the section it runs under `g_Mutex`, and the
engine stays initialised once it is.

## Main results

* `kept_iff_keepsFile`: **a run keeps every persisted ban exactly when each `Ban` that goes
  through finds the file mirrored**, that is when `Load` has run, or when every net id that the
  file holds is in `g_Bans` or is the one to be entered.
* `not_kept_ban_before_load`: a ban between `Engine::Initialize` and `Load` empties the file.
-/

namespace RSDWServerAPI.Startup

open DomBans Transition

/-- Where `InitThread` is. -/
inductive Phase
  /-- Before `StartListeners`. -/
  | booting
  /-- In the loop around `Engine::Initialize`. -/
  | waiting
  /-- `Engine::Initialize` has succeeded. -/
  | engineUp
  /-- `GameThread::Initialize` or `InstallExecPump` has succeeded. -/
  | pumpUp
  /-- `DomChat::Initialize` has returned. -/
  | chatUp
  /-- `DomBans::Load` has run: the loop around the enforcement tick. -/
  | serving
  /-- The thread has returned. -/
  | stopped
  deriving DecidableEq, Repr

/-- `rest.enabled` and `rcon.enabled`. -/
structure Settings where
  rest : Bool
  rcon : Bool
  deriving DecidableEq, Repr

/-- Where a request comes from. -/
inductive Source
  | rest
  | rcon
  | chat
  deriving DecidableEq, Repr

/-- The state that startup and the requests share. -/
structure State where
  phase : Phase := .booting
  listening : Bool := false
  initialized : Bool := false
  hooked : Bool := false
  loaded : Bool := false
  /-- `g_Bans`. -/
  bans : List BanEntry := []
  /-- `bans.json`. -/
  file : List BanEntry
  /-- History: the net ids that a successful `Unban` has removed. -/
  unbanned : List Bytes := []
  deriving DecidableEq, Repr

/-- A freshly loaded process that finds `file` in `bans.json`. -/
def boot (file : List BanEntry) : State :=
  { file }

/-- The steps of `InitThread`, with the answers it gets, and the requests. -/
inductive Action
  | startListeners
  | initializeEngine (ok : Bool)
  | installPump (vtable exec : Bool)
  | initializeChat (ok : Bool)
  | loadBans
  | shutdown
  | ban (source : Source) (players : List PlayerInfo) (player reason now : Bytes)
  | unban (source : Source) (identifier : Bytes)
  deriving DecidableEq, Repr

/-- Whether requests from a source reach the ban functions. -/
def accepts (cfg : Settings) (s : State) : Source → Bool
  | .rest => s.listening && cfg.rest
  | .rcon => s.listening && cfg.rcon
  | .chat => s.hooked && s.initialized

/-- `DomBans::Load` on the list of entries the file holds. -/
def loadEntries (file : List BanEntry) : List BanEntry :=
  file.filter fun ban => ban.netId ≠ []

/-- One step of `InitThread` or one request. -/
def step (cfg : Settings) (s : State) : Action → Option State
  | .startListeners =>
      if s.phase = .booting then
        some { s with
          listening := true
          phase := if !cfg.rest && !cfg.rcon then .stopped else .waiting }
      else none
  | .initializeEngine ok =>
      if s.phase = .waiting then
        some (if ok then { s with initialized := true, phase := .engineUp } else s)
      else none
  | .installPump vtable exec =>
      if s.phase = .engineUp then
        -- the early return that skips `DomBans::Load`
        some { s with phase := if vtable || exec then .pumpUp else .stopped }
      else none
  | .initializeChat ok =>
      if s.phase = .pumpUp then some { s with hooked := ok, phase := .chatUp } else none
  | .loadBans =>
      if s.phase = .chatUp then
        some { s with bans := loadEntries s.file, loaded := true, phase := .serving }
      else none
  | .shutdown =>
      if s.phase = .waiting ∨ s.phase = .engineUp ∨ s.phase = .serving then
        some { s with phase := .stopped }
      else none
  | .ban source players player reason now =>
      if accepts cfg s source then
        match ban s.initialized players player reason now s.bans with
        | .ok bans => some { s with bans, file := bans }
        | .error _ => some s
      else none
  | .unban source identifier =>
      if accepts cfg s source then
        match unban identifier s.bans with
        | .ok (entry, rest) =>
            some { s with bans := rest, file := rest, unbanned := entry.netId :: s.unbanned }
        | .error _ => some s
      else none

/-- **What a step can do to the ban list and its file**: nothing, or the effect of `Load`,
of a `Ban` that goes through or of an `Unban` that goes through. -/
theorem step_cases {cfg : Settings} {s t : State} {a : Action} (h : step cfg s a = some t) :
    (t.bans = s.bans ∧ t.file = s.file ∧ t.unbanned = s.unbanned ∧ t.loaded = s.loaded) ∨
      (a = .loadBans ∧ t.bans = loadEntries s.file ∧ t.file = s.file ∧
        t.unbanned = s.unbanned ∧ t.loaded = true) ∨
      (∃ source players player reason now bans, a = .ban source players player reason now ∧
        accepts cfg s source = true ∧
        ban s.initialized players player reason now s.bans = .ok bans ∧
        t = { s with bans, file := bans }) ∨
      (∃ source identifier entry rest, a = .unban source identifier ∧
        unban identifier s.bans = .ok (entry, rest) ∧
        t = { s with bans := rest, file := rest, unbanned := entry.netId :: s.unbanned }) := by
  cases a with
  | startListeners | installPump | initializeChat | shutdown =>
      simp only [step] at h
      split at h
      · obtain rfl := Option.some.inj h
        exact Or.inl ⟨rfl, rfl, rfl, rfl⟩
      · cases h
  | initializeEngine ok =>
      simp only [step] at h
      split at h
      · obtain rfl := Option.some.inj h
        cases ok <;> exact Or.inl ⟨rfl, rfl, rfl, rfl⟩
      · cases h
  | loadBans =>
      simp only [step] at h
      split at h
      · obtain rfl := Option.some.inj h
        exact Or.inr (Or.inl ⟨rfl, rfl, rfl, rfl, rfl⟩)
      · cases h
  | ban source players player reason now =>
      simp only [step] at h
      split at h
      · next haccepts =>
          cases hban : ban s.initialized players player reason now s.bans with
          | ok bans =>
              rw [hban] at h
              exact Or.inr (Or.inr (Or.inl ⟨source, players, player, reason, now, bans, rfl,
                haccepts, hban, (Option.some.inj h).symm⟩))
          | error e =>
              rw [hban] at h
              obtain rfl := Option.some.inj h
              exact Or.inl ⟨rfl, rfl, rfl, rfl⟩
      · cases h
  | unban source identifier =>
      simp only [step] at h
      split at h
      · cases hunban : unban identifier s.bans with
        | ok lifted =>
            obtain ⟨entry, rest⟩ := lifted
            rw [hunban] at h
            exact Or.inr (Or.inr (Or.inr ⟨source, identifier, entry, rest, rfl, hunban,
              (Option.some.inj h).symm⟩))
        | error e =>
            rw [hunban] at h
            obtain rfl := Option.some.inj h
            exact Or.inl ⟨rfl, rfl, rfl, rfl⟩
      · cases h

/-! ### Which runs keep the persisted bans -/

/-- Every net id that was in the initial file and that no successful `Unban` has removed is
in the file. An entry without a net id names nobody. -/
def Kept (initial : List BanEntry) (s : State) : Prop :=
  ∀ n ∈ netIds initial, n ≠ [] → n ∉ s.unbanned → n ∈ netIds s.file

/-- `g_Bans` lists every net id that the file holds. -/
def Mirrored (s : State) : Prop :=
  ∀ n ∈ netIds s.file, n ≠ [] → n ∈ netIds s.bans

/-- The condition on a step: when a `Ban` that is let in finds a net id to enter, `Load` has run,
or every net id that the file holds is in `g_Bans` or is the one to be entered. -/
def KeepsFile (cfg : Settings) (s : State) : Action → Prop
  | .ban source players player _ _ =>
      ∀ netId name, accepts cfg s source = true → s.initialized = true →
        banTarget players player = .ok (netId, name) → netId ∉ netIds s.bans →
        s.loaded = true ∨ ∀ n ∈ netIds s.file, n ≠ [] → n ∈ netIds s.bans ∨ n = netId
  | _ => True

/-- The invariant of the runs that meet the condition: either nothing has happened to the
list and the file yet, or `g_Bans` mirrors the file and the file has kept the initial bans. -/
structure Sound (initial : List BanEntry) (s : State) : Prop where
  kept : Kept initial s
  mirrored : s.loaded = false ∧ s.bans = [] ∧ s.file = initial ∧ s.unbanned = [] ∨ Mirrored s

/-- The invariant holds in a freshly loaded process. -/
theorem sound_boot (initial : List BanEntry) : Sound initial (boot initial) :=
  ⟨fun _ hn _ _ => hn, Or.inl ⟨rfl, rfl, rfl, rfl⟩⟩

/-- `Load` takes over every net id of the file. -/
theorem mem_netIds_loadEntries {file : List BanEntry} {n : Bytes} (hn : n ∈ netIds file)
    (hne : n ≠ []) : n ∈ netIds (loadEntries file) := by
  obtain ⟨entry, hentry, rfl⟩ := List.mem_map.mp hn
  exact List.mem_map.mpr ⟨entry, List.mem_filter.mpr ⟨hentry, by simpa using hne⟩, rfl⟩

/-- A list with one more entry has one more net id. -/
theorem mem_netIds_concat {bans : List BanEntry} {entry : BanEntry} {n : Bytes} :
    n ∈ netIds (bans ++ [entry]) ↔ n ∈ netIds bans ∨ n = entry.netId := by
  simp [netIds]

/-- A `Ban` that leaves out nothing the file holds keeps the invariant. -/
theorem sound_of_covered {initial : List BanEntry} {s : State} {bans : List BanEntry}
    (hs : Sound initial s) (hcover : ∀ n ∈ netIds s.file, n ≠ [] → n ∈ netIds bans) :
    Sound initial { s with bans, file := bans } :=
  ⟨fun n hn hne hun => hcover n (hs.kept n hn hne hun) hne, Or.inr fun _ hn _ => hn⟩

/-- Once `g_Bans` mirrors the file, it covers the file. -/
theorem covered_of_mirrored {s : State} {netId : Bytes} (hs : Mirrored s) :
    ∀ n ∈ netIds s.file, n ≠ [] → n ∈ netIds s.bans ∨ n = netId :=
  fun n hn hne => Or.inl (hs n hn hne)

/-- Lifting a ban keeps the invariant: the file loses at most the net id that is lifted. -/
theorem sound_unban {initial : List BanEntry} {s : State} {identifier : Bytes}
    {entry : BanEntry} {rest : List BanEntry} (hs : Sound initial s)
    (hunban : unban identifier s.bans = .ok (entry, rest)) :
    Sound initial
      { s with bans := rest, file := rest, unbanned := entry.netId :: s.unbanned } := by
  refine ⟨fun n hn hne hun => ?_, Or.inr fun n hn _ => hn⟩
  obtain ⟨hentry, hun⟩ : n ≠ entry.netId ∧ n ∉ s.unbanned := by simpa using hun
  rcases hs.mirrored with ⟨-, hbans, -, -⟩ | hmirrored
  · obtain ⟨before, after, hlist, -⟩ := unban_ok hunban
    simp [hbans] at hlist
  · exact netIds_unban hunban (hmirrored n (hs.kept n hn hne hun) hne) hentry

/-- **Step lemma**: a step that meets the condition keeps the invariant. -/
theorem sound_step {cfg : Settings} {initial : List BanEntry} {s t : State} {a : Action}
    (hs : Sound initial s) (hok : KeepsFile cfg s a) (h : step cfg s a = some t) :
    Sound initial t := by
  rcases step_cases h with ⟨hb, hf, hu, hl⟩ | ⟨-, hb, hf, hu, -⟩ |
    ⟨source, players, player, reason, now, bans, rfl, haccepts, hban, rfl⟩ |
    ⟨source, identifier, entry, rest, rfl, hunban, rfl⟩
  · exact ⟨by simpa [Kept, hf, hu] using hs.kept,
      by simpa [Mirrored, hb, hf, hu, hl] using hs.mirrored⟩
  · refine ⟨by simpa [Kept, hf, hu] using hs.kept, Or.inr fun n hn hne => ?_⟩
    rw [hb]
    exact mem_netIds_loadEntries (hf ▸ hn) hne
  · obtain ⟨hinit, netId, name, htarget, hnew, rfl⟩ := ban_ok hban
    refine sound_of_covered hs fun n hn hne => mem_netIds_concat.mpr ?_
    rcases hs.mirrored with ⟨hl, -⟩ | hmirrored
    · exact (hok netId name haccepts hinit htarget hnew).resolve_left (by simp [hl]) n hn hne
    · exact covered_of_mirrored hmirrored n hn hne
  · exact sound_unban hs hunban

/-- A `Ban` outside the condition loses a persisted ban on the spot. -/
theorem keepsFile_of_kept {cfg : Settings} {initial : List BanEntry} {s t : State} {a : Action}
    (hs : Sound initial s) (h : step cfg s a = some t) (ht : Kept initial t) :
    KeepsFile cfg s a := by
  cases a with
  | ban source players player reason now =>
      intro netId name haccepts hinit htarget hnew
      right
      rcases hs.mirrored with ⟨-, -, hfile, hunbanned⟩ | hmirrored
      · have hban := ban_of_target htarget hnew reason now
        have ht' : t = { s with
            bans := s.bans ++ [⟨netId, name, reason, now⟩]
            file := s.bans ++ [⟨netId, name, reason, now⟩] } := by
          simpa [step, haccepts, hinit, hban] using h.symm
        subst ht'
        intro n hn hne
        exact mem_netIds_concat.mp (ht n (hfile ▸ hn) hne (by simp [hunbanned]))
      · exact covered_of_mirrored hmirrored
  | startListeners | initializeEngine | installPump | initializeChat | loadBans | shutdown
  | unban => trivial

/-- **Exactly which runs keep the persisted bans.** For every configuration, every initial
content of the file and every interleaving of the init thread with requests, each state of
the run has every initial net id that no `Unban` has removed in the file, precisely when each
`Ban` that goes through comes after `Load` or finds the net ids of the file in `g_Bans`, but for
the one that it enters. -/
theorem kept_iff_keepsFile (cfg : Settings) (initial : List BanEntry) (as : List Action) :
    Always (step cfg) (Kept initial) (boot initial) as ↔
      EveryStep (step cfg) (fun s a _ => KeepsFile cfg s a) (boot initial) as := by
  refine always_iff_everyStep (I := Sound initial) ?_ ?_ ?_ (sound_boot initial) as
  · intro s hs
    exact hs.kept
  · intro s a t hs hok h
    exact sound_step hs hok h
  · intro s a t hs h ht
    exact keepsFile_of_kept hs h ht

/-- A ban over REST between `Engine::Initialize` and `Load`, of a player who is offline,
replaces the file by the new entry: the player banned before is no longer listed. -/
theorem not_kept_ban_before_load :
    ¬ ∀ (cfg : Settings) (initial : List BanEntry) (as : List Action),
      Always (step cfg) (Kept initial) (boot initial) as := by
  intro hall
  let old : BanEntry := { netId := bytes "76561190000000001" }
  have h := hall ⟨true, false⟩ [old]
    [.startListeners, .initializeEngine true,
      .ban .rest [] (bytes "76561190000000002") [] []]
  have hlost : old.netId ∈ netIds [({ netId := bytes "76561190000000002" } : BanEntry)] :=
    h.last rfl old.netId (by decide) (by decide) (by decide)
  exact absurd hlost (by decide)

end RSDWServerAPI.Startup
