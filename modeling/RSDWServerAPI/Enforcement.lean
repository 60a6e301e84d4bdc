import RSDWServerAPI.Bans
import RSDWServerAPI.Kick
import RSDWServerAPI.Transition

/-!
# Enforcement of kicks and bans

Every two seconds the init thread runs `Engine::EnforceKicks` and then `DomBans::Enforce`.
Both look at the connected players and call `KickPlayer` for those that are listed, in
`g_Kicked` and in `g_Bans`. `KickPlayer` itself remembers every kick that succeeds in
`g_Kicked`, whoever asked for it, while `Unban` takes an entry out of `g_Bans` only.

The module interleaves the enforcement thread with joins and leaves, explicit kicks, bans
and unbans. A section under a lock, a roster snapshot, the lookup of a `KickPlayer` call and
its success are one action each; `Ban` enters its entry in one action and has its kick
under way afterwards, so that the kick may land after a concurrent `Unban`.

## Main results

* `justified_of_harmless`: **in every run whose steps are harmless, a tick removes only
  players who are banned at that moment or were kicked explicitly.** A step is harmless
  unless it lifts a ban that `g_Kicked` (or the running tick) still knows about, or lets a
  kick made on behalf of a ban land on a player who is no longer banned.
* `not_justified_after_unban`: banned, kicked, unbanned, removed again on the next tick.
-/

namespace RSDWServerAPI.Enforcement

open DomBans Transition

/-- On whose behalf `KickPlayer` was called. -/
inductive Origin
  /-- `/api/kick`, RCON `kick` or the chat command `/kick`. -/
  | explicit
  /-- `DomBans::Ban`. -/
  | ban
  /-- `EnforceKicks` or `Enforce`. -/
  | tick
  deriving DecidableEq, Repr

/-- A `KickPlayer` call whose lookup has found a player. -/
structure Call where
  origin : Origin
  matched : PlayerInfo
  reason : Bytes
  deriving DecidableEq, Repr

/-- Where the enforcement thread is; `next` is where it goes on after a call. -/
inductive Tick
  | idle
  /-- `EnforceKicks` before its roster snapshot, then in its loop over the players. -/
  | snapshotKicks
  | enforceKicks (todo : List PlayerInfo)
  /-- `Enforce` before its copy of `g_Bans`, before its roster snapshot, then in its loop. -/
  | copyBans
  | snapshotBans (bans : List BanEntry)
  | enforceBans (bans : List BanEntry) (todo : List PlayerInfo)
  /-- About to call `KickPlayer` because of a connected player with this net id. -/
  | calling (netId reason : Bytes) (next : Tick)
  /-- Inside that call. -/
  | waiting (next : Tick)
  deriving DecidableEq, Repr

/-- The state that the requests and the enforcement thread share. -/
structure State where
  roster : List PlayerInfo := []
  /-- `g_Bans`. -/
  bans : List BanEntry := []
  /-- `g_Kicked`. -/
  kicked : List KickedPlayer := []
  /-- The net id and reason of bans whose kick has not started yet. -/
  banKicks : List (Bytes × Bytes) := []
  /-- The `KickPlayer` calls under way. -/
  calls : List Call := []
  tick : Tick := .idle
  /-- History: the targets of explicit kicks that succeeded. -/
  explicit : List Bytes := []
  deriving DecidableEq, Repr

/-- What the game, the server and the tick do between two points at which another may come in. -/
inductive Action
  /-- Players join and leave. -/
  | roster (players : List PlayerInfo)
  /-- An explicit kick, up to its lookup. -/
  | kick (identifier reason : Bytes)
  /-- A call under way ends; `ok` when the game kicked the player. -/
  | callDone (index : ℕ) (ok : Bool)
  /-- `DomBans::Ban` up to its kick, and the lookup of that kick. -/
  | ban (player reason now : Bytes)
  | banKick (index : ℕ)
  | unban (identifier : Bytes)
  /-- The tick falls due, and the enforcement thread takes a step. -/
  | tickBegin
  | tickNext
  deriving DecidableEq, Repr

/-- `KickPlayer` is called: the call that is under way when its lookup finds a player. -/
def startCall (s : State) (origin : Origin) (identifier reason : Bytes) : Option Call :=
  match kickLookup s.roster identifier with
  | .found m => some ⟨origin, m.player, reason⟩
  | _ => none

/-- `KickPlayer` has removed a player: `RememberKick`, and the history of explicit kicks. -/
def landCall (s : State) (call : Call) : State :=
  { s with
    kicked := rememberKick call.matched.uniqueNetId call.matched.name call.reason s.kicked
    explicit :=
      if call.origin = .explicit then call.matched.uniqueNetId :: s.explicit else s.explicit }

/-- The enforcement thread comes back from `KickPlayer`. -/
def Tick.resume : Tick → Tick
  | .waiting next => next
  | tick => tick

/-- The step of the enforcement thread. -/
def tickStep (s : State) : Option State :=
  match s.tick with
  | .idle => none
  | .snapshotKicks => some { s with tick := .enforceKicks s.roster }
  | .enforceKicks [] => some { s with tick := .copyBans }
  | .enforceKicks (player :: todo) =>
      if player.uniqueNetId = [] then some { s with tick := .enforceKicks todo }
      else
        match s.kicked.find? fun entry => entry.netId == player.uniqueNetId with
        | some entry =>
            some { s with tick := .calling player.uniqueNetId entry.reason (.enforceKicks todo) }
        | none => some { s with tick := .enforceKicks todo }
  | .copyBans =>
      some { s with tick := if s.bans = [] then .idle else .snapshotBans s.bans }
  | .snapshotBans bans => some { s with tick := .enforceBans bans s.roster }
  | .enforceBans _ [] => some { s with tick := .idle }
  | .enforceBans bans (player :: todo) =>
      if player.uniqueNetId = [] then some { s with tick := .enforceBans bans todo }
      else
        match bans.find? fun ban => ban.netId == player.uniqueNetId with
        | some ban =>
            some { s with
              tick := .calling player.uniqueNetId ban.reason (.enforceBans bans todo) }
        | none => some { s with tick := .enforceBans bans todo }
  | .calling netId reason next =>
      match startCall s .tick netId reason with
      | some call => some { s with calls := s.calls ++ [call], tick := .waiting next }
      | none => some { s with tick := next }
  | .waiting _ => none

/-- One atomic action. -/
def step (s : State) : Action → Option State
  | .roster players => some { s with roster := players }
  | .kick identifier reason =>
      some { s with calls := s.calls ++ (startCall s .explicit identifier reason).toList }
  | .callDone index ok =>
      match s.calls[index]? with
      | none => none
      | some call =>
          let s := { s with calls := s.calls.eraseIdx index }
          let s := if call.origin = .tick then { s with tick := s.tick.resume } else s
          some (if ok then landCall s call else s)
  | .ban player reason now =>
      match DomBans.banTarget s.roster player with
      | .error _ => some s
      | .ok (netId, name) =>
          match banLocked netId name reason now s.bans with
          | .error _ => some s
          | .ok bans => some { s with bans, banKicks := s.banKicks ++ [(netId, reason)] }
  | .banKick index =>
      match s.banKicks[index]? with
      | none => none
      | some (netId, reason) =>
          some { s with
            banKicks := s.banKicks.eraseIdx index
            calls := s.calls ++ (startCall s .ban netId reason).toList }
  | .unban identifier =>
      match unban identifier s.bans with
      | .ok (_, rest) => some { s with bans := rest }
      | .error _ => some s
  | .tickBegin =>
      if s.tick = .idle then
        some { s with tick := if s.kicked = [] then .copyBans else .snapshotKicks }
      else none
  | .tickNext => tickStep s

/-! ### Who may be removed -/

/-- A net id that a tick may remove: banned, or the target of an explicit kick. -/
def Entitled (s : State) (n : Bytes) : Prop :=
  n ∈ netIds s.bans ∨ n ∈ s.explicit

instance (s : State) (n : Bytes) : Decidable (Entitled s n) :=
  inferInstanceAs (Decidable (_ ∨ _))

/-- The claim about a step: when the enforcement thread calls `KickPlayer` because of a
player, that player is entitled to removal at that moment. -/
def Justified (s : State) (a : Action) (_ : State) : Prop :=
  ∀ netId reason next, a = .tickNext → s.tick = .calling netId reason next → Entitled s netId

/-- The net ids that the running tick may still remove without looking at a list again. -/
def Tick.inHand : Tick → List Bytes
  | .snapshotBans bans => netIds bans
  | .enforceBans bans todo => (todo.map PlayerInfo.uniqueNetId).filter (· ∈ netIds bans)
  | .calling netId _ next => netId :: next.inHand
  | .waiting next => next.inHand
  | .idle | .snapshotKicks | .enforceKicks _ | .copyBans => []

/-- The condition on a step. An `Unban` lifts no ban of a player whom `g_Kicked` remembers
or the running tick is about to remove, unless that player was also kicked explicitly; a
kick on behalf of a ban or of the tick lands on nobody who is neither banned nor was kicked
explicitly. -/
def Harmless (s : State) : Action → Prop
  | .unban identifier =>
      match unban identifier s.bans with
      | .ok (entry, rest) =>
          entry.netId ∈ kickedNetIds s.kicked ∨ entry.netId ∈ s.tick.inHand →
            entry.netId ∈ netIds rest ∨ entry.netId ∈ s.explicit
      | .error _ => True
  | .callDone index true =>
      match s.calls[index]? with
      | some call =>
          call.origin ≠ .explicit → call.matched.uniqueNetId ≠ [] →
            Entitled s call.matched.uniqueNetId
      | none => True
  | _ => True

instance (s : State) (a : Action) : Decidable (Harmless s a) := by
  unfold Harmless
  split
  · split <;> infer_instance
  · split <;> infer_instance
  · infer_instance

/-- The invariant: everybody whom `g_Kicked` remembers, and everybody whom the running tick
is about to remove, is entitled to removal. -/
structure Sound (s : State) : Prop where
  kicked : ∀ n ∈ kickedNetIds s.kicked, Entitled s n
  inHand : ∀ n ∈ s.tick.inHand, Entitled s n

/-- A fresh process: nobody has been kicked, and no tick is running. -/
theorem sound_start (roster : List PlayerInfo) (bans : List BanEntry) :
    Sound { roster, bans } :=
  ⟨by simp [kickedNetIds], by simp [Tick.inHand]⟩

/-- A step that keeps `g_Kicked` and takes no entitlement away keeps the invariant, as long
as the tick takes nobody new in hand who is not entitled. -/
theorem Sound.of_frame {s t : State} (hs : Sound s) (hk : t.kicked = s.kicked)
    (he : ∀ n, Entitled s n → Entitled t n)
    (ht : ∀ n ∈ t.tick.inHand, n ∈ s.tick.inHand ∨ Entitled t n) : Sound t := by
  refine ⟨fun n hn => he n (hs.kicked n (hk ▸ hn)), fun n hn => ?_⟩
  rcases ht n hn with h | h
  · exact he n (hs.inHand n h)
  · exact h

/-- A tick has no net id in hand that it had not before. -/
theorem inHand_resume {tick : Tick} {n : Bytes} (h : n ∈ tick.resume.inHand) :
    n ∈ tick.inHand := by
  cases tick with
  | waiting next => exact h
  | idle | snapshotKicks | enforceKicks | copyBans | snapshotBans | enforceBans | calling =>
      exact h

/-- A kick that lands on an entitled player keeps the invariant; an explicit one entitles. -/
theorem sound_landCall {s : State} {call : Call} (hs : Sound s)
    (h : call.origin ≠ .explicit → call.matched.uniqueNetId ≠ [] →
      Entitled s call.matched.uniqueNetId) : Sound (landCall s call) := by
  have he : ∀ n, Entitled s n → Entitled (landCall s call) n := by
    rintro n (hn | hn)
    · exact Or.inl hn
    · right
      simp only [landCall]
      split
      · exact List.mem_cons_of_mem _ hn
      · exact hn
  refine ⟨fun n hn => ?_, fun n hn => he n (hs.inHand n hn)⟩
  rcases mem_rememberKick.mp hn with hn | ⟨rfl, hne⟩
  · exact he n (hs.kicked n hn)
  · by_cases ho : call.origin = .explicit
    · right
      simp [landCall, ho]
    · exact he _ (h ho hne)

/-- The tick goes on, with nobody new in hand who is not entitled; calls make no difference. -/
theorem Sound.withTick {s : State} (hs : Sound s) {tick : Tick} {calls : List Call}
    (h : ∀ n ∈ tick.inHand, n ∈ s.tick.inHand ∨ Entitled s n) :
    Sound { s with calls, tick } :=
  hs.of_frame rfl (fun _ hn => hn) h

/-- **Step lemma for the enforcement thread**: it takes in hand only players that a list it
has just looked at names. -/
theorem sound_tickStep {s t : State} (hs : Sound s) (h : tickStep s = some t) : Sound t := by
  rw [tickStep] at h
  split at h
  · cases h
  · obtain rfl := Option.some.inj h
    exact hs.withTick (by simp [Tick.inHand])
  · obtain rfl := Option.some.inj h
    exact hs.withTick (by simp [Tick.inHand])
  · next player todo _ =>
      split at h
      · obtain rfl := Option.some.inj h
        exact hs.withTick (by simp [Tick.inHand])
      · split at h
        · next entry hentry =>
            obtain rfl := Option.some.inj h
            refine hs.withTick fun n hn => Or.inr ?_
            obtain rfl : n = player.uniqueNetId := by simpa [Tick.inHand] using hn
            exact hs.kicked _ (mem_of_find_eq_some hentry)
        · obtain rfl := Option.some.inj h
          exact hs.withTick (by simp [Tick.inHand])
  · obtain rfl := Option.some.inj h
    refine hs.withTick fun n hn => ?_
    split at hn
    · simp [Tick.inHand] at hn
    · exact Or.inr (Or.inl hn)
  · next bans htick =>
      obtain rfl := Option.some.inj h
      refine hs.withTick fun n hn => Or.inl ?_
      have hmem : n ∈ netIds bans := by simpa using (List.mem_filter.mp hn).2
      rw [htick]
      exact hmem
  · obtain rfl := Option.some.inj h
    exact hs.withTick (by simp [Tick.inHand])
  · next bans player todo htick =>
      have htodo : ∀ n ∈ (Tick.enforceBans bans todo).inHand, n ∈ s.tick.inHand := by
        intro n hn
        obtain ⟨hn, hb⟩ := List.mem_filter.mp hn
        rw [htick]
        exact List.mem_filter.mpr ⟨List.mem_cons_of_mem _ hn, hb⟩
      split at h
      · obtain rfl := Option.some.inj h
        exact hs.withTick fun n hn => Or.inl (htodo n hn)
      · split at h
        · next ban hban =>
            obtain rfl := Option.some.inj h
            refine hs.withTick fun n hn => Or.inl ?_
            rcases List.mem_cons.mp hn with rfl | hn
            · have hmem : player.uniqueNetId ∈ netIds bans := mem_of_find_eq_some hban
              rw [htick]
              exact List.mem_filter.mpr ⟨List.mem_cons_self, by simpa using hmem⟩
            · exact htodo n hn
        · obtain rfl := Option.some.inj h
          exact hs.withTick fun n hn => Or.inl (htodo n hn)
  · next netId reason next htick =>
      have hnext : ∀ n ∈ next.inHand, n ∈ s.tick.inHand := by
        intro n hn
        rw [htick]
        exact List.mem_cons_of_mem _ hn
      split at h
      · obtain rfl := Option.some.inj h
        exact hs.withTick fun n hn => Or.inl (hnext n hn)
      · obtain rfl := Option.some.inj h
        exact hs.withTick fun n hn => Or.inl (hnext n hn)
  · cases h

/-- A kick that comes back: its call leaves the list, and the tick resumes if it was its own. -/
theorem sound_callDone {s : State} (hs : Sound s) (index : ℕ) (call : Call) :
    Sound (if call.origin = .tick then
      { s with calls := s.calls.eraseIdx index, tick := s.tick.resume }
      else { s with calls := s.calls.eraseIdx index }) := by
  split
  · exact hs.withTick fun n hn => Or.inl (inHand_resume hn)
  · exact hs.withTick fun n hn => Or.inl hn

/-- A ban takes no entitlement away. -/
theorem sound_ban {s : State} {netId name reason now : Bytes} {bans : List BanEntry}
    (hs : Sound s) (h : banLocked netId name reason now s.bans = .ok bans) :
    Sound { s with bans, banKicks := s.banKicks ++ [(netId, reason)] } := by
  obtain ⟨-, rfl⟩ := banLocked_ok h
  refine hs.of_frame rfl ?_ fun n hn => Or.inl hn
  rintro n (hn | hn)
  · left
    simp only [netIds, List.map_append, List.mem_append]
    exact Or.inl hn
  · exact Or.inr hn

/-- An unban keeps the invariant under its condition: the lifted net id keeps its entitlement, if
it is remembered or in hand, and every other one its ban. -/
theorem sound_unban {s : State} {identifier : Bytes} {entry : BanEntry} {rest : List BanEntry}
    (hs : Sound s) (h : unban identifier s.bans = .ok (entry, rest))
    (hok : entry.netId ∈ kickedNetIds s.kicked ∨ entry.netId ∈ s.tick.inHand →
      entry.netId ∈ netIds rest ∨ entry.netId ∈ s.explicit) : Sound { s with bans := rest } := by
  have he : ∀ n, n ∈ kickedNetIds s.kicked ∨ n ∈ s.tick.inHand → Entitled s n →
      n ∈ netIds rest ∨ n ∈ s.explicit := by
    rintro n hn (hb | hx)
    · by_cases hne : n = entry.netId
      · subst hne
        exact hok hn
      · exact Or.inl (netIds_unban h hb hne)
    · exact Or.inr hx
  exact ⟨fun n hn => he n (Or.inl hn) (hs.kicked n hn),
    fun n hn => he n (Or.inr hn) (hs.inHand n hn)⟩

/-- **Step lemma**: a harmless step keeps the invariant. -/
theorem sound_step {s t : State} {a : Action} (hs : Sound s) (hok : Harmless s a)
    (h : step s a = some t) : Sound t := by
  cases a with
  | roster players =>
      obtain rfl := Option.some.inj h
      exact hs.of_frame rfl (fun _ hn => hn) fun n hn => Or.inl hn
  | kick identifier reason =>
      obtain rfl := Option.some.inj h
      exact hs.withTick fun n hn => Or.inl hn
  | callDone index ok =>
      simp only [step] at h
      split at h
      · cases h
      · next call hcall =>
          obtain rfl := Option.some.inj h
          have hback := sound_callDone hs index call
          cases ok with
          | false => exact hback
          | true =>
              refine sound_landCall hback fun ho hne => ?_
              simp only [Harmless, hcall] at hok
              have he : Entitled s call.matched.uniqueNetId := hok ho hne
              split <;> exact he
  | ban player reason now =>
      simp only [step] at h
      split at h
      · obtain rfl := Option.some.inj h
        exact hs
      · split at h
        · obtain rfl := Option.some.inj h
          exact hs
        · next bans hlocked =>
            obtain rfl := Option.some.inj h
            exact sound_ban hs hlocked
  | banKick index =>
      simp only [step] at h
      split at h
      · cases h
      · obtain rfl := Option.some.inj h
        exact hs.of_frame rfl (fun _ hn => hn) fun n hn => Or.inl hn
  | unban identifier =>
      simp only [step] at h
      split at h
      · next entry rest hunban =>
          obtain rfl := Option.some.inj h
          simp only [Harmless, hunban] at hok
          exact sound_unban hs hunban hok
      · obtain rfl := Option.some.inj h
        exact hs
  | tickBegin =>
      simp only [step] at h
      split at h
      · obtain rfl := Option.some.inj h
        refine hs.withTick fun n hn => ?_
        split at hn <;> simp [Tick.inHand] at hn
      · cases h
  | tickNext => exact sound_tickStep hs h

/-- Under the invariant, whom the enforcement thread is about to remove is entitled. -/
theorem Sound.justified {s : State} (hs : Sound s) (a : Action) (t : State) :
    Justified s a t := by
  intro netId reason next _ htick
  refine hs.inHand netId ?_
  rw [htick]
  exact List.mem_cons_self

/-- **Enforcement removes only players who are banned or were kicked explicitly**, in every
run whose steps are harmless, from any roster and ban list. -/
theorem justified_of_harmless (roster : List PlayerInfo) (bans : List BanEntry)
    (as : List Action)
    (h : EveryStep step (fun s a _ => Harmless s a) { roster, bans } as) :
    EveryStep step Justified { roster, bans } as := by
  refine everyStep_of_invariant (I := Sound) ?_ ?_ (sound_start roster bans) h
  · intro s a t hs hok hstep
    exact sound_step hs hok hstep
  · intro s a t hs _ _
    exact hs.justified a t

/-- A player who was kicked explicitly and comes back: the hypothesis holds of that run. -/
theorem justified_of_harmless_kick :
    let player : PlayerInfo := { uniqueNetId := bytes "76561190000000001", controllerPtr := 1 }
    EveryStep step Justified { roster := [player] }
      [.kick player.uniqueNetId [], .callDone 0 true, .tickBegin, .tickNext, .tickNext,
        .tickNext] :=
  justified_of_harmless _ _ _ (by decide)

/-- A player is banned, kicked by that ban and unbanned; on the next tick `EnforceKicks`
removes the player again. -/
theorem not_justified_after_unban :
    ¬ ∀ (roster : List PlayerInfo) (bans : List BanEntry) (as : List Action),
      EveryStep step Justified { roster, bans } as := by
  intro hall
  let n : Bytes := bytes "76561190000000001"
  let player : PlayerInfo := { uniqueNetId := n, controllerPtr := 1 }
  have h := hall [player] [] ([.ban n [] [], .banKick 0, .callDone 0 true, .unban n,
    .tickBegin, .tickNext, .tickNext] ++ [.tickNext])
  have hjust := h.of_exec rfl rfl n [] (.enforceKicks []) rfl rfl
  exact absurd hjust (by decide)

end RSDWServerAPI.Enforcement
