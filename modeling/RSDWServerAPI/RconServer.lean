import RSDWServerAPI.AccessControl
import RSDWServerAPI.RconSession
import RSDWServerAPI.Transition

/-!
# `rcon/rcon_server.cpp`: the listener and its connections

One thread accepts connections, and each connection that it lets in is served by a thread of its
own. The threads meet at the failure tracker, which is asked in front of a connection and told
about every password that is compared, and at the number of connections.

An address is blocked in front of its next connection only: those that are being served go on
until their next wrong password.

## Main results

* `afterRead_eq`: what a packet does to a connection here is what `HandleClient` does with it.
* `guessing_bounded`: **once an address is blocked**, no more wrong passwords are compared for it
  than connections are allowed, and none of its connections is let in.
-/

namespace RSDWServerAPI.Rcon

open AccessControl Transition

/-! ### The code -/

/-- Where `ListenerLoop` stands with a connection that it has accepted. -/
inductive Listener
  /-- It waits for a connection. -/
  | idle
  /-- It has accepted one. -/
  | accepted (peer : UInt32)
  /-- The filter has let it through. -/
  | filtered (peer : UInt32)
  /-- It is not blocked. -/
  | checked (peer : UInt32)
  /-- There is room for it. -/
  | admitted (peer : UInt32)
  /-- It has been counted, and its thread is about to start. -/
  | counted (peer : UInt32)
  deriving DecidableEq, Repr

/-- Where the thread of a connection stands. -/
inductive Phase
  /-- At `ReadPacket`. -/
  | reading (authenticated : Bool)
  /-- A packet carries the password: `RecordSuccess` is next. -/
  | matched
  /-- A packet carries another one: `RecordFailure` is next. -/
  | failed
  /-- The loop has been left: `HandleClient` is about to return. -/
  | leaving
  /-- `HandleClient` has returned: the connection is about to be taken off the count. -/
  | returned
  /-- The thread has ended. -/
  | gone
  deriving DecidableEq, Repr

/-- A connection that has been let in. -/
structure Client where
  peer : UInt32
  phase : Phase
  deriving DecidableEq, Repr

/-- A server that has been started: its settings and the rules of its filter. -/
structure Server where
  config : RconConfig
  rules : List Rule

/-- What the threads share, and where each of them stands. -/
structure State where
  now : ℕ
  tracker : FailureTracker
  connections : ℕ
  listener : Listener
  clients : List Client

/-- The failure tracker as `Start` configures it. -/
def trackerOf (config : RconConfig) : FailureTracker :=
  FailureTracker.configure config.maxFailedAuth config.failWindowSeconds config.banSeconds

/-- A server that has just been started. -/
def Server.start (server : Server) (now : ℕ) : State where
  now := now
  tracker := trackerOf server.config
  connections := 0
  listener := .idle
  clients := []

/-- What happens to a connection at `ReadPacket`: nothing is returned, or a packet is. -/
def afterRead (config : RconConfig) (authenticated : Bool) : Option Packet → Phase
  | none => .leaving
  | some p =>
      if p.type = auth then
        if secretsMatch p.body config.password then .matched else .failed
      else if authenticated = false then .leaving
      else .reading true

/-- An atomic step: of the clock, of the listener, or of the thread of a connection. -/
inductive Action
  | tick (elapsed : ℕ)
  | accept (peer : UInt32)
  | filter
  | checkBlocked
  | checkLimit
  | count
  | spawn
  | read (i : ℕ) (received : Option Packet)
  | record (i : ℕ)
  | finish (i : ℕ)
  | release (i : ℕ)
  deriving DecidableEq, Repr

/-- The thread of a connection goes on to another phase. -/
def State.goOn (s : State) (i : ℕ) (peer : UInt32) (phase : Phase) : State :=
  { s with clients := s.clients.set i { peer := peer, phase := phase } }

/-- The state after an atomic step, `none` where no thread is about to take it. -/
def step (server : Server) (s : State) : Action → Option State
  | .tick elapsed => some { s with now := s.now + elapsed }
  | .accept peer =>
      match s.listener with
      | .idle => some { s with listener := .accepted peer }
      | _ => none
  | .filter =>
      match s.listener with
      | .accepted peer =>
          some { s with listener := if allows server.rules peer then .filtered peer else .idle }
      | _ => none
  | .checkBlocked =>
      match s.listener with
      | .filtered peer =>
          let asked := s.tracker.isBlocked s.now peer
          some { s with
            tracker := asked.2, listener := if asked.1 then .idle else .checked peer }
      | _ => none
  | .checkLimit =>
      match s.listener with
      | .checked peer =>
          some { s with
            listener :=
              if server.config.maxConnections.toInt ≤ s.connections then .idle
              else .admitted peer }
      | _ => none
  | .count =>
      match s.listener with
      | .admitted peer =>
          some { s with connections := s.connections + 1, listener := .counted peer }
      | _ => none
  | .spawn =>
      match s.listener with
      | .counted peer =>
          some { s with
            clients := s.clients ++ [{ peer := peer, phase := .reading false }], listener := .idle }
      | _ => none
  | .read i received =>
      match s.clients[i]? with
      | some { peer := peer, phase := .reading authenticated } =>
          some (s.goOn i peer (afterRead server.config authenticated received))
      | _ => none
  | .record i =>
      match s.clients[i]? with
      | some { peer := peer, phase := .matched } =>
          some { s.goOn i peer (.reading true) with
            tracker := s.tracker.recordSuccess s.now peer }
      | some { peer := peer, phase := .failed } =>
          some { s.goOn i peer .leaving with
            tracker := (s.tracker.recordFailure s.now peer).2 }
      | _ => none
  | .finish i =>
      match s.clients[i]? with
      | some { peer := peer, phase := .leaving } => some (s.goOn i peer .returned)
      | _ => none
  | .release i =>
      match s.clients[i]? with
      | some { peer := peer, phase := .returned } =>
          some { s.goOn i peer .gone with connections := s.connections - 1 }
      | _ => none

/-- The connection goes on after its next step with the tracker. -/
def Phase.goesOn : Phase → Bool
  | .reading _ | .matched => true
  | .failed | .leaving | .returned | .gone => false

/-- **A packet does to a connection what `HandleClient` does with it**: the loop goes on or is
left, and the tracker is told about a password that is compared. -/
theorem afterRead_eq (service : Service) (s : Session) (p : Packet) :
    (onPacket service s p).2 =
        (afterRead service.config s.authenticated (some p)).goesOn ∧
      (onPacket service s p).1.recorded = s.recorded ++
        match afterRead service.config s.authenticated (some p) with
        | .matched => [.success]
        | .failed => [.failure]
        | _ => [] := by
  rw [onPacket, afterRead]
  split_ifs <;> simp [Phase.goesOn, Session.record, Session.send]

/-! ### What a step can do -/

section Steps

variable {server : Server} {s t : State} {a : Action}

/-- What a step does, one way for each place where a thread can stand. -/
inductive Moves (server : Server) (s : State) : Action → State → Prop
  | tick (elapsed : ℕ) : Moves server s (.tick elapsed) { s with now := s.now + elapsed }
  | accept (peer : UInt32) (h : s.listener = .idle) :
      Moves server s (.accept peer) { s with listener := .accepted peer }
  | pass (peer : UInt32) (h : s.listener = .accepted peer) :
      Moves server s .filter { s with listener := .filtered peer }
  | turnAway (peer : UInt32) (h : s.listener = .accepted peer) :
      Moves server s .filter { s with listener := .idle }
  | refuse (peer : UInt32) (h : s.listener = .filtered peer)
      (hblocked : (s.tracker.isBlocked s.now peer).1 = true) :
      Moves server s .checkBlocked
        { s with tracker := (s.tracker.isBlocked s.now peer).2, listener := .idle }
  | check (peer : UInt32) (h : s.listener = .filtered peer)
      (hblocked : (s.tracker.isBlocked s.now peer).1 = false) :
      Moves server s .checkBlocked
        { s with tracker := (s.tracker.isBlocked s.now peer).2, listener := .checked peer }
  | full (peer : UInt32) (h : s.listener = .checked peer) :
      Moves server s .checkLimit { s with listener := .idle }
  | room (peer : UInt32) (h : s.listener = .checked peer)
      (hroom : (s.connections : ℤ) < server.config.maxConnections.toInt) :
      Moves server s .checkLimit { s with listener := .admitted peer }
  | count (peer : UInt32) (h : s.listener = .admitted peer) :
      Moves server s .count
        { s with connections := s.connections + 1, listener := .counted peer }
  | spawn (peer : UInt32) (h : s.listener = .counted peer) :
      Moves server s .spawn
        { s with
          clients := s.clients ++ [{ peer := peer, phase := .reading false }], listener := .idle }
  | read (i : ℕ) (received : Option Packet) (peer : UInt32) (authenticated : Bool)
      (h : s.clients[i]? = some { peer := peer, phase := .reading authenticated }) :
      Moves server s (.read i received)
        (s.goOn i peer (afterRead server.config authenticated received))
  | recordSuccess (i : ℕ) (peer : UInt32)
      (h : s.clients[i]? = some { peer := peer, phase := .matched }) :
      Moves server s (.record i)
        { s.goOn i peer (.reading true) with tracker := s.tracker.recordSuccess s.now peer }
  | recordFailure (i : ℕ) (peer : UInt32)
      (h : s.clients[i]? = some { peer := peer, phase := .failed }) :
      Moves server s (.record i)
        { s.goOn i peer .leaving with tracker := (s.tracker.recordFailure s.now peer).2 }
  | finish (i : ℕ) (peer : UInt32)
      (h : s.clients[i]? = some { peer := peer, phase := .leaving }) :
      Moves server s (.finish i) (s.goOn i peer .returned)
  | release (i : ℕ) (peer : UInt32)
      (h : s.clients[i]? = some { peer := peer, phase := .returned }) :
      Moves server s (.release i)
        { s.goOn i peer .gone with connections := s.connections - 1 }

/-- **What a step can do.** -/
theorem moves_of_step (h : step server s a = some t) : Moves server s a t := by
  cases a with
  | tick elapsed =>
      obtain rfl := Option.some.inj h
      exact .tick elapsed
  | accept peer =>
      rw [step] at h
      split at h
      · next hl =>
          obtain rfl := Option.some.inj h
          exact .accept peer hl
      · cases h
  | filter =>
      rw [step] at h
      split at h
      · next peer hl =>
          obtain rfl := Option.some.inj h
          split_ifs
          · exact .pass peer hl
          · exact .turnAway peer hl
      · cases h
  | checkBlocked =>
      rw [step] at h
      split at h
      · next peer hl =>
          obtain rfl := Option.some.inj h
          split_ifs with hblocked
          · exact .refuse peer hl hblocked
          · exact .check peer hl (by simpa using hblocked)
      · cases h
  | checkLimit =>
      rw [step] at h
      split at h
      · next peer hl =>
          obtain rfl := Option.some.inj h
          split_ifs with hfull
          · exact .full peer hl
          · exact .room peer hl (not_le.mp hfull)
      · cases h
  | count =>
      rw [step] at h
      split at h
      · next peer hl =>
          obtain rfl := Option.some.inj h
          exact .count peer hl
      · cases h
  | spawn =>
      rw [step] at h
      split at h
      · next peer hl =>
          obtain rfl := Option.some.inj h
          exact .spawn peer hl
      · cases h
  | read i received =>
      rw [step] at h
      split at h
      · next peer authenticated hc =>
          obtain rfl := Option.some.inj h
          exact .read i received peer authenticated hc
      · cases h
  | record i =>
      rw [step] at h
      split at h
      · next peer hc =>
          obtain rfl := Option.some.inj h
          exact .recordSuccess i peer hc
      · next peer hc =>
          obtain rfl := Option.some.inj h
          exact .recordFailure i peer hc
      · cases h
  | finish i =>
      rw [step] at h
      split at h
      · next peer hc =>
          obtain rfl := Option.some.inj h
          exact .finish i peer hc
      · cases h
  | release i =>
      rw [step] at h
      split at h
      · next peer hc =>
          obtain rfl := Option.some.inj h
          exact .release i peer hc
      · cases h

/-- How many connections have a property, before and after one of them goes on. -/
theorem countP_goOn (p : Client → Bool) {i : ℕ} {peer : UInt32} {old : Phase}
    (h : s.clients[i]? = some { peer := peer, phase := old }) (new : Phase) :
    (s.goOn i peer new).clients.countP p + (if p { peer := peer, phase := old } then 1 else 0) =
      s.clients.countP p + (if p { peer := peer, phase := new } then 1 else 0) := by
  obtain ⟨hlt, hget⟩ := List.getElem?_eq_some_iff.mp h
  have hle := List.boole_getElem_le_countP (p := p) hlt
  rw [hget] at hle
  rw [State.goOn, List.countP_set hlt, hget]
  omega

/-! ### Connections are counted -/

/-- The connection has been let in and is on the count. -/
def Client.live (c : Client) : Bool :=
  c.phase ≠ .gone

/-- A call of `HandleClient` is running for the connection. -/
def Client.running (c : Client) : Bool :=
  c.phase ≠ .returned ∧ c.phase ≠ .gone

/-- The listener has counted a connection whose thread has not started. -/
def Listener.hasCounted : Listener → Bool
  | .counted _ => true
  | .idle | .accepted _ | .filtered _ | .checked _ | .admitted _ => false

/-- The connections that are allowed at a time. -/
def Server.limit (server : Server) : ℕ :=
  server.config.maxConnections.toInt.toNat

/-- **The count is right**: it is that of the connections that have been let in, and it stays
within the limit. -/
structure Counted (server : Server) (s : State) : Prop where
  live : s.clients.countP Client.live + (if s.listener.hasCounted then 1 else 0) = s.connections
  room : s.connections ≤ server.limit
  admitted : ∀ peer, s.listener = .admitted peer → s.connections < server.limit
  ban : s.tracker.banSeconds = (trackerOf server.config).banSeconds

/-- The count is right at the start. -/
theorem counted_start (server : Server) (now : ℕ) : Counted server (server.start now) where
  live := rfl
  room := Nat.zero_le _
  admitted := fun _ h => nomatch h
  ban := rfl

/-- A connection that goes on without ending or having ended stays on the count. -/
theorem Counted.goOn (hs : Counted server s) {i : ℕ} {peer : UInt32} {old new : Phase}
    (h : s.clients[i]? = some { peer := peer, phase := old }) (hold : old ≠ .gone)
    (hnew : new ≠ .gone) : Counted server (s.goOn i peer new) := by
  have hcount := countP_goOn Client.live h new
  have holdlive : Client.live { peer := peer, phase := old } = true := decide_eq_true hold
  have hnewlive : Client.live { peer := peer, phase := new } = true := decide_eq_true hnew
  rw [holdlive, hnewlive] at hcount
  exact ⟨by rw [Nat.add_right_cancel hcount]; exact hs.live, hs.room, hs.admitted, hs.ban⟩

/-- The tracker makes no difference to the count, as long as it bans as long. -/
theorem Counted.withTracker (hs : Counted server s) {tracker : FailureTracker}
    (h : tracker.banSeconds = s.tracker.banSeconds) :
    Counted server { s with tracker := tracker } :=
  ⟨hs.live, hs.room, hs.admitted, h.trans hs.ban⟩

/-- A listener that goes on before a connection is counted makes no difference to the count. -/
theorem Counted.withListener (hs : Counted server s) {l : Listener}
    (hbefore : s.listener.hasCounted = false) (hafter : l.hasCounted = false)
    (hadmitted : ∀ peer, l = .admitted peer → s.connections < server.limit) :
    Counted server { s with listener := l } :=
  ⟨by rw [hafter, ← hbefore]; exact hs.live, hs.room, hadmitted, hs.ban⟩

/-- **Every step keeps the count right.** -/
theorem Counted.step (hs : Counted server s) (h : step server s a = some t) :
    Counted server t := by
  cases moves_of_step h with
  | tick elapsed => exact ⟨hs.live, hs.room, hs.admitted, hs.ban⟩
  | accept peer hl => exact hs.withListener (by rw [hl]; rfl) rfl fun _ h => nomatch h
  | pass peer hl => exact hs.withListener (by rw [hl]; rfl) rfl fun _ h => nomatch h
  | turnAway peer hl => exact hs.withListener (by rw [hl]; rfl) rfl fun _ h => nomatch h
  | refuse peer hl =>
      have hon : Counted server { s with listener := .idle } :=
        hs.withListener (by rw [hl]; rfl) rfl fun _ h => nomatch h
      exact hon.withTracker (FailureTracker.banSeconds_isBlocked _ _ _)
  | check peer hl =>
      have hon : Counted server { s with listener := .checked peer } :=
        hs.withListener (by rw [hl]; rfl) rfl fun _ h => nomatch h
      exact hon.withTracker (FailureTracker.banSeconds_isBlocked _ _ _)
  | full peer hl => exact hs.withListener (by rw [hl]; rfl) rfl fun _ h => nomatch h
  | room peer hl hroom =>
      refine hs.withListener (by rw [hl]; rfl) rfl fun _ _ => ?_
      rw [Server.limit]
      omega
  | count peer hl =>
      have hlive := hs.live
      rw [hl] at hlive
      refine ⟨?_, hs.admitted peer hl, (fun _ h => nomatch h), hs.ban⟩
      exact congrArg (· + 1) hlive
  | spawn peer hl =>
      have hlive := hs.live
      rw [hl] at hlive
      refine ⟨?_, hs.room, (fun _ h => nomatch h), hs.ban⟩
      rw [List.countP_append]
      exact hlive
  | read i received peer authenticated hc =>
      refine hs.goOn hc Phase.noConfusion ?_
      cases received with
      | none => exact Phase.noConfusion
      | some p =>
          rw [afterRead]
          split_ifs <;> exact Phase.noConfusion
  | recordSuccess i peer hc =>
      exact (hs.goOn hc Phase.noConfusion Phase.noConfusion).withTracker
        (FailureTracker.banSeconds_recordSuccess _ _ _)
  | recordFailure i peer hc =>
      exact (hs.goOn hc Phase.noConfusion Phase.noConfusion).withTracker
        (FailureTracker.banSeconds_recordFailure _ _ _)
  | finish i peer hc => exact hs.goOn hc Phase.noConfusion Phase.noConfusion
  | release i peer hc =>
      have hcount := countP_goOn Client.live hc .gone
      have hlive := hs.live
      have hroom := hs.room
      have hreturned : Client.live { peer := peer, phase := .returned } = true := rfl
      have hgone : Client.live { peer := peer, phase := .gone } = false := rfl
      rw [hreturned, hgone] at hcount
      simp only [if_true, Bool.false_eq_true, if_false] at hcount
      refine ⟨?_, ?_, fun other hl => ?_, hs.ban⟩
      · change (s.goOn i peer .gone).clients.countP Client.live +
          (if s.listener.hasCounted then 1 else 0) = s.connections - 1
        omega
      · change s.connections - 1 ≤ server.limit
        omega
      · have := hs.admitted other hl
        change s.connections - 1 < server.limit
        omega

/-- Calls of `HandleClient` are running for live connections only. -/
theorem running_le_live (clients : List Client) :
    clients.countP Client.running ≤ clients.countP Client.live :=
  List.countP_mono_left fun c _ h => by
    have hrunning : c.phase ≠ .returned ∧ c.phase ≠ .gone := of_decide_eq_true h
    exact decide_eq_true hrunning.2

/-! ### Blocked addresses -/

/-- The address whose password is found to be wrong in a step. -/
def failedFor (server : Server) (s : State) : Action → Option UInt32
  | .read i received =>
      match s.clients[i]? with
      | some { peer := peer, phase := .reading authenticated } =>
          if afterRead server.config authenticated received = .failed then some peer else none
      | _ => none
  | _ => none

/-- A wrong password for an address, before a time. -/
def failsBefore (server : Server) (addr : UInt32) (deadline : ℕ) (s : State) (a : Action) : Bool :=
  decide (s.now < deadline) && decide (failedFor server s a = some addr)

/-- A connection of the address may still come to a wrong password. -/
def Client.mayFail (addr : UInt32) (c : Client) : Bool :=
  decide (c.peer = addr) && c.phase.goesOn

/-- The listener has a connection of the address that has been found not to be blocked. -/
def Listener.holds (addr : UInt32) : Listener → Bool
  | .checked peer | .admitted peer | .counted peer => decide (peer = addr)
  | .idle | .accepted _ | .filtered _ => false

/-- The connections of an address that may still come to a wrong password before a time. -/
def attempts (addr : UInt32) (deadline : ℕ) (s : State) : ℕ :=
  if s.now < deadline then
    s.clients.countP (Client.mayFail addr) + (if s.listener.holds addr then 1 else 0)
  else 0

/-- An address is blocked up to a time, and no new block would end before it. -/
structure Blocked (addr : UInt32) (deadline : ℕ) (s : State) : Prop where
  block : s.now < deadline → s.tracker.BlockedUntil addr deadline
  ban : deadline ≤ s.now + seconds s.tracker.banSeconds

variable {addr : UInt32} {deadline : ℕ}

/-- **Every step keeps an address blocked.** -/
theorem Blocked.step (hs : Blocked addr deadline s) (h : step server s a = some t) :
    Blocked addr deadline t := by
  obtain ⟨hblock, hban⟩ := hs
  have hasked : ∀ peer, Blocked addr deadline { s with
      tracker := (s.tracker.isBlocked s.now peer).2 } := fun peer =>
    ⟨fun hnow => ((hblock hnow).isBlocked hnow peer).1, by
      rw [FailureTracker.banSeconds_isBlocked]
      exact hban⟩
  cases moves_of_step h with
  | tick elapsed =>
      exact ⟨fun hnow => hblock (lt_of_le_of_lt (Nat.le_add_right _ _) hnow),
        hban.trans (Nat.add_le_add_right (Nat.le_add_right _ _) _)⟩
  | refuse peer hl => exact ⟨(hasked peer).block, (hasked peer).ban⟩
  | check peer hl => exact ⟨(hasked peer).block, (hasked peer).ban⟩
  | recordSuccess i peer hc =>
      exact ⟨fun hnow => (hblock hnow).recordSuccess hnow peer, by
        rw [FailureTracker.banSeconds_recordSuccess]
        exact hban⟩
  | recordFailure i peer hc =>
      exact ⟨fun hnow => (hblock hnow).recordFailure hban peer, by
        rw [FailureTracker.banSeconds_recordFailure]
        exact hban⟩
  | accept peer hl => exact ⟨hblock, hban⟩
  | pass peer hl => exact ⟨hblock, hban⟩
  | turnAway peer hl => exact ⟨hblock, hban⟩
  | full peer hl => exact ⟨hblock, hban⟩
  | room peer hl => exact ⟨hblock, hban⟩
  | count peer hl => exact ⟨hblock, hban⟩
  | spawn peer hl => exact ⟨hblock, hban⟩
  | read i received peer authenticated hc => exact ⟨hblock, hban⟩
  | finish i peer hc => exact ⟨hblock, hban⟩
  | release i peer hc => exact ⟨hblock, hban⟩

/-- **No connection of a blocked address is let in.** -/
theorem Blocked.refused (hs : Blocked addr deadline s)
    (h : Rcon.step server s .checkBlocked = some t) (hl : s.listener = .filtered addr)
    (hnow : s.now < deadline) : t.listener = .idle := by
  have hblocked := ((hs.block hnow).isBlocked hnow addr).2 rfl
  cases moves_of_step h with
  | refuse peer hpeer => rfl
  | check peer hpeer hfree =>
      obtain rfl : addr = peer := Listener.filtered.inj (hl.symm.trans hpeer)
      rw [hblocked] at hfree
      cases hfree

/-- A connection that goes on may fail no more often than it could. -/
theorem attempts_goOn (addr : UInt32) (deadline : ℕ) {i : ℕ} {peer : UInt32} {old : Phase}
    (h : s.clients[i]? = some { peer := peer, phase := old }) (new : Phase) :
    attempts addr deadline (s.goOn i peer new) +
        (if s.now < deadline ∧ peer = addr ∧ old.goesOn then 1 else 0) =
      attempts addr deadline s +
        (if s.now < deadline ∧ peer = addr ∧ new.goesOn then 1 else 0) := by
  have hcount := countP_goOn (Client.mayFail addr) h new
  rw [attempts, attempts]
  change (if s.now < deadline then (s.goOn i peer new).clients.countP (Client.mayFail addr) +
    (if s.listener.holds addr then 1 else 0) else 0) + _ = _
  by_cases hnow : s.now < deadline
  · simp only [Client.mayFail, Bool.and_eq_true, decide_eq_true_eq] at hcount
    simp only [hnow, if_true, true_and]
    omega
  · simp only [hnow, if_false, false_and]

/-- A listener that does not take a connection of the address past the check lets none fail. -/
theorem attempts_withListener {l : Listener} (tracker : FailureTracker) (connections : ℕ)
    (h : s.now < deadline → l.holds addr = true → s.listener.holds addr = true) :
    attempts addr deadline
        { s with tracker := tracker, connections := connections, listener := l } ≤
      attempts addr deadline s := by
  rw [attempts, attempts]
  dsimp only
  split_ifs with hnow hl hbefore
  · exact le_rfl
  · exact absurd (h hnow hl) hbefore
  · exact Nat.le_succ _
  · exact le_rfl
  · exact le_rfl

/-- A packet uses up its connection if its password is wrong. -/
theorem attempts_read (addr : UInt32) (deadline : ℕ) {i : ℕ} {peer : UInt32}
    {authenticated : Bool} (received : Option Packet)
    (hc : s.clients[i]? = some { peer := peer, phase := .reading authenticated }) :
    (if failsBefore server addr deadline s (.read i received) then 1 else 0) +
        attempts addr deadline
          (s.goOn i peer (afterRead server.config authenticated received)) ≤
      attempts addr deadline s := by
  have hmoved := attempts_goOn addr deadline hc
    (afterRead server.config authenticated received)
  have hfails : failsBefore server addr deadline s (.read i received) = true →
      (s.now < deadline ∧ peer = addr) ∧
        afterRead server.config authenticated received = .failed := by
    intro h
    rw [failsBefore, failedFor, hc] at h
    have h' : s.now < deadline ∧
        afterRead server.config authenticated received = .failed ∧ peer = addr := by
      simpa using h
    exact ⟨⟨h'.1, h'.2.2⟩, h'.2.1⟩
  have hcould : (if s.now < deadline ∧ peer = addr ∧
      (afterRead server.config authenticated received).goesOn = true then 1 else 0) ≤
        (if s.now < deadline ∧ peer = addr ∧ (Phase.reading authenticated).goesOn = true
          then 1 else 0) := by
    split_ifs with hnew hold
    · exact le_rfl
    · exact absurd ⟨hnew.1, hnew.2.1, rfl⟩ hold
    · exact Nat.zero_le _
    · exact le_rfl
  by_cases h : failsBefore server addr deadline s (.read i received) = true
  · obtain ⟨⟨hnow, hpeer⟩, hfailed⟩ := hfails h
    rw [hfailed] at hmoved ⊢
    rw [if_pos h]
    simp only [hnow, hpeer, Phase.goesOn, true_and, if_true, Bool.false_eq_true, if_false]
      at hmoved ⊢
    omega
  · rw [if_neg h, Nat.zero_add]
    omega

/-- **A wrong password uses up a connection**: no step lets more of them come to one, as long as
the address is blocked. -/
theorem attempts_step (hs : Blocked addr deadline s) (h : Rcon.step server s a = some t) :
    (if failsBefore server addr deadline s a then 1 else 0) + attempts addr deadline t ≤
      attempts addr deadline s := by
  have hquiet : failedFor server s a = none →
      (if failsBefore server addr deadline s a then 1 else 0) = 0 := fun hnone => by
    simp [failsBefore, hnone]
  cases moves_of_step h with
  | tick elapsed =>
      rw [hquiet rfl, Nat.zero_add, attempts, attempts]
      dsimp only
      split_ifs
      all_goals omega
  | accept peer hl =>
      rw [hquiet rfl, Nat.zero_add]
      exact attempts_withListener s.tracker s.connections fun _ h => nomatch h
  | pass peer hl =>
      rw [hquiet rfl, Nat.zero_add]
      exact attempts_withListener s.tracker s.connections fun _ h => nomatch h
  | turnAway peer hl =>
      rw [hquiet rfl, Nat.zero_add]
      exact attempts_withListener s.tracker s.connections fun _ h => nomatch h
  | refuse peer hl hblocked =>
      rw [hquiet rfl, Nat.zero_add]
      exact attempts_withListener _ s.connections fun _ h => nomatch h
  | check peer hl hfree =>
      rw [hquiet rfl, Nat.zero_add]
      refine attempts_withListener _ s.connections fun hnow hheld => ?_
      obtain rfl : peer = addr := of_decide_eq_true hheld
      rw [((hs.block hnow).isBlocked hnow peer).2 rfl] at hfree
      cases hfree
  | full peer hl =>
      rw [hquiet rfl, Nat.zero_add]
      exact attempts_withListener s.tracker s.connections fun _ h => nomatch h
  | room peer hl hroom =>
      rw [hquiet rfl, Nat.zero_add]
      exact attempts_withListener s.tracker s.connections fun _ hheld => by rwa [hl]
  | count peer hl =>
      rw [hquiet rfl, Nat.zero_add]
      exact attempts_withListener s.tracker _ fun _ hheld => by rwa [hl]
  | spawn peer hl =>
      have hstarts : Client.mayFail addr { peer := peer, phase := .reading false } =
          Listener.holds addr (.counted peer) := Bool.and_true _
      have hidle : Listener.holds addr .idle = false := rfl
      rw [hquiet rfl, Nat.zero_add, attempts, attempts, hl]
      dsimp only
      rw [List.countP_append, List.countP_singleton, hstarts, hidle]
      simp
  | read i received peer authenticated hc =>
      exact attempts_read addr deadline received hc
  | recordSuccess i peer hc =>
      rw [hquiet rfl, Nat.zero_add]
      have hmoved := attempts_goOn addr deadline hc (.reading true)
      exact (Nat.add_right_cancel hmoved).le
  | recordFailure i peer hc =>
      rw [hquiet rfl, Nat.zero_add]
      have hmoved := attempts_goOn addr deadline hc .leaving
      exact (Nat.add_right_cancel hmoved).le
  | finish i peer hc =>
      rw [hquiet rfl, Nat.zero_add]
      have hmoved := attempts_goOn addr deadline hc .returned
      exact (Nat.add_right_cancel hmoved).le
  | release i peer hc =>
      rw [hquiet rfl, Nat.zero_add]
      have hmoved := attempts_goOn addr deadline hc .gone
      exact (Nat.add_right_cancel hmoved).le

/-- With a connection that has just failed, fewer than are allowed may still do so. -/
theorem attempts_le (hs : Counted server s) {i : ℕ} {peer : UInt32}
    (h : s.clients[i]? = some { peer := peer, phase := .leaving }) :
    attempts addr deadline s ≤ server.limit := by
  have hlive := countP_goOn Client.live h .gone
  have hmay := countP_goOn (Client.mayFail addr) h .gone
  have hmono : (s.goOn i peer .gone).clients.countP (Client.mayFail addr) ≤
      (s.goOn i peer .gone).clients.countP Client.live :=
    List.countP_mono_left fun c _ hc => by
      obtain ⟨peer, phase⟩ := c
      cases phase with
      | gone => simp [Client.mayFail, Phase.goesOn] at hc
      | reading | matched | failed | leaving | returned => rfl
  have hleaving : Client.live { peer := peer, phase := .leaving } = true := rfl
  have hgone : Client.live { peer := peer, phase := .gone } = false := rfl
  have hstopped : ∀ phase, Phase.goesOn phase = false →
      Client.mayFail addr { peer := peer, phase := phase } = false := fun phase hphase => by
    rw [Client.mayFail, hphase, Bool.and_false]
  rw [hleaving, hgone] at hlive
  rw [hstopped .leaving rfl, hstopped .gone rfl] at hmay
  simp only [if_true, Bool.false_eq_true, if_false] at hlive hmay
  have hroom := hs.room
  have hcount := hs.live
  rw [attempts]
  split_ifs at hcount ⊢ <;> omega

end Steps

/-- The failure that is one too many blocks the address, and its connection is on its way out. -/
theorem Counted.blocked_of_record {server : Server} {s t : State} (hs : Counted server s) {i : ℕ}
    {peer : UInt32} (hclient : s.clients[i]? = some { peer := peer, phase := .failed })
    (htrue : (s.tracker.recordFailure s.now peer).1 = true)
    (ht : Rcon.step server s (.record i) = some t) :
    Blocked peer (s.now + seconds (trackerOf server.config).banSeconds) t ∧
      t.clients[i]? = some { peer := peer, phase := .leaving } := by
  have hlt := (List.getElem?_eq_some_iff.mp hclient).1
  cases moves_of_step ht with
  | recordSuccess i peer' hc =>
      rw [hc] at hclient
      cases hclient
  | recordFailure i peer' hc =>
      obtain rfl : peer' = peer := by
        rw [hc] at hclient
        exact congrArg Client.peer (Option.some.inj hclient)
      have hblock := FailureTracker.blockedUntil_recordFailure htrue
      rw [hs.ban] at hblock
      refine ⟨⟨fun _ => hblock, ?_⟩, ?_⟩
      · rw [FailureTracker.banSeconds_recordFailure, hs.ban]
        exact le_rfl
      · exact List.getElem?_set_self hlt

/-- **Guessing is bounded.** At no time are more calls of `HandleClient` running than connections
are allowed. And once a wrong password has blocked an address, no more wrong passwords are
compared for it before the block ends than connections are allowed, and none of its connections
that is checked before then is let in. -/
theorem guessing_bounded (server : Server) (hmax : 0 < server.config.maxConnections.toInt)
    {now : ℕ} {as : List Action} {s : State}
    (hs : exec (step server) (server.start now) as = some s) :
    (s.clients.countP Client.running : ℤ) ≤ server.config.maxConnections.toInt ∧
    ∀ (i : ℕ) (peer : UInt32) (t : State),
      s.clients[i]? = some { peer := peer, phase := .failed } →
      (s.tracker.recordFailure s.now peer).1 = true → step server s (.record i) = some t →
      ∀ bs : List Action,
        let deadline := s.now + seconds (trackerOf server.config).banSeconds
        (countSteps (step server) (failsBefore server peer deadline) t bs : ℤ) ≤
            server.config.maxConnections.toInt ∧
          EveryStep (step server) (fun u a v => a = .checkBlocked →
            u.listener = .filtered peer → u.now < deadline → v.listener = .idle) t bs := by
  have hcounted : Counted server s :=
    invariant_of_exec (fun _ _ _ hI h => hI.step h) (counted_start server now) hs
  constructor
  · have hrunning := running_le_live s.clients
    have hlive := hcounted.live
    have hroom := hcounted.room
    rw [Server.limit] at hroom
    omega
  · intro i peer t hclient htrue ht bs
    dsimp only
    have hcounted' := hcounted.step ht
    have hblocked := hcounted.blocked_of_record hclient htrue ht
    generalize s.now + seconds (trackerOf server.config).banSeconds = deadline at hblocked ⊢
    constructor
    · have hstep : ∀ u a v, Blocked peer deadline u → step server u a = some v →
          Blocked peer deadline v ∧
            (if failsBefore server peer deadline u a then 1 else 0) + attempts peer deadline v ≤
              attempts peer deadline u := fun u a v hu h => ⟨hu.step h, attempts_step hu h⟩
      have hle := (countSteps_le hstep hblocked.1 bs).trans (attempts_le hcounted' hblocked.2)
      rw [Server.limit] at hle
      omega
    · have hstep : ∀ u a v, Blocked peer deadline u → step server u a = some v →
          Blocked peer deadline v ∧ (a = .checkBlocked → u.listener = .filtered peer →
            u.now < deadline → v.listener = .idle) := fun u a v hu h =>
        ⟨hu.step h, fun ha hl hnow => hu.refused (ha ▸ h) hl hnow⟩
      exact EveryStep.of_invariant hstep hblocked.1 bs

/-- A server that blocks an address for its first wrong password. -/
def strictServer : Server where
  config := { password := bytes "right", maxFailedAuth := 1 }
  rules := []

/-- A connection comes in, and its first packet has a wrong password. -/
def wrongGuess : List Action :=
  [.accept 7, .filter, .checkBlocked, .checkLimit, .count, .spawn,
    .read 0 (some { id := 1, type := auth, body := bytes "wrong" })]

/-- The wrong password has been compared, and is about to be recorded. -/
def wrongState : State where
  now := 1
  tracker := trackerOf strictServer.config
  connections := 1
  listener := .idle
  clients := [{ peer := 7, phase := .failed }]

/-- The address comes back at once, and is turned away. -/
theorem guessing_bounded_strict :
    ∃ t, step strictServer wrongState (.record 0) = some t ∧
      (countSteps (step strictServer) (failsBefore strictServer 7 (1 + seconds 300)) t
        [.accept 7, .filter, .checkBlocked] : ℤ) ≤ 16 := by
  have hs : exec (step strictServer) (strictServer.start 1) wrongGuess = some wrongState := rfl
  refine ⟨_, rfl, ?_⟩
  exact ((guessing_bounded strictServer (by decide) hs).2 0 7 _ rfl rfl rfl
    [.accept 7, .filter, .checkBlocked]).1

end RSDWServerAPI.Rcon
