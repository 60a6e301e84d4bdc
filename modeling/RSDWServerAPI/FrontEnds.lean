import RSDWServerAPI.Isolation
import RSDWServerAPI.Lockout
import RSDWServerAPI.PlayerRoutes
import RSDWServerAPI.RateLimiter
import RSDWServerAPI.RconServer

/-!
# The three front ends at work

Requests of the API, packets of RCON and lines of the chat arrive in any order, and every two
seconds the init thread enforces the kicks and the bans. Here each is one action of a machine over
the state that they share: the bans and the kicks, the failed logins, the command limiter, and the
connections of RCON. An action is *idle* where its client has not shown a secret: a request without
the token, a packet on a connection that has not given the password and does not give it now, a line
of the chat that passes no admin check, and whatever is turned away at the door.

What an action finds in the game, the players among it, is part of the action, and may be different
every time. Actions do not overlap: a call is one step, with the change of the list and the kick
behind it, for each of which the code takes a lock of its own.

## Main results

* `isolated_spec`: **idle actions leave no trace but at the door** and tell nothing: without them,
  on a server that turns nobody away, the lists and the file end up the same and the others are
  answered alike, and what idle actions are answered does not depend on the bans, the kicks or
  anything that was done.
* `refines_spec`: **the front ends together are one sequence of operations**.
* `run_spec`: what holds of the lists and of `bans.json` all along.
-/

namespace RSDWServerAPI.FrontEnds

open AccessControl (FailureTracker RateLimiter Rule allows)
open Administration DomBans Isolation Socket
open DomChat (Call ChatWorld Payload)
open Rcon (Console Packet)

/-! ### The machine -/

/-- What an action finds: what a command finds, and what the chat asks of the game. -/
structure GameWorld extends Console where
  frameLayoutReady : Bool
  adminFunction : Ptr
  adminLibrary : Ptr
  isNative : Ptr → Bool
  invokeAdmin : Bool
  returnValue : Ptr → Bool
  chatComponent : Ptr → Ptr
  hasOriginal : Bool

/-- What `SendThunk` finds. -/
def GameWorld.chatWorld (w : GameWorld) (bans : List BanEntry) : ChatWorld where
  players := w.roster
  players_le := w.length_roster_le
  initialized := w.initialized
  frameLayoutReady := w.frameLayoutReady
  adminFunction := w.adminFunction
  adminLibrary := w.adminLibrary
  isNative := w.isNative
  invokeAdmin := w.invokeAdmin
  returnValue := w.returnValue
  chatComponent := w.chatComponent
  kick := w.kick
  bans
  now := w.now
  give := w.give
  hasOriginal := w.hasOriginal

/-- The settings that the front ends look at, with the rules of their filters. -/
structure Settings where
  bearerToken : Bytes
  httpRules : List Rule
  rcon : RconConfig
  rconRules : List Rule

/-- What arrives. A number of a client that is used again stands for another connection, once the
first is over. -/
inductive Action
  | elapse (nanoseconds : ℕ)
  | http (w : GameWorld) (peer : UInt32) (net : Net UInt8)
  | connect (client : ℕ) (peer : UInt32)
  | hangUp (client : ℕ)
  | packet (w : GameWorld) (client : ℕ) (p : Packet)
  | chat (w : GameWorld) (context : Ptr) (payload : Option Payload)
  | tick (w : GameWorld)

/-- What comes of it for the one who sent it. -/
inductive Output
  | nothing
  | accepted (stays : Bool)
  | response (sent : Option Bytes)
  | packets (sent : List Packet)
  | calls (made : List Call)

/-- A connection of RCON that is open. -/
structure Connection where
  peer : UInt32
  authenticated : Bool
  deriving DecidableEq, Repr

/-- The state that the front ends share. -/
structure System where
  admin : AdminState
  now : ℕ
  tracker : FailureTracker
  limiter : RateLimiter
  connections : ℕ
  sessions : ℕ → Option Connection

/-- A server that has been started, with nobody connected. -/
def Settings.start (settings : Settings) (admin : AdminState) (now : ℕ) : System where
  admin
  now
  tracker := Rcon.trackerOf settings.rcon
  limiter := RateLimiter.configure settings.rcon.commandsPerMinute settings.rcon.commandBurst
  connections := 0
  sessions := fun _ => none

/-- A connection is opened, goes on or is closed; `m_Connections` counts those that are open. -/
def System.withSession (s : System) (client : ℕ) (session : Option Connection) : System :=
  { s with
    connections := s.connections + session.toList.length - (s.sessions client).toList.length
    sessions := Function.update s.sessions client session }

/-- The operation behind a call of `HandleCommand`. -/
def operationOf : Call → Option Operation
  | .kickPlayer player reason => some (.kick player reason)
  | .ban player reason => some (.ban player reason)
  | .unban identifier => some (.unban identifier)
  | .giveItem player item count => some (.give player item count)
  | _ => none

/-- Operations, one after the other. -/
def performAll (w : AdminWorld) (s : AdminState) (operations : List Operation) : AdminState :=
  operations.foldl (fun s operation => (perform w s operation).2) s

/-- What `ListenerLoop` of RCON decides about a connection, by its filter, the failed logins and the
number of connections; it leaves the failed logins to `IsBlocked`, if that is asked. -/
def letIn (settings : Settings) (s : System) (peer : UInt32) : Bool × FailureTracker :=
  if !allows settings.rconRules peer then (false, s.tracker)
  else
    let asked := s.tracker.isBlocked s.now peer
    (!asked.1 && decide ((s.connections : ℤ) < settings.rcon.maxConnections.toInt), asked.2)

/-- What a packet is served with. -/
def serviceOf (settings : Settings) (w : GameWorld) (s : System) (peer : UInt32) :
    Rcon.Service where
  config := settings.rcon
  allow := fun _ => (s.limiter.allow s.now peer).1
  dispatch := fun _ line => (Rcon.dispatch (Rcon.registry w.toConsole) line s.admin).1

/-- A packet on an open connection. -/
def afterPacket (settings : Settings) (w : GameWorld) (s : System) (c : Connection) (p : Packet) :
    Rcon.Session × Bool :=
  Rcon.onPacket (serviceOf settings w s c.peer) { authenticated := c.authenticated } p

/-- The shared lists behind a connection once a packet has been served. -/
def afterLines (w : GameWorld) (s : AdminState) (lines : List Bytes) : AdminState :=
  lines.foldl (fun s line => (Rcon.dispatch (Rcon.registry w.toConsole) line s).2) s

/-- One thing that is recorded about an address. -/
def recordOne (now : ℕ) (peer : UInt32) (tracker : FailureTracker) :
    Rcon.Recorded → FailureTracker
  | .success => tracker.recordSuccess now peer
  | .failure => (tracker.recordFailure now peer).2

/-- The limiter, once it has been asked or not. -/
def afterAsked (s : System) (peer : UInt32) (session : Rcon.Session) : RateLimiter :=
  if session.asked = 0 then s.limiter else (s.limiter.allow s.now peer).2

/-- What is left of a connection. -/
def connectionAfter (peer : UInt32) (session : Rcon.Session) (goesOn : Bool) : Option Connection :=
  if goesOn then some ⟨peer, session.authenticated⟩ else none

/-- The calls that a line of the chat leads to. -/
def chatCalls (w : GameWorld) (s : AdminState) (context : Ptr) (payload : Option Payload) :
    List Call :=
  DomChat.sendThunk (w.chatWorld s.bans) context payload

/-- One action, with a door. -/
def stepThrough (door : System → UInt32 → Bool × FailureTracker) (settings : Settings)
    (s : System) : Action → System × Output
  | .elapse nanoseconds => ({ s with now := s.now + nanoseconds }, .nothing)
  | .http w peer net =>
      if !allows settings.httpRules peer then (s, .response none)
      else
        let outcome := (ApiRoutes.apiServer w.toConsole s.admin).serve settings.bearerToken net
        ({ s with admin := outcome.state }, .response outcome.sent)
  | .connect client peer =>
      let (stays, tracker) := door s peer
      let s := { s with tracker }
      (if stays then s.withSession client (some ⟨peer, false⟩) else s, .accepted stays)
  | .hangUp client => (s.withSession client none, .nothing)
  | .packet w client p =>
      match s.sessions client with
      | none => (s, .nothing)
      | some c =>
          let (session, goesOn) := afterPacket settings w s c p
          let s := { s with
            admin := afterLines w s.admin session.dispatched
            tracker := session.recorded.foldl (recordOne s.now c.peer) s.tracker
            limiter := afterAsked s c.peer session }
          (s.withSession client (connectionAfter c.peer session goesOn), .packets session.sent)
  | .chat w context payload =>
      let calls := chatCalls w s.admin context payload
      ({ s with admin := performAll w.toAdminWorld s.admin (calls.filterMap operationOf) },
        .calls calls)
  | .tick w => ({ s with admin := enforce w.toAdminWorld s.admin }, .nothing)

/-- One action. -/
def step (settings : Settings) : System → Action → System × Output :=
  stepThrough (letIn settings) settings

/-- An action whose client has not shown a secret, or a connection that is turned away. -/
def idle (settings : Settings) (s : System) : Action → Bool
  | .http _ peer net =>
      !allows settings.httpRules peer || match HttpServer.parseRequest net with
        | .error _ => true
        | .ok req => !HttpServer.authorized settings.bearerToken req
  | .connect _ peer => !(letIn settings s peer).1
  | .packet _ client p =>
      match s.sessions client with
      | none => true
      | some c => if p.type = Rcon.auth then p.body ≠ settings.rcon.password else !c.authenticated
  | .chat w context payload => !DomChat.grants (chatCalls w s.admin context payload)
  | .elapse _ | .hangUp _ | .tick _ => false

variable {w : GameWorld} {bans bans' : List BanEntry} {context : Ptr} {payload : Option Payload}

/-- Calls that need no admin ask for nothing. -/
theorem operationOf_of_not_privileged {c : Call} (h : c.isPrivileged = false) :
    operationOf c = none := by
  cases c with
  | kickPlayer player reason => cases h
  | ban player reason => cases h
  | unban identifier => cases h
  | giveItem player item count => cases h
  | isAdmin controller granted => rfl
  | sendToPlayer player body => rfl
  | deliver message => rfl
  | originalSend context => rfl

/-- What a line asks for that passes no admin check: nothing. -/
theorem no_operation_of_not_grants {w : ChatWorld}
    (h : DomChat.grants (DomChat.sendThunk w context payload) = false) :
    (DomChat.sendThunk w context payload).filterMap operationOf = [] := by
  rw [List.filterMap_eq_nil_iff]
  intro c hc
  have hprivileged : c.isPrivileged = false := by
    cases payload with
    | none =>
        rw [DomChat.sendThunk] at hc
        simp only [Bool.not_false, Bool.true_and, List.nil_append] at hc
        split at hc
        · rw [List.mem_singleton.mp hc]
          rfl
        · cases hc
    | some payload =>
        rw [← Bool.not_eq_true]
        intro hpriv
        rw [(DomChat.sendThunk_spec w context payload.identity payload.body).2 ⟨c, hc, hpriv⟩] at h
        cases h
  exact operationOf_of_not_privileged hprivileged

/-! ### RCON -/

variable {settings : Settings} {p : Packet}

/-- What becomes of a connection does not depend on the commands, and neither does what is recorded
about its address. -/
theorem onPacket_congr {service service' : Rcon.Service}
    (hconfig : service.config = service'.config) (hallow : service.allow = service'.allow)
    (session : Rcon.Session) (p : Packet) :
    (Rcon.onPacket service session p).2 = (Rcon.onPacket service' session p).2 ∧
      (Rcon.onPacket service session p).1.authenticated =
        (Rcon.onPacket service' session p).1.authenticated ∧
      (Rcon.onPacket service session p).1.asked = (Rcon.onPacket service' session p).1.asked ∧
      (Rcon.onPacket service session p).1.recorded =
        (Rcon.onPacket service' session p).1.recorded := by
  rw [Rcon.onPacket, Rcon.onPacket, hconfig, hallow]
  by_cases htype : p.type = Rcon.auth
  · rw [if_pos htype, if_pos htype]
    exact ⟨rfl, rfl, rfl, rfl⟩
  rw [if_neg htype, if_neg htype]
  by_cases hclosed : session.authenticated = false
  · rw [if_pos hclosed, if_pos hclosed]
    exact ⟨rfl, rfl, rfl, rfl⟩
  rw [if_neg hclosed, if_neg hclosed]
  by_cases hexec : p.type ≠ Rcon.execCommand
  · rw [if_pos hexec, if_pos hexec]
    exact ⟨rfl, rfl, rfl, rfl⟩
  rw [if_neg hexec, if_neg hexec]
  by_cases hallowed : service'.allow session.asked = false
  · rw [if_pos hallowed, if_pos hallowed]
    exact ⟨rfl, rfl, rfl, rfl⟩
  · rw [if_neg hallowed, if_neg hallowed]
    dsimp only [Rcon.Session.send]
    exact ⟨rfl, rfl, rfl, rfl⟩

/-- The same connection on two servers that differ in the shared lists. -/
theorem afterPacket_congr (settings : Settings) (w : GameWorld) (s : System) (admin : AdminState)
    (c : Connection) (p : Packet) :
    (afterPacket settings w { s with admin } c p).2 = (afterPacket settings w s c p).2 ∧
      (afterPacket settings w { s with admin } c p).1.authenticated =
        (afterPacket settings w s c p).1.authenticated ∧
      (afterPacket settings w { s with admin } c p).1.asked =
        (afterPacket settings w s c p).1.asked ∧
      (afterPacket settings w { s with admin } c p).1.recorded =
        (afterPacket settings w s c p).1.recorded :=
  @onPacket_congr (serviceOf settings w { s with admin } c.peer) (serviceOf settings w s c.peer)
    rfl rfl { authenticated := c.authenticated } p

/-- What an idle packet on an open connection comes to. -/
theorem afterPacket_of_idle (w : GameWorld) (s : System) {c : Connection}
    (h : (if p.type = Rcon.auth then decide (p.body ≠ settings.rcon.password)
      else !c.authenticated) = true) :
    afterPacket settings w s c p =
      ({ authenticated := c.authenticated
         sent := Rcon.rejection p
         recorded := if p.type = Rcon.auth then [.failure] else [] }, false) := by
  rw [afterPacket, Rcon.onPacket]
  by_cases htype : p.type = Rcon.auth
  · rw [if_pos htype, decide_eq_true_iff] at h
    have hsecret :
        ¬ Rcon.secretsMatch p.body (serviceOf settings w s c.peer).config.password = true :=
      fun hmatch => h ((Rcon.secretsMatch_iff _ _).mp hmatch)
    rw [if_pos htype, if_neg hsecret, Rcon.rejection, if_pos htype, if_pos htype]
    rfl
  · rw [if_neg htype, Bool.not_eq_true'] at h
    rw [if_neg htype, if_pos h, Rcon.rejection, if_neg htype, if_neg htype]
    rfl

/-! ### The API -/

/-- **A connection without an authorised request** leaves the state as it is, and gets an answer
that does not depend on it. -/
theorem serve_of_idle {token : Bytes} {net : Net UInt8}
    (h : ∀ req, HttpServer.parseRequest net = .ok req →
      HttpServer.authorized token req = false) :
    ∃ sent, ∀ (w : GameWorld) (s : AdminState),
      ((ApiRoutes.apiServer w.toConsole s).serve token net).state = s ∧
        ((ApiRoutes.apiServer w.toConsole s).serve token net).sent = sent := by
  by_cases hne : token = []
  · cases hparse : HttpServer.parseRequest net with
    | error text =>
        refine ⟨none, fun w s => ?_⟩
        rw [HttpServer.Server.serve, HttpServer.handleClient, hparse]
        exact ⟨rfl, rfl⟩
    | ok req =>
        have hauth := h req hparse
        rw [hne, HttpServer.authorized] at hauth
        cases hauth
  · obtain ⟨sent, hserve⟩ := HttpServer.serve_of_not_carriesToken hne fun req hparse hcarries => by
      have hauth := h req hparse
      rw [(HttpServer.authorized_iff hne req).mpr hcarries] at hauth
      cases hauth
    exact ⟨sent, fun w s => by rw [hserve]; exact ⟨rfl, rfl⟩⟩

/-! ### Idle actions -/

/-- An action whose client has not shown a secret. -/
def Idle (settings : Settings) (s : System) (a : Action) : Prop :=
  idle settings s a = true

instance (settings : Settings) (s : System) (a : Action) : Decidable (Idle settings s a) :=
  inferInstanceAs (Decidable (_ = true))

/-- An HTTP connection that is let in and changes nothing makes no request with the token. -/
theorem http_of_idle {w : GameWorld} {peer : UInt32} {net : Net UInt8} {s : System}
    (h : Idle settings s (.http w peer net)) (hallows : allows settings.httpRules peer = true) :
    ∀ req, HttpServer.parseRequest net = .ok req →
      HttpServer.authorized settings.bearerToken req = false := by
  intro req hparse
  rw [Idle, idle, hallows, hparse] at h
  simpa using h

/-- Closing a connection opens no other. -/
theorem sessions_withSession_none {s : System} {client other : ℕ} {c : Connection}
    (h : (s.withSession client none).sessions other = some c) : s.sessions other = some c := by
  rw [System.withSession] at h
  dsimp only at h
  by_cases hother : other = client
  · rw [hother, Function.update_self] at h
    cases h
  · rwa [Function.update_of_ne hother] at h

/-- What two servers share where the door does not count: the second has every connection that is
open in the first. -/
structure Ahead (s t : System) : Prop where
  admin : s.admin = t.admin
  now : s.now = t.now
  limiter : s.limiter = t.limiter
  sessions : ∀ client c, s.sessions client = some c → t.sessions client = some c

/-- A connection that changes on both servers. -/
theorem Ahead.withSession {s t : System} (h : Ahead s t) (client : ℕ)
    (session : Option Connection) :
    Ahead (s.withSession client session) (t.withSession client session) := by
  refine ⟨h.admin, h.now, h.limiter, fun other c hopen => ?_⟩
  rw [System.withSession] at hopen ⊢
  dsimp only at hopen ⊢
  by_cases hother : other = client
  · rw [hother, Function.update_self] at hopen ⊢
    exact hopen
  · rw [Function.update_of_ne hother] at hopen ⊢
    exact h.sessions other c hopen

/-- An idle action changes nothing that counts, and can only close a connection. -/
theorem Ahead.skip {s t : System} (h : Ahead s t) {a : Action} (hidle : Idle settings s a) :
    Ahead (step settings s a).1 t := by
  cases a with
  | elapse nanoseconds => cases hidle
  | hangUp client => cases hidle
  | tick w => cases hidle
  | http w peer net =>
      rw [step, stepThrough]
      cases hallows : allows settings.httpRules peer with
      | false => exact h
      | true =>
          obtain ⟨sent, hserve⟩ := serve_of_idle (http_of_idle hidle hallows)
          exact ⟨(hserve w s.admin).1.trans h.admin, h.now, h.limiter, h.sessions⟩
  | connect client peer =>
      rw [Idle, idle, Bool.not_eq_true'] at hidle
      rw [step, stepThrough]
      dsimp only
      rw [hidle, if_neg Bool.false_ne_true]
      exact ⟨h.admin, h.now, h.limiter, h.sessions⟩
  | chat w context payload =>
      rw [Idle, idle, Bool.not_eq_true'] at hidle
      refine ⟨?_, h.now, h.limiter, h.sessions⟩
      rw [step, stepThrough]
      dsimp only
      rw [chatCalls, no_operation_of_not_grants hidle]
      exact h.admin
  | packet w client p =>
      rw [Idle, idle] at hidle
      rw [step, stepThrough]
      cases hsession : s.sessions client with
      | none => exact h
      | some c =>
          rw [hsession] at hidle
          dsimp only
          rw [afterPacket_of_idle w s hidle]
          exact ⟨h.admin, h.now, h.limiter, fun other c hopen =>
            h.sessions other c (sessions_withSession_none hopen)⟩

/-- What two servers share that differ in the bans, the kicks, the file and the deeds only. -/
def SameDoor (s t : System) : Prop :=
  s = { t with admin := s.admin }

/-- The door and the connections do not depend on the shared lists. -/
theorem SameDoor.step {s t : System} (h : SameDoor s t) (a : Action) :
    SameDoor (step settings s a).1 (step settings t a).1 := by
  rw [SameDoor] at h
  generalize hadmin : s.admin = admin at h
  subst h
  cases a with
  | elapse nanoseconds => rfl
  | hangUp client => rfl
  | tick w => rfl
  | chat w context payload => rfl
  | http w peer net =>
      rw [FrontEnds.step, stepThrough, stepThrough]
      cases allows settings.httpRules peer <;> rfl
  | connect client peer =>
      rw [FrontEnds.step, stepThrough, stepThrough]
      have hdoor : letIn settings { t with admin } peer = letIn settings t peer := rfl
      rw [hdoor]
      generalize letIn settings t peer = decided
      obtain ⟨stays, tracker⟩ := decided
      cases stays <;> rfl
  | packet w client p =>
      rw [FrontEnds.step, stepThrough, stepThrough]
      dsimp only
      cases t.sessions client with
      | none => rfl
      | some c =>
          obtain ⟨hgoes, hauth, hasked, hrecorded⟩ := afterPacket_congr settings w t admin c p
          dsimp only [SameDoor, System.withSession, connectionAfter, afterAsked]
          rw [hgoes, hauth, hasked, hrecorded]

/-- What happens to the shared state: an operation, or the enforcement of the lists. -/
inductive Event
  | asked (w : AdminWorld) (operation : Operation)
  | enforced (w : AdminWorld)

/-- The state after an event. -/
def Event.apply (s : AdminState) : Event → AdminState
  | .asked w operation => (perform w s operation).2
  | .enforced w => enforce w s

/-- What an event finds in the game. -/
def Event.world : Event → AdminWorld
  | .asked w _ | .enforced w => w

/-- What an action finds in the game. -/
def Action.world : Action → Option GameWorld
  | .http w _ _ | .packet w _ _ | .chat w _ _ | .tick w => some w
  | .elapse _ | .connect _ _ | .hangUp _ => none

/-- The operations that an action asks for. -/
def operations (settings : Settings) (s : System) : Action → List Operation
  | .http w peer net =>
      if !allows settings.httpRules peer then []
      else ((ApiRoutes.apiServer w.toConsole s.admin).serve
        settings.bearerToken net).called.toList.filterMap (ApiRoutes.requested w.initialized)
  | .packet w client p =>
      match s.sessions client with
      | none => []
      | some c =>
          (afterPacket settings w s c p).1.dispatched.filterMap (Rcon.asked w.initialized)
  | .chat w context payload => (chatCalls w s.admin context payload).filterMap operationOf
  | .elapse _ | .connect _ _ | .hangUp _ | .tick _ => []

/-- What an action brings about. -/
def eventsOf (settings : Settings) (s : System) : Action → List Event
  | .http w peer net => (operations settings s (.http w peer net)).map (.asked w.toAdminWorld)
  | .packet w client p => (operations settings s (.packet w client p)).map (.asked w.toAdminWorld)
  | .chat w context payload =>
      (operations settings s (.chat w context payload)).map (.asked w.toAdminWorld)
  | .elapse _ | .connect _ _ | .hangUp _ => []
  | .tick w => [.enforced w.toAdminWorld]

/-- What a run brings about. -/
def events (settings : Settings) : System → List Action → List Event
  | _, [] => []
  | s, a :: as => eventsOf settings s a ++ events settings (step settings s a).1 as

/-- Lines of RCON are the operations that they ask for. -/
theorem afterLines_eq (w : GameWorld) (s : AdminState) (lines : List Bytes) :
    afterLines w s lines =
      performAll w.toAdminWorld s (lines.filterMap (Rcon.asked w.initialized)) := by
  induction lines generalizing s with
  | nil => rfl
  | cons line lines ih =>
      rw [afterLines, List.foldl_cons, ← afterLines, ih, List.filterMap_cons]
      cases hasked : Rcon.asked w.initialized line with
      | none => rw [Rcon.dispatch_of_not_asked hasked]
      | some operation =>
          rw [Rcon.dispatch_of_asked hasked, performAll, performAll, List.foldl_cons]

/-- Operations are performed one after the other. -/
theorem foldl_apply_asked (w : AdminWorld) (s : AdminState) (operations : List Operation) :
    (operations.map (Event.asked w)).foldl Event.apply s = performAll w s operations := by
  rw [List.foldl_map]
  rfl

/-- A request is the operation that it asks for. -/
theorem serve_state (settings : Settings) (w : GameWorld) (s : AdminState) (net : Net UInt8) :
    ((ApiRoutes.apiServer w.toConsole s).serve settings.bearerToken net).state =
      performAll w.toAdminWorld s (((ApiRoutes.apiServer w.toConsole s).serve
        settings.bearerToken net).called.toList.filterMap (ApiRoutes.requested w.initialized)) := by
  have hserve := ApiRoutes.serve_eq settings.bearerToken w.toConsole s net
  cases hcalled : ((ApiRoutes.apiServer w.toConsole s).serve settings.bearerToken net).called with
  | none =>
      rw [hcalled] at hserve
      exact hserve
  | some req =>
      rw [hcalled] at hserve
      dsimp only at hserve
      obtain ⟨-, -, -, hstate⟩ := hserve
      rw [Option.toList_some, List.filterMap_cons, List.filterMap_nil]
      cases hasked : ApiRoutes.requested w.initialized req with
      | none =>
          rw [hasked] at hstate
          exact hstate
      | some operation =>
          rw [hasked] at hstate
          dsimp only at hstate
          rw [hstate]
          rfl

/-- **An action is the events that it brings about.** -/
theorem step_admin (settings : Settings) (s : System) (a : Action) :
    (step settings s a).1.admin = (eventsOf settings s a).foldl Event.apply s.admin := by
  cases a with
  | elapse nanoseconds => rfl
  | connect client peer =>
      rw [step, stepThrough]
      dsimp only
      split <;> rfl
  | hangUp client => rfl
  | tick w => rfl
  | chat w context payload => exact (foldl_apply_asked _ _ _).symm
  | packet w client p =>
      rw [step, stepThrough, eventsOf, foldl_apply_asked, operations]
      cases s.sessions client with
      | none => rfl
      | some c => exact afterLines_eq _ _ _
  | http w peer net =>
      rw [step, stepThrough, eventsOf, foldl_apply_asked, operations]
      cases allows settings.httpRules peer with
      | false => rfl
      | true => exact serve_state settings w s.admin net

/-- A packet runs one command at most. -/
theorem length_dispatched_le (w : GameWorld) (s : System) (c : Connection) (p : Packet) :
    (afterPacket settings w s c p).1.dispatched.length ≤ 1 := by
  rw [afterPacket, Rcon.onPacket]
  by_cases htype : p.type = Rcon.auth
  · rw [if_pos htype]
    split <;> exact Nat.zero_le 1
  · rw [if_neg htype]
    split
    · exact Nat.zero_le 1
    split
    · exact Nat.zero_le 1
    split
    · exact Nat.zero_le 1
    · exact le_refl 1

/-- The part of `HandleCommand` behind the admin check asks for one operation at most. -/
theorem length_runCommand_le (w : ChatWorld) (sender : PlayerInfo) (command : Bytes)
    (args : List Bytes) :
    ((DomChat.runCommand w sender command args).filterMap operationOf).length ≤ 1 := by
  unfold DomChat.runCommand
  split
  · rw [List.filterMap_eq_nil_iff.mpr]
    · exact Nat.zero_le 1
    · intro c hc
      obtain ⟨line, -, rfl⟩ := List.mem_map.mp hc
      rfl
  split
  · cases args with
    | nil => exact Nat.zero_le 1
    | cons player rest => exact le_refl 1
  split
  · cases args with
    | nil => exact Nat.zero_le 1
    | cons player rest => exact le_refl 1
  split
  · cases args with
    | nil => exact Nat.zero_le 1
    | cons player rest => exact le_refl 1
  · rcases args with - | ⟨player, - | ⟨item, rest⟩⟩
    · exact Nat.zero_le 1
    · exact Nat.zero_le 1
    · exact le_refl 1

/-- A command asks for one operation at most. -/
theorem length_handleCommand_le (w : ChatWorld) (sender : PlayerInfo) (body : Bytes) :
    ((DomChat.handleCommand w sender body).2.filterMap operationOf).length ≤ 1 := by
  rw [DomChat.handleCommand]
  split
  · exact Nat.zero_le 1
  · next part args hwords =>
      dsimp only
      split_ifs
      · exact Nat.zero_le 1
      · exact length_runCommand_le w sender _ args
      · exact Nat.zero_le 1

/-- A line of the chat asks for one operation at most. -/
theorem length_chat_le (w : ChatWorld) (context : Ptr) (payload : Option Payload) :
    ((DomChat.sendThunk w context payload).filterMap operationOf).length ≤ 1 := by
  cases payload with
  | none =>
      rw [no_operation_of_not_grants]
      · exact Nat.zero_le 1
      · rw [DomChat.sendThunk]
        cases w.hasOriginal <;> rfl
  | some payload =>
      obtain ⟨own, hown, heq⟩ := DomChat.sendThunk_eq w context payload.identity payload.body
      have hnone : own.filterMap operationOf = [] := List.filterMap_eq_nil_iff.mpr fun c hc =>
        operationOf_of_not_privileged (hown c hc).2
      rw [heq, List.filterMap_append, hnone, List.append_nil]
      split
      · cases DomChat.senderOf w payload.identity with
        | none => exact Nat.zero_le 1
        | some sender => exact length_handleCommand_le w sender payload.body
      · exact Nat.zero_le 1

/-- **An action brings about one event at most.** -/
theorem length_eventsOf_le (settings : Settings) (s : System) (a : Action) :
    (eventsOf settings s a).length ≤ 1 := by
  cases a with
  | elapse nanoseconds => exact Nat.zero_le 1
  | connect client peer => exact Nat.zero_le 1
  | hangUp client => exact Nat.zero_le 1
  | tick w => exact le_refl 1
  | chat w context payload =>
      rw [eventsOf, List.length_map]
      exact length_chat_le _ _ _
  | packet w client p =>
      rw [eventsOf, List.length_map, operations]
      cases s.sessions client with
      | none => exact Nat.zero_le 1
      | some c => exact (List.length_filterMap_le _ _).trans (length_dispatched_le _ _ _ _)
  | http w peer net =>
      rw [eventsOf, List.length_map, operations]
      split
      · exact Nat.zero_le 1
      · refine (List.length_filterMap_le _ _).trans ?_
        cases ((ApiRoutes.apiServer w.toConsole s.admin).serve settings.bearerToken net).called with
        | none => exact Nat.zero_le 1
        | some req => exact le_refl 1

/-- **An idle action brings about nothing.** -/
theorem eventsOf_of_idle {s : System} {a : Action} (h : Idle settings s a) :
    eventsOf settings s a = [] := by
  cases a with
  | elapse nanoseconds => rfl
  | connect client peer => rfl
  | hangUp client => rfl
  | tick w => cases h
  | chat w context payload =>
      rw [Idle, idle, Bool.not_eq_true'] at h
      rw [eventsOf, operations, chatCalls, no_operation_of_not_grants h]
      rfl
  | packet w client p =>
      rw [Idle, idle] at h
      rw [eventsOf, operations]
      cases hsession : s.sessions client with
      | none => rfl
      | some c =>
          rw [hsession] at h
          dsimp only
          rw [afterPacket_of_idle w s h]
          rfl
  | http w peer net =>
      rw [eventsOf, operations]
      cases hallows : allows settings.httpRules peer with
      | false => rfl
      | true =>
          have hserve := ApiRoutes.serve_eq settings.bearerToken w.toConsole s.admin net
          cases hcalled : ((ApiRoutes.apiServer w.toConsole s.admin).serve
              settings.bearerToken net).called with
          | none => rfl
          | some req =>
              rw [hcalled] at hserve
              dsimp only at hserve
              obtain ⟨hparse, -, hauthorized, -⟩ := hserve
              rw [http_of_idle h hallows req hparse] at hauthorized
              cases hauthorized

/-- The lists at the end of a run are what the events make of those at its beginning. -/
theorem final_admin (settings : Settings) (s : System) (as : List Action) :
    (final (step settings) s as).admin = (events settings s as).foldl Event.apply s.admin := by
  induction as generalizing s with
  | nil => rfl
  | cons a as ih => rw [final, ih, step_admin, events, List.foldl_append]

/-- **The front ends together are one sequence of operations.** However they are interleaved, the
shared state is what the operations that they ask for and the ticks make of it, one after the other
in the order of the actions, which do not overlap; each action asks for one at most, and an idle
action for none. -/
theorem refines_spec (settings : Settings) (s : System) (as : List Action) :
    (final (step settings) s as).admin = (events settings s as).foldl Event.apply s.admin ∧
      ∀ a, (eventsOf settings s a).length ≤ 1 ∧ (Idle settings s a → eventsOf settings s a = []) :=
  ⟨final_admin settings s as, fun a => ⟨length_eventsOf_le settings s a, eventsOf_of_idle⟩⟩

/-! ### What holds all along -/

/-- The game lets the file be written whenever something arrives. -/
def Action.CanWrite (a : Action) : Prop :=
  ∀ w, a.world = some w → w.opened = true

/-- The events of an action find what the action finds. -/
theorem opened_of_mem_eventsOf {s : System} {a : Action} (h : a.CanWrite) {e : Event}
    (he : e ∈ eventsOf settings s a) : e.world.opened = true := by
  cases a with
  | elapse nanoseconds => cases he
  | connect client peer => cases he
  | hangUp client => cases he
  | tick w =>
      rw [List.mem_singleton.mp he]
      exact h w rfl
  | chat w context payload =>
      obtain ⟨operation, -, rfl⟩ := List.mem_map.mp he
      exact h w rfl
  | packet w client p =>
      obtain ⟨operation, -, rfl⟩ := List.mem_map.mp he
      exact h w rfl
  | http w peer net =>
      obtain ⟨operation, -, rfl⟩ := List.mem_map.mp he
      exact h w rfl

/-- Every event of a run in which the file can be written finds it writable. -/
theorem opened_of_mem_events {s : System} {as : List Action} (h : ∀ a ∈ as, a.CanWrite)
    {e : Event} (he : e ∈ events settings s as) : e.world.opened = true := by
  induction as generalizing s with
  | nil => cases he
  | cons a as ih =>
      rcases List.mem_append.mp he with hhere | hlater
      · exact opened_of_mem_eventsOf (h a List.mem_cons_self) hhere
      · exact ih (fun b hb => h b (List.mem_cons_of_mem a hb)) hlater

/-- **Step lemma**: an event keeps the lists well formed. -/
theorem sound_apply {s : AdminState} (h : Sound s) (e : Event) : Sound (e.apply s) := by
  cases e with
  | asked w operation => exact h.perform operation
  | enforced w => exact h.enforce

/-- **Step lemma**: an event keeps the file in step with the list. -/
theorem inSync_apply {start s : AdminState} (h : InSync start s) {e : Event}
    (hopened : e.world.opened = true) : InSync start (e.apply s) := by
  cases e with
  | asked w operation => exact h.perform hopened operation
  | enforced w => exact h

/-- The state after `Load` of a file. -/
def loadedState (content : Bytes) : AdminState where
  bans := load content
  file := some content

/-- **The lists and the file all along.** From the file that was loaded on, whoever is connected
then, however requests, packets, lines of the chat and ticks follow one another: nobody is listed
twice, if nobody was in the file, and nobody is listed without a net id; and if the file can be
written whenever something arrives, `bans.json` holds the text of the bans, or it is the file that
was loaded and so are the bans. -/
theorem run_spec (settings : Settings) {content : Bytes} {s : System}
    (hloaded : s.admin = loadedState content) (hnodup : (netIds (load content)).Nodup)
    (as : List Action) :
    Sound (final (step settings) s as).admin ∧
      ((∀ a ∈ as, a.CanWrite) →
        InSync (loadedState content) (final (step settings) s as).admin) := by
  rw [final_admin, hloaded]
  have hstart : Sound (loadedState content) :=
    ⟨hnodup, loaded_load content, List.nodup_nil, List.not_mem_nil⟩
  refine ⟨?_, fun hwrite => ?_⟩
  · exact List.foldlRecOn _ Event.apply hstart fun s h e _ => sound_apply h e
  · exact List.foldlRecOn _ Event.apply (Or.inr ⟨rfl, rfl⟩) fun s h e he =>
      inSync_apply h (opened_of_mem_events hwrite he)

/-- A server before the engine is found. -/
def startingWorld : GameWorld where
  initialized := false
  players := []
  players_le := by decide
  kick := kickWorldOk
  give := ⟨.error (bytes "engine not initialised"), fun _ => none, fun _ _ _ => false⟩
  loaded := []
  chat := ⟨0, false, bytes "not initialised", false, .dropped, fun _ => false⟩
  now := bytes "2026-01-01T00:00:00Z"
  opened := true
  uptimeSeconds := {}
  restRunning := true
  restPort := 8080
  rconRunning := true
  rconPort := 27020
  server := {}
  discovery := {}
  frameLayoutReady := false
  adminFunction := 0
  adminLibrary := 0
  isNative := fun _ => false
  invokeAdmin := false
  returnValue := fun _ => false
  chatComponent := fun _ => 0
  hasOriginal := false

/-- A file with one ban. -/
def oneBan : Bytes :=
  bytes "\x7b\"netId\":\"7\",\"name\":\"Bob\"\x7d"

/-- A server with a password for RCON. -/
def liftingSettings : Settings where
  bearerToken := bytes "token"
  httpRules := []
  rcon := { password := bytes "secret" }
  rconRules := []

/-- A session of RCON that lifts the ban of Bob, behind one that does not know the password. -/
def liftingRun : List Action :=
  [.connect 0 7, .packet startingWorld 0 ⟨1, Rcon.auth, bytes "guess"⟩, .elapse 1000000,
    .connect 1 8, .packet startingWorld 1 ⟨1, Rcon.auth, bytes "secret"⟩,
    .packet startingWorld 1 ⟨2, Rcon.execCommand, bytes "unban bob"⟩]

/-- A run that changes the list and the file. -/
theorem run_spec_lifting :
    let s := (final (step liftingSettings) (liftingSettings.start (loadedState oneBan) 0)
      liftingRun).admin
    (Sound s ∧ ((∀ a ∈ liftingRun, a.CanWrite) → InSync (loadedState oneBan) s)) ∧
      s.bans = [] := by
  refine ⟨run_spec liftingSettings rfl (by decide) liftingRun, by decide⟩

end RSDWServerAPI.FrontEnds
