import RSDWServerAPI.Config
import RSDWServerAPI.RconPacket

/-!
# `Rcon::Server::HandleClient`: one connection

A connection is served packet by packet while `ReadPacket` returns one. A packet that carries the
password opens the session for commands; another one that claims to ends it, and so does
anything else that comes first.

## Main results

* `handleClient_spec`: **commands run only inside an authenticated session**: what is dispatched
  are the commands that the limiter lets through, behind a packet with the password and before
  the packet that ends the session, behind which nothing is read.
-/

namespace RSDWServerAPI.Rcon

open Socket

/-! ### The code -/

/-- `ResponseValue`. -/
def responseValue : Int32 := 0

/-- `ExecCommand`. -/
def execCommand : Int32 := 2

/-- `AuthResponse`, the same number as `ExecCommand`. -/
def authResponse : Int32 := 2

/-- `Auth`. -/
def auth : Int32 := 3

/-- `SecretsMatch`: every byte is compared, whatever the others were. -/
def secretsMatch (a b : Bytes) : Bool :=
  if a.length ≠ b.length then false
  else (a.zipWith (fun c d => c ^^^ d) b).foldl (fun diff c => diff ||| c) 0 == 0

/-- What a connection is served with: the settings, and what the limiter and `Dispatch` answer
the first, the second, … time that they are asked. -/
structure Service where
  config : RconConfig
  allow : ℕ → Bool
  dispatch : ℕ → Bytes → Bytes

/-- What is recorded about the address of a client. -/
inductive Recorded
  | success
  | failure
  deriving DecidableEq, Repr

/-- A connection: whether it is authenticated, how often the limiter has been asked, the lines
passed to `Dispatch`, the packets sent and what has been recorded, all in their order. -/
structure Session where
  authenticated : Bool := false
  asked : ℕ := 0
  dispatched : List Bytes := []
  sent : List Packet := []
  recorded : List Recorded := []
  deriving DecidableEq, Repr

/-- `SendPacket` on a connection. -/
def Session.send (s : Session) (ps : List Packet) : Session :=
  { s with sent := s.sent ++ ps }

/-- `RecordSuccess` or `RecordFailure` for the address of a connection. -/
def Session.record (s : Session) (r : Recorded) : Session :=
  { s with recorded := s.recorded ++ [r] }

/-- A packet without a body. -/
def emptyPacket (id type : Int32) : Packet where
  id := id
  type := type
  body := []

/-- The refusal of the limiter. -/
def limitText (config : RconConfig) : Bytes :=
  bytes "Rate limit reached. This address may run " ++ decimal config.commandsPerMinute.toInt ++
    bytes " commands per minute."

/-- The loop's body for a packet: the connection afterwards, and whether the loop goes on. -/
def onPacket (service : Service) (s : Session) (p : Packet) : Session × Bool :=
  if p.type = auth then
    if secretsMatch p.body service.config.password then
      let s := { s with authenticated := true }
      ((s.record .success).send
        [emptyPacket p.id responseValue, emptyPacket p.id authResponse], true)
    else
      ((s.record .failure).send
        [emptyPacket p.id responseValue, emptyPacket (-1) authResponse], false)
  else if s.authenticated = false then
    (s.send [emptyPacket (-1) authResponse], false)
  else if p.type ≠ execCommand then
    (s.send (responsePackets p.id (bytes "Unsupported packet type " ++ decimal p.type.toInt)), true)
  else if service.allow s.asked = false then
    let s := { s with asked := s.asked + 1 }
    (s.send (responsePackets p.id (limitText service.config)), true)
  else
    let answer := service.dispatch s.asked p.body
    let s := { s with asked := s.asked + 1, dispatched := s.dispatched ++ [p.body] }
    (s.send (responsePackets p.id answer), true)

/-- The loop of `HandleClient` while the server is running: the connection when it is closed, and
what is left unread. Each turn takes a packet off the stream, so that as many turns are enough as
there are bytes. -/
def clientLoop (service : Service) : ℕ → Session → Net UInt8 → Session × Net UInt8
  | 0, s, net => (s, net)
  | fuel + 1, s, net =>
      match readPacket net with
      | (none, net) => (s, net)
      | (some p, net) =>
          match onPacket service s p with
          | (s, true) => clientLoop service fuel s net
          | (s, false) => (s, net)

/-- `HandleClient`. -/
def handleClient (service : Service) (net : Net UInt8) : Session × Net UInt8 :=
  clientLoop service ((arrived net).length + 1) {} net

/-! ### What arrives -/

/-- The packets that arrive on a connection, up to the first call of `ReadPacket` that fails. -/
def packetsFrom : ℕ → Net UInt8 → List Packet
  | 0, _ => []
  | fuel + 1, net =>
      match readPacket net with
      | (none, _) => []
      | (some p, net) => p :: packetsFrom fuel net

/-- The packets that arrive on a connection. -/
def arriving (net : Net UInt8) : List Packet :=
  packetsFrom ((arrived net).length + 1) net

/-! ### What a session is -/

/-- The packet carries the password. -/
def Authenticates (password : Bytes) (p : Packet) : Prop :=
  p.type = auth ∧ p.body = password

instance (password : Bytes) (p : Packet) : Decidable (Authenticates password p) :=
  inferInstanceAs (Decidable (_ ∧ _))

/-- The packet ends a session in which `before` has arrived: it claims to carry the password
and does not, or it claims nothing and no packet before it has carried it. -/
def Terminates (password : Bytes) (before : List Packet) (p : Packet) : Prop :=
  (p.type = auth ∧ p.body ≠ password) ∨
    (p.type ≠ auth ∧ ∀ q ∈ before, ¬ Authenticates password q)

/-- The commands among packets: those behind the first one with the password. -/
def commandsIn (password : Bytes) (ps : List Packet) : List Packet :=
  (ps.dropWhile fun p => !decide (Authenticates password p)).filter fun p => p.type = execCommand

/-- The bodies of the commands that the limiter lets through, when it has been asked `n` times
before the first. -/
def allowed (allow : ℕ → Bool) (n : ℕ) (commands : List Packet) : List Bytes :=
  ((commands.zipIdx n).filter fun c => allow c.2).map fun c => c.1.body

/-- The answer to the packet that ends a session. -/
def rejection (p : Packet) : List Packet :=
  if p.type = auth then [emptyPacket p.id responseValue, emptyPacket (-1) authResponse]
  else [emptyPacket (-1) authResponse]

/-! ### The comparison of secrets -/

/-- A disjunction of bytes is zero when all of them are. -/
theorem foldl_or_eq_zero_iff (l : Bytes) (d : UInt8) :
    l.foldl (fun diff c => diff ||| c) d = 0 ↔ d = 0 ∧ ∀ c ∈ l, c = 0 := by
  induction l generalizing d with
  | nil => simp
  | cons c l ih => rw [List.foldl_cons, ih, UInt8.or_eq_zero_iff, List.forall_mem_cons, and_assoc]

/-- **Secrets match when they are the same.** -/
theorem secretsMatch_iff (a b : Bytes) : secretsMatch a b = true ↔ a = b := by
  rw [secretsMatch]
  split_ifs with hlen
  · exact iff_of_false not_false fun h => hlen (congrArg _ h)
  · rw [not_not] at hlen
    rw [beq_iff_eq, foldl_or_eq_zero_iff, and_iff_right rfl]
    induction a generalizing b with
    | nil =>
        obtain rfl : b = [] := List.length_eq_zero_iff.mp hlen.symm
        simp
    | cons c a ih =>
        cases b with
        | nil => cases hlen
        | cons d b =>
            rw [List.zipWith_cons_cons, List.forall_mem_cons, UInt8.xor_eq_zero_iff,
              ih b (Nat.succ.inj hlen), List.cons.injEq]

/-! ### Commands -/

section Session

variable {password : Bytes} {before : List Packet} {p : Packet}

/-- A packet behind one with the password is among the commands when it is one. -/
theorem commandsIn_append (h : ∃ q ∈ before, Authenticates password q) (p : Packet) :
    commandsIn password (before ++ [p]) =
      commandsIn password before ++ if p.type = execCommand then [p] else [] := by
  obtain ⟨q, hq, hauth⟩ := h
  have hne : before.dropWhile (fun p => !decide (Authenticates password p)) ≠ [] := by
    rw [ne_eq, List.dropWhile_eq_nil_iff]
    exact fun h => by simpa [hauth] using h q hq
  have hdrop : (before ++ [p]).dropWhile (fun p => !decide (Authenticates password p)) =
      before.dropWhile (fun p => !decide (Authenticates password p)) ++ [p] := by
    rw [List.dropWhile_append, if_neg (by simpa using hne)]
  rw [commandsIn, hdrop, List.filter_append, ← commandsIn]
  split_ifs with htype <;> simp [htype]

/-- A packet with the password is no command. -/
theorem commandsIn_append_auth (h : p.type = auth) :
    commandsIn password (before ++ [p]) = commandsIn password before := by
  have hfilter : [p].filter (fun p => p.type = execCommand) = [] := by simp [h, auth, execCommand]
  rw [commandsIn, commandsIn, List.dropWhile_append]
  split_ifs with hnil
  · have hnone : before.dropWhile (fun p => !decide (Authenticates password p)) = [] := by
      simpa using hnil
    rw [hnone, List.dropWhile_cons]
    split_ifs
    · rfl
    · exact hfilter
  · rw [List.filter_append, hfilter, List.append_nil]

/-- One command more. -/
theorem allowed_append (allow : ℕ → Bool) (commands : List Packet) (p : Packet) :
    allowed allow 0 (commands ++ [p]) =
      allowed allow 0 commands ++ if allow commands.length then [p.body] else [] := by
  rw [allowed, List.zipIdx_append, List.filter_append, List.map_append, ← allowed]
  cases hallow : allow commands.length <;> simp [hallow]

/-! ### The loop -/

/-- What holds of a connection when the packets in `before` have been served. -/
structure Open (service : Service) (before : List Packet) (s : Session) : Prop where
  authenticated : s.authenticated = true ↔
    ∃ q ∈ before, Authenticates service.config.password q
  asked : s.asked = (commandsIn service.config.password before).length
  dispatched : s.dispatched =
    allowed service.allow 0 (commandsIn service.config.password before)
  recorded : Recorded.failure ∉ s.recorded

/-- A connection that has been accepted. -/
theorem open_nil (service : Service) : Open service [] {} where
  authenticated := by simp
  asked := rfl
  dispatched := rfl
  recorded := List.not_mem_nil

/-- A packet with the password authenticates the session. -/
theorem Open.authenticate {service : Service} {s : Session} (hs : Open service before s)
    (htype : p.type = auth) (hbody : p.body = service.config.password) :
    (onPacket service s p).2 = true ∧ Open service (before ++ [p]) (onPacket service s p).1 := by
  rw [onPacket, if_pos htype, if_pos ((secretsMatch_iff _ _).mpr hbody)]
  refine ⟨rfl, ⟨?_, ?_, ?_, ?_⟩⟩
  · exact iff_of_true rfl ⟨p, List.mem_append_right _ (List.mem_singleton.mpr rfl), htype, hbody⟩
  · rw [commandsIn_append_auth htype]
    exact hs.asked
  · rw [commandsIn_append_auth htype]
    exact hs.dispatched
  · simpa [Session.record, Session.send] using hs.recorded

/-- Any other packet is served in an authenticated session. -/
theorem Open.serve {service : Service} {s : Session} (hs : Open service before s)
    (htype : p.type ≠ auth) (hauth : ∃ q ∈ before, Authenticates service.config.password q) :
    (onPacket service s p).2 = true ∧ Open service (before ++ [p]) (onPacket service s p).1 := by
  have hopen := hs.authenticated.mpr hauth
  have hstill : ∃ q ∈ before ++ [p], Authenticates service.config.password q := by
    obtain ⟨q, hq, hq'⟩ := hauth
    exact ⟨q, List.mem_append_left _ hq, hq'⟩
  have hcommands := commandsIn_append hauth p
  rw [onPacket, if_neg htype, if_neg (by simp [hopen])]
  by_cases hexec : p.type = execCommand
  · rw [if_neg (not_not.mpr hexec)]
    rw [if_pos hexec] at hcommands
    have hasked : s.asked + 1 =
        (commandsIn service.config.password (before ++ [p])).length := by
      rw [hcommands, List.length_append, ← hs.asked]
      rfl
    have hallowed := allowed_append service.allow
      (commandsIn service.config.password before) p
    rw [← hs.asked] at hallowed
    split_ifs with hrefused
    · rw [hrefused, if_neg Bool.noConfusion, List.append_nil] at hallowed
      refine ⟨rfl, ⟨iff_of_true hopen hstill, hasked, ?_, hs.recorded⟩⟩
      rw [hcommands, hallowed]
      exact hs.dispatched
    · rw [Bool.not_eq_false] at hrefused
      rw [hrefused, if_pos rfl, ← hs.dispatched] at hallowed
      refine ⟨rfl, ⟨iff_of_true hopen hstill, hasked, ?_, hs.recorded⟩⟩
      rw [hcommands, hallowed]
      rfl
  · rw [if_pos hexec]
    rw [if_neg hexec, List.append_nil] at hcommands
    refine ⟨rfl, ⟨iff_of_true hopen hstill, ?_, ?_, hs.recorded⟩⟩
    · rw [hcommands]
      exact hs.asked
    · rw [hcommands]
      exact hs.dispatched

/-- **A packet that does not end the session** is served, and the loop goes on. -/
theorem onPacket_of_not_terminates {service : Service} {s : Session}
    (hs : Open service before s) (hp : ¬ Terminates service.config.password before p) :
    (onPacket service s p).2 = true ∧ Open service (before ++ [p]) (onPacket service s p).1 := by
  obtain ⟨hbad, hearly⟩ := not_or.mp hp
  by_cases htype : p.type = auth
  · have hbody : p.body = service.config.password := by
      by_contra hne
      exact hbad ⟨htype, hne⟩
    exact hs.authenticate htype hbody
  · have hauth : ∃ q ∈ before, Authenticates service.config.password q := by
      by_contra hnone
      exact hearly ⟨htype, fun q hq hq' => hnone ⟨q, hq, hq'⟩⟩
    exact hs.serve htype hauth

/-- **The packet that ends the session** is answered with the id -1, and recorded when it claims
to carry the password. -/
theorem onPacket_of_terminates {service : Service} {s : Session}
    (hs : Open service before s) (hp : Terminates service.config.password before p) :
    (onPacket service s p).2 = false ∧
      (onPacket service s p).1.dispatched = s.dispatched ∧
      (onPacket service s p).1.sent = s.sent ++ rejection p ∧
      (onPacket service s p).1.recorded =
        s.recorded ++ if p.type = auth then [Recorded.failure] else [] := by
  rcases hp with ⟨htype, hbody⟩ | ⟨htype, hnone⟩
  · have hmatch : ¬ secretsMatch p.body service.config.password = true :=
      fun h => hbody ((secretsMatch_iff _ _).mp h)
    rw [onPacket, if_pos htype, if_neg hmatch, rejection, if_pos htype, if_pos htype]
    exact ⟨rfl, rfl, rfl, rfl⟩
  · have hclosed : s.authenticated = false := by
      rw [← Bool.not_eq_true, hs.authenticated]
      rintro ⟨q, hq, hq'⟩
      exact hnone q hq hq'
    rw [onPacket, if_neg htype, if_pos hclosed, rejection, if_neg htype, if_neg htype,
      List.append_nil]
    exact ⟨rfl, rfl, rfl, rfl⟩

end Session

/-! ### The connection -/

/-- The session as it is when these packets have been served. -/
def servedWith (service : Service) (s : Session) (ps : List Packet) : Session :=
  ps.foldl (fun s p => (onPacket service s p).1) s

/-- No packet ends a session in which `before` has arrived. -/
def Goes (password : Bytes) (before ps : List Packet) : Prop :=
  ∀ pre p post, ps = pre ++ p :: post → ¬ Terminates password (before ++ pre) p

/-- A session that goes on with one packet. -/
theorem Goes.cons {password : Bytes} {before ps : List Packet} {p : Packet}
    (hp : ¬ Terminates password before p) (h : Goes password (before ++ [p]) ps) :
    Goes password before (p :: ps) := by
  intro pre q post hsplit
  cases pre with
  | nil =>
      obtain ⟨rfl, -⟩ := List.cons.inj hsplit
      rwa [List.append_nil]
  | cons r pre =>
      obtain ⟨rfl, hrest⟩ := List.cons.inj hsplit
      have := h pre q post hrest
      rwa [List.append_assoc, List.singleton_append] at this

/-- What a connection comes to from a session `s` in which `before` has arrived, when `ps`
arrive: either no packet ends the session and `ReadPacket` fails behind them, or the first that
does is the last that is read. -/
def Closes (service : Service) (before : List Packet) (s : Session) (net : Net UInt8)
    (ps : List Packet) (closed : Session × Net UInt8) : Prop :=
  (Goes service.config.password before ps ∧ Open service (before ++ ps) closed.1 ∧
    ∃ net', readPackets ps.length net = some (ps, net') ∧ readPacket net' = (none, closed.2)) ∨
  ∃ pre p post, ps = pre ++ p :: post ∧ Goes service.config.password before pre ∧
    Terminates service.config.password (before ++ pre) p ∧
    Open service (before ++ pre) (servedWith service s pre) ∧
    closed.1 = (onPacket service (servedWith service s pre) p).1 ∧
    readPackets (pre.length + 1) net = some (pre ++ [p], closed.2)

/-- A packet that is read takes at least its size off what arrives. -/
theorem arrived_length_lt {net rest : Net UInt8} {p : Packet}
    (h : readPacket net = (some p, rest)) : (arrived rest).length < (arrived net).length := by
  obtain ⟨head, payload, harrived, hhead, -⟩ := readPacket_consumes h
  rw [harrived, List.length_append, List.length_append]
  omega

/-- **The loop from any point on.** -/
theorem clientLoop_closes {service : Service} {fuel : ℕ} {net : Net UInt8} {before : List Packet}
    {s : Session} (hs : Open service before s) (hfuel : (arrived net).length < fuel) :
    Closes service before s net (packetsFrom fuel net) (clientLoop service fuel s net) := by
  induction fuel generalizing net before s with
  | zero => cases hfuel
  | succ fuel ih =>
      rw [packetsFrom, clientLoop]
      cases hread : readPacket net with
      | mk p? net₁ =>
          cases p? with
          | none =>
              refine .inl ⟨fun pre p post h => ?_, by simpa using hs, net, rfl, hread⟩
              exact absurd h.symm (List.append_ne_nil_of_right_ne_nil _ (List.cons_ne_nil _ _))
          | some p =>
              have hlt := arrived_length_lt hread
              dsimp only
              by_cases hp : Terminates service.config.password before p
              · have hstop : onPacket service s p = ((onPacket service s p).1, false) :=
                  Prod.ext rfl (onPacket_of_terminates hs hp).1
                rw [hstop]
                refine .inr ⟨[], p, packetsFrom fuel net₁, rfl, fun pre q post h => ?_, ?_, ?_,
                  rfl, ?_⟩
                · exact absurd h.symm
                    (List.append_ne_nil_of_right_ne_nil _ (List.cons_ne_nil _ _))
                · rwa [List.append_nil]
                · rwa [List.append_nil]
                · simp [readPackets, hread]
              · obtain ⟨hgo, hopen⟩ := onPacket_of_not_terminates hs hp
                have hon : onPacket service s p = ((onPacket service s p).1, true) :=
                  Prod.ext rfl hgo
                rw [hon]
                dsimp only
                have hfuel₁ : (arrived net₁).length < fuel := by omega
                rcases ih hopen hfuel₁ with
                  ⟨hgoes, hclosed, net', hreads, hfails⟩ |
                  ⟨pre, q, post, hsplit, hgoes, hends, hserved, hclosed, hreads⟩
                · refine .inl ⟨hgoes.cons hp, ?_, net', ?_, hfails⟩
                  · rwa [List.append_assoc, List.singleton_append] at hclosed
                  · rw [List.length_cons, readPackets, hread]
                    dsimp only
                    rw [hreads]
                    rfl
                · rw [List.append_assoc, List.singleton_append] at hends hserved
                  refine .inr ⟨p :: pre, q, post, ?_, hgoes.cons hp, hends, hserved, hclosed, ?_⟩
                  · rw [hsplit, List.cons_append]
                  · rw [List.length_cons, readPackets, hread]
                    dsimp only
                    rw [hreads]
                    rfl

/-- **Commands run only inside an authenticated session.** Whatever arrives and whatever the
limiter answers, either no packet ends the session, and the commands that the limiter lets
through are dispatched; or the first one that does is answered with the id -1 and recorded when
it claims to carry the password, the commands in front of it are dispatched, and nothing behind
it is read. -/
theorem handleClient_spec (service : Service) (net : Net UInt8) :
    let closed := handleClient service net
    let password := service.config.password
    (Goes password [] (arriving net) ∧
      closed.1.dispatched = allowed service.allow 0 (commandsIn password (arriving net)) ∧
      Recorded.failure ∉ closed.1.recorded ∧
      ∃ net', readPackets (arriving net).length net = some (arriving net, net') ∧
        readPacket net' = (none, closed.2)) ∨
    ∃ pre p post, arriving net = pre ++ p :: post ∧ Goes password [] pre ∧
      Terminates password pre p ∧
      closed.1.dispatched = allowed service.allow 0 (commandsIn password pre) ∧
      closed.1.sent = (servedWith service {} pre).sent ++ rejection p ∧
      closed.1.recorded = (servedWith service {} pre).recorded ++
        (if p.type = auth then [Recorded.failure] else []) ∧
      Recorded.failure ∉ (servedWith service {} pre).recorded ∧
      readPackets (pre.length + 1) net = some (pre ++ [p], closed.2) := by
  dsimp only
  rcases clientLoop_closes (open_nil service) (Nat.lt_succ_self (arrived net).length) with
    ⟨hgoes, hclosed, net', hreads, hfails⟩ |
    ⟨pre, p, post, hsplit, hgoes, hends, hserved, hclosed, hreads⟩
  · exact .inl ⟨hgoes, hclosed.dispatched, hclosed.recorded, net', hreads, hfails⟩
  · obtain ⟨-, hdispatched, hsent, hrecorded⟩ := onPacket_of_terminates hserved hends
    rw [← hclosed] at hdispatched hsent hrecorded
    exact .inr ⟨pre, p, post, hsplit, hgoes, hends, hdispatched.trans hserved.dispatched, hsent,
      hrecorded, hserved.recorded, hreads⟩

end RSDWServerAPI.Rcon
