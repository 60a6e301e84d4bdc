import RSDWServerAPI.HttpAuth
import RSDWServerAPI.RconCommands

/-!
# The routes of the API

`RegisterSystem` and `RegisterPlayers` (`api/system_routes.cpp`, `api/player_routes.cpp`) put ten
routes into the table of the HTTP server. `requested` is what a request asks for, read off its
method, its path and its body, and `answered` is the answer to it.

A handler runs under the mutex of the route table, so that a request is one step.

## Main results

* `respond_of_fits`: **a route does what its requests ask for**, one operation or none.
* `serve_spec`: **a connection performs the operation that it asks for, if it is authorised, and
  nothing else**.
-/

namespace RSDWServerAPI.ApiRoutes

open Administration HttpServer Json JsonText Socket
open Rcon (Console)

/-! ### The handlers -/

/-- A handler with the state behind it; none of these throws. -/
def handling (f : HttpRequest → AdminState → HttpResponse × AdminState) (req : HttpRequest)
    (s : AdminState) : Option HttpResponse × AdminState :=
  (some (f req s).1, (f req s).2)

/-- `GET /api/hello`. -/
def helloRoute : StatefulRoute AdminState where
  method := bytes "GET"
  path := bytes "/api/hello"
  handler := handling <| showing fun _ _ =>
    jsonResponse (bytes "\x7b\"message\":\"Hello from RSDWRestAPI!\",\"status\":\"ok\"\x7d")

/-- `GET /api/health`; the uptime is what fits into `char uptime[32]`. -/
def healthRoute (w : Console) : StatefulRoute AdminState where
  method := bytes "GET"
  path := bytes "/api/health"
  handler := handling <| showing fun _ _ =>
    jsonResponse (bytes "\x7b" ++
      bytes "\"status\":\"" ++ (if w.initialized then bytes "healthy" else bytes "starting") ++
      bytes "\"," ++
      bytes "\"version\":\"" ++ Rcon.version ++ bytes "\"," ++
      bytes "\"uptimeSeconds\":" ++ (fixedText 1 w.uptimeSeconds.value).take 31 ++ bytes "," ++
      bytes "\"engineReady\":" ++ Serialize.bool w.initialized ++
      bytes "\x7d")

/-- `filter` of `GET /api/players`. -/
def filterPlayers (req : HttpRequest) (key : Bytes) (field : Serialize.PlayerInfo → Bytes)
    (players : List Serialize.PlayerInfo) : List Serialize.PlayerInfo :=
  match req.query.lookup key with
  | none => players
  | some value =>
      if value = [] then players else players.filter fun p => lower (field p) == lower value

/-- `GET /api/players`. -/
def playersRoute (w : Console) : StatefulRoute AdminState where
  method := bytes "GET"
  path := bytes "/api/players"
  handler := handling <| showing fun req _ =>
    if !w.initialized then engineUnavailable
    else
      let players := filterPlayers req (bytes "name") (·.name) w.players
      let players := filterPlayers req (bytes "characterName") (·.characterName) players
      let players := filterPlayers req (bytes "netId") (·.uniqueNetId) players
      let players := filterPlayers req (bytes "characterGuid") (·.characterGuid) players
      jsonResponse (Serialize.players players)

/-- A string of the body that has to be there. -/
def required (req : HttpRequest) (key : String) : Option Bytes :=
  (getString req.body (bytes key)).filter (· ≠ [])

/-- A string of the body that may be missing. -/
def optional (req : HttpRequest) (key fallback : String) : Bytes :=
  (getString req.body (bytes key)).getD (bytes fallback)

/-- `POST /api/kick`. -/
def kickRoute (w : Console) : StatefulRoute AdminState where
  method := bytes "POST"
  path := bytes "/api/kick"
  handler := handling fun req s =>
    if !w.initialized then (engineUnavailable, s)
    else
      match required req "player" with
      | none => (error 400 (bytes "player required (name, characterName, netId or playerId)"), s)
      | some target =>
          match perform w.toAdminWorld s
              (.kick target (optional req "reason" "Kicked by an administrator")) with
          | (.error message, s) => (error 500 message, s)
          | (.ok _, s) => (ok (bytes "kicked " ++ target), s)

/-- The line that is broadcast. -/
def broadcastLine (req : HttpRequest) (message : Bytes) : Bytes :=
  let sender := optional req "sender" "Server"
  if sender = [] then message else bytes "[" ++ sender ++ bytes "] " ++ message

/-- `POST /api/broadcast`. -/
def broadcastRoute (w : Console) : StatefulRoute AdminState where
  method := bytes "POST"
  path := bytes "/api/broadcast"
  handler := handling fun req s =>
    if !w.initialized then (engineUnavailable, s)
    else
      match required req "message" with
      | none => (error 400 (bytes "message required"), s)
      | some message =>
          match perform w.toAdminWorld s (.broadcast (broadcastLine req message)) with
          | (.error message, s) => (error 500 message, s)
          | (.ok _, s) => (ok (bytes "broadcast sent"), s)

/-- `count` of `POST /api/give`. -/
def countOf (req : HttpRequest) : Int32 :=
  (getInt req.body (bytes "count")).elim 1 Int32.ofInt

/-- `POST /api/give`. -/
def giveRoute (w : Console) : StatefulRoute AdminState where
  method := bytes "POST"
  path := bytes "/api/give"
  handler := handling fun req s =>
    if !w.initialized then (engineUnavailable, s)
    else
      match required req "player", required req "item" with
      | none, _ => (error 400 (bytes "player required"), s)
      | some _, none => (error 400 (bytes "item required"), s)
      | some player, some item =>
          match perform w.toAdminWorld s (.give player item (countOf req)) with
          | (.error message, s) => (error 500 message, s)
          | (.ok message, s) => (ok message, s)

/-- `GET /api/items`. -/
def itemsRoute (w : Console) : StatefulRoute AdminState where
  method := bytes "GET"
  path := bytes "/api/items"
  handler := handling <| showing fun req _ => getItems w.initialized w.loaded req

/-- `POST /api/ban`. -/
def banRoute (w : Console) : StatefulRoute AdminState where
  method := bytes "POST"
  path := bytes "/api/ban"
  handler := handling fun req s =>
    if !w.initialized then (engineUnavailable, s)
    else
      match required req "player" with
      | none =>
          (error 400 (bytes "player required (name, netId or SteamID64 for offline players)"), s)
      | some player =>
          match perform w.toAdminWorld s
              (.ban player (optional req "reason" "Banned by an administrator")) with
          | (.error message, s) => (error 500 message, s)
          | (.ok message, s) => (ok message, s)

/-- `POST /api/unban`, which does not ask for the engine. -/
def unbanRoute (w : Console) : StatefulRoute AdminState where
  method := bytes "POST"
  path := bytes "/api/unban"
  handler := handling fun req s =>
    match required req "player" with
    | none => (error 400 (bytes "player required (name or SteamID64)"), s)
    | some player =>
        match perform w.toAdminWorld s (.unban player) with
        | (.error message, s) => (error 404 message, s)
        | (.ok message, s) => (ok message, s)

/-- `GET /api/bans`. -/
def bansRoute : StatefulRoute AdminState where
  method := bytes "GET"
  path := bytes "/api/bans"
  handler := handling <| showing fun _ s => getBans s.bans

/-- The route table behind `RegisterAll`. -/
def routes (w : Console) : List (StatefulRoute AdminState) :=
  [helloRoute, healthRoute w, playersRoute w, kickRoute w, broadcastRoute w, giveRoute w,
    itemsRoute w, banRoute w, unbanRoute w, bansRoute]

/-- The server with these routes. -/
def apiServer (w : Console) (s : AdminState) : Server AdminState where
  routes := routes w
  state := s

/-! ### What a request asks for -/

/-- The operation that a request to give something asks for. -/
def giveRequested (req : HttpRequest) : Option Operation :=
  match required req "player", required req "item" with
  | some player, some item => some (.give player item (countOf req))
  | _, _ => none

/-- The operation that a `POST` request to a path asks for. -/
def requestedAt (ready : Bool) (path : Bytes) (req : HttpRequest) : Option Operation :=
  if path = bytes "/api/unban" then (required req "player").map .unban
  else if !ready then none
  else if path = bytes "/api/kick" then
    (required req "player").map fun player =>
      .kick player (optional req "reason" "Kicked by an administrator")
  else if path = bytes "/api/broadcast" then
    (required req "message").map fun message => .broadcast (broadcastLine req message)
  else if path = bytes "/api/give" then giveRequested req
  else if path = bytes "/api/ban" then
    (required req "player").map fun player =>
      .ban player (optional req "reason" "Banned by an administrator")
  else none

/-- The operation that a request asks for. -/
def requested (ready : Bool) (req : HttpRequest) : Option Operation :=
  if req.method = bytes "POST" then requestedAt ready req.path req else none

/-- The answer to an operation. -/
def answered : Operation → Except Bytes Bytes → HttpResponse
  | .kick player _, .ok _ => ok (bytes "kicked " ++ player)
  | .broadcast _, .ok _ => ok (bytes "broadcast sent")
  | _, .ok message => ok message
  | .unban _, .error message => error 404 message
  | _, .error message => error 500 message

/-- A route does what its requests ask for. -/
def Obeys (w : Console) (route : StatefulRoute AdminState) : Prop :=
  ∀ req s, route.Fits req →
    match requested w.initialized req with
    | some operation =>
        route.handler req s =
          (some (answered operation (perform w.toAdminWorld s operation).1),
            (perform w.toAdminWorld s operation).2)
    | none => ∃ response, route.handler req s = (some response, s)

variable {w : Console}

/-- A route that changes nothing, for another method than `POST`. -/
theorem obeys_get {path : Bytes} (f : HttpRequest → AdminState → HttpResponse) :
    Obeys w ⟨bytes "GET", path, handling (showing f)⟩ := by
  intro req s hfits
  have hmethod : req.method ≠ bytes "POST" := by
    rw [← hfits.1]
    change bytes "GET" ≠ _
    decide
  rw [requested, if_neg hmethod]
  exact ⟨f req s, rfl⟩

/-- A `POST` route does what the request asks for. -/
theorem obeys_post {route : StatefulRoute AdminState} (hmethod : route.method = bytes "POST")
    (h : ∀ req s,
      match requestedAt w.initialized route.path req with
      | some operation =>
          route.handler req s =
            (some (answered operation (perform w.toAdminWorld s operation).1),
              (perform w.toAdminWorld s operation).2)
      | none => ∃ response, route.handler req s = (some response, s)) : Obeys w route := by
  intro req s hfits
  rw [requested, if_pos (hfits.1.symm.trans hmethod), ← hfits.2]
  exact h req s

/-- Without the engine only a ban can be lifted. -/
theorem requestedAt_not_ready {path : Bytes} (h : path ≠ bytes "/api/unban") (req : HttpRequest) :
    requestedAt false path req = none := by
  rw [requestedAt, if_neg h]
  rfl

/-- `POST /api/kick` does what it is asked for. -/
theorem obeys_kick : Obeys w (kickRoute w) := by
  refine obeys_post rfl fun req s => ?_
  have hpath : (kickRoute w).path = bytes "/api/kick" := rfl
  cases hready : w.initialized with
  | false =>
      rw [hpath, requestedAt_not_ready (by decide)]
      refine ⟨engineUnavailable, ?_⟩
      simp only [kickRoute, handling, hready]
      rfl
  | true =>
      rw [hpath, requestedAt, if_neg (by decide), if_neg (by decide), if_pos rfl]
      simp only [kickRoute, handling, hready]
      cases required req "player" with
      | none => exact ⟨_, rfl⟩
      | some value =>
          dsimp only [Option.map_some]
          generalize perform _ _ _ = outcome
          obtain ⟨result, t⟩ := outcome
          cases result <;> rfl

/-- `POST /api/broadcast` does what it is asked for. -/
theorem obeys_broadcast : Obeys w (broadcastRoute w) := by
  refine obeys_post rfl fun req s => ?_
  have hpath : (broadcastRoute w).path = bytes "/api/broadcast" := rfl
  cases hready : w.initialized with
  | false =>
      rw [hpath, requestedAt_not_ready (by decide)]
      refine ⟨engineUnavailable, ?_⟩
      simp only [broadcastRoute, handling, hready]
      rfl
  | true =>
      rw [hpath, requestedAt, if_neg (by decide), if_neg (by decide), if_neg (by decide),
        if_pos rfl]
      simp only [broadcastRoute, handling, hready]
      cases required req "message" with
      | none => exact ⟨_, rfl⟩
      | some value =>
          dsimp only [Option.map_some]
          generalize perform _ _ _ = outcome
          obtain ⟨result, t⟩ := outcome
          cases result <;> rfl

/-- `POST /api/give` does what it is asked for. -/
theorem obeys_give : Obeys w (giveRoute w) := by
  refine obeys_post rfl fun req s => ?_
  have hpath : (giveRoute w).path = bytes "/api/give" := rfl
  cases hready : w.initialized with
  | false =>
      rw [hpath, requestedAt_not_ready (by decide)]
      refine ⟨engineUnavailable, ?_⟩
      simp only [giveRoute, handling, hready]
      rfl
  | true =>
      rw [hpath, requestedAt, if_neg (by decide), if_neg (by decide), if_neg (by decide),
        if_neg (by decide), if_pos rfl]
      simp only [giveRoute, handling, hready]
      rw [giveRequested]
      cases required req "player" with
      | none => exact ⟨_, rfl⟩
      | some player =>
          cases required req "item" with
          | none => exact ⟨_, rfl⟩
          | some item =>
              dsimp only
              generalize perform _ _ _ = outcome
              obtain ⟨result, t⟩ := outcome
              cases result <;> rfl

/-- `POST /api/ban` does what it is asked for. -/
theorem obeys_ban : Obeys w (banRoute w) := by
  refine obeys_post rfl fun req s => ?_
  have hpath : (banRoute w).path = bytes "/api/ban" := rfl
  cases hready : w.initialized with
  | false =>
      rw [hpath, requestedAt_not_ready (by decide)]
      refine ⟨engineUnavailable, ?_⟩
      simp only [banRoute, handling, hready]
      rfl
  | true =>
      rw [hpath, requestedAt, if_neg (by decide), if_neg (by decide), if_neg (by decide),
        if_neg (by decide), if_neg (by decide), if_pos rfl]
      simp only [banRoute, handling, hready]
      cases required req "player" with
      | none => exact ⟨_, rfl⟩
      | some value =>
          dsimp only [Option.map_some]
          generalize perform _ _ _ = outcome
          obtain ⟨result, t⟩ := outcome
          cases result <;> rfl

/-- `POST /api/unban` does what it is asked for. -/
theorem obeys_unban : Obeys w (unbanRoute w) := by
  refine obeys_post rfl fun req s => ?_
  have hpath : (unbanRoute w).path = bytes "/api/unban" := rfl
  rw [hpath, requestedAt, if_pos rfl]
  simp only [unbanRoute, handling]
  cases required req "player" with
  | none => exact ⟨_, rfl⟩
  | some player =>
      dsimp only [Option.map_some]
      generalize perform _ _ _ = outcome
      obtain ⟨result, t⟩ := outcome
      cases result <;> rfl

/-- **Every route does what its requests ask for.** -/
theorem obeys_of_mem {route : StatefulRoute AdminState} (h : route ∈ routes w) :
    Obeys w route := by
  simp only [routes, List.mem_cons, List.not_mem_nil, or_false] at h
  rcases h with rfl | rfl | rfl | rfl | rfl | rfl | rfl | rfl | rfl | rfl
  · exact obeys_get _
  · exact obeys_get _
  · exact obeys_get _
  · exact obeys_kick
  · exact obeys_broadcast
  · exact obeys_give
  · exact obeys_get _
  · exact obeys_ban
  · exact obeys_unban
  · exact obeys_get _

/-! ### A connection -/

/-- What a server does with a request that reaches a handler. -/
theorem respond_of_fits {req : HttpRequest} {s : AdminState} {route : StatefulRoute AdminState}
    (hfind : (routes w).find? (fun route => decide (route.Fits req)) = some route) :
    match requested w.initialized req with
    | some operation =>
        route.handler req s =
          (some (answered operation (perform w.toAdminWorld s operation).1),
            (perform w.toAdminWorld s operation).2)
    | none => ∃ response, route.handler req s = (some response, s) :=
  obeys_of_mem (List.mem_of_find?_eq_some hfind) req s (by simpa using List.find?_some hfind)

/-- What a connection comes to. -/
theorem serve_eq (token : Bytes) (w : Console) (s : AdminState) (net : Net UInt8) :
    match ((apiServer w s).serve token net).called with
    | none => ((apiServer w s).serve token net).state = s
    | some req =>
        parseRequest net = .ok req ∧ req.method ≠ bytes "OPTIONS" ∧
          authorized token req = true ∧
          match requested w.initialized req with
          | some operation =>
              (apiServer w s).serve token net = {
                called := some req
                sent := some (responseText
                  (answered operation (perform w.toAdminWorld s operation).1))
                state := (perform w.toAdminWorld s operation).2 }
          | none => ((apiServer w s).serve token net).state = s := by
  cases hcalled : ((apiServer w s).serve token net).called with
  | none =>
      have hserved : (handleClient token (apiServer w s).entries net).called = none := hcalled
      rw [Server.serve, hserved]
      rfl
  | some req =>
      have hserved : (handleClient token (apiServer w s).entries net).called = some req := hcalled
      obtain ⟨hparse, hreach⟩ := called_eq.mp hserved
      rw [reachesHandler, Bool.and_eq_true, Bool.and_eq_true, bne_iff_ne,
        routeOf_entries, Option.isSome_map] at hreach
      obtain ⟨⟨hmethod, hauthorized⟩, hroute⟩ := hreach
      obtain ⟨route, hfind⟩ := Option.isSome_iff_exists.mp hroute
      have hrespond := respond_of_fits hfind (s := s)
      have hsent := (serve_of_parsed token (apiServer w s) hparse).2
      rw [answer, if_neg hmethod, hauthorized, routeOf_entries, hfind] at hsent
      have hstate : ((apiServer w s).serve token net).state = (route.handler req s).2 := by
        rw [Server.serve, hserved]
        dsimp only [Option.elim_some]
        rw [Server.after, hfind]
        rfl
      refine ⟨hparse, hmethod, hauthorized, ?_⟩
      split at hrespond
      · next operation hasked =>
          have hanswer : ((apiServer w s).serve token net).sent = some (responseText
              (answered operation (perform w.toAdminWorld s operation).1)) := by
            rw [hsent, if_neg (by decide)]
            change some (responseText (((route.handler req s).1).getD internalError)) = _
            rw [hrespond, Option.getD_some]
          rw [hrespond] at hstate
          calc (apiServer w s).serve token net
            _ = ⟨((apiServer w s).serve token net).called, ((apiServer w s).serve token net).sent,
                  ((apiServer w s).serve token net).state⟩ := rfl
            _ = _ := by rw [hcalled, hanswer, hstate]
      · next hasked =>
          obtain ⟨response, hresponse⟩ := hrespond
          rw [hstate, hresponse]

/-- What the answer to an operation stands for. -/
def answerData : Operation → Except Bytes Bytes → Data
  | .kick player _, .ok _ => okData (bytes "kicked " ++ player)
  | .broadcast _, .ok _ => okData (bytes "broadcast sent")
  | _, .ok message => okData message
  | _, .error message => errorData message

/-- The answer to an operation is read as its outcome. -/
theorem reads_answered (operation : Operation) (result : Except Bytes Bytes) :
    Reads (answered operation result).body (answerData operation result) := by
  cases result with
  | error message => cases operation <;> exact reads_error _ message
  | ok message => cases operation <;> exact reads_ok _

/-- **A connection performs the operation that it asks for, if it is authorised, and nothing
else.** Whatever arrives, either no handler is called and the state stays as it is; or one request
has been read that is no preflight and is authorised, and the one operation that it asks for is
performed and answered, in the body of what is sent, with a JSON text that says what came of it, or
the state stays as it is. -/
theorem serve_spec (token : Bytes) (w : Console) (s : AdminState) (net : Net UInt8) :
    match ((apiServer w s).serve token net).called with
    | none => ((apiServer w s).serve token net).state = s
    | some req =>
        parseRequest net = .ok req ∧ req.method ≠ bytes "OPTIONS" ∧
          authorized token req = true ∧
          match requested w.initialized req with
          | none => ((apiServer w s).serve token net).state = s
          | some operation => ∃ response,
              (apiServer w s).serve token net = {
                called := some req
                sent := some (responseText response)
                state := (perform w.toAdminWorld s operation).2 } ∧
              SentAs response (responseText response) ∧
              response = answered operation (perform w.toAdminWorld s operation).1 ∧
              Reads response.body
                (answerData operation (perform w.toAdminWorld s operation).1) := by
  have hserve := serve_eq token w s net
  split at hserve
  · exact hserve
  · next req hcalled =>
      obtain ⟨hparse, hmethod, hauthorized, hstate⟩ := hserve
      refine ⟨hparse, hmethod, hauthorized, ?_⟩
      cases hasked : requested w.initialized req with
      | none =>
          rw [hasked] at hstate
          exact hstate
      | some operation =>
          rw [hasked] at hstate
          exact ⟨_, hstate, sentAs_responseText _, rfl, reads_answered operation _⟩

end RSDWServerAPI.ApiRoutes
