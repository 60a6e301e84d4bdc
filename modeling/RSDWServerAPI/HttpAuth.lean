import RSDWServerAPI.HttpServer

/-!
# What the bearer token guards

A server here is its routes together with the state its handlers read and change: the engine,
the ban list, everything behind the REST API. `serve` is `HandleClient` on such a server. Two
servers that share nothing but the token cannot be told apart, and neither of them moves, unless
a request carries the token.

## Main results

* `serve_guarded`: **without the token a client learns and changes nothing**, and with it the
  first route that fits answers.
-/

namespace RSDWServerAPI.HttpServer

open Socket

variable {σ : Type*}

/-- A route whose handler reads and changes the state behind the API; it may throw. -/
structure StatefulRoute (σ : Type*) where
  method : Bytes
  path : Bytes
  handler : HttpRequest → σ → Option HttpResponse × σ

/-- The routes in the order of their registration, and the state behind them. -/
structure Server (σ : Type*) where
  routes : List (StatefulRoute σ)
  state : σ

/-- A route on a server in a certain state, as `HandleClient` goes through it. -/
def StatefulRoute.entry (state : σ) (route : StatefulRoute σ) : RouteEntry where
  method := route.method
  path := route.path
  handler := fun req => (route.handler req state).1

/-- The route table that `HandleClient` goes through. -/
def Server.entries (server : Server σ) : List RouteEntry :=
  server.routes.map (StatefulRoute.entry server.state)

/-- The route has the method and the path of the request. -/
def StatefulRoute.Fits (route : StatefulRoute σ) (req : HttpRequest) : Prop :=
  route.method = req.method ∧ route.path = req.path

instance (route : StatefulRoute σ) (req : HttpRequest) : Decidable (route.Fits req) :=
  inferInstanceAs (Decidable (_ ∧ _))

/-- The state behind the API once a handler has been called with this request. -/
def Server.after (server : Server σ) (req : HttpRequest) : σ :=
  match server.routes.find? fun route => decide (route.Fits req) with
  | some route => (route.handler req server.state).2
  | none => server.state

/-- What a connection comes to: the request a handler is called with, the bytes that are sent,
and the state behind the API afterwards. -/
structure Outcome (σ : Type*) where
  called : Option HttpRequest
  sent : Option Bytes
  state : σ

/-- The response is what is sent: its status and its body arrive. -/
def Outcome.Answers (outcome : Outcome σ) (resp : HttpResponse) : Prop :=
  outcome.sent = some (responseText resp) ∧ SentAs resp (responseText resp)

/-- `HandleClient` on a server. -/
def Server.serve (bearerToken : Bytes) (server : Server σ) (net : Net UInt8) : Outcome σ :=
  let served := handleClient bearerToken server.entries net
  { called := served.called
    sent := served.response.map responseText
    state := served.called.elim server.state server.after }

/-- The request has an `Authorization` header whose value is `Bearer` and the token. -/
def CarriesToken (token : Bytes) (req : HttpRequest) : Prop :=
  req.headers.lookup (bytes "Authorization") = some (bytes "Bearer " ++ token)

instance (token : Bytes) (req : HttpRequest) : Decidable (CarriesToken token req) :=
  inferInstanceAs (Decidable (_ = _))

/-- **The check of the bearer token** is that the request carries it. -/
theorem authorized_iff {token : Bytes} (hne : token ≠ []) (req : HttpRequest) :
    authorized token req = true ↔ CarriesToken token req := by
  have hnil : (token == []) = false := by simpa using hne
  rw [authorized, CarriesToken, hnil, Bool.false_or]
  cases req.headers.lookup (bytes "Authorization") with
  | none => simp
  | some value =>
      simp only [Bool.and_eq_true, decide_eq_true_eq, beq_iff_eq, Option.some.injEq]
      constructor
      · rintro ⟨⟨-, hstart⟩, hrest⟩
        calc value
          _ = value.take (bytes "Bearer ").length ++ value.drop (bytes "Bearer ").length :=
              (List.take_append_drop _ _).symm
          _ = bytes "Bearer " ++ token := by rw [hstart, hrest]
      · rintro rfl
        have hpos := List.length_pos_iff.mpr hne
        simp [hpos]

/-- An answer to a request that does not carry the token: the handlers are not called, and the
response does not depend on the routes. -/
theorem answer_of_not_carriesToken {token : Bytes} (hne : token ≠ []) {req : HttpRequest}
    (h : ¬ CarriesToken token req) (routes : List RouteEntry) :
    answer token routes req =
      { response := some (if req.method = bytes "OPTIONS" then {} else unauthorized) } := by
  have hauth : authorized token req = false := by
    rw [← Bool.not_eq_true, authorized_iff hne]
    exact h
  rw [answer, hauth]
  by_cases hopt : req.method = bytes "OPTIONS"
  · rw [if_pos hopt, if_pos hopt]
  · rw [if_neg hopt, if_neg hopt]
    rfl

/-- An answer to a request that carries the token. -/
theorem answer_of_carriesToken {token : Bytes} (hne : token ≠ []) {req : HttpRequest}
    (h : CarriesToken token req) (hopt : req.method ≠ bytes "OPTIONS")
    (routes : List RouteEntry) :
    (answer token routes req).response =
      some ((routeOf routes req).elim notFound fun route =>
        (route.handler req).getD internalError) := by
  rw [answer, if_neg hopt, (authorized_iff hne req).mpr h]
  cases hroute : routeOf routes req with
  | none => rfl
  | some route => rfl

/-- The route that is found in the table of a server is the first that fits. -/
theorem routeOf_entries (server : Server σ) (req : HttpRequest) :
    routeOf server.entries req =
      (server.routes.find? fun route => decide (route.Fits req)).map
        (StatefulRoute.entry server.state) := by
  rw [routeOf, Server.entries, List.find?_map]
  congr 2
  funext route
  rw [Function.comp_apply, Bool.eq_iff_iff, decide_eq_true_eq, Bool.and_eq_true, beq_iff_eq,
    beq_iff_eq]
  rfl

/-- What a server sends for a request that it has parsed. -/
theorem serve_of_parsed (token : Bytes) (server : Server σ) {net : Net UInt8} {req : HttpRequest}
    (h : parseRequest net = .ok req) :
    (server.serve token net).called = (answer token server.entries req).called ∧
      (server.serve token net).sent =
        (answer token server.entries req).response.map responseText := by
  simp only [Server.serve, handleClient, h, and_self]

/-- A connection on which no request with the token is parsed: what is sent does not depend on
the server, no handler is called, and the state stays. -/
theorem serve_of_not_carriesToken {token : Bytes} (hne : token ≠ []) {net : Net UInt8}
    (h : ∀ req, parseRequest net = .ok req → ¬ CarriesToken token req) :
    ∃ sent, ∀ (σ : Type) (server : Server σ),
      server.serve token net = { called := none, sent := sent, state := server.state } := by
  cases hparse : parseRequest net with
  | error text =>
      refine ⟨none, fun σ server => ?_⟩
      rw [Server.serve, handleClient, hparse]
      rfl
  | ok req =>
      refine ⟨some (responseText (if req.method = bytes "OPTIONS" then {} else unauthorized)),
        fun σ server => ?_⟩
      rw [Server.serve, handleClient, hparse]
      dsimp only
      rw [answer_of_not_carriesToken hne (h req hparse)]
      rfl

/-- **Without the token a client learns and changes nothing**: whatever two servers with that
token have behind them, a connection without a request that carries it calls no handler, leaves
the state as it is, and gets the same bytes from both. A request that carries it and is no
`OPTIONS` request is answered by the first route with its method and path, with status 500 if
the handler throws, and with status 404 if there is no such route; and the bytes that are sent have
the status and the body of the answer. -/
theorem serve_guarded {token : Bytes} (hne : token ≠ []) {σ₁ σ₂ : Type} (server₁ : Server σ₁)
    (server₂ : Server σ₂) (net : Net UInt8) :
    ((∀ req, parseRequest net = .ok req → ¬ CarriesToken token req) →
      (server₁.serve token net).called = none ∧ (server₂.serve token net).called = none ∧
      (server₁.serve token net).state = server₁.state ∧
      (server₂.serve token net).state = server₂.state ∧
      (server₁.serve token net).sent = (server₂.serve token net).sent) ∧
    ∀ req, parseRequest net = .ok req → CarriesToken token req → req.method ≠ bytes "OPTIONS" →
      (∀ before route after, server₁.routes = before ++ route :: after → route.Fits req →
        (∀ r ∈ before, ¬ r.Fits req) →
          (server₁.serve token net).Answers
            (((route.handler req server₁.state).1).getD internalError)) ∧
      ((∀ r ∈ server₁.routes, ¬ r.Fits req) → (server₁.serve token net).Answers notFound) ∧
      internalError.status = 500 ∧ notFound.status = 404 := by
  constructor
  · intro h
    obtain ⟨sent, hserve⟩ := serve_of_not_carriesToken hne h
    simp only [hserve, and_self]
  · intro req hparse hcarries hopt
    have hsent := (serve_of_parsed token server₁ hparse).2
    rw [answer_of_carriesToken hne hcarries hopt, routeOf_entries] at hsent
    refine ⟨?_, ?_, rfl, rfl⟩
    · intro before route after hroutes hfits hbefore
      have hfind : server₁.routes.find? (fun route => decide (route.Fits req)) = some route := by
        rw [List.find?_eq_some_iff_append]
        exact ⟨decide_eq_true hfits, before, after, hroutes,
          fun r hr => by simpa using hbefore r hr⟩
      refine ⟨?_, sentAs_responseText _⟩
      rw [hsent, hfind]
      rfl
    · intro hnone
      have hfind : server₁.routes.find? (fun route => decide (route.Fits req)) = none := by
        rw [List.find?_eq_none]
        simpa using hnone
      refine ⟨?_, sentAs_responseText _⟩
      rw [hsent, hfind]
      rfl

/-- A handler that counts its calls. -/
def pingRoute : StatefulRoute ℕ where
  method := bytes "GET"
  path := bytes "/ping"
  handler := fun _ n => (some { body := bytes "pong" }, n + 1)

/-- A server that counts the calls of its handler. -/
def pingServer : Server ℕ where
  routes := [pingRoute]
  state := 0

/-- The header block of a request, with a token if there is one. -/
def pingHeaders (authorization : Bytes) : Bytes :=
  bytes "GET /ping HTTP/1.1\r\n" ++ authorization

/-- The counting server stays as it is without the token, and answers with it. -/
theorem serve_guarded_ping :
    (pingServer.serve (bytes "k") [pingHeaders (bytes "Authorization: k") ++ headerEnd]).state =
        0 ∧
      (pingServer.serve (bytes "k")
        [pingHeaders (bytes "Authorization: Bearer k") ++ headerEnd]).Answers
          { body := bytes "pong" } := by
  have hne : bytes "k" ≠ [] := by decide
  constructor
  · have hparse : parseRequest [pingHeaders (bytes "Authorization: k") ++ headerEnd] =
        .ok (parseHead (pingHeaders (bytes "Authorization: k"))) := rfl
    have hguarded := serve_guarded hne pingServer pingServer
      [pingHeaders (bytes "Authorization: k") ++ headerEnd]
    refine (hguarded.1 fun req hreq => ?_).2.2.1
    obtain rfl := Except.ok.inj (hparse.symm.trans hreq)
    decide
  · have hparse : parseRequest [pingHeaders (bytes "Authorization: Bearer k") ++ headerEnd] =
        .ok (parseHead (pingHeaders (bytes "Authorization: Bearer k"))) := rfl
    have hguarded := serve_guarded hne pingServer pingServer
      [pingHeaders (bytes "Authorization: Bearer k") ++ headerEnd]
    have hfirst := (hguarded.2 _ hparse (by decide) (by decide)).1 [] pingRoute [] rfl
    exact hfirst (by decide) (by simp)

end RSDWServerAPI.HttpServer
