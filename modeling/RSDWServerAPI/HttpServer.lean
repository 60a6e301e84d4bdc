import RSDWServerAPI.Bytes
import RSDWServerAPI.Socket

/-!
# `http/http_server.cpp`: one request of the REST API

`ParseRequest` takes the header block out of what the first `recv` returns, and waits for more
of the body only if it finds a header spelled `Content-Length`. `HandleClient` answers the
request, calling the handler of the first route that fits.

A `std::unordered_map` is a list of pairs without a repeated key, the last one set in front.

## Main results

* `parseRequest_of_cut`: **what `ParseRequest` makes of a connection**, from the first `recv`
  and everything that arrives.
* `called_eq`: which request a handler is called with.
-/

namespace RSDWServerAPI

open Socket

/-- A `std::unordered_map<std::string, std::string>`. -/
abbrev Fields := List (Bytes × Bytes)

/-- `map[key] = value`. -/
def Fields.set (map : Fields) (key value : Bytes) : Fields :=
  (key, value) :: map.filter fun field => field.1 ≠ key

/-- A map filled from pairs in turn. -/
def Fields.ofList (fields : List (Bytes × Bytes)) : Fields :=
  fields.foldl (fun (map : Fields) field => map.set field.1 field.2) []

/-- A key that is set has the new value, and the others keep theirs. -/
theorem Fields.lookup_set (map : Fields) (key value k : Bytes) :
    (map.set key value).lookup k = if k = key then some value else map.lookup k := by
  by_cases hk : k = key
  · simp [Fields.set, hk]
  · have hne : (k == key) = false := by simpa using hk
    rw [Fields.set, List.lookup_cons, hne, if_neg hk]
    dsimp only
    induction map with
    | nil => rfl
    | cons field map ih =>
        obtain ⟨key', value'⟩ := field
        rw [List.lookup_cons, ← ih]
        by_cases hf : key' = key
        · simp [hf, hne]
        · simp [hf, List.lookup_cons]

/-- A map filled from pairs has, for a key, the value of one of the pairs, and some value if
there is one. -/
theorem Fields.lookup_ofList (fields : List (Bytes × Bytes)) (k : Bytes) :
    (∀ value, (Fields.ofList fields).lookup k = some value → (k, value) ∈ fields) ∧
      ((Fields.ofList fields).lookup k = none → ∀ value, (k, value) ∉ fields) := by
  induction fields using List.reverseRecOn with
  | nil => simp [Fields.ofList]
  | append_singleton fields field ih =>
      have hstep : Fields.ofList (fields ++ [field]) =
          (Fields.ofList fields).set field.1 field.2 := by
        simp [Fields.ofList]
      obtain ⟨key, value⟩ := field
      rw [hstep, Fields.lookup_set]
      by_cases hk : k = key
      · simp [hk]
      · simpa [hk] using ih

/-- `HttpRequest`. -/
structure HttpRequest where
  method : Bytes := []
  path : Bytes := []
  body : Bytes := []
  headers : Fields := []
  query : Fields := []
  deriving DecidableEq, Repr

/-- `HttpResponse`. -/
structure HttpResponse where
  status : ℕ := 200
  body : Bytes := []
  contentType : Bytes := bytes "application/json"
  deriving DecidableEq, Repr

namespace HttpServer

/-! ### The query -/

/-- `isxdigit`. -/
def isHexDigit (c : UInt8) : Bool :=
  isDigit c || (65 ≤ c && c ≤ 70) || (97 ≤ c && c ≤ 102)

/-- The value of a hexadecimal digit. -/
def hexDigit (c : UInt8) : ℕ :=
  if isDigit c then c.toNat - 48 else if c ≤ 70 then c.toNat - 55 else c.toNat - 87

/-- `iss >> std::hex >> hex`, cast to `char`: blanks, a sign, and the digits that follow; `0`
where there are none. -/
def hexByte (s : Bytes) : UInt8 :=
  let s := s.dropWhile isSpace
  let negative := s.head? == some 45
  let digits := (if negative || s.head? == some 43 then s.tail else s).takeWhile isHexDigit
  let value := digits.foldl (fun n c => n * 16 + hexDigit c) 0
  if negative then 0 - UInt8.ofNat value else UInt8.ofNat value

/-- A byte that `UrlDecode` does not take for an escape. -/
def urlByte (c : UInt8) : UInt8 :=
  if c = 43 then 32 else c

/-- `UrlDecode`. A percent sign with fewer than two bytes behind it stands for itself. -/
def urlDecode : Bytes → Bytes
  | [] => []
  | [c] => [urlByte c]
  | [c, d] => [urlByte c, urlByte d]
  | c :: a :: b :: rest =>
      if c = 37 then hexByte [a, b] :: urlDecode rest else urlByte c :: urlDecode (a :: b :: rest)

/-- The pieces between separators, without an empty one at the end: the lines of `std::getline`
and the pairs of a query. -/
def pieces (separator : UInt8) (s : Bytes) : List Bytes :=
  let all := s.splitOnP fun c => c == separator
  if all.getLast? = some [] then all.dropLast else all

/-- The loop of `ParseQuery` for one pair. -/
def addPair (query : Fields) (pair : Bytes) : Fields :=
  match cutFirst [61] pair with
  | some (key, value) => query.set (urlDecode key) (urlDecode value)
  | none => query.set (urlDecode pair) []

/-- `ParseQuery`: the path and the query. -/
def parseQuery (fullPath : Bytes) : Bytes × Fields :=
  match cutFirst [63] fullPath with
  | none => (fullPath, [])
  | some (path, queryString) => (path, (pieces 38 queryString).foldl addPair [])

/-! ### The header block -/

/-- A line without the `\\r` at its end. -/
def chop (line : Bytes) : Bytes :=
  if line.getLast? = some 13 then line.dropLast else line

/-- The name and the value of a header line; a line without a colon is skipped. -/
def headerField (line : Bytes) : Option (Bytes × Bytes) :=
  (cutFirst [58] (chop line)).map fun field => (field.1, field.2.dropWhile fun c => c == 32)

/-- The fields of a header block in the order of its lines. -/
def headerFields (headers : Bytes) : List (Bytes × Bytes) :=
  (pieces 10 headers).tail.filterMap headerField

/-- The part of `ParseRequest` that reads the header block. -/
def parseHead (headers : Bytes) : HttpRequest :=
  let requestLine := words (chop ((pieces 10 headers).head?.getD []))
  let target := parseQuery (requestLine.tail.head?.getD [])
  { method := requestLine.head?.getD []
    path := target.1
    headers := .ofList (headerFields headers)
    query := target.2 }

/-! ### `ParseRequest` -/

/-- `buf` is one byte larger than the first `recv` asks for. -/
def bufSize : ℕ := 8192

/-- The limit on the body that is waited for. -/
def maxBody : ℤ := 8 * 1024 * 1024

/-- The length up to which the body is waited for, `0` if it is not waited for at all. -/
def awaited (headers : Fields) : ℕ :=
  match headers.lookup (bytes "Content-Length") with
  | some value => if 0 < atol value ∧ atol value < maxBody then (atol value).toNat else 0
  | none => 0

/-- The end of a header block. -/
def headerEnd : Bytes := [13, 10, 13, 10]

/-- `ParseRequest`: the request, or the text of the error. -/
def parseRequest (net : Net UInt8) : Except Bytes HttpRequest :=
  let (received, net) := recv (bufSize - 1) net
  if received = [] then .error (bytes "recv failed")
  else
    match cutFirst headerEnd received with
    | none => .error (bytes "incomplete headers")
    | some (headers, body) =>
        let req := parseHead headers
        let length := awaited req.headers
        .ok { req with body := (recvLoop bufSize length length body net).1 }

/-- **What `ParseRequest` makes of a connection** whose first `recv` carries the header block:
the body is what has come with the header block, and as much more as is waited for and
arrives. -/
theorem parseRequest_of_cut {net : Net UInt8} {headers body : Bytes}
    (h : cutFirst headerEnd (recv (bufSize - 1) net).1 = some (headers, body)) :
    parseRequest net = .ok { parseHead headers with
      body := body ++ (arrived (recv (bufSize - 1) net).2).take
        (awaited (parseHead headers).headers - body.length) } := by
  have hne : (recv (bufSize - 1) net).1 ≠ [] := by
    intro h0
    rw [h0] at h
    cases h
  rw [parseRequest]
  dsimp only
  rw [if_neg hne, h]
  dsimp only
  rw [recvLoop_eq (by decide) (Nat.sub_le _ _)]

/-- Without a header block in the first `recv` there is no request. -/
theorem parseRequest_of_not_cut {net : Net UInt8}
    (h : cutFirst headerEnd (recv (bufSize - 1) net).1 = none) :
    parseRequest net = .error (if (recv (bufSize - 1) net).1 = [] then bytes "recv failed"
      else bytes "incomplete headers") := by
  rw [parseRequest]
  dsimp only
  split
  · rfl
  · rw [h]

/-! ### `HandleClient` -/

/-- A route; the handler answers, or throws. -/
structure RouteEntry where
  method : Bytes
  path : Bytes
  handler : HttpRequest → Option HttpResponse

/-- The check of the bearer token. -/
def authorized (bearerToken : Bytes) (req : HttpRequest) : Bool :=
  bearerToken == [] || match req.headers.lookup (bytes "Authorization") with
    | some value =>
        let start := bytes "Bearer "
        start.length < value.length && value.take start.length == start &&
          value.drop start.length == bearerToken
    | none => false

/-- The route whose handler is called. -/
def routeOf (routes : List RouteEntry) (req : HttpRequest) : Option RouteEntry :=
  routes.find? fun route => route.method == req.method && route.path == req.path

/-- What becomes of a connection: the request a handler is called with, and the answer that
is sent; a connection without a request is closed without an answer. -/
structure Served where
  called : Option HttpRequest := none
  response : Option HttpResponse := none
  deriving DecidableEq, Repr

/-- The answer to a request that is not authorised. -/
def unauthorized : HttpResponse where
  status := 401
  body := bytes "\x7b\"error\":\"Unauthorized: invalid or missing bearer token\"\x7d"

/-- The answer when a handler throws. -/
def internalError : HttpResponse where
  status := 500
  body := bytes "\x7b\"error\":\"Internal server error\"\x7d"

/-- The answer when no route fits. -/
def notFound : HttpResponse where
  status := 404
  body := bytes "\x7b\"error\":\"Not found\"\x7d"

/-- The part of `HandleClient` behind `ParseRequest`. -/
def answer (bearerToken : Bytes) (routes : List RouteEntry) (req : HttpRequest) : Served :=
  if req.method = bytes "OPTIONS" then { response := some {} }
  else if !authorized bearerToken req then { response := some unauthorized }
  else
    match routeOf routes req with
    | some route =>
        { called := some req, response := some ((route.handler req).getD internalError) }
    | none => { response := some notFound }

/-- `HandleClient`. -/
def handleClient (bearerToken : Bytes) (routes : List RouteEntry) (net : Net UInt8) : Served :=
  match parseRequest net with
  | .error _ => {}
  | .ok req => answer bearerToken routes req

/-- A request that reaches a handler: it is not answered as a preflight, it is authorised, and
some route fits. The body plays no part. -/
def reachesHandler (bearerToken : Bytes) (routes : List RouteEntry) (req : HttpRequest) : Bool :=
  req.method != bytes "OPTIONS" && authorized bearerToken req && (routeOf routes req).isSome

/-- The request that the handler is called with. -/
theorem answer_called (bearerToken : Bytes) (routes : List RouteEntry) (req : HttpRequest) :
    (answer bearerToken routes req).called =
      if reachesHandler bearerToken routes req then some req else none := by
  rw [answer, reachesHandler]
  by_cases hopt : req.method = bytes "OPTIONS"
  · simp [hopt]
  · cases hauth : authorized bearerToken req with
    | false => simp [hopt]
    | true => cases hroute : routeOf routes req <;> simp [hopt]

/-- **Which request a handler is called with**: the parsed one, if it gets there. -/
theorem called_eq {bearerToken : Bytes} {routes : List RouteEntry} {net : Net UInt8}
    {req : HttpRequest} :
    (handleClient bearerToken routes net).called = some req ↔
      parseRequest net = .ok req ∧ reachesHandler bearerToken routes req = true := by
  rw [handleClient]
  cases parseRequest net with
  | error e => simp
  | ok req' =>
      rw [answer_called]
      cases hreach : reachesHandler bearerToken routes req' with
      | false =>
          simp only [Bool.false_eq_true, if_false, reduceCtorEq, Except.ok.injEq, false_iff,
            not_and]
          rintro rfl
          simp [hreach]
      | true =>
          simp only [if_true, Option.some.injEq, Except.ok.injEq]
          constructor
          · rintro rfl
            exact ⟨rfl, hreach⟩
          · exact fun h => h.1

/-! ### `SendResponse` -/

/-- The `switch` of `SendResponse`. -/
def statusText (status : ℕ) : Bytes :=
  match status with
  | 201 => bytes "Created"
  | 400 => bytes "Bad Request"
  | 401 => bytes "Unauthorized"
  | 404 => bytes "Not Found"
  | 405 => bytes "Method Not Allowed"
  | 500 => bytes "Internal Server Error"
  | 503 => bytes "Service Unavailable"
  | _ => bytes "OK"

/-- The text that `SendResponse` sends. -/
def responseText (resp : HttpResponse) : Bytes :=
  bytes "HTTP/1.1 " ++ decimal resp.status ++ bytes " " ++ statusText resp.status ++
    bytes "\r\n" ++
    bytes "Content-Type: " ++ resp.contentType ++ bytes "\r\n" ++
    bytes "Content-Length: " ++ decimal resp.body.length ++ bytes "\r\n" ++
    bytes "Access-Control-Allow-Origin: *\r\n" ++
    bytes "Access-Control-Allow-Methods: GET, POST, PUT, DELETE, OPTIONS\r\n" ++
    bytes "Access-Control-Allow-Headers: Content-Type, Authorization\r\n" ++
    bytes "Connection: close\r\n" ++ bytes "\r\n" ++ resp.body

/-- The bytes are an answer with the status and the body of a response: the status is in the first
line, one of the lines behind it has the length of the body, and the body is what follows on the
empty line. -/
def SentAs (resp : HttpResponse) (sent : Bytes) : Prop :=
  ∃ head, sent = head ++ bytes "\r\n" ++ resp.body ∧ bytes "\r\n" <:+ head ∧
    (bytes "HTTP/1.1 " ++ decimal resp.status ++ bytes " ") <+: head ∧
    (bytes "\r\n" ++ bytes "Content-Length: " ++ decimal resp.body.length ++ bytes "\r\n") <:+:
      head

/-- Lines that are put together in this order are such an answer. -/
theorem SentAs.of_lines {resp : HttpResponse} {text type value origin methods headers last : Bytes}
    (hlast : bytes "\r\n" <:+ last) :
    SentAs resp (bytes "HTTP/1.1 " ++ decimal resp.status ++ bytes " " ++ text ++ bytes "\r\n" ++
      type ++ value ++ bytes "\r\n" ++ bytes "Content-Length: " ++ decimal resp.body.length ++
      bytes "\r\n" ++ origin ++ methods ++ headers ++ last ++ bytes "\r\n" ++ resp.body) := by
  refine ⟨_, rfl, List.suffix_append_of_suffix hlast, ?_, ?_⟩
  · exact ⟨text ++ bytes "\r\n" ++ type ++ value ++ bytes "\r\n" ++ bytes "Content-Length: " ++
      decimal resp.body.length ++ bytes "\r\n" ++ origin ++ methods ++ headers ++ last, by
        simp only [List.append_assoc]⟩
  · exact ⟨bytes "HTTP/1.1 " ++ decimal resp.status ++ bytes " " ++ text ++ bytes "\r\n" ++ type ++
      value, origin ++ methods ++ headers ++ last, by simp only [List.append_assoc]⟩

/-- **What `SendResponse` sends** has the status and the body of the response. -/
theorem sentAs_responseText (resp : HttpResponse) : SentAs resp (responseText resp) :=
  SentAs.of_lines ⟨bytes "Connection: close", rfl⟩

end HttpServer

end RSDWServerAPI
