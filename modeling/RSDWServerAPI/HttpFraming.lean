import RSDWServerAPI.HttpServer

/-!
# Requests and the way they arrive

The header block of a request is taken from one `recv`, and more of its body is waited for only
under a header spelled `Content-Length`. This module compares that with what a client may rely
on: that a request means the same however TCP cuts it, and that a handler sees the whole body
that the request announces.

## Main results

* `sameRequest_iff`: **two ways of cutting a complete request give the same result exactly
  when** neither has the header block in the first `recv`, or both have it and the body is
  waited for or the first `recv` returns the same number of bytes.
* `wholeBody_iff`: **a handler sees the whole body exactly when** the announced bytes arrive and
  are all that is taken from the first `recv` or waited for.
-/

namespace RSDWServerAPI.HttpServer

open Ascii (isBlank isBlank_iff)
open Socket

/-! ### What a request announces -/

/-- A header value that spells the number `n`: decimal digits, with blanks around them. -/
def Spells (value : Bytes) (n : ℕ) : Prop :=
  ∃ lead digits trail, value = lead ++ digits ++ trail ∧ (∀ c ∈ lead, isBlank c = true) ∧
    (∀ c ∈ trail, isBlank c = true) ∧ digits ≠ [] ∧ (∀ c ∈ digits, isDigit c = true) ∧
    digitsValue digits = n

/-- The values of the fields whose name is `Content-Length` in any case. -/
def contentLengths (headers : Bytes) : List Bytes :=
  ((headerFields headers).filter fun field => lower field.1 == bytes "content-length").map
    Prod.snd

/-- The header block carries a `Content-Length` header with the value `n`. -/
def Declares (headers : Bytes) (n : ℕ) : Prop :=
  ∃ value ∈ contentLengths headers, Spells value n

/-- The header block has a field whose name is spelled `Content-Length`. -/
def SpelledOut (headers : Bytes) : Prop :=
  bytes "Content-Length" ∈ (headerFields headers).map Prod.fst

instance (headers : Bytes) : Decidable (SpelledOut headers) :=
  inferInstanceAs (Decidable (_ ∈ _))

/-- `atol` reads a number that is spelled, if it is in range. -/
theorem atol_of_spells {value : Bytes} {n : ℕ} (h : Spells value n)
    (hn : n < 9223372036854775807) : atol value = n := by
  obtain ⟨lead, digits, trail, rfl, hlead, htrail, hne, hdigits, rfl⟩ := h
  obtain ⟨d, ds, rfl⟩ := List.exists_cons_of_ne_nil hne
  obtain ⟨hspace, hminus, hplus⟩ := isDigit_ne (hdigits d List.mem_cons_self)
  have hlead' : ∀ c ∈ lead, isSpace c = true := by
    intro c hc
    rcases isBlank_iff.mp (hlead c hc) with rfl | rfl <;> rfl
  have hdrop : (lead ++ (d :: ds) ++ trail).dropWhile isSpace = (d :: ds) ++ trail := by
    rw [List.append_assoc, List.dropWhile_append_of_pos hlead']
    simp [hspace]
  have htrail' : trail.takeWhile isDigit = [] := by
    cases trail with
    | nil => rfl
    | cons c trail => rcases isBlank_iff.mp (htrail c List.mem_cons_self) with rfl | rfl <;> rfl
  have htake : ((d :: ds) ++ trail).takeWhile isDigit = d :: ds := by
    rw [List.takeWhile_append_of_pos hdigits, htrail', List.append_nil]
  have hm : (((d :: ds) ++ trail).head? == some 45) = false := by simpa using hminus
  have hp : (((d :: ds) ++ trail).head? == some 43) = false := by simpa using hplus
  rw [atol]
  simp only [hdrop, hm, hp, Bool.or_self, Bool.false_eq_true, if_false, htake]
  omega

/-- What is waited for under a spelled out header whose values all spell `n`. -/
theorem awaited_of_spelledOut {headers : Bytes} {n : ℕ} (hn : n < 8388608)
    (hall : ∀ value ∈ contentLengths headers, Spells value n) (h : SpelledOut headers) :
    awaited (parseHead headers).headers = n := by
  have hmem : ∀ value, (bytes "Content-Length", value) ∈ headerFields headers →
      value ∈ contentLengths headers := by
    intro value hv
    have hlower : (lower (bytes "Content-Length") == bytes "content-length") = true := by decide
    exact List.mem_map.mpr ⟨_, List.mem_filter.mpr ⟨hv, hlower⟩, rfl⟩
  obtain ⟨hsome, hnone⟩ := Fields.lookup_ofList (headerFields headers) (bytes "Content-Length")
  have hheaders : (parseHead headers).headers = .ofList (headerFields headers) := rfl
  rw [awaited, hheaders]
  cases hlook : (Fields.ofList (headerFields headers)).lookup (bytes "Content-Length") with
  | none =>
      obtain ⟨⟨_, value⟩, hv, rfl⟩ := List.mem_map.mp h
      exact absurd hv (hnone hlook value)
  | some value =>
      have hval := atol_of_spells (hall value (hmem value (hsome value hlook))) (by omega)
      dsimp only
      rw [hval, maxBody]
      split <;> omega

/-- Without a spelled out header nothing is waited for. -/
theorem awaited_of_not_spelledOut {headers : Bytes} (h : ¬ SpelledOut headers) :
    awaited (parseHead headers).headers = 0 := by
  obtain ⟨hsome, -⟩ := Fields.lookup_ofList (headerFields headers) (bytes "Content-Length")
  have hheaders : (parseHead headers).headers = .ofList (headerFields headers) := rfl
  rw [awaited, hheaders]
  cases hlook : (Fields.ofList (headerFields headers)).lookup (bytes "Content-Length") with
  | none => rfl
  | some value => exact absurd (List.mem_map.mpr ⟨_, hsome value hlook, rfl⟩) h

/-! ### Two ways of cutting one request -/

/-- One complete request: a header block up to its first empty line, and as many bytes of body
as the header block announces, fewer than 8 MiB. -/
structure CompleteRequest where
  headers : Bytes
  body : Bytes
  cut : cutFirst headerEnd (headers ++ headerEnd ++ body) = some (headers, body)
  announced : ∀ value ∈ contentLengths headers, Spells value body.length
  unannounced : contentLengths headers = [] → body = []
  limit : body.length < 8388608

/-- The bytes of a request. -/
def CompleteRequest.text (r : CompleteRequest) : Bytes :=
  r.headers ++ headerEnd ++ r.body

/-- A way in which TCP may cut a text. -/
structure Segmentation (text : Bytes) where
  segments : Net UInt8
  nonempty : ∀ segment ∈ segments, segment ≠ []
  flatten : segments.flatten = text

/-- What the first `recv` of `ParseRequest` returns. -/
def firstRecv (net : Net UInt8) : Bytes :=
  (recv (bufSize - 1) net).1

/-- The two first `recv`s treat the request alike: neither carries the header block, or both do
and the rest of the body is waited for, or both do and carry the same number of bytes. -/
def SameFirst (r : CompleteRequest) (net₁ net₂ : Net UInt8) : Prop :=
  let head := r.headers.length + headerEnd.length
  ((firstRecv net₁).length < head ∧ (firstRecv net₂).length < head) ∨
    (head ≤ (firstRecv net₁).length ∧ head ≤ (firstRecv net₂).length ∧
      (SpelledOut r.headers ∨ (firstRecv net₁).length = (firstRecv net₂).length))

/-- A segmentation of a complete request either cuts the header block, or `ParseRequest`
returns the request with the whole body or with as much as came with the header block. -/
theorem parseRequest_complete (r : CompleteRequest) (c : Segmentation r.text) :
    ((firstRecv c.segments).length < r.headers.length + headerEnd.length ∧
        parseRequest c.segments = .error (bytes "incomplete headers")) ∨
      ∃ first rest, r.body = first ++ rest ∧
        (firstRecv c.segments).length = r.headers.length + headerEnd.length + first.length ∧
        parseRequest c.segments = .ok { parseHead r.headers with
          body := if SpelledOut r.headers then r.body else first } := by
  have harrived : arrived c.segments = r.text := by
    rw [arrived_of_forall c.nonempty, c.flatten]
  have hne : firstRecv c.segments ≠ [] := by
    intro h0
    rw [arrived_of_recv_nil (by decide) h0] at harrived
    have := congrArg List.length harrived
    simp [CompleteRequest.text, headerEnd] at this
  have hsplit : firstRecv c.segments ++ arrived (recv (bufSize - 1) c.segments).2 = r.text :=
    (arrived_recv hne).symm.trans harrived
  have hcut : cutFirst headerEnd
      (firstRecv c.segments ++ arrived (recv (bufSize - 1) c.segments).2) =
        some (r.headers, r.body) := by
    rw [hsplit]
    exact r.cut
  rcases cutFirst_append (by decide) hcut with ⟨hlt, hnone⟩ | ⟨first, hfirst, hbody⟩
  · refine Or.inl ⟨hlt, ?_⟩
    rw [parseRequest_of_not_cut hnone]
    exact congrArg _ (if_neg hne)
  · refine Or.inr ⟨first, arrived (recv (bufSize - 1) c.segments).2, hbody, ?_, ?_⟩
    · rw [cutFirst_eq_some hfirst]
      simp only [List.length_append]
    · rw [parseRequest_of_cut hfirst]
      congr 2
      by_cases hspelled : SpelledOut r.headers
      · rw [if_pos hspelled, awaited_of_spelledOut r.limit r.announced hspelled]
        have hlen := congrArg List.length hbody
        rw [List.length_append] at hlen
        rw [List.take_of_length_le (by omega), ← hbody]
      · rw [if_neg hspelled, awaited_of_not_spelledOut hspelled, Nat.zero_sub, List.take_zero,
          List.append_nil]

/-- **When two ways of cutting a complete request give the same result.** -/
theorem sameRequest_iff (r : CompleteRequest) (c₁ c₂ : Segmentation r.text) :
    parseRequest c₁.segments = parseRequest c₂.segments ↔
      SameFirst r c₁.segments c₂.segments := by
  rw [SameFirst]
  rcases parseRequest_complete r c₁ with ⟨hlt₁, hp₁⟩ | ⟨first₁, rest₁, hb₁, hlen₁, hp₁⟩ <;>
    rcases parseRequest_complete r c₂ with ⟨hlt₂, hp₂⟩ | ⟨first₂, rest₂, hb₂, hlen₂, hp₂⟩
  · simp [hp₁, hp₂, hlt₁, hlt₂]
  · simp only [hp₁, hp₂, reduceCtorEq, false_iff]
    omega
  · simp only [hp₁, hp₂, reduceCtorEq, false_iff]
    omega
  · have hbody : ∀ a b : Bytes, ({ parseHead r.headers with body := a } : HttpRequest) =
        { parseHead r.headers with body := b } ↔ a = b :=
      fun a b => ⟨congrArg HttpRequest.body, fun h => by rw [h]⟩
    rw [hp₁, hp₂, Except.ok.injEq, hbody]
    by_cases hspelled : SpelledOut r.headers
    · rw [if_pos hspelled, if_pos hspelled]
      simp only [hspelled, true_or, and_true, true_iff]
      omega
    · rw [if_neg hspelled, if_neg hspelled]
      simp only [hspelled, false_or]
      constructor
      · rintro rfl
        omega
      · intro h
        have hlen : first₁.length = first₂.length := by omega
        exact (List.append_inj (hb₁.symm.trans hb₂) hlen).1

/-- A request without a body. -/
def getRequest : CompleteRequest where
  headers := bytes "GET /api/players HTTP/1.1"
  body := []
  cut := by decide
  announced := by
    rw [show contentLengths (bytes "GET /api/players HTTP/1.1") = [] by decide]
    simp
  unannounced := fun _ => rfl
  limit := by decide

/-- A request that is cut in its first line is refused; in one piece it is accepted. -/
theorem not_sameRequest_short_segment :
    ¬ ∀ (r : CompleteRequest) (c₁ c₂ : Segmentation r.text),
      parseRequest c₁.segments = parseRequest c₂.segments := by
  intro h
  have hsame := h getRequest ⟨[getRequest.text], by decide, by decide⟩
    ⟨[bytes "GET ", getRequest.text.drop 4], by decide, by decide⟩
  revert hsame
  decide

/-! ### The body a handler sees -/

/-- A handler is called only with the whole body that the request announces, in the stream of
everything that arrives. -/
def WholeBody (bearerToken : Bytes) (routes : List RouteEntry) (net : Net UInt8) : Prop :=
  ∀ req, (handleClient bearerToken routes net).called = some req →
    ∀ headers after, cutFirst headerEnd (arrived net) = some (headers, after) →
      ∀ n, Declares headers n → n ≤ after.length ∧ req.body = after.take n

/-- Of `total` bytes of body that arrive, `carried` come with the header block, and the body is
waited for up to the length `await`: that makes `n` bytes exactly. -/
def TakesExactly (carried await total n : ℕ) : Prop :=
  n ≤ total ∧
    ((carried = n ∧ (await ≤ n ∨ total = n)) ∨
      (carried < n ∧ (await = n ∨ (n < await ∧ total = n))))

/-- A body that starts with `first`, and goes on with as much of `rest` as is waited for, is
the first `n` bytes of both. -/
theorem takesExactly_iff {first rest : Bytes} {await n : ℕ} :
    (n ≤ (first ++ rest).length ∧
        first ++ rest.take (await - first.length) = (first ++ rest).take n) ↔
      TakesExactly first.length await (first ++ rest).length n := by
  have hpre : first ++ rest.take (await - first.length) <+: first ++ rest :=
    (List.prefix_append_right_inj first).mpr (List.take_prefix _ _)
  have hlen : (first ++ rest.take (await - first.length)).length =
      first.length + min (await - first.length) rest.length := by simp
  rw [TakesExactly]
  constructor
  · rintro ⟨hn, heq⟩
    have := congrArg List.length heq
    rw [hlen, List.length_take] at this
    rw [List.length_append] at hn this ⊢
    omega
  · rintro ⟨hn, h⟩
    refine ⟨hn, ?_⟩
    rw [List.prefix_iff_eq_take.mp hpre, hlen]
    congr 1
    rw [List.length_append] at hn h
    omega

/-- The condition: when the first `recv` carries the header block of a request that reaches a
handler, every number that the request announces is taken exactly. -/
def TakesAnnounced (bearerToken : Bytes) (routes : List RouteEntry) (net : Net UInt8) : Prop :=
  ∀ headers first, cutFirst headerEnd (firstRecv net) = some (headers, first) →
    reachesHandler bearerToken routes (parseHead headers) = true →
      ∀ n, Declares headers n → TakesExactly first.length (awaited (parseHead headers).headers)
        ((arrived net).length - headers.length - headerEnd.length) n

/-- **When a handler sees the whole body**, for every stream and every segmentation of it. -/
theorem wholeBody_iff (bearerToken : Bytes) (routes : List RouteEntry) (net : Net UInt8) :
    WholeBody bearerToken routes net ↔ TakesAnnounced bearerToken routes net := by
  cases hcut : cutFirst headerEnd (firstRecv net) with
  | none =>
      have hparse := parseRequest_of_not_cut hcut
      constructor
      · intro _ headers first h
        rw [hcut] at h
        cases h
      · intro _ req hreq
        rw [called_eq, hparse] at hreq
        cases hreq.1
  | some parts =>
      obtain ⟨headers, first⟩ := parts
      have hne : firstRecv net ≠ [] := by
        intro h0
        rw [h0] at hcut
        cases hcut
      have harrived : arrived net = firstRecv net ++ arrived (recv (bufSize - 1) net).2 :=
        arrived_recv hne
      have hstream : cutFirst headerEnd (arrived net) =
          some (headers, first ++ arrived (recv (bufSize - 1) net).2) := by
        rw [harrived]
        exact cutFirst_append_right hcut _
      have htotal : (arrived net).length - headers.length - headerEnd.length =
          (first ++ arrived (recv (bufSize - 1) net).2).length := by
        have := congrArg List.length (cutFirst_eq_some hstream)
        simp only [List.length_append] at this ⊢
        omega
      have hparse := parseRequest_of_cut hcut
      constructor
      · intro h headers' first' hcut' hreach n hn
        obtain ⟨rfl, rfl⟩ : headers = headers' ∧ first = first' := by simpa [hcut] using hcut'
        rw [htotal, ← takesExactly_iff]
        exact h _ (called_eq.mpr ⟨hparse, hreach⟩) headers _ hstream n hn
      · intro h req hreq headers' after hcut' n hn
        obtain ⟨rfl, rfl⟩ : headers = headers' ∧ first ++ arrived (recv (bufSize - 1) net).2 =
            after := by simpa [hstream] using hcut'
        obtain ⟨hp, hreach⟩ := called_eq.mp hreq
        obtain rfl := Except.ok.inj (hparse.symm.trans hp)
        have htakes := h headers first hcut hreach n hn
        rw [htotal, ← takesExactly_iff] at htakes
        exact htakes

/-- A kick request whose connection breaks off in the body: the handler is called, and
`GetString` reads a shorter player name out of what has come. -/
theorem not_wholeBody_broken_off :
    ¬ ∀ (bearerToken : Bytes) (routes : List RouteEntry) (net : Net UInt8),
      WholeBody bearerToken routes net := by
  intro h
  let head := bytes "POST /api/kick HTTP/1.1\r\nContent-Length: 19"
  let body := bytes "\x7b\"player\":\"Eve"
  have hcalled : (handleClient [] [⟨bytes "POST", bytes "/api/kick", fun _ => none⟩]
      [head ++ headerEnd ++ body]).called = some { parseHead head with body } := by decide
  have hcut : cutFirst headerEnd (arrived [head ++ headerEnd ++ body]) = some (head, body) := by
    decide
  have hvalue : bytes "19" ∈ contentLengths head := by decide
  have hspells : Spells (bytes "19") 19 :=
    ⟨[], bytes "19", [], by decide, by simp, by simp, by decide,
      List.all_eq_true.mp (by decide), by decide⟩
  have hlen := (h _ _ _ _ hcalled head body hcut 19 ⟨_, hvalue, hspells⟩).1
  revert hlen
  decide

end RSDWServerAPI.HttpServer
