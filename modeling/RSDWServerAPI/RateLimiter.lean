import Mathlib.Algebra.Order.Ring.Rat
import Mathlib.Logic.Function.Basic
import Mathlib.Tactic.NormNum
import RSDWServerAPI.TokenBucket

/-!
# `net/access_control.cpp`: how many commands an address may send

`RateLimiter` keeps a bucket of tokens for each address. `Allow` fills the bucket up for the time
since the last call and takes one token out, if there is one. Times are nanoseconds of the steady
clock; the `double`s of the source are rational numbers here, so that nothing is rounded.

## Main results

* `allow_spec`: a call answers and leaves the bucket as a token bucket does.
* `isTokenBucket_run`: **the limiter is exactly a token bucket**: every answer says whether the
  call keeps to the allowance from each earlier call on, no stretch of time gets more than the
  allowance, and no call within it is refused.
* `run_filter`: other addresses have no effect.
-/

namespace RSDWServerAPI.AccessControl

open TokenBucket

/-- `RateLimiter::Bucket`. -/
structure Bucket where
  tokens : ℚ
  last : ℤ
  deriving DecidableEq, Repr

/-- `RateLimiter`: what `Configure` sets, and the buckets. -/
structure RateLimiter where
  refillPerSecond : ℚ
  burst : ℚ
  enabled : Bool
  buckets : UInt32 → Option Bucket := fun _ => none

/-- One call of `Allow`: when it reads the clock, and for which address. -/
structure Call where
  time : ℤ
  addr : UInt32
  deriving DecidableEq, Repr

namespace RateLimiter

/-- `std::chrono::duration<double>::count`, of nanoseconds. -/
def inSeconds (t : ℤ) : ℚ :=
  t / 1000000000

/-- `Configure`. -/
def configure (perMinute burst : Int32) : RateLimiter :=
  let size : ℚ := if 0 < burst.toInt then burst.toInt else perMinute.toInt
  { enabled := 0 < perMinute.toInt
    refillPerSecond := perMinute.toInt / 60
    burst := if size < 1 then 1 else size }

/-- The bucket of an address is replaced. -/
def set (limiter : RateLimiter) (addr : UInt32) (bucket : Bucket) : RateLimiter :=
  { limiter with buckets := Function.update limiter.buckets addr (some bucket) }

/-- A bucket that is set is found. -/
@[simp] theorem buckets_set_self (limiter : RateLimiter) (addr : UInt32) (bucket : Bucket) :
    (limiter.set addr bucket).buckets addr = some bucket :=
  Function.update_self _ _ _

/-- `Allow`. -/
def allow (limiter : RateLimiter) (now : ℤ) (addr : UInt32) : Bool × RateLimiter :=
  if !limiter.enabled then (true, limiter)
  else
    match limiter.buckets addr with
    | none => (true, limiter.set addr ⟨limiter.burst - 1, now⟩)
    | some bucket =>
        let elapsed := inSeconds (now - bucket.last)
        let tokens := bucket.tokens + elapsed * limiter.refillPerSecond
        let tokens := if limiter.burst < tokens then limiter.burst else tokens
        if tokens < 1 then (false, limiter.set addr ⟨tokens, now⟩)
        else (true, limiter.set addr ⟨tokens - 1, now⟩)

/-- Calls one after the other, each with its answer. -/
def run : RateLimiter → List Call → List (Call × Bool)
  | _, [] => []
  | limiter, call :: calls =>
      (call, (limiter.allow call.time call.addr).1) ::
        run (limiter.allow call.time call.addr).2 calls

/-! ### One call -/

variable {limiter : RateLimiter} {burst rate : ℚ} {addr other : UInt32} {now : ℤ}
  {history : List (ℚ × Bool)}

/-- The limiter is on, with a burst and a rate. -/
structure Settings (limiter : RateLimiter) (burst rate : ℚ) : Prop where
  enabled : limiter.enabled = true
  burst_eq : limiter.burst = burst
  rate_eq : limiter.refillPerSecond = rate

/-- What the bucket of an address holds after the attempts made from there, the latest first. -/
def Holds (limiter : RateLimiter) (burst rate : ℚ) (addr : UInt32) : List (ℚ × Bool) → Prop
  | [] => limiter.buckets addr = none
  | (last, ok) :: older =>
      ∃ bucket, limiter.buckets addr = some bucket ∧ inSeconds bucket.last = last ∧
        bucket.tokens = level burst rate older last - taken ok

/-- The seconds between two times. -/
theorem inSeconds_sub (s t : ℤ) : inSeconds (s - t) = inSeconds s - inSeconds t := by
  rw [inSeconds, inSeconds, inSeconds, Int.cast_sub, sub_div]

/-- **A call answers and leaves the bucket as a token bucket does.** -/
theorem allow_spec (hset : limiter.Settings burst rate) (hburst : 1 ≤ burst)
    (h : limiter.Holds burst rate addr history) :
    ((limiter.allow now addr).1 = true ↔ 1 ≤ level burst rate history (inSeconds now)) ∧
      (limiter.allow now addr).2.Holds burst rate addr
        ((inSeconds now, (limiter.allow now addr).1) :: history) := by
  obtain ⟨henabled, rfl, rfl⟩ := hset
  rw [allow, if_neg (by simp [henabled])]
  cases history with
  | nil =>
      rw [Holds] at h
      rw [h]
      exact ⟨⟨fun _ => hburst, fun _ => rfl⟩, _, buckets_set_self _ _ _, rfl, rfl⟩
  | cons attempt older =>
      obtain ⟨last, ok⟩ := attempt
      obtain ⟨bucket, hb, rfl, htokens⟩ := h
      rw [hb]
      dsimp only
      have hlevel : (if limiter.burst < bucket.tokens +
            inSeconds (now - bucket.last) * limiter.refillPerSecond then limiter.burst
          else bucket.tokens + inSeconds (now - bucket.last) * limiter.refillPerSecond) =
          level limiter.burst limiter.refillPerSecond ((inSeconds bucket.last, ok) :: older)
            (inSeconds now) := by
        rw [level, htokens, inSeconds_sub, mul_comm (inSeconds now - inSeconds bucket.last)]
        split_ifs with hcap
        · rw [min_eq_left hcap.le]
        · rw [min_eq_right (not_lt.mp hcap)]
      rw [hlevel]
      split_ifs with hlt
      · refine ⟨⟨fun h => h.elim, fun h => absurd hlt (not_lt.mpr h)⟩, _,
          buckets_set_self _ _ _, rfl, ?_⟩
        simp [taken]
      · exact ⟨⟨fun _ => not_lt.mp hlt, fun _ => rfl⟩, _, buckets_set_self _ _ _, rfl, rfl⟩

/-- A call replaces the bucket of its address, or nothing. -/
theorem allow_snd (limiter : RateLimiter) (now : ℤ) (addr : UInt32) :
    (limiter.allow now addr).2 = limiter ∨
      ∃ bucket, (limiter.allow now addr).2 = limiter.set addr bucket := by
  rw [allow]
  split_ifs
  · exact .inl rfl
  · cases limiter.buckets addr with
    | none => exact .inr ⟨_, rfl⟩
    | some bucket =>
        dsimp only
        split_ifs
        all_goals exact .inr ⟨_, rfl⟩

/-- A call leaves the settings alone. -/
theorem Settings.allow (h : limiter.Settings burst rate) (now : ℤ) (addr : UInt32) :
    (limiter.allow now addr).2.Settings burst rate := by
  rcases limiter.allow_snd now addr with hsame | ⟨bucket, hset⟩
  · rwa [hsame]
  · rw [hset]
    exact ⟨h.enabled, h.burst_eq, h.rate_eq⟩

/-- A call leaves the buckets of the other addresses alone. -/
theorem buckets_allow_of_ne (limiter : RateLimiter) (now : ℤ) (hne : other ≠ addr) :
    (limiter.allow now addr).2.buckets other = limiter.buckets other := by
  rcases limiter.allow_snd now addr with hsame | ⟨bucket, hset⟩
  · rw [hsame]
  · rw [hset]
    exact Function.update_of_ne hne _ _

/-- What an address holds is a fact about its bucket. -/
theorem holds_congr {limiter' : RateLimiter}
    (h : limiter'.buckets addr = limiter.buckets addr) :
    limiter'.Holds burst rate addr history ↔ limiter.Holds burst rate addr history := by
  cases history with
  | nil => rw [Holds, Holds, h]
  | cons attempt older => rw [Holds, Holds, h]

/-! ### Runs -/

/-- The calls for an address, as they were made. -/
def callsOf (addr : UInt32) (answered : List (Call × Bool)) : List (Call × Bool) :=
  answered.filter fun answer => answer.1.addr = addr

/-- How many calls were allowed. -/
def allowed (answered : List (Call × Bool)) : ℕ :=
  answered.countP fun answer => answer.2

/-- The calls for an address that were made, and allowed, between two times. -/
def allowedBetween (addr : UInt32) (start stop : ℤ) (answered : List (Call × Bool)) : ℕ :=
  allowed ((callsOf addr answered).filter fun answer =>
    start ≤ answer.1.time ∧ answer.1.time ≤ stop)

/-- **What a token bucket does**, said of the calls and their answers alone. -/
structure IsTokenBucket (burst rate : ℚ) (answered : List (Call × Bool)) : Prop where
  /-- A call is allowed exactly when, from each call of its address on, it keeps to the
  allowance. -/
  allowed_iff : ∀ before call ok after, answered = before ++ (call, ok) :: after →
    (ok = true ↔ ∀ k first, (callsOf call.addr (before ++ [(call, ok)]))[k]? = some first →
      allowed ((callsOf call.addr before).drop k) + 1 ≤
        burst + rate * inSeconds (call.time - first.1.time))
  /-- No address gets more than the allowance of a stretch of time in it. -/
  between_le : ∀ addr start stop, start ≤ stop →
    allowedBetween addr start stop answered ≤ burst + rate * inSeconds (stop - start)
  /-- A call that keeps to the allowance of every stretch of time is not refused. -/
  not_refused : ∀ before call ok after, answered = before ++ (call, ok) :: after →
    (∀ start ≤ call.time, allowedBetween call.addr start call.time before + 1 ≤
      burst + rate * inSeconds (call.time - start)) → ok = true

/-- The attempts made from an address, with their times in seconds. -/
def attempts (addr : UInt32) (answered : List (Call × Bool)) : List (ℚ × Bool) :=
  (callsOf addr answered).map fun answer => (inSeconds answer.1.time, answer.2)

/-- The limiter stands where the calls answered so far have left it: each bucket holds what it
should, and each answer was right. -/
structure After (limiter : RateLimiter) (burst rate : ℚ) (answered : List (Call × Bool)) :
    Prop extends limiter.Settings burst rate where
  holds : ∀ addr, limiter.Holds burst rate addr (attempts addr answered).reverse
  right : ∀ addr, Answered burst rate (attempts addr answered).reverse

variable {answered before after : List (Call × Bool)} {call : Call} {ok : Bool}

/-- The calls of an address are those that it made. -/
theorem mem_callsOf {answer : Call × Bool} :
    answer ∈ callsOf addr answered ↔ answer ∈ answered ∧ answer.1.addr = addr := by
  rw [callsOf, List.mem_filter, decide_eq_true_eq]

/-- The calls for an address, when one more was made for it. -/
theorem callsOf_append_self (before : List (Call × Bool)) (call : Call) (ok : Bool) :
    callsOf call.addr (before ++ [(call, ok)]) = callsOf call.addr before ++ [(call, ok)] := by
  rw [callsOf, callsOf, List.filter_append]
  simp

/-- One more attempt of the address that is called, none of another one. -/
theorem attempts_append (addr : UInt32) (answered : List (Call × Bool)) (call : Call) (ok : Bool) :
    attempts addr (answered ++ [(call, ok)]) =
      if call.addr = addr then attempts addr answered ++ [(inSeconds call.time, ok)]
      else attempts addr answered := by
  rw [attempts, attempts, callsOf, callsOf, List.filter_append, List.map_append]
  split_ifs with h <;> simp [h]

/-- **Step lemma**: a call keeps the limiter where the calls say. -/
theorem After.allow (h : limiter.After burst rate answered) (hburst : 1 ≤ burst) (call : Call) :
    (limiter.allow call.time call.addr).2.After burst rate
      (answered ++ [(call, (limiter.allow call.time call.addr).1)]) := by
  refine ⟨h.toSettings.allow _ _, fun addr => ?_, fun addr => ?_⟩
  · rw [attempts_append]
    split_ifs with haddr
    · rw [← haddr, List.reverse_append]
      exact (allow_spec h.toSettings hburst (h.holds call.addr)).2
    · exact (holds_congr (buckets_allow_of_ne limiter _ (Ne.symm haddr))).mpr (h.holds addr)
  · rw [attempts_append]
    split_ifs with haddr
    · rw [← haddr, List.reverse_append]
      exact ⟨(allow_spec h.toSettings hburst (h.holds call.addr)).1, h.right call.addr⟩
    · exact h.right addr

/-- **Run lemma**: each answer of a run is given by a limiter that stands where the answers before
it have left it, and so does the limiter at the end. -/
theorem After.run (h : limiter.After burst rate answered) (hburst : 1 ≤ burst)
    (calls : List Call) :
    (∃ last : RateLimiter, last.After burst rate (answered ++ run limiter calls)) ∧
      ∀ before call ok after, run limiter calls = before ++ (call, ok) :: after →
        ∃ there : RateLimiter, there.After burst rate (answered ++ before) ∧
          ok = (there.allow call.time call.addr).1 := by
  induction calls generalizing limiter answered with
  | nil =>
      refine ⟨⟨limiter, by simpa [RateLimiter.run] using h⟩, fun before call ok after hrun => ?_⟩
      simp [RateLimiter.run] at hrun
  | cons first calls ih =>
      obtain ⟨⟨last, hlast⟩, hsplit⟩ := ih (h.allow hburst first)
      rw [List.append_assoc] at hlast
      refine ⟨⟨last, hlast⟩, fun before call ok after hrun => ?_⟩
      rw [RateLimiter.run] at hrun
      rcases List.cons_eq_append_iff.mp hrun with ⟨rfl, hcons⟩ | ⟨before, rfl, hrest⟩
      · obtain ⟨⟨rfl, rfl⟩, -⟩ := by simpa using hcons
        exact ⟨limiter, by simpa using h, rfl⟩
      · obtain ⟨there, hthere, hok⟩ := hsplit before call ok after hrest
        rw [List.append_assoc] at hthere
        exact ⟨there, hthere, hok⟩

/-! ### The limiter as a token bucket -/

/-- Seconds are in the order of the ticks. -/
theorem inSeconds_le_iff {s t : ℤ} : inSeconds s ≤ inSeconds t ↔ s ≤ t := by
  rw [inSeconds, inSeconds, div_le_div_iff_of_pos_right (by norm_num), Int.cast_le]

/-- What was granted from an attempt on is what was allowed from that call on. -/
theorem granted_drop_attempts (addr : UInt32) (answered : List (Call × Bool)) (k : ℕ) :
    granted ((attempts addr answered).drop k) = allowed ((callsOf addr answered).drop k) := by
  rw [attempts, ← List.map_drop, granted, List.countP_map]
  rfl

/-- What was granted between two times is what was allowed between them. -/
theorem grantedBetween_attempts (addr : UInt32) (start stop : ℤ)
    (answered : List (Call × Bool)) :
    grantedBetween (inSeconds start) (inSeconds stop) (attempts addr answered).reverse =
      allowedBetween addr start stop answered := by
  rw [grantedBetween, List.filter_reverse, granted_reverse, attempts, List.filter_map, granted,
    List.countP_map, allowedBetween, allowed]
  simp only [Function.comp_def, inSeconds_le_iff]

/-- The calls of a run are the calls that were made. -/
theorem map_fst_run (limiter : RateLimiter) (calls : List Call) :
    (run limiter calls).map (·.1) = calls := by
  induction calls generalizing limiter with
  | nil => rfl
  | cons call calls ih => rw [run, List.map_cons, ih]

/-- From a call of an address on, everything lies between the time of that call and now. -/
theorem time_of_mem_drop {k : ℕ} {first answer : Call × Bool}
    (hsorted : (before ++ [(call, ok)]).Pairwise fun a b => a.1.time ≤ b.1.time)
    (hfirst : (callsOf call.addr (before ++ [(call, ok)]))[k]? = some first)
    (h : answer ∈ (callsOf call.addr (before ++ [(call, ok)])).drop k) :
    first.1.time ≤ answer.1.time ∧ answer.1.time ≤ call.time := by
  obtain ⟨hlt, hget⟩ := List.getElem?_eq_some_iff.mp hfirst
  have hdrop : ((callsOf call.addr (before ++ [(call, ok)])).drop k).Pairwise
      fun a b => a.1.time ≤ b.1.time := (hsorted.filter _).drop
  constructor
  · rw [List.drop_eq_getElem_cons hlt, hget] at h hdrop
    rcases List.mem_cons.mp h with rfl | h
    · exact le_rfl
    · exact (List.pairwise_cons.mp hdrop).1 answer h
  · have hmem := (mem_callsOf.mp (List.mem_of_mem_drop h)).1
    rcases List.mem_append.mp hmem with hmem | hmem
    · exact (List.pairwise_append.mp hsorted).2.2 answer hmem _ (List.mem_singleton_self _)
    · rw [List.mem_singleton.mp hmem]

/-- From a call on, what was allowed was allowed at its time or later. -/
theorem allowed_drop_le {k : ℕ} {first : Call × Bool}
    (hsorted : (before ++ [(call, ok)]).Pairwise fun a b => a.1.time ≤ b.1.time)
    (hfirst : (callsOf call.addr (before ++ [(call, ok)]))[k]? = some first) :
    allowed ((callsOf call.addr before).drop k) ≤
      allowedBetween call.addr first.1.time call.time before := by
  have hall : ((callsOf call.addr before).drop k).filter (fun answer =>
      first.1.time ≤ answer.1.time ∧ answer.1.time ≤ call.time) =
        (callsOf call.addr before).drop k := by
    refine List.filter_eq_self.mpr fun answer h => decide_eq_true ?_
    refine time_of_mem_drop hsorted hfirst ?_
    rw [callsOf_append_self, List.drop_append]
    exact List.mem_append_left _ h
  rw [allowedBetween, allowed, ← hall]
  exact ((List.drop_sublist _ _).filter _).countP_le

/-- What a call says of the token bucket is what it says of the allowances. -/
theorem within_attempts_iff (before : List (Call × Bool)) (call : Call) (ok : Bool) :
    Within burst rate (attempts call.addr before).reverse 1 (inSeconds call.time) ↔
      ∀ k first, (callsOf call.addr (before ++ [(call, ok)]))[k]? = some first →
        allowed ((callsOf call.addr before).drop k) + 1 ≤
          burst + rate * inSeconds (call.time - first.1.time) := by
  rw [within_reverse_iff, callsOf_append_self]
  simp only [granted_drop_attempts]
  constructor
  · rintro ⟨hburst, hall⟩ k first hfirst
    rw [inSeconds_sub]
    rcases Nat.lt_or_ge k (callsOf call.addr before).length with hk | hk
    · rw [List.getElem?_append_left hk] at hfirst
      refine hall k (inSeconds first.1.time, first.2) ?_
      rw [attempts, List.getElem?_map, hfirst]
      rfl
    · rw [List.getElem?_append_right hk] at hfirst
      obtain rfl : first = (call, ok) := by
        simpa using List.mem_of_getElem? hfirst
      rw [List.drop_eq_nil_of_le hk]
      simpa [allowed] using hburst
  · intro hall
    constructor
    · have := hall (callsOf call.addr before).length (call, ok) (by simp)
      simpa [allowed, inSeconds] using this
    · intro k attempt hk
      rw [attempts, List.getElem?_map] at hk
      obtain ⟨first, hfirst, rfl⟩ := Option.map_eq_some_iff.mp hk
      have hlt := (List.getElem?_eq_some_iff.mp hfirst).1
      have := hall k first (by rw [List.getElem?_append_left hlt, hfirst])
      rwa [inSeconds_sub] at this

/-- A configured limiter that is on starts with a full bucket for everyone. -/
theorem after_configure {perMinute : Int32} (hpos : 0 < perMinute.toInt) (burst : Int32) :
    (configure perMinute burst).After (configure perMinute burst).burst
      (perMinute.toInt / 60) [] where
  enabled := decide_eq_true hpos
  burst_eq := rfl
  rate_eq := rfl
  holds _ := rfl
  right _ := trivial

/-- A bucket has room for one token at least. -/
theorem one_le_burst (perMinute burst : Int32) : 1 ≤ (configure perMinute burst).burst := by
  rw [configure]
  dsimp only
  split_ifs
  all_goals first
    | exact le_rfl
    | exact not_lt.mp ‹_›

/-- A call looks at the settings and at the bucket of its address only. -/
theorem allow_congr (now : ℤ) {limiter' : RateLimiter} (hset : limiter.Settings burst rate)
    (hset' : limiter'.Settings burst rate)
    (hbucket : limiter.buckets addr = limiter'.buckets addr) :
    (limiter.allow now addr).1 = (limiter'.allow now addr).1 ∧
      (limiter.allow now addr).2.buckets addr = (limiter'.allow now addr).2.buckets addr := by
  rw [allow, allow, if_neg (by simp [hset.enabled]), if_neg (by simp [hset'.enabled]), hbucket,
    hset.burst_eq, hset.rate_eq, hset'.burst_eq, hset'.rate_eq]
  cases limiter'.buckets addr with
  | none => simp
  | some bucket =>
      dsimp only
      split_ifs
      all_goals simp

/-- Two limiters that agree on an address, and on the settings, answer its calls alike. -/
theorem run_filter {limiter' : RateLimiter} (hset : limiter.Settings burst rate)
    (hset' : limiter'.Settings burst rate) (addr : UInt32)
    (hbucket : limiter.buckets addr = limiter'.buckets addr) (calls : List Call) :
    callsOf addr (run limiter calls) =
      run limiter' (calls.filter fun call => call.addr = addr) := by
  induction calls generalizing limiter limiter' with
  | nil => rfl
  | cons call calls ih =>
      rw [run, callsOf, List.filter_cons, List.filter_cons, ← callsOf]
      by_cases haddr : call.addr = addr
      · subst haddr
        obtain ⟨hanswer, hafter⟩ := allow_congr call.time hset hset' hbucket
        rw [if_pos (decide_eq_true rfl), if_pos (decide_eq_true rfl), run,
          ih (hset.allow _ _) (hset'.allow _ _) hafter, hanswer]
      · rw [if_neg (by simpa using haddr), if_neg (by simpa using haddr)]
        refine ih (hset.allow _ _) hset' ?_
        rw [buckets_allow_of_ne limiter _ (Ne.symm haddr), hbucket]

/-- **The limiter is exactly a token bucket**, whatever addresses call and in whatever order, and
other addresses have no effect on the answers for one. -/
theorem isTokenBucket_run {perMinute : Int32} (hpos : 0 < perMinute.toInt) (burst : Int32)
    {calls : List Call} (hsorted : calls.Pairwise fun a b => a.time ≤ b.time) :
    IsTokenBucket (configure perMinute burst).burst (perMinute.toInt / 60)
        (run (configure perMinute burst) calls) ∧
      ∀ addr, callsOf addr (run (configure perMinute burst) calls) =
        run (configure perMinute burst) (calls.filter fun call => call.addr = addr) := by
  have hstart := after_configure hpos burst
  have hone := one_le_burst perMinute burst
  have hrate : (0 : ℚ) ≤ perMinute.toInt / 60 :=
    div_nonneg (Int.cast_nonneg hpos.le) (by norm_num)
  obtain ⟨⟨last, hlast⟩, hthere⟩ := hstart.run hone calls
  have hanswered : (run (configure perMinute burst) calls).Pairwise
      fun a b => a.1.time ≤ b.1.time := by
    rw [← map_fst_run (configure perMinute burst) calls, List.pairwise_map] at hsorted
    exact hsorted
  have hiff : ∀ before call ok after,
      run (configure perMinute burst) calls = before ++ (call, ok) :: after →
        (ok = true ↔ ∀ k first,
          (callsOf call.addr (before ++ [(call, ok)]))[k]? = some first →
            allowed ((callsOf call.addr before).drop k) + 1 ≤
              (configure perMinute burst).burst +
                perMinute.toInt / 60 * inSeconds (call.time - first.1.time)) := by
    intro before call ok after hsplit
    obtain ⟨there, hafter, hok⟩ := hthere before call ok after hsplit
    rw [← within_attempts_iff, ← le_level_iff, hok]
    exact (allow_spec hafter.toSettings hone (hafter.holds call.addr)).1
  refine ⟨⟨hiff, fun addr start stop h => ?_, fun before call ok after hsplit hwithin => ?_⟩,
    fun addr => run_filter hstart.toSettings hstart.toSettings addr rfl calls⟩
  · have hpairs : (attempts addr (run (configure perMinute burst) calls)).reverse.Pairwise
        fun later earlier => earlier.1 ≤ later.1 := by
      rw [List.pairwise_reverse, attempts, List.pairwise_map]
      exact (hanswered.filter _).imp inSeconds_le_iff.mpr
    rw [← grantedBetween_attempts, inSeconds_sub]
    exact granted_between_le (by linarith) hrate hpairs (hlast.right addr)
      (inSeconds_le_iff.mpr h)
  · rw [hiff before call ok after hsplit]
    intro k first hfirst
    have hsorted : (before ++ [(call, ok)]).Pairwise fun a b => a.1.time ≤ b.1.time := by
      rw [hsplit, List.append_cons] at hanswered
      exact (List.pairwise_append.mp hanswered).1
    have hfrom := (time_of_mem_drop hsorted hfirst
      (List.mem_of_getElem? (i := 0) (by rw [List.getElem?_drop]; exact hfirst))).2
    have hle : (allowed ((callsOf call.addr before).drop k) : ℚ) ≤
        allowedBetween call.addr first.1.time call.time before :=
      Nat.cast_le.mpr (allowed_drop_le hsorted hfirst)
    linarith [hwithin first.1.time hfrom]

/-- Two calls are allowed at once, the third one a second later is too. -/
theorem isTokenBucket_run_three :
    IsTokenBucket (configure 60 2).burst ((60 : Int32).toInt / 60)
        (run (configure 60 2) [⟨0, 1⟩, ⟨0, 1⟩, ⟨1000000000, 1⟩]) ∧
      ∀ addr, callsOf addr (run (configure 60 2) [⟨0, 1⟩, ⟨0, 1⟩, ⟨1000000000, 1⟩]) =
        run (configure 60 2)
          ([⟨0, 1⟩, ⟨0, 1⟩, ⟨1000000000, 1⟩].filter fun call => call.addr = addr) :=
  isTokenBucket_run (by decide) 2 (by decide)

end RateLimiter

end RSDWServerAPI.AccessControl
