import Mathlib.Algebra.Order.Field.Basic
import Mathlib.Tactic.Linarith
import Mathlib.Tactic.Ring

/-!
# Token buckets

A bucket holds at most `burst` tokens and gains `rate` of them in each unit of time; an attempt
takes one token out, when there is one. A history is the list of the attempts so far, the latest
first, each with its time and whether it was granted.

The bucket keeps one number, the level; what it is for is said without it: whatever attempt one
starts to count at, no more may be granted from there on than `burst` and what has been gained
since.

## Main results

* `le_level_iff`: **the level is what the allowances leave**, a minimum over all attempts to count
  from.
* `granted_since_le`, `granted_between_le`: in no stretch of time is more granted than `burst` and
  what is gained in it.
-/

namespace RSDWServerAPI.TokenBucket

variable {K : Type*} [Field K] [LinearOrder K]

/-- How many attempts were granted. -/
def granted (history : List (K × Bool)) : ℕ :=
  history.countP fun attempt => attempt.2

/-- What an attempt takes out of the bucket. -/
def taken (ok : Bool) : K :=
  if ok then 1 else 0

/-- What is in the bucket at a time, after a history: the bucket starts full. -/
def level (burst rate : K) : List (K × Bool) → K → K
  | [], _ => burst
  | (last, ok) :: older, now =>
      min burst (level burst rate older last - taken ok + rate * (now - last))

/-- Whatever attempt one counts from, `x` more keep to the allowance at a time. -/
def Within (burst rate : K) (history : List (K × Bool)) (x now : K) : Prop :=
  x ≤ burst ∧ ∀ recent first older, history = recent ++ first :: older →
    granted (recent ++ [first]) + x ≤ burst + rate * (now - first.1)

/-- The attempts are answered as the bucket says: granted when there is a token. -/
def Answered (burst rate : K) : List (K × Bool) → Prop
  | [] => True
  | (now, ok) :: older =>
      (ok = true ↔ 1 ≤ level burst rate older now) ∧ Answered burst rate older

variable {burst rate x now : K} {history : List (K × Bool)}

omit [LinearOrder K] in
/-- What is gained in a stretch of time is gained in its two parts. -/
theorem gained_add (rate first last now : K) :
    rate * (now - first) = rate * (last - first) + rate * (now - last) := by
  ring

omit [LinearOrder K] in
/-- One attempt and those after it. -/
theorem granted_cons (attempt : K × Bool) (older : List (K × Bool)) :
    (granted (attempt :: older) : K) = granted older + taken attempt.2 := by
  rw [granted, List.countP_cons, ← granted, taken]
  cases attempt.2 <;> simp

section Level

variable [IsStrictOrderedRing K]

/-- **The level is what the allowances leave**: there are `x` tokens exactly when `x` more keep
to every allowance. -/
theorem le_level_iff : x ≤ level burst rate history now ↔ Within burst rate history x now := by
  induction history generalizing x now with
  | nil =>
      refine ⟨fun h => ⟨h, fun recent first older hsplit => ?_⟩, fun h => h.1⟩
      simp at hsplit
  | cons attempt older ih =>
      obtain ⟨last, ok⟩ := attempt
      have hshift : x ≤ level burst rate older last - taken ok + rate * (now - last) ↔
          x + taken ok - rate * (now - last) ≤ level burst rate older last := by
        constructor <;> intro h <;> linarith
      rw [level, le_min_iff, hshift, ih]
      constructor
      · rintro ⟨hx, hlast, hearlier⟩
        refine ⟨hx, fun recent first rest hsplit => ?_⟩
        rcases List.cons_eq_append_iff.mp hsplit with ⟨rfl, hcons⟩ | ⟨recent, rfl, hrest⟩
        · obtain ⟨rfl, -⟩ : first = (last, ok) ∧ rest = older := by simpa using hcons
          rw [List.nil_append, granted_cons]
          simp only [granted, List.countP_nil, Nat.cast_zero]
          linarith
        · have := hearlier recent first rest hrest
          rw [List.cons_append, granted_cons, gained_add rate first.1 last now]
          dsimp only
          linarith
      · rintro ⟨hx, hall⟩
        refine ⟨hx, ?_, fun recent first rest hsplit => ?_⟩
        · have := hall [] (last, ok) older rfl
          rw [List.nil_append, granted_cons] at this
          simp only [granted, List.countP_nil, Nat.cast_zero] at this
          linarith
        · have := hall ((last, ok) :: recent) first rest (by rw [hsplit, List.cons_append])
          rw [List.cons_append, granted_cons, gained_add rate first.1 last now] at this
          linarith

end Level

omit [Field K] [LinearOrder K] in
/-- Whether attempts were granted does not depend on the order in which they are listed. -/
theorem granted_reverse (history : List (K × Bool)) : granted history.reverse = granted history :=
  (List.reverse_perm history).countP_eq _

/-- The allowances of a history, with the attempts numbered as they were made. -/
theorem within_reverse_iff {attempts : List (K × Bool)} :
    Within burst rate attempts.reverse x now ↔
      x ≤ burst ∧ ∀ k attempt, attempts[k]? = some attempt →
        granted (attempts.drop k) + x ≤ burst + rate * (now - attempt.1) := by
  refine and_congr_right fun _ => ⟨fun h k attempt hk => ?_, fun h recent first older hsplit => ?_⟩
  · obtain ⟨hlt, rfl⟩ := List.getElem?_eq_some_iff.mp hk
    have hsplit : attempts.reverse =
        (attempts.drop (k + 1)).reverse ++ attempts[k] :: (attempts.take k).reverse := by
      conv_lhs => rw [← List.take_append_drop k attempts, List.drop_eq_getElem_cons hlt]
      simp
    have := h _ _ _ hsplit
    rwa [← List.reverse_cons, granted_reverse, ← List.drop_eq_getElem_cons hlt] at this
  · have hattempts : attempts = older.reverse ++ first :: recent.reverse := by
      rw [← List.reverse_reverse attempts, hsplit]
      simp
    have := h older.length first (by rw [hattempts]; simp)
    rw [hattempts, List.drop_append_of_le_length (by simp)] at this
    have hdrop : older.reverse.drop older.length = [] := by simp
    rwa [hdrop, List.nil_append, ← granted_reverse, List.reverse_cons, List.reverse_reverse] at this

/-- The attempts granted at or after a time. -/
def grantedSince (start : K) (history : List (K × Bool)) : ℕ :=
  granted (history.filter fun attempt => start ≤ attempt.1)

/-- The attempts granted between two times. -/
def grantedBetween (start stop : K) (history : List (K × Bool)) : ℕ :=
  granted (history.filter fun attempt => start ≤ attempt.1 ∧ attempt.1 ≤ stop)

/-- Counting since a time, by attempts. -/
theorem grantedSince_cons (start : K) (attempt : K × Bool) (older : List (K × Bool)) :
    (grantedSince start (attempt :: older) : K) =
      grantedSince start older + if start ≤ attempt.1 then taken attempt.2 else 0 := by
  rw [grantedSince, List.filter_cons]
  split_ifs with h h' h'
  · rw [granted_cons, grantedSince]
  · exact absurd (of_decide_eq_true h) h'
  · exact absurd (decide_eq_true h') h
  · rw [grantedSince, add_zero]

omit [Field K] in
/-- Nothing was granted since a time that lies behind every attempt. -/
theorem grantedSince_eq_zero {start : K} (h : ∀ attempt ∈ history, attempt.1 < start) :
    grantedSince start history = 0 := by
  rw [grantedSince, List.filter_eq_nil_iff.mpr]
  · rfl
  · intro attempt hmem
    simpa using h attempt hmem

section Between

variable [IsStrictOrderedRing K]

/-- **What the level still allows**: with `x` tokens left, what was granted since a time and `x`
more keep to the allowance from that time on. -/
theorem granted_since_le (hrate : 0 ≤ rate)
    (hsorted : history.Pairwise fun later earlier => earlier.1 ≤ later.1)
    (hx : x ≤ level burst rate history now) {start : K} (hstart : start ≤ now) :
    grantedSince start history + x ≤ burst + rate * (now - start) := by
  induction history generalizing x now with
  | nil =>
      rw [level] at hx
      have : 0 ≤ rate * (now - start) := mul_nonneg hrate (by linarith)
      simp only [grantedSince, List.filter_nil, granted, List.countP_nil, Nat.cast_zero]
      linarith
  | cons attempt older ih =>
      obtain ⟨last, ok⟩ := attempt
      obtain ⟨hlast, holder⟩ := List.pairwise_cons.mp hsorted
      rw [level, le_min_iff] at hx
      by_cases hs : start ≤ last
      · have hbefore : x + taken ok - rate * (now - last) ≤ level burst rate older last := by
          linarith [hx.2]
        have := ih holder hbefore hs
        rw [grantedSince_cons, if_pos hs, gained_add rate start last now]
        dsimp only
        linarith
      · have hnone : grantedSince start ((last, ok) :: older) = 0 := by
          refine grantedSince_eq_zero fun attempt hmem => ?_
          rcases List.mem_cons.mp hmem with rfl | hmem
          · exact not_le.mp hs
          · exact (hlast attempt hmem).trans_lt (not_le.mp hs)
        have : 0 ≤ rate * (now - start) := mul_nonneg hrate (by linarith)
        rw [hnone, Nat.cast_zero]
        linarith [hx.1]

omit [Field K] [IsStrictOrderedRing K] in
/-- What was granted between two times was granted since the first of them. -/
theorem grantedBetween_le_since (start stop : K) (history : List (K × Bool)) :
    grantedBetween start stop history ≤ grantedSince start history := by
  rw [grantedBetween, grantedSince, granted, granted, List.countP_filter, List.countP_filter]
  refine List.countP_mono_left fun attempt _ h => ?_
  simp only [Bool.and_eq_true, decide_eq_true_eq] at h ⊢
  exact ⟨h.1, h.2.1⟩

/-- **In no stretch of time is more granted** than a full bucket and what is gained in it. -/
theorem granted_between_le (hburst : 0 ≤ burst) (hrate : 0 ≤ rate)
    (hsorted : history.Pairwise fun later earlier => earlier.1 ≤ later.1)
    (hanswered : Answered burst rate history) {start stop : K} (h : start ≤ stop) :
    (grantedBetween start stop history : K) ≤ burst + rate * (stop - start) := by
  have hgain : 0 ≤ rate * (stop - start) := mul_nonneg hrate (by linarith)
  induction history with
  | nil =>
      simp only [grantedBetween, List.filter_nil, granted, List.countP_nil, Nat.cast_zero]
      linarith
  | cons attempt older ih =>
      obtain ⟨now, ok⟩ := attempt
      have ih := ih (List.pairwise_cons.mp hsorted).2 hanswered.2
      rw [grantedBetween, List.filter_cons]
      split_ifs with hin
      · rw [granted_cons, ← grantedBetween]
        cases ok with
        | false => simpa [taken] using ih
        | true =>
            obtain ⟨hstart, hstop⟩ := of_decide_eq_true hin
            have hle := granted_since_le hrate (List.pairwise_cons.mp hsorted).2
              (hanswered.1.mp rfl) hstart
            have hsince : (grantedBetween start stop older : K) ≤ grantedSince start older :=
              Nat.cast_le.mpr (grantedBetween_le_since start stop older)
            have : rate * (now - start) ≤ rate * (stop - start) :=
              mul_le_mul_of_nonneg_left (by linarith) hrate
            simp only [taken, if_true]
            linarith
      · rwa [← grantedBetween]

end Between

end RSDWServerAPI.TokenBucket
