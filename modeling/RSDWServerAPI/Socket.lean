import Mathlib.Data.List.Infix
import Mathlib.Data.Nat.Init

/-!
# Reading from a stream socket

What the peer of a TCP connection sends is the list of the segments in which it arrives; a
`recv` returns a segment, or as much of it as fits the buffer. An empty segment stands for a
`recv` that returns nothing or fails, as it does when the receive timeout passes, and the end
of the list for a connection that the peer has closed.

`recvLoop` is the loop with which a server collects a known number of bytes.

## Main results

* `arrived_recv`: one `recv` takes what it returns off what arrives.
* `recvLoop_eq`: **the loop collects as much of what it waits for as arrives**, whatever the
  segments.
* `recvLoop_rest`: and it leaves the rest.
-/

namespace RSDWServerAPI.Socket

variable {α : Type*}

/-- The segments in which a peer's data arrives. -/
abbrev Net (α : Type*) := List (List α)

/-- `recv` with a buffer for `len` elements: what it returns, and what is left. -/
def recv (len : ℕ) : Net α → List α × Net α
  | [] => ([], [])
  | segment :: net =>
      if segment.length ≤ len then (segment, net)
      else (segment.take len, segment.drop len :: net)

/-- Everything that arrives before the first `recv` that returns nothing. -/
def arrived (net : Net α) : List α :=
  (net.takeWhile fun segment => segment ≠ []).flatten

/-- Where no segment is empty, all of them arrive. -/
theorem arrived_of_forall {net : Net α} (h : ∀ segment ∈ net, segment ≠ []) :
    arrived net = net.flatten := by
  induction net with
  | nil => rfl
  | cons segment net ih =>
      have hne := h segment List.mem_cons_self
      have ih' := ih fun s hs => h s (List.mem_cons_of_mem _ hs)
      simpa [arrived, hne] using ih'

/-- A `recv` returns no more than fits. -/
theorem recv_length_le (len : ℕ) (net : Net α) : (recv len net).1.length ≤ len := by
  rw [recv.eq_def]
  cases net with
  | nil => simp
  | cons segment net =>
      dsimp only
      split
      · next hfits => exact hfits
      · exact List.length_take_le _ _

/-- When a `recv` returns nothing, nothing has arrived. -/
theorem arrived_of_recv_nil {len : ℕ} (hlen : 0 < len) {net : Net α}
    (h : (recv len net).1 = []) : arrived net = [] := by
  cases net with
  | nil => rfl
  | cons segment net =>
      rw [recv] at h
      split at h
      · obtain rfl : segment = [] := h
        rfl
      · next hlong =>
          have := List.take_eq_nil_iff.mp h
          rcases this with h0 | rfl
          · omega
          · simp at hlong

/-- **One `recv`** takes what it returns off what arrives. -/
theorem arrived_recv {len : ℕ} {net : Net α} (h : (recv len net).1 ≠ []) :
    arrived net = (recv len net).1 ++ arrived (recv len net).2 := by
  cases net with
  | nil => exact absurd rfl h
  | cons segment net =>
      rw [recv] at h ⊢
      split
      · next hfits =>
          rw [if_pos hfits] at h
          have hne : segment ≠ [] := h
          simp [arrived, hne]
      · next hlong =>
          have hne : segment ≠ [] := by
            rintro rfl
            simp at hlong
          have hdrop : segment.drop len ≠ [] := by
            rw [ne_eq, List.drop_eq_nil_iff]
            omega
          simp [arrived, hne, hdrop, ← List.append_assoc]

/-- The loop that goes on receiving, at most `size` elements at a time, while `body` has
fewer than `length` elements. -/
def recvLoop (size : ℕ) : ℕ → ℕ → List α → Net α → List α × Net α
  | 0, _, body, net => (body, net)
  | fuel + 1, length, body, net =>
      if body.length < length then
        let (received, net) := recv (min (length - body.length) size) net
        if received = [] then (body, net) else recvLoop size fuel length (body ++ received) net
      else (body, net)

/-- **What the loop collects**: as much of what it waits for as arrives. One turn for each
element that is missing is enough. -/
theorem recvLoop_eq {size : ℕ} (hsize : 0 < size) {fuel length : ℕ} {body : List α}
    {net : Net α} (hfuel : length - body.length ≤ fuel) :
    (recvLoop size fuel length body net).1 =
      body ++ (arrived net).take (length - body.length) := by
  induction fuel generalizing body net with
  | zero =>
      have h0 : length - body.length = 0 := Nat.le_zero.mp hfuel
      simp [recvLoop, h0]
  | succ fuel ih =>
      rw [recvLoop]
      by_cases hlt : body.length < length
      · rw [if_pos hlt]
        by_cases hnil : (recv (min (length - body.length) size) net).1 = []
        · have hpos : 0 < min (length - body.length) size := by omega
          simp [hnil, arrived_of_recv_nil hpos hnil]
        · have hle := recv_length_le (min (length - body.length) size) net
          have hpos := List.length_pos_iff.mpr hnil
          have harrived := arrived_recv hnil
          dsimp only
          generalize recv (min (length - body.length) size) net = r at *
          have hrest : length - (body ++ r.1).length = length - body.length - r.1.length := by
            rw [List.length_append]
            omega
          rw [if_neg hnil, ih (by rw [hrest]; omega), harrived, List.take_append,
            List.take_of_length_le (show r.1.length ≤ length - body.length by omega), hrest,
            List.append_assoc]
      · rw [if_neg hlt]
        have h0 : length - body.length = 0 := by omega
        simp [h0]

/-- **What the loop leaves**, where all that it waits for arrives: the rest. -/
theorem recvLoop_rest {size : ℕ} (hsize : 0 < size) {fuel length : ℕ} {body : List α}
    {net : Net α} (hfuel : length - body.length ≤ fuel)
    (h : length ≤ body.length + (arrived net).length) :
    body ++ arrived net =
      (recvLoop size fuel length body net).1 ++ arrived (recvLoop size fuel length body net).2 := by
  induction fuel generalizing body net with
  | zero => rw [recvLoop]
  | succ fuel ih =>
      rw [recvLoop]
      by_cases hlt : body.length < length
      · rw [if_pos hlt]
        by_cases hnil : (recv (min (length - body.length) size) net).1 = []
        · have hpos : 0 < min (length - body.length) size := by omega
          rw [arrived_of_recv_nil hpos hnil] at h
          simp only [List.length_nil] at h
          omega
        · have hpos := List.length_pos_iff.mpr hnil
          have harrived := arrived_recv hnil
          dsimp only
          generalize recv (min (length - body.length) size) net = r at *
          have hlen := congrArg List.length harrived
          rw [List.length_append] at hlen
          rw [if_neg hnil, harrived, ← List.append_assoc]
          exact ih (by rw [List.length_append]; omega) (by rw [List.length_append]; omega)
      · rw [if_neg hlt]

end RSDWServerAPI.Socket
