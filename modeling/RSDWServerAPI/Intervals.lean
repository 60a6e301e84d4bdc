import Mathlib.Data.List.Pairwise
import Mathlib.Data.List.TakeWhile
import Mathlib.Order.Interval.Set.Basic

/-!
# Sets as lists of intervals

A set of points of a linear order that is made of half-open intervals can be kept as the list of
its parts, in order and with a gap between any two (`Separated`). The parts are then the largest
intervals in the set, so an interval lies in the set exactly when it lies in one of them, and only
the last part that starts at or below its first point can be that one.

## Main results

* `separated_extend`, `covered_extend`: adding an interval behind all others, which is joined
  with the last part when the two touch.
* `foldl_extend`: so a list in ascending order is read in one pass.
* `within_floor_iff`: **an interval lies in the set exactly when it ends within the part that is
  looked up for its first point**.
-/

namespace Intervals

variable {α : Type*} [LinearOrder α]

/-- A half-open interval. -/
structure Span (α : Type*) where
  start : α
  stop : α
  deriving DecidableEq, Repr

/-- The points of an interval. -/
def Span.points (i : Span α) : Set α :=
  Set.Ico i.start i.stop

/-- A point of one of the intervals. -/
def Covered (l : List (Span α)) (x : α) : Prop :=
  ∃ i ∈ l, x ∈ i.points

/-- The intervals are not empty, and there is a gap in front of each one behind another. -/
structure Separated (l : List (Span α)) : Prop where
  nonempty : ∀ i ∈ l, i.start < i.stop
  gap : l.Pairwise fun a b => a.stop < b.start

/-- The intervals are not empty and do not overlap, but may touch. -/
structure Ascending (l : List (Span α)) : Prop where
  nonempty : ∀ i ∈ l, i.start < i.stop
  order : l.Pairwise fun a b => a.stop ≤ b.start

/-! ### Adding an interval -/

/-- An interval is added behind the others. -/
def extend (l : List (Span α)) (i : Span α) : List (Span α) :=
  match l.getLast? with
  | some last =>
      if last.stop = i.start then l.dropLast ++ [{ last with stop := i.stop }] else l ++ [i]
  | none => [i]

/-- The first interval is a part of its own. -/
@[simp] theorem extend_nil (i : Span α) : extend [] i = [i] :=
  rfl

/-- An interval that starts where the last part ends is joined to it. -/
theorem extend_concat (l : List (Span α)) (last i : Span α) :
    extend (l ++ [last]) i =
      if last.stop = i.start then l ++ [{ last with stop := i.stop }] else l ++ [last] ++ [i] := by
  rw [extend, List.getLast?_concat, List.dropLast_concat]

/-- Two lists cover what one of them covers. -/
theorem covered_append {l m : List (Span α)} {x : α} :
    Covered (l ++ m) x ↔ Covered l x ∨ Covered m x := by
  simp [Covered, or_and_right, exists_or]

/-- One interval covers its points. -/
theorem covered_singleton {i : Span α} {x : α} : Covered [i] x ↔ x ∈ i.points := by
  simp [Covered]

/-- The points of two intervals that touch. -/
theorem mem_points_join {i : Span α} {a x : α} (hi : i.start < i.stop) (ha : i.stop < a) :
    x ∈ Span.points { i with stop := a } ↔ x ∈ i.points ∨ x ∈ Span.points ⟨i.stop, a⟩ := by
  simp only [Span.points, Set.mem_Ico]
  constructor
  · rintro ⟨hlo, hhi⟩
    rcases lt_or_ge x i.stop with hlt | hge
    · exact .inl ⟨hlo, hlt⟩
    · exact .inr ⟨hge, hhi⟩
  · rintro (⟨hlo, hhi⟩ | ⟨hlo, hhi⟩)
    · exact ⟨hlo, hhi.trans ha⟩
    · exact ⟨hi.le.trans hlo, hhi⟩

/-- Adding an interval adds its points. -/
theorem covered_extend {l : List (Span α)} (hl : Separated l) {i : Span α}
    (hi : i.start < i.stop) (x : α) : Covered (extend l i) x ↔ Covered l x ∨ x ∈ i.points := by
  rcases List.eq_nil_or_concat l with rfl | ⟨l, last, rfl⟩
  · simp [Covered]
  · rw [List.concat_eq_append] at hl ⊢
    have hlast : last.start < last.stop := hl.nonempty last (by simp)
    rw [extend_concat]
    split
    · next htouch =>
        have hjoin := mem_points_join (x := x) hlast (htouch ▸ hi)
        have hpoints : Span.points ⟨last.stop, i.stop⟩ = i.points := by rw [htouch]
        rw [covered_append, covered_singleton, hjoin, hpoints, covered_append, covered_singleton,
          or_assoc]
    · rw [covered_append, covered_singleton]

/-- One more part, behind a gap. -/
theorem Separated.concat {l : List (Span α)} (hl : Separated l) {i : Span α}
    (hi : i.start < i.stop) (hgap : ∀ j ∈ l, j.stop < i.start) : Separated (l ++ [i]) where
  nonempty := by simpa [or_imp, forall_and] using ⟨hl.nonempty, hi⟩
  gap := by simpa [List.pairwise_append] using ⟨hl.gap, hgap⟩

/-- **An interval behind all others** leaves the list separated, and ends it. -/
theorem separated_extend {l : List (Span α)} (hl : Separated l) {i : Span α}
    (hi : i.start < i.stop) (hle : ∀ j ∈ l, j.stop ≤ i.start) :
    Separated (extend l i) ∧ ∀ j ∈ extend l i, j.stop ≤ i.stop := by
  have hstop : ∀ j ∈ l, j.stop ≤ i.stop := fun j hj => (hle j hj).trans hi.le
  rcases List.eq_nil_or_concat l with rfl | ⟨l, last, rfl⟩
  · exact ⟨hl.concat hi (by simp), by simp⟩
  · rw [List.concat_eq_append] at hl hle hstop ⊢
    obtain ⟨hfront, -, hgap⟩ := List.pairwise_append.mp hl.gap
    have hparts : Separated l := ⟨fun j hj => hl.nonempty j (List.mem_append_left _ hj), hfront⟩
    have hlast : last.start < last.stop := hl.nonempty last (by simp)
    simp only [List.mem_append, List.mem_singleton, forall_eq, or_imp, forall_and] at hle hgap hstop
    rw [extend_concat]
    split
    · next htouch =>
        have hjoined : last.start < i.stop := hlast.trans (htouch ▸ hi)
        refine ⟨hparts.concat hjoined hgap, ?_⟩
        simpa [or_imp, forall_and] using hstop.1
    · next happart =>
        have hlt : last.stop < i.start := lt_of_le_of_ne hle.2 happart
        have hbefore : ∀ j ∈ l, j.stop < i.start := fun j hj =>
          (hgap j hj).trans (hlast.trans hlt)
        refine ⟨hl.concat hi ?_, ?_⟩
        · simpa [or_imp, forall_and] using ⟨hbefore, hlt⟩
        · simpa [or_imp, forall_and] using hstop

/-! ### One pass over a list in ascending order -/

/-- The first part is not empty, and the others stand behind it. -/
theorem Ascending.of_cons {i : Span α} {l : List (Span α)} (h : Ascending (i :: l)) :
    i.start < i.stop ∧ (∀ j ∈ l, i.stop ≤ j.start) ∧ Ascending l := by
  obtain ⟨hfirst, hrest⟩ := List.pairwise_cons.mp h.order
  exact ⟨h.nonempty i List.mem_cons_self, hfirst,
    fun j hj => h.nonempty j (List.mem_cons_of_mem i hj), hrest⟩

/-- **Reading a list in ascending order**: adding its intervals one by one to parts in front of
them keeps the parts separated and adds their points. -/
theorem foldl_extend {l : List (Span α)} (h : Ascending l) {parts : List (Span α)}
    (hparts : Separated parts) (hle : ∀ j ∈ parts, ∀ i ∈ l, j.stop ≤ i.start) :
    Separated (l.foldl extend parts) ∧
      ∀ x, Covered (l.foldl extend parts) x ↔ Covered parts x ∨ Covered l x := by
  induction l generalizing parts with
  | nil => exact ⟨hparts, fun x => by simp [Covered]⟩
  | cons i l ih =>
      obtain ⟨hi, hfirst, hrest⟩ := h.of_cons
      obtain ⟨hsep, hstop⟩ :=
        separated_extend hparts hi fun j hj => hle j hj i List.mem_cons_self
      obtain ⟨hfold, hcovered⟩ := ih hrest hsep fun j hj k hk =>
        (hstop j hj).trans (hfirst k hk)
      refine ⟨hfold, fun x => ?_⟩
      rw [List.foldl_cons, hcovered, covered_extend hparts hi, or_assoc]
      simp [Covered]

/-! ### Looking up -/

/-- The last part that starts at or below `x`: the one in front of the first that starts behind
it. -/
def floor (l : List (Span α)) (x : α) : Option (Span α) :=
  (l.takeWhile fun i => i.start ≤ x).getLast?

/-- The first part is not empty, and there is a gap in front of the others. -/
theorem Separated.of_cons {i : Span α} {l : List (Span α)} (h : Separated (i :: l)) :
    i.start < i.stop ∧ (∀ j ∈ l, i.stop < j.start) ∧ Separated l := by
  obtain ⟨hfirst, hrest⟩ := List.pairwise_cons.mp h.gap
  exact ⟨h.nonempty i List.mem_cons_self, hfirst,
    fun j hj => h.nonempty j (List.mem_cons_of_mem i hj), hrest⟩

/-- A part that has `x` among its points is the one that is looked up. -/
theorem floor_eq_of_mem {l : List (Span α)} (hl : Separated l) {i : Span α} (hi : i ∈ l) {x : α}
    (hx : x ∈ i.points) : floor l x = some i := by
  induction l with
  | nil => cases hi
  | cons j l ih =>
      obtain ⟨hj, hfirst, hrest⟩ := hl.of_cons
      rcases List.mem_cons.mp hi with rfl | hi
      · have hnone : l.takeWhile (fun k => k.start ≤ x) = [] := by
          cases l with
          | nil => rfl
          | cons k l =>
              have hk : x < k.start := hx.2.trans (hfirst k List.mem_cons_self)
              exact List.takeWhile_cons_of_neg (by simpa using hk)
        rw [floor, List.takeWhile_cons_of_pos (by simpa using hx.1), hnone, List.getLast?_singleton]
      · have hle : j.start ≤ x := (hj.trans (hfirst i hi)).le.trans hx.1
        have hfloor : (l.takeWhile fun k => k.start ≤ x).getLast? = some i := ih hrest hi
        rw [floor, List.takeWhile_cons_of_pos (by simpa using hle), List.getLast?_cons, hfloor]
        rfl

/-- The part that is found belongs to the list and starts at the point or in front of it. -/
theorem mem_of_floor {l : List (Span α)} {i : Span α} {x : α} (h : floor l x = some i) :
    i ∈ l ∧ i.start ≤ x := by
  have hmem := List.mem_of_getLast? h
  exact ⟨(List.takeWhile_prefix _).subset hmem, by simpa using List.mem_takeWhile_imp hmem⟩

/-- An interval whose points are all covered ends within the part that has its first point. -/
theorem stop_le_of_covered {l : List (Span α)} (hl : Separated l) {i : Span α} (hi : i ∈ l)
    {a b : α} (ha : a ∈ i.points) (h : ∀ x, a ≤ x → x < b → Covered l x) : b ≤ i.stop := by
  by_contra hb
  have hlt : i.stop < b := lt_of_not_ge hb
  obtain ⟨j, hj, hstart, hstop⟩ := h i.stop ha.2.le hlt
  have hsymm : Std.Symm fun p q : Span α => p.stop < q.start ∨ q.stop < p.start :=
    ⟨fun _ _ hgap => hgap.symm⟩
  have hgaps : l.Pairwise fun p q => p.stop < q.start ∨ q.stop < p.start := hl.gap.imp .inl
  have hne : i ≠ j := fun heq => hstop.ne (heq ▸ rfl)
  rcases hgaps.forall hi hj hne with hgap | hgap
  · exact absurd hgap hstart.not_gt
  · exact absurd (hstop.trans hgap) (hl.nonempty i hi).not_gt

/-- **Looking an interval up**: it lies in the set exactly when it ends within the part that is
looked up for its first point. -/
theorem within_floor_iff {l : List (Span α)} (hl : Separated l) {a b : α} (hab : a < b) :
    (∃ i, floor l a = some i ∧ b ≤ i.stop) ↔ ∀ x, a ≤ x → x < b → Covered l x := by
  constructor
  · rintro ⟨i, hfloor, hb⟩ x hax hxb
    obtain ⟨hi, hstart⟩ := mem_of_floor hfloor
    exact ⟨i, hi, hstart.trans hax, hxb.trans_le hb⟩
  · intro h
    obtain ⟨i, hi, ha⟩ := h a le_rfl hab
    exact ⟨i, floor_eq_of_mem hl hi ha, stop_le_of_covered hl hi ha h⟩

end Intervals
