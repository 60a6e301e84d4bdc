import RSDWServerAPI.Items

/-!
# Which item a name resolves to

`ListLoaded` (`engine/items.cpp`) collects the item assets among the game's objects and sorts
them by name. `FindItem` goes through that list once: it returns the first item whose name is
the search name or its `item_` form, ignoring case, and counts on the way the items that
contain the search name.

The README gives a priority: the full asset name, the name without `ITEM_`, a unique partial.
`Documented` says what that is, without an order of the items.

## Main results

* `findLoop_of_find`, `findLoop_of_none`: what the loop returns.
* `findsDocumented_iff`: **`FindItem` follows the documented priority exactly when no item
  of the full name is sorted behind the item of the `item_` form**.
-/

namespace RSDWServerAPI.DomItems

/-! ### The loaded items -/

/-- What `ListLoaded` reads of the game. -/
structure ObjectWorld where
  /-- `g_Engine` is set and initialised. -/
  initialized : Bool := true
  /-- `GetObjectByIndex` for the indexes below `GetObjectCount`. -/
  objects : List Ptr
  /-- `IsA` with the class name `ItemData`. -/
  isItemData : Ptr → Bool
  getObjectName : Ptr → Bytes
  /-- `Mem::ReadI32` at `kMaxStackSize`. -/
  readMaxStackSize : Ptr → Int32

/-- The body of the loop over the objects. -/
def itemOf (w : ObjectWorld) (object : Ptr) : Option ItemInfo :=
  if object = 0 then none
  else if !w.isItemData object then none
  else
    let name := w.getObjectName object
    if name = [] ∨ bytes "Default__" <+: name then none
    else some { name, object, maxStackSize := w.readMaxStackSize object }

/-- The items in the order of `GObjects`. -/
def loaded (w : ObjectWorld) : List ItemInfo :=
  if w.initialized then w.objects.filterMap (itemOf w) else []

/-- `ListLoaded`. `std::sort` may order items of one name differently. -/
def listLoaded (w : ObjectWorld) : List ItemInfo :=
  (loaded w).mergeSort fun a b => a.name ≤ b.name

/-! ### The search -/

/-- `partial`, `partialName` and `partialHits`. -/
structure PartialHits where
  object : Ptr := 0
  name : Bytes := []
  hits : ℕ := 0

/-- An item that contains the search name. -/
def PartialHits.note (p : PartialHits) (item : ItemInfo) : PartialHits :=
  { object := item.object, name := item.name, hits := p.hits + 1 }

/-- What is returned behind the loop, with `outResolvedName`. -/
def PartialHits.result (p : PartialHits) : Ptr × Bytes :=
  if p.hits = 1 then (p.object, p.name) else (0, [])

/-- The loop of `FindItem`. -/
def findLoop (wanted prefixed : Bytes) (p : PartialHits) : List ItemInfo → Ptr × Bytes
  | [] => p.result
  | item :: items =>
      let lowered := lower item.name
      if lowered = wanted ∨ lowered = prefixed then (item.object, item.name)
      else if (afterFirst wanted lowered).isSome then findLoop wanted prefixed (p.note item) items
      else findLoop wanted prefixed p items

/-- `bytes "item_"`, which `FindItem` puts in front of a name that does not start with it. -/
def itemMark : Bytes :=
  bytes "item_"

/-- `FindItem`: the item and `outResolvedName`. -/
def findItem (w : ObjectWorld) (name : Bytes) : Ptr × Bytes :=
  if name = [] then (0, [])
  else
    let wanted := lower name
    let prefixed := if itemMark <+: wanted then wanted else itemMark ++ wanted
    findLoop wanted prefixed {} (listLoaded w)

/-! ### The documented priority -/

/-- The item has the full name. -/
def IsFull (wanted : Bytes) (item : ItemInfo) : Prop :=
  lower item.name = wanted

/-- The item has the name behind its `ITEM_`. -/
def IsShort (wanted : Bytes) (item : ItemInfo) : Prop :=
  ¬ itemMark <+: wanted ∧ lower item.name = itemMark ++ wanted

/-- The name is a part of the name of the item. -/
def IsPart (wanted : Bytes) (item : ItemInfo) : Prop :=
  wanted <:+: lower item.name

/-- The item that the README promises for a search name, `none` for no item. -/
inductive Documented (items : List ItemInfo) (wanted : Bytes) : Option ItemInfo → Prop
  | full {item : ItemInfo} (hitem : item ∈ items) (h : IsFull wanted item) :
      Documented items wanted (some item)
  | short (hfull : ∀ i ∈ items, ¬ IsFull wanted i) {item : ItemInfo} (hitem : item ∈ items)
      (h : IsShort wanted item) : Documented items wanted (some item)
  | unique (hfull : ∀ i ∈ items, ¬ IsFull wanted i) (hshort : ∀ i ∈ items, ¬ IsShort wanted i)
      {item : ItemInfo} (hitem : item ∈ items) (h : IsPart wanted item)
      (honly : ∀ i ∈ items, IsPart wanted i → i = item) : Documented items wanted (some item)
  | nothing (hfull : ∀ i ∈ items, ¬ IsFull wanted i)
      (hshort : ∀ i ∈ items, ¬ IsShort wanted i)
      (hmany : ∀ item ∈ items, IsPart wanted item → ∃ i ∈ items, IsPart wanted i ∧ i ≠ item) :
      Documented items wanted none

/-- What `FindItem` answers for an item. -/
def answer (item : Option ItemInfo) : Ptr × Bytes :=
  item.elim (0, []) fun i => (i.object, i.name)

/-- The names of the items differ, ignoring case. -/
def Distinct (items : List ItemInfo) : Prop :=
  items.Pairwise fun a b => lower a.name ≠ lower b.name

instance (items : List ItemInfo) : Decidable (Distinct items) :=
  inferInstanceAs (Decidable (items.Pairwise _))

/-- `FindItem` answers with the documented item. -/
def FindsDocumented (w : ObjectWorld) (name : Bytes) : Prop :=
  ∃ item, Documented (loaded w) (lower name) item ∧ findItem w name = answer item

/-- An item with the full name and one with the `ITEM_` form are both loaded, and the second
one is sorted in front. -/
def Shadowed (items : List ItemInfo) (wanted : Bytes) : Prop :=
  ∃ full ∈ items, IsFull wanted full ∧
    ∃ short ∈ items, IsShort wanted short ∧ short.name < full.name

/-! ### What the loop returns -/

/-- The condition under which the loop returns early. -/
def isForm (wanted prefixed : Bytes) (item : ItemInfo) : Bool :=
  lower item.name = wanted ∨ lower item.name = prefixed

/-- The condition under which it counts the item. -/
def isPart (wanted : Bytes) (item : ItemInfo) : Bool :=
  (afterFirst wanted (lower item.name)).isSome

/-- The check for a partial match. -/
theorem isPart_iff {wanted : Bytes} {item : ItemInfo} :
    isPart wanted item = true ↔ IsPart wanted item :=
  afterFirst_isSome_iff

/-- **Early return**: the first item in one of the two forms is returned. -/
theorem findLoop_of_find {wanted prefixed : Bytes} {items : List ItemInfo} {item : ItemInfo}
    (h : items.find? (isForm wanted prefixed) = some item) (p : PartialHits) :
    findLoop wanted prefixed p items = answer (some item) := by
  induction items generalizing p with
  | nil => simp at h
  | cons i items ih =>
      rw [findLoop]
      by_cases hform : lower i.name = wanted ∨ lower i.name = prefixed
      · rw [List.find?_cons_of_pos (by simpa [isForm] using hform)] at h
        obtain rfl := Option.some.inj h
        exact if_pos hform
      · rw [List.find?_cons_of_neg (by simpa [isForm] using hform)] at h
        rw [if_neg hform, ih h, ih h, ite_self]

/-- Without an early return the loop notes each item that contains the search name. -/
theorem findLoop_of_none {wanted prefixed : Bytes} {items : List ItemInfo}
    (h : ∀ item ∈ items, isForm wanted prefixed item = false) (p : PartialHits) :
    findLoop wanted prefixed p items =
      ((items.filter (isPart wanted)).foldl PartialHits.note p).result := by
  induction items generalizing p with
  | nil => rfl
  | cons i items ih =>
      simp only [List.mem_cons, forall_eq_or_imp] at h
      have hform : ¬ (lower i.name = wanted ∨ lower i.name = prefixed) := by
        simpa [isForm] using h.1
      rw [findLoop, if_neg hform]
      by_cases hpart : isPart wanted i = true
      · rw [List.filter_cons_of_pos hpart, List.foldl_cons]
        exact (if_pos hpart).trans (ih h.2 _)
      · rw [List.filter_cons_of_neg hpart]
        exact (if_neg hpart).trans (ih h.2 p)

/-- Every item that is noted is a hit. -/
theorem hits_foldl_note (items : List ItemInfo) (p : PartialHits) :
    (items.foldl PartialHits.note p).hits = p.hits + items.length := by
  induction items generalizing p with
  | nil => rfl
  | cons item items ih =>
      rw [List.foldl_cons, ih, List.length_cons, PartialHits.note]
      dsimp only
      omega

/-- One item noted is the answer, none or several are not. -/
theorem result_foldl_note (items : List ItemInfo) :
    (items.foldl PartialHits.note {}).result =
      match items with
      | [item] => answer (some item)
      | _ => answer none := by
  match items with
  | [] => rfl
  | [item] => rfl
  | a :: b :: items =>
      have hhits := hits_foldl_note (a :: b :: items) {}
      rw [PartialHits.result, if_neg (by simp only [hhits, List.length_cons]; omega)]
      rfl

/-! ### The order of the list -/

/-- Sorting leaves the items the same. -/
theorem mem_listLoaded {w : ObjectWorld} {item : ItemInfo} :
    item ∈ listLoaded w ↔ item ∈ loaded w :=
  List.mem_mergeSort

/-- The items are sorted by name. -/
theorem listLoaded_sorted (w : ObjectWorld) :
    (listLoaded w).Pairwise fun a b => a.name ≤ b.name := by
  have hsorted : (listLoaded w).Pairwise fun a b => decide (a.name ≤ b.name) = true := by
    refine List.pairwise_mergeSort ?_ ?_ (loaded w)
    · intro a b c hab hbc
      simp only [decide_eq_true_eq] at hab hbc ⊢
      exact List.le_trans hab hbc
    · intro a b
      simpa using List.le_total a.name b.name
  exact hsorted.imp of_decide_eq_true

/-- What is found first in a sorted list comes before everything else that could be found. -/
theorem find_le_of_sorted {items : List ItemInfo} {q : ItemInfo → Bool} {item : ItemInfo}
    (hsorted : items.Pairwise fun a b => a.name ≤ b.name) (h : items.find? q = some item) :
    ∀ i ∈ items, q i = true → item.name ≤ i.name := by
  intro i hi hq
  obtain ⟨-, front, behind, rfl, hfront⟩ := List.find?_eq_some_iff_append.mp h
  rcases List.mem_append.mp hi with hi | hi
  · exact absurd hq (by simpa using hfront i hi)
  · rcases List.mem_cons.mp hi with rfl | hi
    · exact List.le_refl i.name
    · have hbehind := (List.pairwise_append.mp hsorted).2.1
      exact List.rel_of_pairwise_cons hbehind hi

/-- Items that differ in name, ignoring case, are told apart by their lowered names. -/
theorem Distinct.eq {items : List ItemInfo} (h : Distinct items) {a b : ItemInfo}
    (ha : a ∈ items) (hb : b ∈ items) (hab : lower a.name = lower b.name) : a = b := by
  have hsymm : Std.Symm fun a b : ItemInfo => lower a.name ≠ lower b.name :=
    ⟨fun _ _ hne => hne.symm⟩
  by_contra hne
  exact List.Pairwise.forall h ha hb hne hab

/-- **What the early return picks**, if anything: an item of one of the forms, and none of them
is in front of it. -/
theorem find_listLoaded {w : ObjectWorld} {q : ItemInfo → Bool} {item : ItemInfo}
    (h : (listLoaded w).find? q = some item) :
    item ∈ loaded w ∧ q item = true ∧ ∀ i ∈ loaded w, q i = true → item.name ≤ i.name :=
  ⟨mem_listLoaded.mp (List.mem_of_find?_eq_some h), List.find?_some h,
    fun i hi => find_le_of_sorted (listLoaded_sorted w) h i (mem_listLoaded.mpr hi)⟩

/-! ### The priority -/

/-- The forms that the loop returns early for are the full name and the `ITEM_` form. -/
theorem isForm_iff {wanted : Bytes} {item : ItemInfo} :
    isForm wanted (if itemMark <+: wanted then wanted else itemMark ++ wanted) item = true ↔
      IsFull wanted item ∨ IsShort wanted item := by
  by_cases hmark : itemMark <+: wanted
  · simp [isForm, IsFull, IsShort, hmark]
  · simp [isForm, IsFull, IsShort, hmark]

/-- The two forms are different names. -/
theorem IsShort.not_isFull {wanted : Bytes} {item : ItemInfo} (h : IsShort wanted item) :
    ¬ IsFull wanted item := by
  intro hfull
  have hlength := congrArg List.length (hfull.symm.trans h.2)
  rw [List.length_append] at hlength
  have : itemMark.length = 5 := by decide
  omega

/-- The items that the loop counts, each once. -/
theorem hits_listLoaded {w : ObjectWorld} (hdistinct : Distinct (loaded w)) (wanted : Bytes) :
    ((listLoaded w).filter (isPart wanted)).Nodup ∧
      ∀ i, i ∈ (listLoaded w).filter (isPart wanted) ↔ i ∈ loaded w ∧ IsPart wanted i := by
  constructor
  · have hnodup : (loaded w).Nodup :=
      hdistinct.imp fun hne heq => hne (congrArg (fun i : ItemInfo => lower i.name) heq)
    exact ((List.mergeSort_perm _ _).nodup_iff.mpr hnodup).filter _
  · intro i
    rw [List.mem_filter, mem_listLoaded, isPart_iff]

/-- When no loaded item has one of the two forms, the items that contain the name decide. -/
theorem documented_of_no_form {w : ObjectWorld} (hdistinct : Distinct (loaded w)) {wanted : Bytes}
    (hfull : ∀ i ∈ loaded w, ¬ IsFull wanted i) (hshort : ∀ i ∈ loaded w, ¬ IsShort wanted i) :
    ∃ item, Documented (loaded w) wanted item ∧
      (((listLoaded w).filter (isPart wanted)).foldl PartialHits.note {}).result =
        answer item := by
  obtain ⟨hnodup, hmem⟩ := hits_listLoaded hdistinct wanted
  rw [result_foldl_note]
  match hhits : (listLoaded w).filter (isPart wanted) with
  | [] =>
      refine ⟨none, .nothing hfull hshort fun item hitem hpart => ?_, rfl⟩
      have := (hmem item).mpr ⟨hitem, hpart⟩
      rw [hhits] at this
      exact absurd this List.not_mem_nil
  | [item] =>
      simp only [hhits, List.mem_singleton] at hmem
      obtain ⟨hitem, hpart⟩ := (hmem item).mp rfl
      exact ⟨some item, .unique hfull hshort hitem hpart fun i hi hp => (hmem i).mpr ⟨hi, hp⟩,
        rfl⟩
  | a :: b :: items =>
      rw [hhits] at hnodup
      have hne : a ≠ b := fun heq => (List.nodup_cons.mp hnodup).1 (heq ▸ List.mem_cons_self)
      obtain ⟨ha, hapart⟩ := (hmem a).mp (by simp [hhits])
      obtain ⟨hb, hbpart⟩ := (hmem b).mp (by simp [hhits])
      refine ⟨none, .nothing hfull hshort fun item _ _ => ?_, rfl⟩
      by_cases heq : item = a
      · exact ⟨b, hb, hbpart, fun hb => hne (heq ▸ hb.symm)⟩
      · exact ⟨a, ha, hapart, fun ha => heq ha.symm⟩

/-- Whatever is documented for a name that an item has in full is that item. -/
theorem Documented.eq_of_isFull {items : List ItemInfo} (hdistinct : Distinct items)
    {wanted : Bytes} {item : Option ItemInfo} (h : Documented items wanted item) {f : ItemInfo}
    (hf : f ∈ items) (hfull : IsFull wanted f) : item = some f := by
  cases h with
  | full hitem h => exact congrArg some (hdistinct.eq hitem hf (h.trans hfull.symm))
  | short hnone _ _ => exact absurd hfull (hnone f hf)
  | unique hnone _ _ _ _ => exact absurd hfull (hnone f hf)
  | nothing hnone _ _ => exact absurd hfull (hnone f hf)

/-- The loop answers for the first item in one of the two forms. -/
theorem findItem_of_find {w : ObjectWorld} {name : Bytes} (hname : name ≠ []) {item : ItemInfo}
    (h : (listLoaded w).find? (isForm (lower name)
      (if itemMark <+: lower name then lower name else itemMark ++ lower name)) = some item) :
    findItem w name = answer (some item) := by
  rw [findItem, if_neg hname]
  exact findLoop_of_find h {}

/-- Without an item in one of the two forms it answers for the items counted. -/
theorem findItem_of_no_form {w : ObjectWorld} {name : Bytes} (hname : name ≠ [])
    (hfull : ∀ i ∈ loaded w, ¬ IsFull (lower name) i)
    (hshort : ∀ i ∈ loaded w, ¬ IsShort (lower name) i) :
    findItem w name =
      (((listLoaded w).filter (isPart (lower name))).foldl PartialHits.note {}).result := by
  rw [findItem, if_neg hname]
  refine findLoop_of_none (fun item hitem => ?_) {}
  have hitem := mem_listLoaded.mp hitem
  rw [← Bool.not_eq_true, isForm_iff]
  exact not_or.mpr ⟨hfull item hitem, hshort item hitem⟩

/-- **`FindItem` follows the documented priority exactly when the full name is not shadowed.**
For every collection of loaded items whose names differ, ignoring case, in any order, and for
every search name that is not empty. -/
theorem findsDocumented_iff {w : ObjectWorld} (hdistinct : Distinct (loaded w)) {name : Bytes}
    (hname : name ≠ []) : FindsDocumented w name ↔ ¬ Shadowed (loaded w) (lower name) := by
  cases hfind : (listLoaded w).find? (isForm (lower name)
      (if itemMark <+: lower name then lower name else itemMark ++ lower name)) with
  | none =>
      have hnone : ∀ i ∈ loaded w, ¬ (IsFull (lower name) i ∨ IsShort (lower name) i) := by
        intro i hi
        rw [← isForm_iff]
        exact List.find?_eq_none.mp hfind i (mem_listLoaded.mpr hi)
      have hfull := fun i hi => (not_or.mp (hnone i hi)).1
      have hshort := fun i hi => (not_or.mp (hnone i hi)).2
      obtain ⟨item, hdoc, hresult⟩ := documented_of_no_form hdistinct hfull hshort
      refine iff_of_true ⟨item, hdoc, ?_⟩ fun ⟨f, hf, hisFull, _⟩ => hfull f hf hisFull
      rw [findItem_of_no_form hname hfull hshort, hresult]
  | some item =>
      have hanswer := findItem_of_find hname hfind
      obtain ⟨hitem, hform, hfirst⟩ := find_listLoaded hfind
      rcases isForm_iff.mp hform with hfull | hshort
      · refine iff_of_true ⟨some item, .full hitem hfull, hanswer⟩ ?_
        rintro ⟨f, hf, hisFull, i, hi, hisShort, hlt⟩
        obtain rfl := hdistinct.eq hitem hf (hfull.trans hisFull.symm)
        exact List.not_le.mpr hlt (hfirst i hi (isForm_iff.mpr (.inr hisShort)))
      · by_cases hall : ∀ i ∈ loaded w, ¬ IsFull (lower name) i
        · exact iff_of_true ⟨some item, .short hall hitem hshort, hanswer⟩
            fun ⟨f, hf, hisFull, _⟩ => hall f hf hisFull
        · push Not at hall
          obtain ⟨f, hf, hisFull⟩ := hall
          have hne : item.name ≠ f.name := fun heq =>
            hshort.not_isFull ((congrArg lower heq).trans hisFull)
          have hle : item.name ≤ f.name := hfirst f hf (isForm_iff.mpr (.inl hisFull))
          have hlt : item.name < f.name := 
            List.not_le.mp fun hge => hne (List.le_antisymm hle hge)
          refine iff_of_false ?_ (not_not.mpr ⟨f, hf, hisFull, item, hitem, hshort, hlt⟩)
          rintro ⟨d, hdoc, hfound⟩
          rw [hdoc.eq_of_isFull hdistinct hf hisFull, hanswer] at hfound
          exact hne (congrArg Prod.snd hfound)

/-- The item assets `ITEM_Bar`, at 1, and `bar`, at 2. -/
def twoBars : ObjectWorld where
  objects := [1, 2]
  isItemData _ := true
  getObjectName object := if object = 1 then bytes "ITEM_Bar" else bytes "bar"
  readMaxStackSize _ := 1

/-- With both of them loaded. -/
theorem findsDocumented_iff_twoBars :
    Distinct (loaded twoBars) ∧
      (FindsDocumented twoBars (bytes "BA") ↔ ¬ Shadowed (loaded twoBars) (lower (bytes "BA"))) :=
  have hdistinct : Distinct (loaded twoBars) := by decide
  ⟨hdistinct, findsDocumented_iff hdistinct (by decide)⟩

/-- The search for `bar` ends at `ITEM_Bar`. -/
theorem not_findsDocumented_twoBars :
    Distinct (loaded twoBars) ∧ findItem twoBars (bytes "bar") = (1, bytes "ITEM_Bar") ∧
      ¬ FindsDocumented twoBars (bytes "bar") := by
  have hdistinct : Distinct (loaded twoBars) := by decide
  have hsorted : listLoaded twoBars = loaded twoBars :=
    List.mergeSort_of_pairwise (by decide)
  have hfound : findItem twoBars (bytes "bar") = (1, bytes "ITEM_Bar") := by
    rw [findItem, hsorted]
    decide
  refine ⟨hdistinct, hfound, fun ⟨item, hdoc, hanswer⟩ => ?_⟩
  have hitem : item = some { name := bytes "bar", object := 2, maxStackSize := 1 } :=
    hdoc.eq_of_isFull hdistinct (by decide) rfl
  rw [hfound, hitem] at hanswer
  exact absurd hanswer (by decide)

end RSDWServerAPI.DomItems
