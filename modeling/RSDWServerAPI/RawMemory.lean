import Mathlib.Data.List.Forall2
import Mathlib.Data.Nat.Digits.Lemmas

/-!
# Programs that read raw memory

A program that follows addresses ends with a signal when it reads where nothing is mapped. Such
a program is a computation in `Except Fault`: `load` gives the bytes at an address, or the fault.

The first part has the rules for computations that may stop with an error, of any kind: `Runs x Q`
says that `x` comes to an end with a result that has the property `Q`. The second part is about a
memory of bytes, and the numbers that are stored in it, the least significant byte first.

## Main results

* `Runs.bind`, `Runs.foldlM`: a sequence of statements, and a loop with an invariant.
* `findSomeM?_eq_ok`, `mapM_eq_ok`, `foldlM_filterMap`, `foldlM_eq_ok`: a loop whose body never
  stops with an error is the loop over lists.
* `load_of_mapped`: a range is loaded if all of it is mapped.
* `load_sub`: a part of a mapped range is loaded as that part of its contents.
* `sameText_buffer`: a text in a buffer is compared without a fault if there is a NUL behind it.
* `load_overlay`, `load_overlay_of_disjoint`: **what a store changes**, and what it leaves.
* `number_bytesOf`: **a number is read back as it was stored**.
-/

namespace RSDWServerAPI.RawMemory

/-! ### Computations that can stop with an error -/

section Runs

universe u v

variable {ε : Type v} {α β : Type u}

/-- The computation comes to an end, with a result that has the property. -/
def Runs (x : Except ε α) (Q : α → Prop) : Prop :=
  ∃ a, x = .ok a ∧ Q a

/-- A sequence goes on with the result of its first part. -/
@[simp] theorem ok_bind (a : α) (f : α → Except ε β) : (Except.ok a >>= f) = f a :=
  rfl

/-- A result is mapped. -/
@[simp] theorem map_ok (f : α → β) (a : α) : (f <$> (Except.ok a : Except ε α)) = .ok (f a) :=
  rfl

/-- `pure` is a computation that has come to its end. -/
@[simp] theorem pure_eq_ok (a : α) : (pure a : Except ε α) = .ok a :=
  rfl

/-- The result of a computation that comes to an end. -/
def result [Inhabited α] : Except ε α → α
  | .ok a => a
  | .error _ => default

/-- The result of a computation that has come to its end. -/
@[simp] theorem result_ok [Inhabited α] (a : α) : result (.ok a : Except ε α) = a :=
  rfl

/-- A computation that has come to its end has the properties of its result. -/
@[simp] theorem runs_ok {a : α} {Q : α → Prop} : Runs (.ok a : Except ε α) Q ↔ Q a := by
  constructor
  · rintro ⟨b, hb, hQ⟩
    obtain rfl : a = b := Except.ok.inj hb
    exact hQ
  · exact fun h => ⟨a, rfl, h⟩

/-- A weaker property of the result. -/
theorem Runs.mono {x : Except ε α} {Q R : α → Prop} (h : Runs x Q) (hQ : ∀ a, Q a → R a) :
    Runs x R := by
  obtain ⟨a, ha, hq⟩ := h
  exact ⟨a, ha, hQ a hq⟩

/-- A computation that comes to an end is its result. -/
theorem Runs.eq_ok [Inhabited α] {x : Except ε α} {Q : α → Prop} (h : Runs x Q) :
    x = .ok (result x) := by
  obtain ⟨a, rfl, -⟩ := h
  rfl

/-- A case distinction. -/
theorem Runs.ite {c : Prop} [Decidable c] {x y : Except ε α} {Q : α → Prop}
    (hx : c → Runs x Q) (hy : ¬ c → Runs y Q) : Runs (if c then x else y) Q := by
  by_cases h : c
  · rw [if_pos h]
    exact hx h
  · rw [if_neg h]
    exact hy h

/-- A check that returns `false` early. -/
theorem guard_eq_ok_true {c : Prop} [Decidable c] {x : Except ε Bool} :
    (if c then pure false else x) = .ok true ↔ ¬ c ∧ x = .ok true := by
  by_cases h : c
  · simp [h]
  · simp [h]

/-- **Sequence rule.** -/
theorem Runs.bind {x : Except ε α} {f : α → Except ε β} {Q : α → Prop} {R : β → Prop}
    (hx : Runs x Q) (hf : ∀ a, Q a → Runs (f a) R) : Runs (x >>= f) R := by
  obtain ⟨a, rfl, ha⟩ := hx
  exact hf a ha

/-- **Loop rule**: an invariant of the elements that are done and of the state. -/
theorem Runs.foldlM {f : β → α → Except ε β} {I : List α → β → Prop} {b : β} {l : List α}
    (h : I [] b) (hstep : ∀ done a b, a ∈ l → I done b → Runs (f b a) (I (done ++ [a]))) :
    Runs (l.foldlM f b) (I l) := by
  induction l using List.reverseRecOn with
  | nil => exact runs_ok.mpr h
  | append_singleton l a ih =>
      rw [List.foldlM_append]
      have hfront := ih fun done c b hc => hstep done c b (List.mem_append_left [a] hc)
      refine hfront.bind fun c hc => ?_
      rw [List.foldlM_cons]
      exact (hstep l a c (by simp) hc).bind fun d hd => runs_ok.mpr hd

/-- A search that does not stop with an error on the way. -/
theorem findSomeM?_eq_ok {f : α → Except ε (Option β)} {g : α → Option β} {l : List α}
    (h : ∀ a ∈ l, f a = .ok (g a)) : l.findSomeM? f = .ok (l.findSome? g) := by
  induction l with
  | nil => rfl
  | cons a l ih =>
      have hrest := ih fun b hb => h b (List.mem_cons_of_mem a hb)
      rw [List.findSomeM?_cons, h a List.mem_cons_self, ok_bind, List.findSome?_cons]
      cases g a with
      | none => exact hrest
      | some b => rfl

/-- A loop that changes every element, and does not stop with an error on the way. -/
theorem mapM_eq_ok {f : α → Except ε β} {g : α → β} {l : List α} (h : ∀ a ∈ l, f a = .ok (g a)) :
    l.mapM f = .ok (l.map g) := by
  induction l with
  | nil => rfl
  | cons a l ih =>
      have hrest := ih fun b hb => h b (List.mem_cons_of_mem a hb)
      rw [List.mapM_cons, h a List.mem_cons_self, ok_bind, hrest, ok_bind, pure_eq_ok,
        List.map_cons]

/-- A loop that appends what it finds at an element, if it finds something. -/
theorem foldlM_filterMap {f : List β → α → Except ε (List β)} {g : α → Option β} {l : List α}
    (h : ∀ a ∈ l, ∀ bs, f bs a = .ok (bs ++ (g a).toList)) (bs : List β) :
    l.foldlM f bs = .ok (bs ++ l.filterMap g) := by
  induction l generalizing bs with
  | nil => rw [List.filterMap_nil, List.append_nil, List.foldlM_nil, pure_eq_ok]
  | cons a l ih =>
      rw [List.foldlM_cons, h a List.mem_cons_self, ok_bind,
        ih fun c hc => h c (List.mem_cons_of_mem a hc), List.append_assoc]
      cases hfound : g a with
      | none => rw [List.filterMap_cons_none hfound, Option.toList_none, List.nil_append]
      | some b => rw [List.filterMap_cons_some hfound, Option.toList_some, List.singleton_append]

/-- A loop over a state that does not stop with an error on the way. -/
theorem foldlM_eq_ok {f : β → α → Except ε β} {g : β → α → β} {l : List α}
    (h : ∀ a ∈ l, ∀ b, f b a = .ok (g b a)) (b : β) : l.foldlM f b = .ok (l.foldl g b) := by
  induction l generalizing b with
  | nil => rfl
  | cons a l ih =>
      rw [List.foldlM_cons, h a List.mem_cons_self, ok_bind, List.foldl_cons]
      exact ih (fun c hc => h c (List.mem_cons_of_mem a hc)) (g b a)

end Runs

/-! ### Memory -/

/-- The bytes of an address space; `none` where nothing is mapped. -/
abbrev ByteMemory := ℕ → Option UInt8

/-- The access that ends the process. -/
structure Fault where
  address : ℕ
  size : ℕ
  deriving DecidableEq, Repr

/-- All of a range is mapped. -/
def Mapped (mem : ByteMemory) (a n : ℕ) : Prop :=
  ∀ i < n, (mem (a + i)).isSome = true

instance (mem : ByteMemory) (a n : ℕ) : Decidable (Mapped mem a n) :=
  inferInstanceAs (Decidable (∀ i < n, (mem (a + i)).isSome = true))

/-- The bytes of a mapped range. -/
def contents (mem : ByteMemory) (a n : ℕ) : List UInt8 :=
  (List.range n).map fun i => (mem (a + i)).getD 0

/-- A read of a range. -/
def load (mem : ByteMemory) (a n : ℕ) : Except Fault (List UInt8) :=
  if Mapped mem a n then .ok (contents mem a n) else .error ⟨a, n⟩

/-- A range has as many bytes as it says. -/
@[simp] theorem length_contents (mem : ByteMemory) (a n : ℕ) :
    (contents mem a n).length = n := by
  rw [contents, List.length_map, List.length_range]

/-- A byte of a range is the byte of the memory at its place. -/
theorem getElem?_contents {mem : ByteMemory} {a n i : ℕ} (h : i < n) :
    (contents mem a n)[i]? = some ((mem (a + i)).getD 0) := by
  rw [contents, List.getElem?_map, List.getElem?_range h, Option.map_some]

/-- A mapped range is loaded. -/
theorem load_of_mapped {mem : ByteMemory} {a n : ℕ} (h : Mapped mem a n) :
    load mem a n = .ok (contents mem a n) :=
  if_pos h

/-- A part of a mapped range is mapped. -/
theorem Mapped.sub {mem : ByteMemory} {a n : ℕ} (h : Mapped mem a n) {i k : ℕ}
    (hk : i + k ≤ n) : Mapped mem (a + i) k := by
  intro j hj
  have hij := h (i + j) (by omega)
  rwa [← Nat.add_assoc] at hij

/-- A part of a range has that part of the contents. -/
theorem contents_sub (mem : ByteMemory) (a : ℕ) {n i k : ℕ} (hk : i + k ≤ n) :
    contents mem (a + i) k = ((contents mem a n).drop i).take k := by
  refine List.ext_getElem? fun j => ?_
  by_cases hj : j < k
  · rw [getElem?_contents hj, List.getElem?_take_of_lt hj, List.getElem?_drop,
      getElem?_contents (by omega), Nat.add_assoc]
  · rw [List.getElem?_eq_none (by simpa using hj), List.getElem?_eq_none]
    rw [List.length_take]
    omega

/-- Two ranges beside each other are one range. -/
theorem contents_append (mem : ByteMemory) (a m n : ℕ) :
    contents mem a (m + n) = contents mem a m ++ contents mem (a + m) n := by
  rw [contents, List.range_add, List.map_append, List.map_map]
  simp only [contents, Function.comp_def, Nat.add_assoc]

/-- A part of a mapped range is loaded as that part of its contents. -/
theorem load_sub {mem : ByteMemory} {a n : ℕ} (h : Mapped mem a n) {i k : ℕ} (hk : i + k ≤ n) :
    load mem (a + i) k = .ok (((contents mem a n).drop i).take k) := by
  rw [load_of_mapped (h.sub hk), contents_sub mem a hk]

/-! ### Buffers -/

/-- The memory that has one buffer in it, from address `0` on. -/
def buffer (bs : List UInt8) : ByteMemory := fun a => bs[a]?

/-- All of a buffer is mapped. -/
theorem mapped_buffer {bs : List UInt8} {a n : ℕ} (h : a + n ≤ bs.length) :
    Mapped (buffer bs) a n := by
  intro i hi
  rw [buffer, List.getElem?_eq_getElem (by omega)]
  rfl

/-- A part of a buffer is read. -/
theorem load_buffer {bs : List UInt8} {a n : ℕ} (h : a + n ≤ bs.length) :
    load (buffer bs) a n = .ok ((bs.drop a).take n) := by
  rw [load_of_mapped (mapped_buffer h)]
  congr 1
  refine List.ext_getElem? fun i => ?_
  by_cases hi : i < n
  · rw [getElem?_contents hi, List.getElem?_take_of_lt hi, List.getElem?_drop, buffer,
      List.getElem?_eq_getElem (by omega), Option.getD_some]
  · rw [List.getElem?_eq_none (by simpa using hi), List.getElem?_eq_none]
    rw [List.length_take]
    omega

/-- A read behind the end of a buffer is a fault. -/
theorem load_buffer_of_lt {bs : List UInt8} {a n : ℕ} (hn : 0 < n) (h : bs.length < a + n) :
    load (buffer bs) a n = .error ⟨a, n⟩ := by
  rw [load, if_neg]
  intro hmapped
  have hlast := hmapped (n - 1) (by omega)
  rw [buffer, List.getElem?_eq_none (by omega)] at hlast
  cases hlast

/-! ### Texts that end with a NUL -/

/-- `strcmp` of the text at an address with a text that has no NUL in it, up to the first
difference: whether they are the same. -/
def sameText (mem : ByteMemory) : ℕ → List UInt8 → Except Fault Bool
  | a, [] => do return (← load mem a 1) == [0]
  | a, c :: text => do
      if (← load mem a 1) ≠ [c] then return false
      sameText mem (a + 1) text

/-- **A text is compared without a fault** if there is a NUL in the buffer behind its beginning. -/
theorem sameText_buffer {bs text : List UInt8} {a : ℕ} (htext : 0 ∉ text)
    (hnul : 0 ∈ bs.drop a) :
    sameText (buffer bs) a text = .ok (((bs.drop a).takeWhile fun c => c ≠ 0) == text) := by
  induction text generalizing a with
  | nil =>
      obtain ⟨d, rest, hdrop⟩ := List.exists_cons_of_ne_nil (List.ne_nil_of_mem hnul)
      have hlength : (bs.drop a).length = rest.length + 1 := by rw [hdrop, List.length_cons]
      rw [List.length_drop] at hlength
      rw [sameText, load_buffer (by omega), ok_bind, hdrop, pure_eq_ok]
      congr 1
      by_cases hd : d = 0
      · simp [hd]
      · simp [hd]
  | cons c text ih =>
      have hc : c ≠ 0 := fun heq => htext (heq ▸ List.mem_cons_self)
      have hrest : 0 ∉ text := fun h => htext (List.mem_cons_of_mem c h)
      obtain ⟨d, rest, hdrop⟩ := List.exists_cons_of_ne_nil (List.ne_nil_of_mem hnul)
      have hlength : (bs.drop a).length = rest.length + 1 := by rw [hdrop, List.length_cons]
      rw [List.length_drop] at hlength
      have hnext : bs.drop (a + 1) = rest := by
        rw [← List.drop_drop, hdrop, List.drop_one, List.tail_cons]
      rw [sameText, load_buffer (by omega), ok_bind, hdrop, List.take_succ_cons, List.take_zero]
      by_cases hd : d = c
      · rw [hd] at hdrop
        have hbehind : 0 ∈ bs.drop (a + 1) := by
          rw [hdrop] at hnul
          rw [hnext]
          exact (List.mem_cons.mp hnul).resolve_left (Ne.symm hc)
        rw [hd, if_neg (not_not.mpr rfl), ih hrest hbehind, hnext,
          List.takeWhile_cons_of_pos (by simpa using hc)]
        simp
      · rw [if_pos (by simpa using hd), pure_eq_ok]
        congr 1
        by_cases hzero : d = 0
        · simp [hzero]
        · simp [hzero, hd]

/-! ### Stores -/

/-- The memory with some bytes in it instead of those that were there. -/
def overlay (mem : ByteMemory) (a : ℕ) (bs : List UInt8) : ByteMemory := fun i =>
  if a ≤ i ∧ i < a + bs.length then bs[i - a]? else mem i

/-- A write of some bytes. -/
def store (mem : ByteMemory) (a : ℕ) (bs : List UInt8) : Except Fault ByteMemory :=
  if Mapped mem a bs.length then .ok (overlay mem a bs) else .error ⟨a, bs.length⟩

section Stores

variable {mem : ByteMemory} {a b n : ℕ} {bs : List UInt8}

/-- Where something was stored, that is found. -/
theorem overlay_inside {i : ℕ} (hi : i < bs.length) : overlay mem a bs (a + i) = bs[i]? := by
  rw [overlay, if_pos (by omega), Nat.add_sub_cancel_left]

/-- Anywhere else the memory is as before. -/
theorem overlay_outside {i : ℕ} (hi : i < a ∨ a + bs.length ≤ i) :
    overlay mem a bs i = mem i := by
  rw [overlay, if_neg (by omega)]

/-- What was mapped is mapped. -/
theorem Mapped.overlay (h : Mapped mem b n) : Mapped (overlay mem a bs) b n := by
  intro i hi
  by_cases hin : a ≤ b + i ∧ b + i < a + bs.length
  · obtain ⟨k, hk⟩ := Nat.exists_eq_add_of_le hin.1
    rw [hk, overlay_inside (by omega), List.getElem?_eq_getElem (by omega)]
    rfl
  · rw [overlay_outside (by omega)]
    exact h i hi

/-- What has been stored is read back. -/
theorem load_overlay (h : Mapped mem a bs.length) :
    load (overlay mem a bs) a bs.length = .ok bs := by
  rw [load_of_mapped h.overlay]
  congr 1
  refine List.ext_getElem? fun i => ?_
  by_cases hi : i < bs.length
  · rw [getElem?_contents hi, overlay_inside hi, List.getElem?_eq_getElem hi, Option.getD_some]
  · rw [List.getElem?_eq_none (by simpa using hi), List.getElem?_eq_none (by omega)]

/-- Any other range is as before. -/
theorem load_overlay_of_disjoint (h : a + bs.length ≤ b ∨ b + n ≤ a) :
    load (overlay mem a bs) b n = load mem b n := by
  have hsame : ∀ i < n, overlay mem a bs (b + i) = mem (b + i) := fun i hi =>
    overlay_outside (by omega)
  have hcontents : contents (overlay mem a bs) b n = contents mem b n :=
    List.map_congr_left fun i hi => by rw [hsame i (List.mem_range.mp hi)]
  by_cases hmapped : Mapped mem b n
  · rw [load_of_mapped hmapped, load_of_mapped hmapped.overlay, hcontents]
  · rw [load, load, if_neg hmapped, if_neg]
    exact fun hm => hmapped fun i hi => hsame i hi ▸ hm i hi

/-- A write to a mapped range goes through. -/
theorem store_of_mapped (h : Mapped mem a bs.length) : store mem a bs = .ok (overlay mem a bs) :=
  if_pos h

end Stores

/-! ### Numbers -/

/-- The number that bytes stand for, the least significant one first. -/
def number (bs : List UInt8) : ℕ :=
  Nat.ofDigits 256 (bs.map UInt8.toNat)

/-- The bytes that a number is stored as, as many as it is given. -/
def bytesOf : ℕ → ℕ → List UInt8
  | 0, _ => []
  | width + 1, n => UInt8.ofNat n :: bytesOf width (n / 256)

/-- No bytes stand for zero. -/
@[simp] theorem number_nil : number [] = 0 :=
  rfl

/-- The first byte is the least significant one. -/
theorem number_cons (b : UInt8) (bs : List UInt8) :
    number (b :: bs) = b.toNat + 256 * number bs := by
  rw [number, List.map_cons, Nat.ofDigits_cons, number]

/-- The bytes bound the number that they stand for. -/
theorem number_lt (bs : List UInt8) : number bs < 256 ^ bs.length := by
  have h : ∀ x ∈ bs.map UInt8.toNat, x < 256 := by
    intro x hx
    obtain ⟨b, -, rfl⟩ := List.mem_map.mp hx
    exact b.toNat_lt
  have hlt := Nat.ofDigits_lt_base_pow_length (by omega) h
  rwa [List.length_map] at hlt

/-- A number is stored in as many bytes as it is given. -/
@[simp] theorem length_bytesOf (width n : ℕ) : (bytesOf width n).length = width := by
  induction width generalizing n with
  | zero => rfl
  | succ width ih => rw [bytesOf, List.length_cons, ih]

/-- **A number is read back as it was stored**, as far as there is room for it. -/
theorem number_bytesOf (width n : ℕ) : number (bytesOf width n) = n % 256 ^ width := by
  induction width generalizing n with
  | zero => rw [bytesOf, number_nil, Nat.pow_zero, Nat.mod_one]
  | succ width ih =>
      have hlow : (UInt8.ofNat n).toNat = n % 256 := UInt8.toNat_ofNat'
      rw [bytesOf, number_cons, ih, hlow, Nat.pow_succ', Nat.mod_mul]

/-- Bytes are stored for the number that they stand for. -/
theorem bytesOf_number (bs : List UInt8) : bytesOf bs.length (number bs) = bs := by
  induction bs with
  | nil => rfl
  | cons b bs ih =>
      have hb := b.toNat_lt
      have hlow : UInt8.ofNat (b.toNat + 256 * number bs) = b := by
        apply UInt8.toNat.inj
        rw [UInt8.toNat_ofNat']
        omega
      have hhigh : (b.toNat + 256 * number bs) / 256 = number bs := by
        omega
      rw [number_cons, List.length_cons, bytesOf, hlow, hhigh, ih]

/-- Bytes of one length are the same if they stand for the same number. -/
theorem number_inj {as bs : List UInt8} (hlen : as.length = bs.length)
    (h : number as = number bs) : as = bs := by
  rw [← bytesOf_number as, ← bytesOf_number bs, hlen, h]

end RSDWServerAPI.RawMemory
