import RSDWServerAPI.AccessControl
import RSDWServerAPI.Ini

/-!
# `net/access_control.cpp`: what an IP whitelist spells

`IpFilter::Configure` takes a list of addresses and networks apart, `192.168.0.7, 10.0.0.0/8`, and
keeps a rule for each entry that it can read; the others it rejects. `inet_pton` is taken to read
exactly the dotted quads.

What the list says is stated beside it, on the text alone: its entries (`IsEntry`), which of them
are well formed and what each of those spells (`Spells`), and which addresses that covers
(`Covers`). An entry is *misread* when it is not well formed and a rule is made of it all the same.

## Main results

* `mem_split_iff`: `Split` finds the entries.
* `readRule_of_spells`, `rule_allows_iff`: a well-formed entry gives a rule, and the rule lets
  through the addresses that the entry covers.
* `readRule_isSome_iff`: a rule is made of the well-formed entries and of the misread ones.
* `admitsWhatItSpells_iff`: **the whitelist admits what it spells exactly when none of its entries
  is misread.**
-/

namespace RSDWServerAPI.AccessControl

open Ascii (isBlank)
open Ini (trim)

/-! ### `Configure` -/

/-- `Split`: the parts between separators, without blanks around them and without empty ones. -/
def split (sep : UInt8) (value : Bytes) : List Bytes :=
  ((value.splitOn sep).map trim).filter fun part => part ≠ []

/-- A number of a dotted quad: up to 255, without a zero in front. -/
def octet (s : Bytes) : Option ℕ :=
  if s ≠ [] ∧ s.all isDigit ∧ (s.length = 1 ∨ s.head? ≠ some 48) ∧ digitsValue s ≤ 255 then
    some (digitsValue s)
  else none

/-- `inet_pton(AF_INET, ..)`, with the address in host order. -/
def inetPton (s : Bytes) : Option UInt32 :=
  match (s.splitOn 46).map octet with
  | [some a, some b, some c, some d] =>
      some (UInt32.ofNat (((a * 256 + b) * 256 + c) * 256 + d))
  | _ => none

/-- The mask of a network. -/
def maskOf (bits : ℕ) : UInt32 :=
  if bits = 0 then 0 else 0xFFFFFFFF <<< UInt32.ofNat (32 - bits)

/-- The rule that `Configure` makes of an address and a number of bits. -/
def makeRule (address : Bytes) (bits : ℕ) : Option Rule :=
  (inetPton (cStr address)).map fun parsed => ⟨parsed &&& maskOf bits, maskOf bits⟩

/-- The loop of `Configure` for one entry: the rule that is made of it, `none` when it is
rejected. `atoi` reads no further than a NUL. -/
def readRule (entry : Bytes) : Option Rule :=
  match cutFirst [47] entry with
  | none => makeRule entry 32
  | some (address, suffix) =>
      let bits := (atoi suffix).toInt
      if bits < 0 ∨ 32 < bits then none else makeRule address bits.toNat

/-- `IpFilter`. -/
structure IpFilter where
  rules : List Rule := []
  rejected : List Bytes := []
  deriving DecidableEq, Repr

/-- The loop of `Configure`, for one entry. -/
def IpFilter.add (ipFilter : IpFilter) (entry : Bytes) : IpFilter :=
  match readRule entry with
  | none => { ipFilter with rejected := ipFilter.rejected ++ [entry] }
  | some rule => { ipFilter with rules := ipFilter.rules ++ [rule] }

/-- `IpFilter::Configure`. -/
def IpFilter.configure (list : Bytes) : IpFilter :=
  (split 44 list).foldl IpFilter.add {}

/-! ### What a list says -/

/-- An entry of a list: what stands between two commas, without the blanks around it, if there is
anything. -/
def IsEntry (list entry : Bytes) : Prop :=
  ∃ parts : List Bytes, list = [44].intercalate parts ∧ (∀ part ∈ parts, 44 ∉ part) ∧
    ∃ l r, l ++ entry ++ r ∈ parts ∧ (∀ c ∈ l, isBlank c = true) ∧ (∀ c ∈ r, isBlank c = true) ∧
      ∃ h : entry ≠ [], isBlank (entry.head h) = false ∧ isBlank (entry.getLast h) = false

/-- A decimal number of at most 32. -/
def IsBits (s : Bytes) (n : ℕ) : Prop :=
  s ≠ [] ∧ (∀ c ∈ s, isDigit c = true) ∧ digitsValue s = n ∧ n ≤ 32

/-- What a well-formed entry spells: an address, and how many of its bits count. -/
inductive Spells : Bytes → UInt32 → ℕ → Prop
  | host {address : Bytes} {a : UInt32} (h : inetPton address = some a) : Spells address a 32
  | network {address bits : Bytes} {a : UInt32} {n : ℕ} (h : inetPton address = some a)
      (hbits : IsBits bits n) : Spells (address ++ 47 :: bits) a n

/-- The entry is well formed. -/
def WellFormed (entry : Bytes) : Prop :=
  ∃ a n, Spells entry a n

/-- The top `n` bits agree. -/
def Covers (a : UInt32) (n : ℕ) (addr : UInt32) : Prop :=
  addr.toNat / 2 ^ (32 - n) = a.toNat / 2 ^ (32 - n)

/-- **The whitelist admits exactly what it spells**, everyone when it spells nothing, and what is
not well formed is rejected and adds no rule. -/
structure AdmitsWhatItSpells (list : Bytes) : Prop where
  allows_iff : ∀ addr, allows (IpFilter.configure list).rules addr = true ↔
    (∀ entry, IsEntry list entry → ¬ WellFormed entry) ∨
      ∃ entry a n, IsEntry list entry ∧ Spells entry a n ∧ Covers a n addr
  rejected : ∀ entry, IsEntry list entry → ¬ WellFormed entry →
    entry ∈ (IpFilter.configure list).rejected ∧
      ∀ ipFilter : IpFilter, (ipFilter.add entry).rules = ipFilter.rules

/-- The entry is taken for a rule though it is not well formed: up to its first NUL a dotted quad
stands in front of the slash, if there is one, and `atoi` reads a number from 0 to 32 behind it;
but there is more in front, or it is not a number that stands behind. -/
def Misread (entry : Bytes) : Prop :=
  (47 ∉ entry ∧ 0 ∈ entry ∧ (inetPton (cStr entry)).isSome = true) ∨
    ∃ address suffix, entry = address ++ 47 :: suffix ∧ 47 ∉ address ∧
      (inetPton (cStr address)).isSome = true ∧
      0 ≤ (atoi suffix).toInt ∧ (atoi suffix).toInt ≤ 32 ∧
      (0 ∈ address ∨ ¬ ∃ n, IsBits suffix n)

/-! ### Entries -/

/-- `Split` finds the entries. -/
theorem mem_split_iff {list entry : Bytes} : entry ∈ split 44 list ↔ IsEntry list entry := by
  rw [split, List.mem_filter, List.mem_map, decide_eq_true_eq]
  constructor
  · rintro ⟨⟨part, hpart, htrim⟩, hne⟩
    obtain ⟨l, r, rfl, hl, hr, hhead, hlast⟩ := (Ini.trim_eq_iff hne).mp htrim
    exact ⟨list.splitOn 44, (List.intercalate_splitOn 44).symm,
      fun part => not_mem_of_mem_splitOn, l, r, hpart, hl, hr, hne, hhead, hlast⟩
  · rintro ⟨parts, rfl, hcomma, l, r, hpart, hl, hr, hne, hhead, hlast⟩
    refine ⟨⟨l ++ entry ++ r, ?_, (Ini.trim_eq_iff hne).mpr ⟨l, r, rfl, hl, hr, hhead, hlast⟩⟩,
      hne⟩
    rwa [List.splitOn_intercalate 44 hcomma (List.ne_nil_of_mem hpart)]

/-! ### Well-formed and misread entries -/

variable {address suffix entry list : Bytes} {a addr : UInt32} {n : ℕ}

/-- A dotted quad has digits and points only. -/
theorem mem_of_inetPton (h : inetPton address = some a) {c : UInt8} (hc : c ∈ address) :
    isDigit c = true ∨ c = 46 := by
  rw [inetPton] at h
  split at h
  · next p q r s hquad =>
      rcases mem_part_of_mem 46 hc with rfl | ⟨part, hpart, hmem⟩
      · exact .inr rfl
      · have hsome : octet part ∈ [some p, some q, some r, some s] :=
          hquad ▸ List.mem_map_of_mem hpart
        have hne : octet part ≠ none := by
          intro hnone
          rw [hnone] at hsome
          simp at hsome
        rw [octet] at hne
        split_ifs at hne with hdigits
        · exact .inl (List.all_eq_true.mp hdigits.2.1 c hmem)
        · exact absurd rfl hne
  · cases h

/-- A dotted quad has neither a slash nor a NUL. -/
theorem not_mem_of_inetPton (h : inetPton address = some a) : 47 ∉ address ∧ 0 ∉ address := by
  constructor
  · intro hc
    rcases mem_of_inetPton h hc with hdigit | heq
    · exact absurd hdigit (by decide)
    · exact absurd heq (by decide)
  · intro hc
    rcases mem_of_inetPton h hc with hdigit | heq
    · exact absurd hdigit (by decide)
    · exact absurd heq (by decide)

/-- A text without a NUL is passed on whole. -/
theorem cStr_eq_self {s : Bytes} (h : 0 ∉ s) : cStr s = s := by
  rw [cStr, List.takeWhile_eq_self_iff]
  intro c hc
  exact decide_eq_true fun h0 => h (h0 ▸ hc)

/-- `atoi` reads a number of at most 32 as it is. -/
theorem atoi_of_isBits (h : IsBits suffix n) : (atoi suffix).toInt = n := by
  obtain ⟨hne, hdigits, hvalue, hle⟩ := h
  rw [atoi, (atol_digits hne hdigits).1, hvalue, min_eq_right (by omega), max_eq_right (by omega),
    Int32.toInt_ofInt_of_le (by norm_num) (by norm_num; omega)]

/-- **A well-formed entry gives its rule.** -/
theorem readRule_of_spells (h : Spells entry a n) :
    readRule entry = some ⟨a &&& maskOf n, maskOf n⟩ ∧ n ≤ 32 := by
  cases h with
  | host h =>
      obtain ⟨hslash, hnul⟩ := not_mem_of_inetPton h
      refine ⟨?_, le_rfl⟩
      rw [readRule, cutFirst_singleton_eq_none_iff.mpr hslash]
      dsimp only
      rw [makeRule, cStr_eq_self hnul, h]
      rfl
  | network h hbits =>
      obtain ⟨hslash, hnul⟩ := not_mem_of_inetPton h
      have hle := hbits.2.2.2
      refine ⟨?_, hle⟩
      rw [readRule, cutFirst_singleton_eq_some_iff.mpr ⟨rfl, hslash⟩]
      dsimp only
      rw [atoi_of_isBits hbits, if_neg (by omega), makeRule, cStr_eq_self hnul, h]
      rfl

/-- What is misread is not well formed. -/
theorem Misread.not_wellFormed (h : Misread entry) : ¬ WellFormed entry := by
  rintro ⟨a, n, hspells⟩
  rcases h with ⟨hslash, hnul, -⟩ | ⟨address, suffix, rfl, hslash, -, -, -, hrest⟩
  · cases hspells with
    | host h => exact (not_mem_of_inetPton h).2 hnul
    | network h hbits => exact hslash (by simp)
  · generalize hentry : address ++ 47 :: suffix = entry at hspells
    cases hspells with
    | host h => exact (not_mem_of_inetPton h).1 (by rw [← hentry]; simp)
    | @network address' suffix' _ _ h hbits =>
        have hcut := cutFirst_singleton_eq_some_iff.mpr ⟨hentry.symm, hslash⟩
        rw [cutFirst_singleton_eq_some_iff.mpr ⟨rfl, (not_mem_of_inetPton h).1⟩] at hcut
        obtain ⟨rfl, rfl⟩ := Prod.mk.inj (Option.some.inj hcut)
        rcases hrest with hnul | hbits'
        · exact (not_mem_of_inetPton h).2 hnul
        · exact hbits' ⟨n, hbits⟩

/-- A rule is made exactly when the address is one. -/
theorem makeRule_isSome (address : Bytes) (bits : ℕ) :
    (makeRule address bits).isSome = (inetPton (cStr address)).isSome := by
  rw [makeRule, Option.isSome_map]

/-- **What a rule is made of**: the well-formed entries, and the misread ones. -/
theorem readRule_isSome_iff :
    (readRule entry).isSome = true ↔ WellFormed entry ∨ Misread entry := by
  constructor
  · intro h
    rw [readRule] at h
    cases hcut : cutFirst [47] entry with
    | none =>
        rw [hcut] at h
        dsimp only at h
        rw [makeRule_isSome] at h
        by_cases hnul : 0 ∈ entry
        · exact .inr (.inl ⟨cutFirst_singleton_eq_none_iff.mp hcut, hnul, h⟩)
        · rw [cStr_eq_self hnul] at h
          obtain ⟨a, ha⟩ := Option.isSome_iff_exists.mp h
          exact .inl ⟨a, 32, .host ha⟩
    | some parts =>
        obtain ⟨address, suffix⟩ := parts
        obtain ⟨rfl, hslash⟩ := cutFirst_singleton_eq_some_iff.mp hcut
        rw [hcut] at h
        dsimp only at h
        split_ifs at h with hrange
        · cases h
        · rw [makeRule_isSome] at h
          by_cases hrest : 0 ∈ address ∨ ¬ ∃ n, IsBits suffix n
          · exact .inr (.inr ⟨address, suffix, rfl, hslash, h, by omega, by omega, hrest⟩)
          · obtain ⟨hnul, hbits⟩ := not_or.mp hrest
            obtain ⟨n, hbits⟩ := not_not.mp hbits
            rw [cStr_eq_self hnul] at h
            obtain ⟨a, ha⟩ := Option.isSome_iff_exists.mp h
            exact .inl ⟨a, n, .network ha hbits⟩
  · rintro (⟨a, n, h⟩ | ⟨hslash, -, h⟩ | ⟨address, suffix, rfl, hslash, h, hlo, hhi, -⟩)
    · rw [(readRule_of_spells h).1]
      rfl
    · rw [readRule, cutFirst_singleton_eq_none_iff.mpr hslash]
      dsimp only
      rwa [makeRule_isSome]
    · rw [readRule, cutFirst_singleton_eq_some_iff.mpr ⟨rfl, hslash⟩]
      dsimp only
      rwa [if_neg (by omega), makeRule_isSome]

/-! ### Rules -/

/-- The bits of a mask. -/
theorem testBit_maskOf (hn : n ≤ 32) (i : ℕ) :
    (maskOf n).toNat.testBit i = decide (32 - n ≤ i ∧ i < 32) := by
  rw [maskOf]
  split_ifs with h0
  · subst h0
    simp
  · have hshift : (UInt32.ofNat (32 - n)).toNat % 32 = 32 - n := by
      rw [UInt32.toNat_ofNat', Nat.mod_eq_of_lt (a := 32 - n) (by omega),
        Nat.mod_eq_of_lt (by omega)]
    rw [UInt32.toNat_shiftLeft, hshift, Nat.testBit_mod_two_pow, Nat.testBit_shiftLeft,
      show (0xFFFFFFFF : UInt32).toNat = 2 ^ 32 - 1 from rfl, Nat.testBit_two_pow_sub_one]
    rw [Bool.eq_iff_iff]
    simp only [Bool.and_eq_true, decide_eq_true_eq]
    omega

/-- **A rule lets through what its entry covers.** -/
theorem rule_allows_iff (hn : n ≤ 32) :
    addr &&& maskOf n = a &&& maskOf n ↔ Covers a n addr := by
  rw [← UInt32.toNat_inj, UInt32.toNat_and, UInt32.toNat_and, Covers, ← Nat.shiftRight_eq_div_pow,
    ← Nat.shiftRight_eq_div_pow]
  constructor
  · intro h
    refine Nat.eq_of_testBit_eq fun i => ?_
    rw [Nat.testBit_shiftRight, Nat.testBit_shiftRight]
    by_cases hi : 32 - n + i < 32
    · have := congrArg (Nat.testBit · (32 - n + i)) h
      simpa [Nat.testBit_and, testBit_maskOf hn, hi] using this
    · have hhigh : 2 ^ 32 ≤ 2 ^ (32 - n + i) := Nat.pow_le_pow_right (by norm_num) (by omega)
      rw [Nat.testBit_lt_two_pow (addr.toNat_lt.trans_le hhigh),
        Nat.testBit_lt_two_pow (a.toNat_lt.trans_le hhigh)]
  · intro h
    refine Nat.eq_of_testBit_eq fun i => ?_
    rw [Nat.testBit_and, Nat.testBit_and, testBit_maskOf hn]
    by_cases hi : 32 - n ≤ i ∧ i < 32
    · have := congrArg (Nat.testBit · (i - (32 - n))) h
      simp only [Nat.testBit_shiftRight] at this
      rw [show 32 - n + (i - (32 - n)) = i by omega] at this
      rw [this]
    · rw [decide_eq_false hi, Bool.and_false, Bool.and_false]

/-! ### Lists -/

/-- Adding an entry. -/
theorem add_eq (ipFilter : IpFilter) (entry : Bytes) :
    ipFilter.add entry =
      ⟨ipFilter.rules ++ (readRule entry).toList,
        ipFilter.rejected ++ if (readRule entry).isSome then [] else [entry]⟩ := by
  rw [IpFilter.add]
  cases readRule entry <;> simp

/-- What the loop of `Configure` gathers. -/
theorem foldl_add (ipFilter : IpFilter) (entries : List Bytes) :
    entries.foldl IpFilter.add ipFilter =
      ⟨ipFilter.rules ++ entries.filterMap readRule,
        ipFilter.rejected ++ entries.filter fun entry => (readRule entry).isNone⟩ := by
  induction entries generalizing ipFilter with
  | nil => simp
  | cons entry entries ih =>
      rw [List.foldl_cons, ih, add_eq]
      cases h : readRule entry <;> simp [h]

/-- **What `Configure` keeps**: the rules of the entries that it can read, and the others. -/
theorem mem_configure :
    (∀ rule, rule ∈ (IpFilter.configure list).rules ↔
      ∃ entry, IsEntry list entry ∧ readRule entry = some rule) ∧
    ∀ entry, entry ∈ (IpFilter.configure list).rejected ↔
      IsEntry list entry ∧ readRule entry = none := by
  rw [IpFilter.configure, foldl_add]
  constructor
  · intro rule
    rw [List.nil_append, List.mem_filterMap]
    simp only [mem_split_iff]
  · intro entry
    dsimp only
    rw [List.nil_append, List.mem_filter, mem_split_iff, Option.isNone_iff_eq_none]

/-- A list without rules admits everyone, any other admits whom one of the rules lets through. -/
theorem allows_eq_true_iff {rules : List Rule} :
    allows rules addr = true ↔
      (∀ rule, rule ∉ rules) ∨ ∃ rule ∈ rules, addr &&& rule.mask = rule.network := by
  rw [allows, Bool.or_eq_true, List.isEmpty_iff, List.any_eq_true, List.eq_nil_iff_forall_not_mem]
  simp only [beq_iff_eq]

/-- Without misread entries the rules are those of the well-formed entries. -/
theorem mem_rules_iff (h : ∀ entry, IsEntry list entry → ¬ Misread entry) (rule : Rule) :
    rule ∈ (IpFilter.configure list).rules ↔
      ∃ entry a n, IsEntry list entry ∧ Spells entry a n ∧
        rule = ⟨a &&& maskOf n, maskOf n⟩ := by
  rw [mem_configure.1]
  constructor
  · rintro ⟨entry, hentry, hrule⟩
    have hsome : (readRule entry).isSome = true := by rw [hrule]; rfl
    obtain ⟨a, n, hspells⟩ := (readRule_isSome_iff.mp hsome).resolve_right (h entry hentry)
    rw [(readRule_of_spells hspells).1] at hrule
    exact ⟨entry, a, n, hentry, hspells, (Option.some.inj hrule).symm⟩
  · rintro ⟨entry, a, n, hentry, hspells, rfl⟩
    exact ⟨entry, hentry, (readRule_of_spells hspells).1⟩

/-- **When a whitelist admits what it spells**: exactly when none of its entries is misread. -/
theorem admitsWhatItSpells_iff (list : Bytes) :
    AdmitsWhatItSpells list ↔ ∀ entry, IsEntry list entry → ¬ Misread entry := by
  constructor
  · intro h entry hentry hmisread
    obtain ⟨hrejected, -⟩ := h.rejected entry hentry hmisread.not_wellFormed
    have hsome := readRule_isSome_iff.mpr (.inr hmisread)
    rw [(mem_configure.2 entry).mp hrejected |>.2] at hsome
    cases hsome
  · intro h
    refine ⟨fun addr => ?_, fun entry hentry hwell => ?_⟩
    · rw [allows_eq_true_iff]
      refine or_congr ⟨fun hnone entry hentry => ?_, fun hnone rule hrule => ?_⟩
        ⟨fun hrule => ?_, fun hcovers => ?_⟩
      · rintro ⟨a, n, hspells⟩
        exact hnone _ ((mem_rules_iff h _).mpr ⟨entry, a, n, hentry, hspells, rfl⟩)
      · obtain ⟨entry, a, n, hentry, hspells, -⟩ := (mem_rules_iff h rule).mp hrule
        exact hnone entry hentry ⟨a, n, hspells⟩
      · obtain ⟨rule, hrule, hmatch⟩ := hrule
        obtain ⟨entry, a, n, hentry, hspells, rfl⟩ := (mem_rules_iff h rule).mp hrule
        exact ⟨entry, a, n, hentry, hspells,
          (rule_allows_iff (readRule_of_spells hspells).2).mp hmatch⟩
      · obtain ⟨entry, a, n, hentry, hspells, hcovers⟩ := hcovers
        exact ⟨_, (mem_rules_iff h _).mpr ⟨entry, a, n, hentry, hspells, rfl⟩,
          (rule_allows_iff (readRule_of_spells hspells).2).mpr hcovers⟩
    · have hnone : readRule entry = none := by
        rw [← Option.not_isSome_iff_eq_none, readRule_isSome_iff]
        exact not_or.mpr ⟨hwell, h entry hentry⟩
      refine ⟨(mem_configure.2 entry).mpr ⟨hentry, hnone⟩, fun ipFilter => ?_⟩
      rw [add_eq, hnone]
      exact List.append_nil _

/-- A length that is not a number opens the server to everyone, here to `8.8.8.8`. -/
theorem not_admitsWhatItSpells_word :
    allows (IpFilter.configure (bytes "127.0.0.1,10.0.0.0/x")).rules 0x08080808 = true ∧
      ¬ AdmitsWhatItSpells (bytes "127.0.0.1,10.0.0.0/x") := by
  rw [show "127.0.0.1,10.0.0.0/x" = String.ofList ['1', '2', '7', '.', '0', '.', '0', '.', '1',
    ',', '1', '0', '.', '0', '.', '0', '.', '0', '/', 'x'] from rfl, bytes_ofList]
  refine ⟨by decide, fun h => ?_⟩
  have hmisread : Misread ([49, 48, 46, 48, 46, 48, 46, 48] ++ 47 :: [120]) := by
    refine .inr ⟨_, _, rfl, by decide, by decide, by decide, by decide, .inr ?_⟩
    rintro ⟨n, -, hdigits, -⟩
    exact absurd (hdigits 120 List.mem_cons_self) (by decide)
  obtain ⟨hrejected, -⟩ :=
    h.rejected _ (mem_split_iff.mp (by decide)) hmisread.not_wellFormed
  exact absurd hrejected (by decide)

end RSDWServerAPI.AccessControl
