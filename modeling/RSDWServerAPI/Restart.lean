import RSDWServerAPI.Config

/-!
# What a restart does to the settings

At every start the settings are read and written again. The switches and the numbers come back
as they were, and so does a text, unless it ends in a carriage return: one is taken off the end
of a line when it is read.

Writing truncates the file first, so that a start that dies on the way leaves any part of the
text. Most parts lack the bearer token while the REST API is still on.

## Main results

* `load_save_load_iff`: **exactly which files keep their settings** over a restart.
* `guarded_iff`: **exactly which crashes leave the REST API guarded**, by the token it had or by
  being off.
-/

namespace RSDWServerAPI.APIConfig

/-! ### The settings that are texts -/

/-- A setting that is a text: where it stands in the file, and its value. -/
structure TextSetting where
  sect : Bytes
  key : Bytes
  get : APIConfig → Bytes

/-- The settings that are texts. -/
def textSettings : List TextSetting :=
  [⟨bytes "API", bytes "BindAddress", fun g => g.rest.bindAddress⟩,
    ⟨bytes "API", bytes "BearerToken", fun g => g.rest.bearerToken⟩,
    ⟨bytes "API", bytes "IPWhitelist", fun g => g.rest.ipWhitelist⟩,
    ⟨bytes "RCON", bytes "BindAddress", fun g => g.rcon.bindAddress⟩,
    ⟨bytes "RCON", bytes "Password", fun g => g.rcon.password⟩,
    ⟨bytes "RCON", bytes "IPWhitelist", fun g => g.rcon.ipWhitelist⟩,
    ⟨bytes "Discord", bytes "WebhookUrl", fun g => g.discord.webhookUrl⟩,
    ⟨bytes "Discord", bytes "DeathWebhookUrl", fun g => g.discord.deathWebhookUrl⟩,
    ⟨bytes "Discord", bytes "Username", fun g => g.discord.username⟩]

/-- The texts of a configuration, setting by setting. -/
theorem texts_eq_map (g : APIConfig) : texts g = textSettings.map fun s => s.get g := rfl

/-- A text is set exactly where it stands in the file. -/
def textAfter (sect key v : Bytes) (g : APIConfig) (s : TextSetting) : Bytes :=
  if sect = s.sect ∧ key = s.key then v else s.get g

/-- Where nothing is set, every text stays. -/
theorem textAfter_of_forall {sect key : Bytes}
    (h : ∀ s ∈ textSettings, ¬ (sect = s.sect ∧ key = s.key)) (v : Bytes) (g : APIConfig) :
    texts g = textSettings.map (textAfter sect key v g) :=
  (texts_eq_map g).trans (List.map_congr_left fun s hs => (if_neg (h s hs)).symm)

/-- **What `Apply` does to the texts.** -/
theorem texts_apply (g : APIConfig) (sect key v : Bytes) :
    texts (g.apply sect key v) = textSettings.map (textAfter sect key v g) := by
  generalize hr : textSettings.map (textAfter sect key v g) = r
  let P : APIConfig → Prop := fun h => texts h = r
  change P (g.apply sect key v)
  rw [apply]
  repeat' refine iteInduction (fun _ => ?_) fun _ => ?_
  all_goals refine Eq.trans ?_ hr
  all_goals clear hr P r
  all_goals subst_vars
  all_goals try rfl
  all_goals refine textAfter_of_forall ?_ v g
  all_goals simp only [textSettings, List.forall_mem_cons, not_and]
  all_goals and_intros
  all_goals first
    | exact fun _ => by with_reducible assumption
    | exact fun h => absurd h (by with_reducible assumption)
    | exact fun h => absurd h (by decide)
    | exact List.forall_mem_nil _

/-- `Apply` sets a text exactly where it stands in the file. -/
theorem get_assign {s : TextSetting} (hs : s ∈ textSettings) (g : APIConfig)
    (a : Ini.Assignment) :
    s.get (g.assign a) = if a.sect = s.sect ∧ a.key = s.key then a.value else s.get g :=
  List.map_inj_left.mp ((texts_eq_map _).symm.trans (texts_apply g a.sect a.key a.value)) s hs

/-- **A text that has been read** is the one that is assigned last, or the one it was. -/
theorem get_foldl {s : TextSetting} (hs : s ∈ textSettings) (g : APIConfig)
    (as : List Ini.Assignment) :
    s.get (as.foldl assign g) = (Ini.lastValue s.sect s.key as).getD (s.get g) := by
  rw [@Ini.foldl_setting _ _ assign s.get id _ _ (get_assign hs) g as]
  cases Ini.lastValue s.sect s.key as <;> rfl

/-! ### Restarts -/

/-- Another text for each text changes nothing where it is the same text. -/
theorem mapTexts_eq_self_iff (f : Bytes → Bytes) (g : APIConfig) :
    g.mapTexts f = g ↔ ∀ t ∈ texts g, f t = t := by
  obtain ⟨enableLogging, verboseLogging, ⟨_, _, _, _, _⟩, ⟨_, _, _, _, _, _, _, _, _, _, _⟩,
    ⟨_, _, _, _⟩⟩ := g
  simp only [mapTexts, texts, List.forall_mem_cons, APIConfig.mk.injEq, RestConfig.mk.injEq,
    RconConfig.mk.injEq, DiscordConfig.mk.injEq, true_and, and_true]
  simp only [List.not_mem_nil, false_imp_iff, implies_true, and_true, and_assoc]

/-- No default text ends in a carriage return. -/
theorem getLast?_default {s : TextSetting} (hs : s ∈ textSettings) :
    (s.get {}).getLast? ≠ some 13 := by
  have hall : (textSettings.all fun s => (s.get {}).getLast? != some 13) = true := by
    decide +kernel
  simpa using List.all_eq_true.mp hall s hs

/-- **Exactly which files keep their settings**: those in which the last value of each text does
not end in a carriage return. -/
theorem load_save_load_iff (c : Bytes) :
    load {} (save (load {} c)) = load {} c ↔
      ∀ s ∈ textSettings, ∀ v ∈ Ini.lastValue s.sect s.key (Ini.assignments c),
        v.getLast? ≠ some 13 := by
  have hheld := held_load held_default c
  rw [load_save hheld, mapTexts_eq_self_iff, texts_eq_map]
  simp only [List.forall_mem_map]
  refine forall₂_congr fun s hs => ?_
  have htext : s.get (load {} c) ∈ texts (load {} c) := by
    rw [texts_eq_map]
    exact List.mem_map_of_mem hs
  rw [Ini.value_eq_self_iff (hheld _ htext).2, load, get_foldl hs]
  cases Ini.lastValue s.sect s.key (Ini.assignments c) with
  | none => simpa using getLast?_default hs
  | some v => simp

/-- A file with a carriage return too many behind a token. -/
def doubleReturn : Bytes :=
  bytes "[API]\nBearerToken=x\r\r\n"

/-- The token loses its carriage return at the restart. -/
theorem not_load_save_load :
    load {} (save (load {} doubleReturn)) ≠ load {} doubleReturn := by
  rw [load_save (held_load held_default doubleReturn), ne_eq, mapTexts_eq_self_iff]
  decide

/-! ### Crashes -/

/-- The text that `Save` writes up to the value of the REST API's switch. -/
def upToEnabled (g : APIConfig) : Bytes :=
  Ini.print (generalItems g) ++ bytes "Enabled="

/-- The text that `Save` writes up to the end of the REST API's token. -/
def upToToken (g : APIConfig) : Bytes :=
  Ini.print (generalItems g ++ setting "Enabled" (boolText g.rest.enabled) :: restItems g) ++
    bytes "BearerToken=" ++ g.rest.bearerToken

/-- The REST API is guarded after a start: by the token that `g` has, by a new one where there
was no file, or by being off. -/
def Guarded (g : APIConfig) (file : Option Bytes) (tokenBytes passwordBytes : Bytes) : Prop :=
  let started := start file tokenBytes passwordBytes
  started.rest.bearerToken = g.rest.bearerToken ∨
    (file = none ∧ started.rest.bearerToken = generateSecureToken 32 tokenBytes ∧
      started.rest.bearerToken ≠ []) ∨
    started.rest.enabled = false

/-- What is left of the file when `Save` dies leaves the REST API guarded: it has the REST API's
switch, and that is off or cut; or it has the whole token, which does not end in a carriage
return. Without a file, the random bytes for a token are there. -/
def LeavesGuarded (g : APIConfig) (file : Option Bytes) (tokenBytes : Bytes) : Prop :=
  match file with
  | none => tokenBytes.length = 32
  | some p =>
      (upToEnabled g <+: p ∧
        (g.rest.enabled = false ∨ ¬ upToEnabled g ++ bytes "true" <+: p)) ∨
      (upToToken g <+: p ∧ g.rest.bearerToken.getLast? ≠ some 13)

/-- `Apply` sets the REST API's switch exactly where it stands in the file. -/
theorem enabled_assign (g : APIConfig) (a : Ini.Assignment) :
    (g.assign a).rest.enabled =
      if a.sect = bytes "API" ∧ a.key = bytes "Enabled" then parseBool a.value
      else g.rest.enabled := by
  obtain ⟨sect, key, v⟩ := a
  generalize hr : (if sect = bytes "API" ∧ key = bytes "Enabled" then parseBool v
    else g.rest.enabled) = r
  let P : APIConfig → Prop := fun h => h.rest.enabled = r
  change P (g.apply sect key v)
  rw [apply]
  repeat' refine iteInduction (fun _ => ?_) fun _ => ?_
  all_goals refine Eq.trans ?_ hr
  all_goals clear hr P r
  all_goals subst_vars
  all_goals first
    | rfl
    | exact (if_neg fun h => absurd h.1 (by with_reducible assumption)).symm
    | exact (if_neg fun h => absurd h.2 (by with_reducible assumption)).symm

/-- The value that a file assigns last to the REST API's switch. -/
def lastEnabled (as : List Ini.Assignment) : Option Bytes :=
  Ini.lastValue (bytes "API") (bytes "Enabled") as

/-- The value that a file assigns last to the REST API's token. -/
def lastToken (as : List Ini.Assignment) : Option Bytes :=
  Ini.lastValue (bytes "API") (bytes "BearerToken") as

/-- **The REST API after a start from a file.** -/
theorem rest_load (c : Bytes) :
    (load {} c).rest.enabled = (lastEnabled (Ini.assignments c)).elim true parseBool ∧
      (load {} c).rest.bearerToken = (lastToken (Ini.assignments c)).getD [] :=
  ⟨@Ini.foldl_setting _ _ assign (fun g => g.rest.enabled) parseBool _ _ enabled_assign {} _,
    get_foldl (s := ⟨bytes "API", bytes "BearerToken", fun g => g.rest.bearerToken⟩)
      (List.mem_cons_of_mem _ List.mem_cons_self) {} _⟩

/-- The name of the REST API's switch is a name. -/
theorem isName_enabled : Ini.IsName (bytes "Enabled") := by
  decide +kernel

/-- The name of the REST API's token is a name. -/
theorem isName_bearerToken : Ini.IsName (bytes "BearerToken") := by
  decide +kernel

/-- The text that `Save` writes behind the REST API's switch. -/
def behindEnabled (g : APIConfig) : Bytes :=
  Ini.print (restItems g) ++
    (bytes "BearerToken" ++ 61 :: g.rest.bearerToken ++ 10 :: Ini.print (furtherItems g))

/-- The text that `Save` writes, cut at the REST API's switch. -/
theorem save_eq (g : APIConfig) :
    save g = Ini.print (generalItems g) ++
      (bytes "Enabled" ++ 61 :: boolText g.rest.enabled ++ 10 :: behindEnabled g) := by
  simp [save, saveItems, behindEnabled, setting, Ini.print, Ini.Item.text]

/-- The text up to the value of the switch. -/
theorem upToEnabled_eq (g : APIConfig) :
    upToEnabled g = Ini.print (generalItems g) ++ (bytes "Enabled" ++ [61]) := rfl

/-- The text up to the end of the token. -/
theorem upToToken_eq (g : APIConfig) :
    upToToken g = Ini.print (generalItems g) ++
      (bytes "Enabled" ++ 61 :: boolText g.rest.enabled ++ 10 ::
        (Ini.print (restItems g) ++ (bytes "BearerToken" ++ 61 :: g.rest.bearerToken))) := by
  have htoken : bytes "BearerToken=" = bytes "BearerToken" ++ [61] := rfl
  rw [upToToken, htoken]
  simp [setting, Ini.print, Ini.Item.text]

section Crash

variable {g : APIConfig}

/-- The lines in front of the REST API's switch do not touch it or the token. -/
theorem generalItems_quiet (g : APIConfig) :
    lastEnabled (Ini.assigned [] (generalItems g)) = none ∧
      lastToken (Ini.assigned [] (generalItems g)) = none ∧
      Ini.sectionAfter [] (generalItems g) = bytes "API" :=
  ⟨rfl, rfl, rfl⟩

/-- The lines between the REST API's switch and its token do not touch either. -/
theorem restItems_quiet (g : APIConfig) :
    lastEnabled (Ini.assigned (bytes "API") (restItems g)) = none ∧
      lastToken (Ini.assigned (bytes "API") (restItems g)) = none ∧
      Ini.sectionAfter (bytes "API") (restItems g) = bytes "API" :=
  ⟨rfl, rfl, rfl⟩

/-- The lines behind the REST API's token do not touch it or the switch. -/
theorem furtherItems_quiet (g : APIConfig) :
    lastEnabled (Ini.assigned (bytes "API") (furtherItems g)) = none ∧
      lastToken (Ini.assigned (bytes "API") (furtherItems g)) = none :=
  ⟨rfl, rfl⟩

/-- The lines of `Save`, part by part. -/
theorem parts_wellFormed (hg : g.Held) :
    (∀ item ∈ generalItems g, item.WellFormed) ∧ (∀ item ∈ restItems g, item.WellFormed) ∧
      ∀ item ∈ furtherItems g, item.WellFormed := by
  have hall := saveItems_wellFormed hg
  simp only [saveItems, List.forall_mem_append, List.forall_mem_cons] at hall
  exact ⟨hall.1.1, hall.1.2.2, hall.2.2⟩

/-- What is read from the token's line, or a part of it. -/
theorem token_cut (hg : g.Held) (hne : g.rest.bearerToken ≠ []) {s : Bytes}
    (hs : s <+: bytes "BearerToken" ++ 61 :: g.rest.bearerToken) :
    lastEnabled (Ini.scan (bytes "API") (Ini.lines s)) = none ∧
      ((lastToken (Ini.scan (bytes "API") (Ini.lines s))).getD [] = g.rest.bearerToken ↔
        bytes "BearerToken" ++ 61 :: g.rest.bearerToken <+: s ∧
          g.rest.bearerToken.getLast? ≠ some 13) := by
  obtain ⟨hline, htrim⟩ := hg _ (List.mem_cons_of_mem _ List.mem_cons_self)
  rcases Ini.scan_cut_assign (bytes "API") isName_bearerToken hline hs with
    ⟨hfront, hnil⟩ | ⟨w, hw, rfl, hone⟩
  · rw [hnil]
    refine ⟨rfl, fun h => absurd h.symm hne, fun h => ?_⟩
    have := (h.1.trans hfront).length_le
    simp only [List.length_append, List.length_cons] at this
    omega
  · rw [hone]
    refine ⟨rfl, ?_⟩
    have hlast : lastToken [⟨bytes "API", bytes "BearerToken", Ini.value w⟩] =
        some (Ini.value w) := rfl
    rw [hlast, Option.getD_some, List.prefix_append_right_inj, List.cons_prefix_cons]
    constructor
    · intro hvalue
      have hle := (Ini.value_sublist w).length_le
      rw [hvalue] at hle
      obtain rfl := hw.eq_of_length_le hle
      exact ⟨⟨rfl, List.prefix_rfl⟩, (Ini.value_eq_self_iff htrim).mp hvalue⟩
    · rintro ⟨⟨-, htok⟩, hreturn⟩
      obtain rfl := hw.eq_of_length_le htok.length_le
      exact (Ini.value_eq_self_iff htrim).mpr hreturn

/-- What is read from a part of the text behind the switch. -/
theorem behindEnabled_cut (hg : g.Held) (hne : g.rest.bearerToken ≠ []) {q : Bytes}
    (hq : q <+: behindEnabled g) :
    lastEnabled (Ini.scan (bytes "API") (Ini.lines q)) = none ∧
      ((lastToken (Ini.scan (bytes "API") (Ini.lines q))).getD [] = g.rest.bearerToken ↔
        Ini.print (restItems g) ++ (bytes "BearerToken" ++ 61 :: g.rest.bearerToken) <+: q ∧
          g.rest.bearerToken.getLast? ≠ some 13) := by
  obtain ⟨-, hrest, hfurther⟩ := parts_wellFormed hg
  obtain ⟨hE, hT, hsect⟩ := restItems_quiet g
  rcases Ini.prefix_append_cases hq with hcut | ⟨s, rfl, hs⟩
  · have hnone := Ini.lastValue_cut hrest hcut hT
    refine ⟨Ini.lastValue_cut hrest hcut hE, ?_⟩
    rw [lastToken, hnone]
    refine ⟨fun h => absurd h.symm hne, fun h => ?_⟩
    have := (h.1.trans hcut).length_le
    simp only [List.length_append, List.length_cons] at this
    omega
  · rw [Ini.scan_print_append hrest, hsect, lastEnabled, lastToken, Ini.lastValue_append,
      Ini.lastValue_append, ← lastEnabled, ← lastEnabled, ← lastToken, ← lastToken, hE, hT,
      Option.or_none, Option.or_none, List.prefix_append_right_inj]
    rcases Ini.prefix_append_cases hs with hcut | ⟨r, rfl, hr⟩
    · exact token_cut hg hne hcut
    · cases r with
      | nil => exact token_cut hg hne (by rw [List.append_nil])
      | cons c z =>
          obtain ⟨rfl, hz⟩ := List.cons_prefix_cons.mp hr
          obtain ⟨hline, htrim⟩ := hg _ (List.mem_cons_of_mem _ List.mem_cons_self)
          obtain ⟨hE', hT'⟩ := furtherItems_quiet g
          have hEz := Ini.lastValue_cut hfurther hz hE'
          have hTz := Ini.lastValue_cut hfurther hz hT'
          rw [Ini.scan_assign_append _ isName_bearerToken hline, ← List.singleton_append,
            lastEnabled, lastToken, Ini.lastValue_append, Ini.lastValue_append, hEz, hTz]
          refine ⟨rfl, ?_⟩
          have hpre : bytes "BearerToken" ++ 61 :: g.rest.bearerToken <+:
              bytes "BearerToken" ++ 61 :: g.rest.bearerToken ++ 10 :: z :=
            List.prefix_append _ _
          rw [and_iff_right hpre, ← Ini.value_eq_self_iff htrim]
          rfl

/-- A switch that is cut reads as off, unless it is on and the whole word is there. -/
theorem parseBool_cut {b : Bool} {w : Bytes} (h : w <+: boolText b) :
    parseBool (Ini.value w) = false ↔ b = false ∨ ¬ bytes "true" <+: w := by
  have hall : ∀ b : Bool, ((boolText b).inits.all fun w => decide
      (parseBool (Ini.value w) = false ↔ b = false ∨ ¬ bytes "true" <+: w)) = true := by
    decide +kernel
  exact of_decide_eq_true (List.all_eq_true.mp (hall b) w ((List.mem_inits w _).mpr h))

/-- What the switch's line reads as, or a part of it: the token is not there yet. -/
theorem enabled_cut {r : Bytes} (hr : r <+: bytes "Enabled" ++ 61 :: boolText g.rest.enabled) :
    lastToken (Ini.scan (bytes "API") (Ini.lines r)) = none ∧
      ((lastEnabled (Ini.scan (bytes "API") (Ini.lines r))).elim true parseBool = false ↔
        bytes "Enabled" ++ [61] <+: r ∧
          (g.rest.enabled = false ∨ ¬ bytes "Enabled" ++ [61] ++ bytes "true" <+: r)) := by
  rcases Ini.scan_cut_assign (bytes "API") isName_enabled (boolText_not_mem _) hr with
    ⟨hfront, hnil⟩ | ⟨w, hw, rfl, hone⟩
  · rw [hnil]
    refine ⟨rfl, iff_of_false Bool.noConfusion fun h => ?_⟩
    have := (h.1.trans hfront).length_le
    simp only [List.length_append, List.length_singleton] at this
    omega
  · rw [hone]
    refine ⟨rfl, ?_⟩
    have hlast : lastEnabled [⟨bytes "API", bytes "Enabled", Ini.value w⟩] =
        some (Ini.value w) := rfl
    have hpre : bytes "Enabled" ++ [61] <+: bytes "Enabled" ++ 61 :: w :=
      (List.prefix_append_right_inj _).mpr (List.prefix_append [61] w)
    have htrue : bytes "Enabled" ++ [61] ++ bytes "true" <+: bytes "Enabled" ++ 61 :: w ↔
        bytes "true" <+: w := by
      rw [List.append_assoc, List.prefix_append_right_inj, List.singleton_append,
        List.cons_prefix_cons, and_iff_right rfl]
    rw [hlast, Option.elim_some, and_iff_right hpre, htrue]
    exact parseBool_cut hw

/-- The assignments that are read leave the REST API guarded. -/
def ReadsGuarded (g : APIConfig) (as : List Ini.Assignment) : Prop :=
  (lastToken as).getD [] = g.rest.bearerToken ∨ (lastEnabled as).elim true parseBool = false

/-- A part of the text from the switch on leaves the REST API guarded. -/
def CutGuarded (g : APIConfig) (r : Bytes) : Prop :=
  (bytes "Enabled" ++ [61] <+: r ∧
    (g.rest.enabled = false ∨ ¬ bytes "Enabled" ++ [61] ++ bytes "true" <+: r)) ∨
  (bytes "Enabled" ++ 61 :: boolText g.rest.enabled ++ 10 ::
      (Ini.print (restItems g) ++ (bytes "BearerToken" ++ 61 :: g.rest.bearerToken)) <+: r ∧
    g.rest.bearerToken.getLast? ≠ some 13)

/-- A cut in the switch's line. -/
theorem readsGuarded_line (hne : g.rest.bearerToken ≠ []) {r : Bytes}
    (hr : r <+: bytes "Enabled" ++ 61 :: boolText g.rest.enabled) :
    ReadsGuarded g (Ini.scan (bytes "API") (Ini.lines r)) ↔ CutGuarded g r := by
  obtain ⟨hT, hE⟩ := enabled_cut hr
  have hshort : ¬ bytes "Enabled" ++ 61 :: boolText g.rest.enabled ++ 10 ::
      (Ini.print (restItems g) ++ (bytes "BearerToken" ++ 61 :: g.rest.bearerToken)) <+: r := by
    intro hlong
    have := (hlong.trans hr).length_le
    simp only [List.length_append, List.length_cons] at this
    omega
  rw [ReadsGuarded, CutGuarded, hT, hE, Option.getD_none, or_iff_right (Ne.symm hne)]
  exact (or_iff_left fun h => hshort h.1).symm

/-- A cut behind the switch's line. -/
theorem readsGuarded_behind (hg : g.Held) (hne : g.rest.bearerToken ≠ []) {q : Bytes}
    (hq : q <+: behindEnabled g) :
    ReadsGuarded g (Ini.scan (bytes "API") (Ini.lines
        (bytes "Enabled" ++ 61 :: boolText g.rest.enabled ++ 10 :: q))) ↔
      CutGuarded g (bytes "Enabled" ++ 61 :: boolText g.rest.enabled ++ 10 :: q) := by
  obtain ⟨hE, hT⟩ := behindEnabled_cut hg hne hq
  have hswitch : bytes "Enabled" ++ [61] <+:
      bytes "Enabled" ++ 61 :: boolText g.rest.enabled ++ 10 :: q := by
    rw [List.append_assoc, List.prefix_append_right_inj]
    exact List.prefix_append [61] _
  have htrue : g.rest.enabled = true → bytes "Enabled" ++ [61] ++ bytes "true" <+:
      bytes "Enabled" ++ 61 :: boolText g.rest.enabled ++ 10 :: q := by
    intro hon
    rw [hon, List.append_assoc, List.append_assoc, List.prefix_append_right_inj]
    exact List.prefix_append (61 :: bytes "true") _
  have hoff : g.rest.enabled = false ∨ ¬ bytes "Enabled" ++ [61] ++ bytes "true" <+:
      bytes "Enabled" ++ 61 :: boolText g.rest.enabled ++ 10 :: q ↔ g.rest.enabled = false :=
    or_iff_left_of_imp fun hnot => Bool.eq_false_iff.mpr fun hon => hnot (htrue hon)
  rw [ReadsGuarded, CutGuarded, and_iff_right hswitch, hoff,
    Ini.scan_assign_append _ isName_enabled (boolText_not_mem _), ← List.singleton_append,
    lastToken, lastEnabled, Ini.lastValue_append, Ini.lastValue_append, ← lastToken, ← lastToken,
    ← lastEnabled, ← lastEnabled, hE]
  have hswitchlast : lastEnabled
      [⟨bytes "API", bytes "Enabled", Ini.value (boolText g.rest.enabled)⟩] =
        some (Ini.value (boolText g.rest.enabled)) := rfl
  have htokenlast : lastToken
      [⟨bytes "API", bytes "Enabled", Ini.value (boolText g.rest.enabled)⟩] = none := rfl
  rw [hswitchlast, htokenlast, Option.or_none, Option.none_or, Option.elim_some,
    parseBool_boolText, hT, List.append_assoc, List.append_assoc, List.prefix_append_right_inj,
    List.cons_append, List.cons_append, List.cons_prefix_cons, List.prefix_append_right_inj,
    List.cons_prefix_cons]
  simp only [true_and]
  exact or_comm

end Crash

/-- A token that is generated is there exactly when the random bytes for it are. -/
theorem generateSecureToken_ne_nil_iff {length : ℕ} (hpos : 0 < length) (buf : Bytes) :
    generateSecureToken length buf ≠ [] ↔ buf.length = length := by
  rw [generateSecureToken]
  split_ifs with hlen
  · exact iff_of_false (fun h => h rfl) hlen
  · rw [not_not] at hlen
    refine iff_of_true ?_ hlen
    obtain ⟨c, rest, rfl⟩ := List.exists_cons_of_length_pos (hpos.trans_eq hlen.symm)
    rw [List.flatMap_cons]
    exact List.append_ne_nil_of_left_ne_nil (List.cons_ne_nil _ _) _

/-- A cut in front of the switch leaves the defaults: no token, and the REST API on. -/
theorem not_guarded_front {g : APIConfig} (hg : g.Held) (hne : g.rest.bearerToken ≠ [])
    {p : Bytes} (hp : p <+: Ini.print (generalItems g)) (tokenBytes : Bytes) :
    ¬ ReadsGuarded g (Ini.assignments p) ∧ ¬ LeavesGuarded g (some p) tokenBytes := by
  obtain ⟨hgeneral, -, -⟩ := parts_wellFormed hg
  obtain ⟨hE, hT, -⟩ := generalItems_quiet g
  have hnoE := Ini.lastValue_cut hgeneral hp hE
  have hnoT := Ini.lastValue_cut hgeneral hp hT
  have hlen := hp.length_le
  constructor
  · rw [ReadsGuarded, Ini.assignments, lastEnabled, lastToken, hnoE, hnoT]
    rintro (h | h)
    · exact hne h.symm
    · cases h
  · rw [LeavesGuarded]
    rintro (⟨h, -⟩ | ⟨h, -⟩)
    · have := h.length_le
      simp only [upToEnabled_eq, List.length_append, List.length_singleton] at this
      omega
    · have := h.length_le
      simp only [upToToken_eq, List.length_append, List.length_cons] at this
      omega

/-- The lines in front of the switch say nothing about it or the token. -/
theorem readsGuarded_rest {g : APIConfig} (hg : g.Held) (r : Bytes) :
    ReadsGuarded g (Ini.assignments (Ini.print (generalItems g) ++ r)) ↔
      ReadsGuarded g (Ini.scan (bytes "API") (Ini.lines r)) := by
  obtain ⟨hgeneral, -, -⟩ := parts_wellFormed hg
  obtain ⟨hE, hT, hsect⟩ := generalItems_quiet g
  rw [Ini.assignments, Ini.scan_print_append hgeneral, hsect, ReadsGuarded, ReadsGuarded,
    lastToken, lastEnabled, Ini.lastValue_append, Ini.lastValue_append, ← lastToken,
    ← lastToken, ← lastEnabled, ← lastEnabled, hE, hT, Option.or_none, Option.or_none]

/-- **Exactly which crashes leave the REST API guarded.** -/
theorem guarded_iff {g : APIConfig} (hg : g.Held) (hne : g.rest.bearerToken ≠ [])
    {file : Option Bytes} (hfile : ∀ p ∈ file, p <+: save g) (tokenBytes passwordBytes : Bytes) :
    Guarded g file tokenBytes passwordBytes ↔ LeavesGuarded g file tokenBytes := by
  cases file with
  | none =>
      rw [LeavesGuarded, ← generateSecureToken_ne_nil_iff (by decide) tokenBytes]
      constructor
      · rintro (hsame | ⟨-, -, hnew⟩ | hoff)
        · exact fun hnil => hne (hsame.symm.trans hnil)
        · exact hnew
        · cases hoff
      · exact fun hnew => .inr (.inl ⟨rfl, rfl, hnew⟩)
  | some p =>
      obtain ⟨henabled, htoken⟩ := rest_load p
      have hguarded : Guarded g (some p) tokenBytes passwordBytes ↔
          ReadsGuarded g (Ini.assignments p) := by
        rw [Guarded, start, henabled, htoken, ReadsGuarded]
        simp
      have hp := hfile p rfl
      rw [save_eq] at hp
      rw [hguarded]
      rcases Ini.prefix_append_cases hp with hcut | ⟨r, rfl, hr⟩
      · obtain ⟨hreads, hleaves⟩ := not_guarded_front hg hne hcut tokenBytes
        exact iff_of_false hreads hleaves
      · rw [readsGuarded_rest hg, LeavesGuarded, upToEnabled_eq, upToToken_eq, List.append_assoc,
          List.prefix_append_right_inj, List.prefix_append_right_inj,
          List.prefix_append_right_inj, ← CutGuarded]
        rcases Ini.prefix_append_cases hr with hline | ⟨t, rfl, ht⟩
        · exact readsGuarded_line hne hline
        · cases t with
          | nil => exact readsGuarded_line hne (by rw [List.append_nil])
          | cons c q =>
              obtain ⟨rfl, hq⟩ := List.cons_prefix_cons.mp ht
              exact readsGuarded_behind hg hne hq

/-- The default settings with a token. -/
def withToken : APIConfig :=
  { rest := { bearerToken := bytes "t" } }

/-- The sample has a token that is kept. -/
theorem held_withToken : withToken.Held := by
  have hdefault := held_default
  simp only [Held, texts, List.forall_mem_cons] at hdefault ⊢
  obtain ⟨h1, -, h⟩ := hdefault
  exact ⟨h1, by decide, h⟩

/-- A file that is empty turns the REST API on without a token. -/
theorem not_guarded_empty :
    withToken.Held ∧ withToken.rest.bearerToken ≠ [] ∧ [] <+: save withToken ∧
      ¬ Guarded withToken (some []) [] [] := by
  refine ⟨held_withToken, by decide, List.nil_prefix, ?_⟩
  rintro (h | ⟨h, -⟩ | h) <;> cases h

/-- A file that ends inside the REST API's switch leaves it off. -/
theorem guarded_iff_withToken :
    Guarded withToken (some (upToEnabled withToken)) [] [] ↔
      LeavesGuarded withToken (some (upToEnabled withToken)) [] := by
  refine guarded_iff held_withToken (by decide) ?_ [] []
  rintro p ⟨⟩
  rw [upToEnabled_eq, save_eq, List.append_assoc]
  exact (List.prefix_append_right_inj _).mpr (List.prefix_append _ _)

end RSDWServerAPI.APIConfig
