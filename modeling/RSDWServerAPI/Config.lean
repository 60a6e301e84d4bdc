import RSDWServerAPI.Bytes
import RSDWServerAPI.Ini

/-!
# `config/config.h`: the settings

`settings.ini` is read over the default settings at every start, and written again with what has
been read. Where there is no file, the token and the password are taken from `/dev/urandom`.

## Main results

* `load_save`: **what is read from a file that has been written**: every number and every switch
  as it was, and the texts as their lines are read.
-/

namespace RSDWServerAPI

/-- `RestConfig`. -/
structure RestConfig where
  enabled : Bool := true
  port : Int32 := 8080
  bindAddress : Bytes := bytes "0.0.0.0"
  bearerToken : Bytes := []
  ipWhitelist : Bytes := []
  deriving DecidableEq, Repr

/-- `RconConfig`. -/
structure RconConfig where
  enabled : Bool := false
  port : Int32 := 27020
  bindAddress : Bytes := bytes "0.0.0.0"
  password : Bytes := []
  ipWhitelist : Bytes := []
  commandsPerMinute : Int32 := 60
  commandBurst : Int32 := 15
  maxFailedAuth : Int32 := 5
  failWindowSeconds : Int32 := 60
  banSeconds : Int32 := 300
  maxConnections : Int32 := 16
  deriving DecidableEq, Repr

/-- `DiscordConfig`. -/
structure DiscordConfig where
  enabled : Bool := false
  webhookUrl : Bytes := []
  deathWebhookUrl : Bytes := []
  username : Bytes := bytes "Dragonwilds"
  deriving DecidableEq, Repr

/-- `APIConfig`. -/
structure APIConfig where
  enableLogging : Bool := true
  verboseLogging : Bool := true
  rest : RestConfig := {}
  rcon : RconConfig := {}
  discord : DiscordConfig := {}
  deriving DecidableEq, Repr

namespace APIConfig

/-! ### Reading -/

/-- `ParseBool`. -/
def parseBool (value : Bytes) : Bool :=
  value == bytes "true" || value == bytes "1"

/-- `Apply`. -/
def apply (g : APIConfig) (sect key value : Bytes) : APIConfig :=
  if sect = bytes "General" then
    if key = bytes "EnableLogging" then { g with enableLogging := parseBool value }
    else if key = bytes "VerboseLogging" then { g with verboseLogging := parseBool value }
    else g
  else if sect = bytes "API" then
    if key = bytes "Enabled" then { g with rest.enabled := parseBool value }
    else if key = bytes "Port" then { g with rest.port := atoi value }
    else if key = bytes "BindAddress" then { g with rest.bindAddress := value }
    else if key = bytes "BearerToken" then { g with rest.bearerToken := value }
    else if key = bytes "IPWhitelist" then { g with rest.ipWhitelist := value }
    else g
  else if sect = bytes "RCON" then
    if key = bytes "Enabled" then { g with rcon.enabled := parseBool value }
    else if key = bytes "Port" then { g with rcon.port := atoi value }
    else if key = bytes "BindAddress" then { g with rcon.bindAddress := value }
    else if key = bytes "Password" then { g with rcon.password := value }
    else if key = bytes "IPWhitelist" then { g with rcon.ipWhitelist := value }
    else if key = bytes "CommandsPerMinute" then { g with rcon.commandsPerMinute := atoi value }
    else if key = bytes "CommandBurst" then { g with rcon.commandBurst := atoi value }
    else if key = bytes "MaxFailedAuth" then { g with rcon.maxFailedAuth := atoi value }
    else if key = bytes "FailWindowSeconds" then { g with rcon.failWindowSeconds := atoi value }
    else if key = bytes "BanSeconds" then { g with rcon.banSeconds := atoi value }
    else if key = bytes "MaxConnections" then { g with rcon.maxConnections := atoi value }
    else g
  else if sect = bytes "Discord" then
    if key = bytes "Enabled" then { g with discord.enabled := parseBool value }
    else if key = bytes "WebhookUrl" then { g with discord.webhookUrl := value }
    else if key = bytes "DeathWebhookUrl" then { g with discord.deathWebhookUrl := value }
    else if key = bytes "Username" then { g with discord.username := value }
    else g
  else g

/-- The call of `Apply` for an assignment of the file. -/
def assign (g : APIConfig) (a : Ini.Assignment) : APIConfig :=
  g.apply a.sect a.key a.value

/-- `Load`, from a file with this content: `Apply` for one assignment after the other. -/
def load (g : APIConfig) (content : Bytes) : APIConfig :=
  (Ini.assignments content).foldl assign g

/-! ### Secrets -/

/-- A digit of `hex`. -/
def hex (n : UInt8) : UInt8 :=
  if n < 10 then 48 + n else 87 + n

/-- `GenerateSecureToken(length)`, where `buf` is what can be read from `/dev/urandom` of the
bytes that it asks for; nothing when it cannot be opened. -/
def generateSecureToken (length : ℕ) (buf : Bytes) : Bytes :=
  if buf.length ≠ length then [] else buf.flatMap fun c => [hex (c / 16), hex (c % 16)]

/-- `GenerateSecrets`, with what its two calls read from `/dev/urandom`. -/
def generateSecrets (g : APIConfig) (tokenBytes passwordBytes : Bytes) : APIConfig :=
  { g with
    rest.bearerToken := generateSecureToken 32 tokenBytes
    rcon.password := generateSecureToken 12 passwordBytes }

/-- What `InitThread` does with the settings before it saves them. -/
def start (file : Option Bytes) (tokenBytes passwordBytes : Bytes) : APIConfig :=
  match file with
  | some content => load {} content
  | none => generateSecrets {} tokenBytes passwordBytes

/-! ### Writing -/

/-- `Bool`. -/
def boolText (value : Bool) : Bytes :=
  if value then bytes "true" else bytes "false"

/-- An `int` on an output stream. -/
def intText (value : Int32) : Bytes :=
  decimal value.toInt

/-- The line of a comment, without its first character. -/
def remark (text : String) : Ini.Item :=
  .comment (bytes text)

/-- The line of a setting. -/
def setting (key : String) (value : Bytes) : Ini.Item :=
  .assign (bytes key) value

/-- The lines that `Save` writes in front of the REST API's switch. -/
def generalItems (g : APIConfig) : List Ini.Item :=
  [remark " RSDWRestAPI configuration",
    remark " Generated automatically - edit as needed, then restart the server.",
    .blank,
    .header (bytes "General"),
    setting "EnableLogging" (boolText g.enableLogging),
    remark " Logs every discovery step and every request. Leave on unless the volume hurts.",
    setting "VerboseLogging" (boolText g.verboseLogging),
    .blank,
    .header (bytes "API"),
    remark " Set to false to disable the REST API."]

/-- The lines that `Save` writes between the REST API's switch and its token. -/
def restItems (g : APIConfig) : List Ini.Item :=
  [remark " Bind to 127.0.0.1 to restrict to localhost only (recommended).",
    setting "BindAddress" g.rest.bindAddress,
    setting "Port" (intText g.rest.port),
    remark " Bearer token for authentication. Leave it empty to disable auth entirely -",
    remark " an empty value is kept as written, not regenerated on the next start."]

/-- The lines that `Save` writes behind the REST API's token. -/
def furtherItems (g : APIConfig) : List Ini.Item :=
  [remark " Comma separated addresses and CIDR blocks. Empty allows everyone.",
    setting "IPWhitelist" g.rest.ipWhitelist,
    .blank,
    .header (bytes "RCON"),
    remark " Source RCON, off by default. Set to true to enable it; the password",
    remark " below was generated on first run and is ready to use.",
    setting "Enabled" (boolText g.rcon.enabled),
    setting "BindAddress" g.rcon.bindAddress,
    setting "Port" (intText g.rcon.port),
    remark " An empty password keeps RCON from starting at all, by design.",
    setting "Password" g.rcon.password,
    remark " Comma separated addresses and CIDR blocks. Empty allows everyone.",
    setting "IPWhitelist" g.rcon.ipWhitelist,
    remark " Sustained command rate per client address, and the burst it may spend at once.",
    setting "CommandsPerMinute" (intText g.rcon.commandsPerMinute),
    setting "CommandBurst" (intText g.rcon.commandBurst),
    remark " Failed logins allowed inside FailWindowSeconds before the address is refused",
    remark " connections for BanSeconds.",
    setting "MaxFailedAuth" (intText g.rcon.maxFailedAuth),
    setting "FailWindowSeconds" (intText g.rcon.failWindowSeconds),
    setting "BanSeconds" (intText g.rcon.banSeconds),
    setting "MaxConnections" (intText g.rcon.maxConnections),
    .blank,
    .header (bytes "Discord"),
    remark " Relays in-game chat and player deaths to Discord webhooks. Off by default.",
    remark " DeathWebhookUrl falls back to WebhookUrl when empty.",
    setting "Enabled" (boolText g.discord.enabled),
    setting "WebhookUrl" g.discord.webhookUrl,
    setting "DeathWebhookUrl" g.discord.deathWebhookUrl,
    setting "Username" g.discord.username]

/-- The lines that `Save` writes, in their order. -/
def saveItems (g : APIConfig) : List Ini.Item :=
  generalItems g ++ setting "Enabled" (boolText g.rest.enabled) :: restItems g ++
    setting "BearerToken" g.rest.bearerToken :: furtherItems g

/-- `Save`: the content of the file. -/
def save (g : APIConfig) : Bytes :=
  Ini.print (saveItems g)

/-! ### The settings that are texts -/

/-- The settings that are texts. -/
def texts (g : APIConfig) : List Bytes :=
  [g.rest.bindAddress, g.rest.bearerToken, g.rest.ipWhitelist, g.rcon.bindAddress,
    g.rcon.password, g.rcon.ipWhitelist, g.discord.webhookUrl, g.discord.deathWebhookUrl,
    g.discord.username]

/-- The settings with another text for each text. -/
def mapTexts (f : Bytes → Bytes) (g : APIConfig) : APIConfig :=
  { g with
    rest.bindAddress := f g.rest.bindAddress
    rest.bearerToken := f g.rest.bearerToken
    rest.ipWhitelist := f g.rest.ipWhitelist
    rcon.bindAddress := f g.rcon.bindAddress
    rcon.password := f g.rcon.password
    rcon.ipWhitelist := f g.rcon.ipWhitelist
    discord.webhookUrl := f g.discord.webhookUrl
    discord.deathWebhookUrl := f g.discord.deathWebhookUrl
    discord.username := f g.discord.username }

/-- The settings as they can be held: each text is one that a line can have, without blanks at
its ends. -/
def Held (g : APIConfig) : Prop :=
  ∀ t ∈ texts g, 10 ∉ t ∧ Ini.trim t = t

/-! ### Reading back -/

/-- A switch is read back. -/
theorem parseBool_boolText (b : Bool) : parseBool (Ini.value (boolText b)) = b := by
  cases b <;> rfl

/-- The bytes of a number are left alone by the reader. -/
theorem value_intText (i : Int32) : Ini.value (intText i) = intText i := by
  have hplain : ∀ c ∈ intText i, Ascii.isBlank c = false ∧ c ≠ 13 := by
    intro c hc
    rcases mem_decimal hc with rfl | hdigit
    · decide
    · obtain ⟨hspace, -, -⟩ := isDigit_ne hdigit
      constructor
      · rw [Ascii.isBlank, Bool.or_eq_false_iff, beq_eq_false_iff_ne, beq_eq_false_iff_ne]
        constructor
        · rintro rfl
          cases hspace
        · rintro rfl
          cases hspace
      · rintro rfl
        cases hspace
  refine (Ini.value_eq_self_iff (Ini.trim_eq_self fun c hc => (hplain c hc).1)).mpr fun hlast => ?_
  exact (hplain 13 (List.mem_of_getLast? hlast)).2 rfl

/-- A number is read back. -/
theorem atoi_intText (i : Int32) : atoi (Ini.value (intText i)) = i := by
  rw [value_intText, intText, atoi_decimal]

/-- **What is read from the lines of `Save`.** -/
theorem foldl_assign_saveItems (g : APIConfig) :
    (Ini.assigned [] (saveItems g)).foldl assign {} = g.mapTexts Ini.value := by
  have hfold : (Ini.assigned [] (saveItems g)).foldl assign {} =
      { enableLogging := parseBool (Ini.value (boolText g.enableLogging))
        verboseLogging := parseBool (Ini.value (boolText g.verboseLogging))
        rest :=
          { enabled := parseBool (Ini.value (boolText g.rest.enabled))
            port := atoi (Ini.value (intText g.rest.port))
            bindAddress := Ini.value g.rest.bindAddress
            bearerToken := Ini.value g.rest.bearerToken
            ipWhitelist := Ini.value g.rest.ipWhitelist }
        rcon :=
          { enabled := parseBool (Ini.value (boolText g.rcon.enabled))
            port := atoi (Ini.value (intText g.rcon.port))
            bindAddress := Ini.value g.rcon.bindAddress
            password := Ini.value g.rcon.password
            ipWhitelist := Ini.value g.rcon.ipWhitelist
            commandsPerMinute := atoi (Ini.value (intText g.rcon.commandsPerMinute))
            commandBurst := atoi (Ini.value (intText g.rcon.commandBurst))
            maxFailedAuth := atoi (Ini.value (intText g.rcon.maxFailedAuth))
            failWindowSeconds := atoi (Ini.value (intText g.rcon.failWindowSeconds))
            banSeconds := atoi (Ini.value (intText g.rcon.banSeconds))
            maxConnections := atoi (Ini.value (intText g.rcon.maxConnections)) }
        discord :=
          { enabled := parseBool (Ini.value (boolText g.discord.enabled))
            webhookUrl := Ini.value g.discord.webhookUrl
            deathWebhookUrl := Ini.value g.discord.deathWebhookUrl
            username := Ini.value g.discord.username } } := by
    rfl
  rw [hfold]
  simp only [parseBool_boolText, atoi_intText]
  rfl

/-- A switch is written on one line. -/
theorem boolText_not_mem (b : Bool) : 10 ∉ boolText b := by
  cases b <;> decide

/-- A number is written on one line. -/
theorem intText_not_mem (i : Int32) : 10 ∉ intText i := by
  intro hmem
  rcases mem_decimal hmem with h | h <;> cases h

/-- The line of a comment is a line. -/
theorem remark_wellFormed (l : List Char) (h : 10 ∉ l.map fun c => UInt8.ofNat c.toNat) :
    (remark (String.ofList l)).WellFormed := by
  rw [remark, bytes_ofList]
  exact h

/-- The line of a section is a line. -/
theorem header_wellFormed (l : List Char) (h : Ini.IsName (l.map fun c => UInt8.ofNat c.toNat)) :
    (Ini.Item.header (bytes (String.ofList l))).WellFormed := by
  rw [bytes_ofList]
  exact h

/-- The line of a setting is a line. -/
theorem setting_wellFormed (l : List Char) (h : Ini.IsName (l.map fun c => UInt8.ofNat c.toNat))
    {v : Bytes} (hv : 10 ∉ v) : (setting (String.ofList l) v).WellFormed := by
  rw [setting, bytes_ofList]
  exact ⟨h, hv⟩

/-- The lines of `Save` are lines. -/
theorem saveItems_wellFormed {g : APIConfig} (hg : g.Held) :
    ∀ item ∈ saveItems g, item.WellFormed := by
  have hline : ∀ t ∈ texts g, 10 ∉ t := fun t ht => (hg t ht).1
  simp only [texts, List.forall_mem_cons] at hline
  obtain ⟨h1, h2, h3, h4, h5, h6, h7, h8, h9, -⟩ := hline
  have hbool := boolText_not_mem
  have hint := intText_not_mem
  rw [saveItems, generalItems, restItems, furtherItems]
  simp only [List.cons_append, List.nil_append]
  repeat first
    | refine List.forall_mem_cons.mpr ⟨remark_wellFormed _ (by decide +kernel), ?_⟩
    | refine List.forall_mem_cons.mpr ⟨header_wellFormed _ (by decide +kernel), ?_⟩
    | refine List.forall_mem_cons.mpr ⟨setting_wellFormed _ (by decide +kernel) (hbool _), ?_⟩
    | refine List.forall_mem_cons.mpr ⟨setting_wellFormed _ (by decide +kernel) (hint _), ?_⟩
    | refine List.forall_mem_cons.mpr
        ⟨setting_wellFormed _ (by decide +kernel) (by assumption), ?_⟩
    | refine List.forall_mem_cons.mpr ⟨trivial, ?_⟩
  exact List.forall_mem_nil _

/-- **What is read from a file that has been written.** -/
theorem load_save {g : APIConfig} (hg : g.Held) : load {} (save g) = g.mapTexts Ini.value := by
  have hscan := Ini.scan_print_append (saveItems_wellFormed hg) [] []
  rw [List.append_nil] at hscan
  rw [load, Ini.assignments, save, hscan, ← foldl_assign_saveItems]
  exact congrArg _ (List.append_nil _)

/-! ### The settings that are held -/

/-- What `Apply` sets is held when its value is. -/
theorem held_apply {g : APIConfig} (hg : g.Held) (sect key : Bytes) {v : Bytes}
    (hv : 10 ∉ v ∧ Ini.trim v = v) : (g.apply sect key v).Held := by
  simp only [Held, texts, List.forall_mem_cons] at hg
  obtain ⟨h1, h2, h3, h4, h5, h6, h7, h8, h9, h⟩ := hg
  rw [apply]
  repeat' refine iteInduction (fun _ => ?_) fun _ => ?_
  all_goals simp only [Held, texts, List.forall_mem_cons]
  all_goals exact ⟨by assumption, by assumption, by assumption, by assumption, by assumption,
    by assumption, by assumption, by assumption, by assumption, h⟩

/-- The default settings are held. -/
theorem held_default : Held {} := by
  have hall : (texts {}).all (fun t => decide (10 ∉ t) && Ini.trim t == t) = true := by
    decide +kernel
  intro t ht
  simpa using List.all_eq_true.mp hall t ht

/-- What is read over settings that are held is held. -/
theorem held_load {g : APIConfig} (hg : g.Held) (content : Bytes) : (g.load content).Held := by
  have hvalues : ∀ a ∈ Ini.assignments content, 10 ∉ a.value ∧ Ini.trim a.value = a.value :=
    fun a ha => Ini.value_of_mem_scan (fun _ => Ini.not_mem_of_mem_lines) ha
  rw [load]
  generalize Ini.assignments content = as at hvalues
  induction as generalizing g with
  | nil => exact hg
  | cons a as ih =>
      obtain ⟨ha, has⟩ := List.forall_mem_cons.mp hvalues
      exact ih (held_apply hg a.sect a.key ha) has

/-- A generated secret is a text of hexadecimal digits. -/
theorem mem_generateSecureToken {length : ℕ} {buf : Bytes} {c : UInt8}
    (h : c ∈ generateSecureToken length buf) : c ≠ 10 ∧ c ≠ 13 ∧ Ascii.isBlank c = false := by
  rw [generateSecureToken] at h
  split_ifs at h
  · cases h
  · have hall : ∀ k : Fin 16, hex (UInt8.ofNat k) ≠ 10 ∧ hex (UInt8.ofNat k) ≠ 13 ∧
        Ascii.isBlank (hex (UInt8.ofNat k)) = false := by decide +kernel
    have hhex : ∀ n : UInt8, n.toNat < 16 →
        hex n ≠ 10 ∧ hex n ≠ 13 ∧ Ascii.isBlank (hex n) = false := by
      intro n hn
      have := hall ⟨n.toNat, hn⟩
      rwa [UInt8.ofNat_toNat] at this
    obtain ⟨d, -, hc⟩ := List.mem_flatMap.mp h
    have hdiv : (d / 16).toNat < 16 := by
      have := d.toNat_lt
      rw [UInt8.toNat_div]
      exact Nat.div_lt_of_lt_mul this
    have hmod : (d % 16).toNat < 16 := by
      rw [UInt8.toNat_mod]
      exact Nat.mod_lt _ (by decide)
    rcases List.mem_pair.mp hc with rfl | rfl
    · exact hhex _ hdiv
    · exact hhex _ hmod

/-- A generated secret is held. -/
theorem held_generateSecureToken (length : ℕ) (buf : Bytes) :
    10 ∉ generateSecureToken length buf ∧
      Ini.trim (generateSecureToken length buf) = generateSecureToken length buf :=
  ⟨fun h => (mem_generateSecureToken h).1 rfl,
    Ini.trim_eq_self fun _ hc => (mem_generateSecureToken hc).2.2⟩

/-- **What the settings are at every start** is held. -/
theorem held_start (file : Option Bytes) (tokenBytes passwordBytes : Bytes) :
    (start file tokenBytes passwordBytes).Held := by
  cases file with
  | some content => exact held_load held_default content
  | none =>
      have htoken := held_generateSecureToken 32 tokenBytes
      have hpassword := held_generateSecureToken 12 passwordBytes
      have hdefault := held_default
      simp only [Held, texts, List.forall_mem_cons] at hdefault ⊢
      obtain ⟨h1, -, h3, h4, -, h6, h7, h8, h9, h⟩ := hdefault
      exact ⟨h1, htoken, h3, h4, hpassword, h6, h7, h8, h9, h⟩

end APIConfig

end RSDWServerAPI
