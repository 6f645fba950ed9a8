import AvaSettle.Configuration.Environment
import AvaSettle.Sql.Lexer

/-!
# Settings of the file

The getters return what the config file says, for valid values and variables that are not set, except at the
boundaries where the text of a value means something else: no origins are all origins, no assets are the
default, no minutes are no expiration, and no hops or a text that reads as a flag or a number are not themselves.
-/

namespace AvaSettle.Environment

/-! ## What a file says -/

/-- The integers that are written with their digits and read back. -/
def Safe (n : Nat) : Prop := n ≤ 9007199254740991

/-- The functions on texts behave on the words of the settings as they do. -/
structure Texts.Lawful (T : Texts) : Prop where
  lower_true : T.toLowerCase "true" = "true"
  lower_false : T.toLowerCase "false" = "false"
  lower_repr : ∀ n : Nat, T.toLowerCase n.repr = n.repr
  upper_asset : ∀ a ∈ ["USDC", "USDT"], T.toUpperCase a = a
  integer_repr : ∀ n, Safe n → T.integer n.repr = some (n : Int)

/-- What origins say: `*` is all of them. -/
def Origins.said : Origins → CorsOrigins
  | .text s => if trim s = "*" then .all else .only (originsOf s)
  | .list l => if l = ["*"] then .all else .only l

/-- A valid value of the origins: in a list, texts without commas that are not blank. -/
def Origins.Valid : Origins → Prop
  | .text _ => True
  | .list l => ∀ o ∈ l, trim o ≠ "" ∧ ',' ∉ o.toList

/-- A valid value of `trustProxy`. -/
def TrustProxy.Valid : TrustProxy → Prop
  | .flag _ => True
  | .hops n => ∃ m : Nat, n = m ∧ Safe m
  | .text s => s ≠ ""

/-- Valid values of an asset. -/
structure AssetConfig.Valid (a : AssetConfig) : Prop where
  address : ∀ s ∈ a.address, isAddress s = true
  decimals : ∀ n ∈ a.decimals, Safe n
  maxPayoutAmount : ∀ s ∈ a.maxPayoutAmount, s ≠ ""

/-- The values of the file are valid: numbers that are integers, addresses that are addresses, texts that are
    not empty, each within the bounds of its getter. -/
structure ConfigFile.Valid (cfg : ConfigFile) : Prop where
  port : ∀ n ∈ cfg.port, Safe n
  rpcUrl : ∀ s ∈ cfg.rpcUrl, s ≠ ""
  explorerBaseUrl : ∀ s ∈ cfg.explorerBaseUrl, s ≠ ""
  corsOrigins : ∀ o ∈ cfg.corsOrigins, o.Valid
  maxConnections : ∀ n ∈ cfg.database.bind (·.maxConnections), 1 ≤ n ∧ Safe n
  lookbackBlocks : ∀ n ∈ cfg.payin.bind (·.lookbackBlocks), Safe n
  derivationAccount : ∀ n ∈ cfg.payin.bind (·.derivationAccount), Safe n
  defaultExpirationMinutes : ∀ n ∈ cfg.payin.bind (·.defaultExpirationMinutes), n ≤ 10080
  paymentRouterAddress : ∀ s ∈ cfg.payin.bind (·.paymentRouterAddress), isAddress s = true
  enabled : ∀ l ∈ cfg.assets.bind (·.enabled), ∀ a ∈ l, a ∈ ["USDC", "USDT"]
  usdc : ∀ a ∈ cfg.assets.bind (·.USDC), a.Valid
  usdt : ∀ a ∈ cfg.assets.bind (·.USDT), a.Valid
  minConfirmations : ∀ n ∈ cfg.blockchain.bind (·.minConfirmations), Safe n
  retryAttempts : ∀ n ∈ cfg.webhook.bind (·.retryAttempts), Safe n
  dispatchIntervalSeconds : ∀ n ∈ cfg.webhook.bind (·.dispatchIntervalSeconds), Safe n
  autoReconcileIntervalSeconds : ∀ n ∈ cfg.autoReconcileIntervalSeconds, 10 ≤ n ∧ Safe n
  throttleRps : ∀ n ∈ cfg.throttleRps, Safe n
  trustProxy : ∀ t ∈ cfg.trustProxy, t.Valid

/-- What the file says of an asset. The general cap is no setting of the file. -/
def AssetConfig.said (symbol : String) (a : Option AssetConfig) (cap : Option String) : AssetRuntimeConfig where
  symbol := symbol
  address := a.bind (·.address)
  decimals := (a.bind (·.decimals)).getD 6
  maxPayoutAmount := a.bind (·.maxPayoutAmount) <|> cap
  configured := (a.bind (·.address)).isSome

/-- The getters return what the file says, and their defaults where it says nothing. -/
structure Says (T : Texts) (cfg : ConfigFile) (env : Env) : Prop where
  settlementNetwork : settlementNetwork env = .ok (cfg.network.getD .avalancheFuji)
  networkSummary :
    networkSummary env = .ok (summaryOf cfg.explorerBaseUrl cfg.rpcUrl (cfg.network.getD .avalancheFuji))
  port : port T env = .ok (cfg.port.getD 3001)
  corsOrigins : corsOrigins env = (cfg.corsOrigins.map Origins.said).getD .all
  databaseSsl : databaseSsl T env = (cfg.database.bind (·.ssl)).getD false
  databaseSslRejectUnauthorized :
    databaseSslRejectUnauthorized T env = (cfg.database.bind (·.sslRejectUnauthorized)).getD true
  databaseMaxConnections : databaseMaxConnections T env = .ok ((cfg.database.bind (·.maxConnections)).getD 5)
  databaseAutoMigrate : databaseAutoMigrate T env = (cfg.database.bind (·.autoMigrate)).getD true
  payInLookbackBlocks : payInLookbackBlocks T env = .ok ((cfg.payin.bind (·.lookbackBlocks)).getD 50000)
  payInDerivationAccount : payInDerivationAccount T env = .ok ((cfg.payin.bind (·.derivationAccount)).getD 0)
  payInDefaultExpirationMinutes :
    payInDefaultExpirationMinutes T env = .ok (cfg.payin.bind (·.defaultExpirationMinutes))
  paymentRouterAddress : paymentRouterAddress env = .ok (cfg.payin.bind (·.paymentRouterAddress))
  enabledAssets : enabledAssets T env = (cfg.assets.bind (·.enabled)).getD ["USDC"]
  usdc : getAssetConfig T env "USDC" =
    .ok (AssetConfig.said "USDC" (cfg.assets.bind (·.USDC)) (env "AVASETTLE_MAX_PAYOUT_AMOUNT"))
  usdt : getAssetConfig T env "USDT" =
    .ok (AssetConfig.said "USDT" (cfg.assets.bind (·.USDT)) (env "AVASETTLE_MAX_PAYOUT_AMOUNT"))
  minConfirmations : minConfirmations T env = .ok ((cfg.blockchain.bind (·.minConfirmations)).getD 2)
  waitForReceipt : waitForReceipt T env = (cfg.blockchain.bind (·.waitForReceipt)).getD false
  webhookRetryAttempts : webhookRetryAttempts T env = .ok ((cfg.webhook.bind (·.retryAttempts)).getD 3)
  webhookDispatchIntervalSeconds :
    webhookDispatchIntervalSeconds T env = .ok ((cfg.webhook.bind (·.dispatchIntervalSeconds)).getD 5)
  autoReconcileIntervalSeconds : autoReconcileIntervalSeconds T env = .ok cfg.autoReconcileIntervalSeconds
  autoSweep : autoSweep T env = cfg.autoSweep.getD false
  throttleRps : throttleRps T env = .ok (cfg.throttleRps.getD 100)
  trustProxy : trustProxy T env = cfg.trustProxy.getD (.flag false)

/-- Origins whose text says the same: at least one, and none with white space around it. -/
def Origins.Kept : Origins → Prop
  | .text s => s ≠ ""
  | .list l => l ≠ [] ∧ ∀ o ∈ l, trim o = o

/-- A value of `trustProxy` whose text says the same: a flag, at least one hop, or a text without white space
    around it that reads neither as a flag nor as a number of hops. -/
def TrustProxy.Kept (T : Texts) : TrustProxy → Prop
  | .flag _ => True
  | .hops n => n ≠ 0
  | .text s => trim s = s ∧ T.toLowerCase s ∉ ["false", "0", "no", "off", "true", "yes", "on"] ∧
    ∀ n, T.integer s = some n → n ≤ 0

/-- The values whose texts say the same. -/
structure ConfigFile.Kept (T : Texts) (cfg : ConfigFile) : Prop where
  corsOrigins : ∀ o ∈ cfg.corsOrigins, o.Kept
  enabled : cfg.assets.bind (·.enabled) ≠ some []
  defaultExpirationMinutes : cfg.payin.bind (·.defaultExpirationMinutes) ≠ some 0
  trustProxy : ∀ t ∈ cfg.trustProxy, t.Kept T

/-! ## The variables -/

/-- The variables that the file may set. -/
def configVariables : List String := (({} : ConfigFile).settings).map Prod.fst

variable {T : Texts} {cfg : ConfigFile} {env : Env} {name : String}

/-- The variables of the file differ. -/
lemma configVariables_nodup : configVariables.Nodup := by decide +kernel

/-- The settings of a file are for its variables, in order. -/
lemma settings_names (cfg : ConfigFile) : cfg.settings.map Prod.fst = configVariables := rfl

/-- Each variable that is not set gets its first text, and the others stay. -/
lemma foldl_fill (vars : List (String × String)) (env : Env) (name : String) :
    vars.foldl fill env name = (env name <|> vars.lookup name) := by
  induction vars generalizing env with
  | nil => simp
  | cons p vars ih =>
    obtain ⟨key, value⟩ := p
    rw [List.foldl_cons, ih, List.lookup_cons, fill]
    by_cases same : name = key
    · subst same
      cases free : env name with
      | none => simp
      | some v => simp [free]
    · rw [beq_false_of_ne same]
      split
      · rw [Function.update_of_ne same]
      · rfl

/-- A setting is found by its name. -/
lemma lookup_settings (settings : List (String × Option String)) (distinct : (settings.map Prod.fst).Nodup)
    {k : Nat} {v : Option String} (at' : settings[k]? = some (name, v)) :
    (settings.filterMap fun p => p.2.map fun val => (p.1, val)).lookup name = v := by
  induction settings generalizing k with
  | nil => cases at'
  | cons p settings ih =>
    obtain ⟨key, value⟩ := p
    obtain ⟨free, rest⟩ := List.nodup_cons.1 distinct
    cases k with
    | zero =>
      cases at'
      cases v with
      | some v => simp
      | none =>
        rw [List.filterMap_cons_none rfl, List.lookup_eq_none_iff]
        intro p mem
        obtain ⟨q, inside, found⟩ := List.mem_filterMap.1 mem
        obtain ⟨val, -, rfl⟩ := Option.map_eq_some_iff.1 found
        rw [bne_iff_ne]
        rintro rfl
        exact free (List.mem_map.2 ⟨q, inside, rfl⟩)
    | succ k =>
      have inside : name ∈ settings.map Prod.fst := List.mem_map.2 ⟨_, List.mem_of_getElem? at', rfl⟩
      have other : name ≠ key := fun eq => free (eq ▸ inside)
      have later := ih rest at'
      cases value with
      | some value =>
        change ((key, value) :: settings.filterMap _).lookup name = v
        rw [List.lookup_cons, beq_false_of_ne other]
        exact later
      | none =>
        rw [List.filterMap_cons_none rfl]
        exact later

/-- A variable of the file has its text. -/
lemma loaded_at (unset : ∀ name ∈ configVariables, env name = none) (k : Nat) {v : Option String}
    (at' : cfg.settings[k]? = some (name, v)) : loadConfigFile (.parsed cfg) env name = v := by
  have inside : name ∈ configVariables := by
    rw [← settings_names cfg]
    exact List.mem_map.2 ⟨_, List.mem_of_getElem? at', rfl⟩
  rw [loadConfigFile, foldl_fill, unset name inside, mapToEnvVars,
    lookup_settings cfg.settings (settings_names cfg ▸ configVariables_nodup) at']
  rfl

/-! ## Reading texts back -/

variable {n : Option Nat} {b : Option Bool} {a : Option String} {s o : String} {l : List String} {c : Char}

/-- A numeral is not empty. -/
lemma repr_ne_empty {n : Nat} : n.repr ≠ "" := Sql.repr_ne_empty

/-- A number of the file is read back. -/
lemma readInt_number (lawful : T.Lawful) (written : env name = setNumber n) (safe : ∀ m ∈ n, Safe m)
    (fallback : Nat) : readInt T env name fallback = .ok (n.getD fallback) := by
  cases n with
  | none => rw [readInt, written]; rfl
  | some n =>
    have read := lawful.integer_repr n (safe n rfl)
    rw [readInt, written]
    simp only [setNumber, Option.map_some, if_neg repr_ne_empty, read]
    rw [if_neg (by omega)]
    rfl

/-- A flag of the file is read back. -/
lemma readBoolean_flag (lawful : T.Lawful) (written : env name = setFlag b) (fallback : Bool) :
    readBoolean T env name fallback = b.getD fallback := by
  cases b with
  | none => rw [readBoolean, written]; rfl
  | some b =>
    rw [readBoolean, written]
    cases b with
    | true => simp [setFlag, lawful.lower_true]
    | false => simp [setFlag, lawful.lower_false]

/-- A text of the file is set as it is, unless it is empty. -/
lemma setText_eq (nonempty : ∀ s ∈ a, s ≠ "") : setText a = a := by
  cases a with
  | none => rfl
  | some s => simp [setText, Option.filter, nonempty s rfl]

/-- A text without spaces is trimmed. -/
lemma trim_of_noSpace (noSpace : ∀ c ∈ s.toList, isSpace c = false) : trim s = s := by
  have front (l : List Char) (free : ∀ c ∈ l, isSpace c = false) : l.dropWhile isSpace = l := by
    cases l with
    | nil => rfl
    | cons c l => rw [List.dropWhile_cons_of_neg (by rw [free c List.mem_cons_self]; exact Bool.false_ne_true)]
  rw [trim, front _ noSpace, front _ fun c mem => noSpace c (List.mem_reverse.1 mem), List.reverse_reverse,
    String.ofList_toList]

/-- A character that is no white space stays. -/
lemma mem_trim (mem : c ∈ s.toList) (noSpace : isSpace c = false) : c ∈ (trim s).toList := by
  have stays (l : List Char) (mem : c ∈ l) : c ∈ l.dropWhile isSpace := by
    induction l with
    | nil => cases mem
    | cons c' l ih =>
      by_cases space : isSpace c' = true
      · rw [List.dropWhile_cons_of_pos space]
        apply ih
        rcases List.mem_cons.1 mem with rfl | later
        · rw [space] at noSpace
          cases noSpace
        · exact later
      · rwa [List.dropWhile_cons_of_neg space]
  rw [trim, String.toList_ofList]
  exact List.mem_reverse.2 (stays _ (List.mem_reverse.2 (stays _ mem)))

/-- A list of texts without commas is read back from its join. -/
lemma splitCommas_joinCommas (some' : l ≠ []) (noComma : ∀ o ∈ l, ',' ∉ o.toList) :
    splitCommas (joinCommas l) = l := by
  have joined : (joinCommas l).toList = [','].intercalate (l.map String.toList) := by
    rw [joinCommas, String.toList_intercalate]
    rfl
  rw [splitCommas, joined, List.splitOn_intercalate _ _ (by simpa using some'), List.map_map]
  · conv_rhs => rw [← List.map_id l]
    exact List.map_congr_left fun o _ => String.ofList_toList
  · rw [List.forall_mem_map]
    exact noComma

/-- Printable ASCII characters are no spaces. -/
lemma noSpace_of_lt (low : 0x20 < c.toNat) (high : c.toNat < 0xa0) : isSpace c = false := by
  rw [Bool.eq_false_iff]
  intro space
  simp only [isSpace, Bool.or_eq_true, Bool.and_eq_true, decide_eq_true_eq] at space
  omega

/-- The codes of the digits. -/
lemma digit_bounds (digit : c.isDigit = true) : 48 ≤ c.toNat ∧ c.toNat ≤ 57 := by
  simp only [Char.isDigit, ge_iff_le, Bool.and_eq_true, decide_eq_true_eq, UInt32.le_iff_toNat_le] at digit
  exact digit

/-- The code of a character between two others is between theirs. -/
lemma char_bounds {x y : Char} (between : x ≤ c ∧ c ≤ y) : x.toNat ≤ c.toNat ∧ c.toNat ≤ y.toNat :=
  ⟨UInt32.le_iff_toNat_le.1 between.1, UInt32.le_iff_toNat_le.1 between.2⟩

/-- An address is trimmed and not empty. -/
lemma trim_address (address : isAddress s = true) : trim s = s ∧ s ≠ "" := by
  simp only [isAddress, Bool.and_eq_true, decide_eq_true_eq, List.all_eq_true, Bool.or_eq_true] at address
  obtain ⟨⟨front, long⟩, digits⟩ := address
  constructor
  · apply trim_of_noSpace
    intro c mem
    rw [← List.take_append_drop 2 s.toList, front] at mem
    rcases List.mem_append.1 mem with start | rest
    · simp only [List.mem_cons, List.not_mem_nil, or_false] at start
      rcases start with rfl | rfl <;> rfl
    · rcases digits c rest with (digit | lower) | upper
      · have bounds := digit_bounds digit
        exact noSpace_of_lt (by omega) (by omega)
      · have bounds := char_bounds lower
        simp only [Char.reduceToNat] at bounds
        exact noSpace_of_lt (by omega) (by omega)
      · have bounds := char_bounds upper
        simp only [Char.reduceToNat] at bounds
        exact noSpace_of_lt (by omega) (by omega)
  · rintro rfl
    cases long

/-- An address of the file is read back. -/
lemma readAddress_text (written : env name = setText a) (address : ∀ s ∈ a, isAddress s = true) :
    readAddress env name = .ok a := by
  cases a with
  | none => rw [readAddress, written]; rfl
  | some s =>
    have valid := address s rfl
    obtain ⟨same, nonempty⟩ := trim_address valid
    rw [readAddress, written, setText_eq fun t mem => by cases mem; exact nonempty]
    simp [same, nonempty, valid]

/-! ## The boundaries -/

/-- Origins that are not blank make a text. -/
lemma joinCommas_ne_empty (some' : l ≠ []) (noBlank : ∀ o ∈ l, trim o ≠ "") : joinCommas l ≠ "" := by
  cases l with
  | nil => exact absurd rfl some'
  | cons o l =>
    have first : o.toList ≠ [] := by
      intro nil
      apply noBlank o List.mem_cons_self
      rw [trim, nil]
      rfl
    intro eq
    have chars := congrArg String.toList eq
    rw [joinCommas, String.toList_intercalate] at chars
    cases l with
    | nil =>
      simp at chars
      exact first (by simp [chars])
    | cons o' l =>
      rw [List.map_cons, List.map_cons, List.intercalate_cons_cons] at chars
      simp at chars

/-- The getter on a variable that is set. -/
lemma corsOrigins_of {raw : String} (written : env "AVASETTLE_CORS_ORIGINS" = some raw) :
    corsOrigins env = if raw = "" ∨ trim raw = "*" then .all else .only (originsOf raw) := by
  rw [corsOrigins, written]
  simp only [Bool.or_eq_true, decide_eq_true_eq]

/-- Without a star the list comes back just when no origin has white space around it. -/
lemma originsOf_eq_iff (noBlank : ∀ o ∈ l, trim o ≠ "") (parts : splitCommas s = l) :
    originsOf s = l ↔ ∀ o ∈ l, trim o = o := by
  have kept : originsOf s = l.map trim := by
    rw [originsOf, parts]
    apply List.filter_eq_self.2
    rw [List.forall_mem_map]
    exact fun o mem => decide_eq_true (noBlank o mem)
  rw [kept]
  constructor
  · intro same o mem
    have pointwise : l.map trim = l.map id := by rw [same, List.map_id]
    exact List.map_inj_left.1 pointwise o mem
  · intro same
    conv_rhs => rw [← List.map_id l]
    exact List.map_congr_left same

/-- Only a single origin can read as the star, since a comma would stay. -/
lemma single_of_star (some' : l ≠ []) (star : trim (joinCommas l) = "*") : ∃ o, l = [o] ∧ trim o = "*" := by
  cases l with
  | nil => exact absurd rfl some'
  | cons o l =>
    cases l with
    | nil => exact ⟨o, rfl, by simpa [joinCommas] using star⟩
    | cons o' l =>
      have comma : ',' ∈ (joinCommas (o :: o' :: l)).toList := by
        rw [joinCommas, String.toList_intercalate, List.map_cons, List.map_cons, List.intercalate_cons_cons]
        simp
      have stays := mem_trim comma rfl
      rw [star] at stays
      exact absurd stays (by decide)

/-- Origins come back as they are said just when they are kept. -/
lemma corsOrigins_iff {origins : Option Origins}
    (written : env "AVASETTLE_CORS_ORIGINS" = origins.map Origins.setting) (valid : ∀ o ∈ origins, o.Valid) :
    corsOrigins env = (origins.map Origins.said).getD .all ↔ ∀ o ∈ origins, o.Kept := by
  cases origins with
  | none =>
    rw [corsOrigins, written]
    exact iff_of_true rfl nofun
  | some origins =>
    rw [corsOrigins_of written]
    simp only [Option.map_some, Option.getD_some, Option.mem_some_iff, forall_eq']
    cases origins with
    | text s =>
      change (if s = "" ∨ trim s = "*" then CorsOrigins.all else .only (originsOf s)) =
        (if trim s = "*" then .all else .only (originsOf s)) ↔ s ≠ ""
      by_cases empty : s = ""
      · subst empty
        exact iff_of_false (by decide) fun kept => kept rfl
      · refine iff_of_true ?_ empty
        simp only [empty, false_or]
    | list l =>
      have texts := valid _ rfl
      change (if joinCommas l = "" ∨ trim (joinCommas l) = "*" then CorsOrigins.all
        else .only (originsOf (joinCommas l))) = (if l = ["*"] then .all else .only l) ↔
        l ≠ [] ∧ ∀ o ∈ l, trim o = o
      by_cases empty : l = []
      · subst empty
        exact iff_of_false (by decide) fun kept => kept.1 rfl
      · have nonempty := joinCommas_ne_empty empty fun o mem => (texts o mem).1
        have parts := splitCommas_joinCommas empty fun o mem => (texts o mem).2
        by_cases star : trim (joinCommas l) = "*"
        · obtain ⟨o, rfl, trimmed⟩ := single_of_star empty star
          rw [if_pos (Or.inr star)]
          by_cases same : o = "*"
          · subst same
            exact iff_of_true (if_pos rfl).symm ⟨empty, by decide⟩
          · have other : [o] ≠ ["*"] := fun eq => same (List.singleton_inj.1 eq)
            rw [if_neg other]
            refine iff_of_false nofun fun kept => same ?_
            rw [← kept.2 o List.mem_cons_self, trimmed]
        · have other : l ≠ ["*"] := by
            rintro rfl
            exact star (by decide)
          rw [if_neg (not_or.2 ⟨nonempty, star⟩), if_neg other, CorsOrigins.only.injEq,
            originsOf_eq_iff (fun o mem => (texts o mem).1) parts]
          exact (and_iff_right empty).symm

/-- The enabled assets come back unless there are none. -/
lemma enabledAssets_iff (lawful : T.Lawful) {enabled : Option (List String)}
    (written : env "AVASETTLE_ENABLED_ASSETS" = enabled.map joinCommas)
    (valid : ∀ l ∈ enabled, ∀ a ∈ l, a ∈ ["USDC", "USDT"]) :
    enabledAssets T env = enabled.getD ["USDC"] ↔ enabled ≠ some [] := by
  have upper := lawful.upper_asset
  have trimmed : ∀ a ∈ ["USDC", "USDT"], trim a = a := by decide
  have nonempty : ∀ a ∈ ["USDC", "USDT"], a ≠ "" := by decide
  have noComma : ∀ a ∈ ["USDC", "USDT"], ',' ∉ a.toList := by decide
  /- a list of assets is read back, and the default is such a list -/
  have read (l : List String) (some' : l ≠ []) (assets : ∀ a ∈ l, a ∈ ["USDC", "USDT"])
      (raw : (env "AVASETTLE_ENABLED_ASSETS").getD "USDC" = joinCommas l) : enabledAssets T env = l := by
    have same : l.map (fun a => T.toUpperCase (trim a)) = l := by
      conv_rhs => rw [← List.map_id l]
      exact List.map_congr_left fun a mem => by rw [trimmed a (assets a mem), upper a (assets a mem), id]
    have full : l.filter (· ≠ "") = l :=
      List.filter_eq_self.2 fun a mem => decide_eq_true (nonempty a (assets a mem))
    have known : (l.filter fun a => ["USDC", "USDT"].contains a) = l :=
      List.filter_eq_self.2 fun a mem => List.contains_iff_mem.2 (assets a mem)
    simp only [enabledAssets]
    rw [raw, splitCommas_joinCommas some' fun a mem => noComma a (assets a mem), same, full, known,
      if_pos some']
  cases enabled with
  | none =>
    refine iff_of_true (read ["USDC"] nofun (by decide) ?_) nofun
    rw [written]
    decide
  | some l =>
    by_cases empty : l = []
    · subst empty
      refine iff_of_false (fun none' => ?_) fun kept => kept rfl
      simp only [Option.getD_some, enabledAssets] at none'
      split at none'
      · contradiction
      · cases none'
    · refine iff_of_true (read l empty (valid l rfl) ?_) fun eq => empty (Option.some.inj eq)
      rw [written]
      rfl

/-- The expiration comes back unless it is no minutes. -/
lemma payInDefaultExpirationMinutes_iff (lawful : T.Lawful)
    (written : env "AVASETTLE_PAYIN_DEFAULT_EXPIRATION_MINUTES" = setNumber n) (valid : ∀ m ∈ n, m ≤ 10080) :
    payInDefaultExpirationMinutes T env = .ok n ↔ n ≠ some 0 := by
  have read := readInt_number lawful written (fun m mem => Nat.le_trans (valid m mem) (by decide)) 0
  cases n with
  | none =>
    rw [payInDefaultExpirationMinutes, written]
    exact iff_of_true rfl nofun
  | some m =>
    have low := valid m rfl
    rw [payInDefaultExpirationMinutes, read, written]
    simp only [setNumber, Option.map_some, if_neg repr_ne_empty]
    change (if m = 0 then Except.ok none else _) = _ ↔ _
    by_cases zero : m = 0
    · subst zero
      exact iff_of_false nofun fun kept => kept rfl
    · rw [if_neg zero, if_neg (by change ¬10080 < m; omega)]
      exact iff_of_true rfl fun eq => zero (Option.some.inj eq)

/-- The interval of the file is read back. -/
lemma autoReconcileIntervalSeconds_number (lawful : T.Lawful)
    (written : env "AVASETTLE_AUTO_RECONCILE_INTERVAL_SECONDS" = setNumber n)
    (valid : ∀ m ∈ n, 10 ≤ m ∧ Safe m) : autoReconcileIntervalSeconds T env = .ok n := by
  cases n with
  | none => rw [autoReconcileIntervalSeconds, written]; rfl
  | some m =>
    obtain ⟨low, safe⟩ := valid m rfl
    rw [autoReconcileIntervalSeconds, written]
    simp only [setNumber, Option.map_some, if_neg repr_ne_empty, lawful.integer_repr m safe]
    rw [if_neg (by omega)]
    rfl

/-- The number of connections of the file is read back. -/
lemma databaseMaxConnections_number (lawful : T.Lawful)
    (written : env "AVASETTLE_DATABASE_MAX_CONNECTIONS" = setNumber n) (valid : ∀ m ∈ n, 1 ≤ m ∧ Safe m) :
    databaseMaxConnections T env = .ok (n.getD 5) := by
  have read := readInt_number lawful written (fun m mem => (valid m mem).2) 5
  have some' : n.getD 5 ≠ 0 := by
    cases n with
    | none => decide
    | some m => exact Nat.one_le_iff_ne_zero.1 (valid m rfl).1
  rw [databaseMaxConnections, read]
  exact if_neg some'

/-- A numeral is trimmed. -/
lemma trim_repr {n : Nat} : trim n.repr = n.repr := by
  apply trim_of_noSpace
  intro c mem
  have bounds := digit_bounds (Sql.isDigit_of_mem_repr mem)
  exact noSpace_of_lt (by omega) (by omega)

/-- A text with another character than digits is no number. -/
lemma repr_ne {n : Nat} (mem : c ∈ s.toList) (other : c.isDigit = false) : n.repr ≠ s := by
  rintro rfl
  rw [Sql.isDigit_of_mem_repr mem] at other
  cases other

/-- A flag for the proxy is read back. -/
lemma trustProxyOf_flag (lawful : T.Lawful) (b : Bool) :
    trustProxyOf T (if b then "true" else "false") = .flag b := by
  cases b with
  | true => simp [trustProxyOf, lawful.lower_true]
  | false => simp [trustProxyOf, lawful.lower_false]

/-- A number of hops is read back, unless it is zero. -/
lemma trustProxyOf_hops (lawful : T.Lawful) {n : Nat} (safe : Safe n) :
    trustProxyOf T n.repr = .hops n ↔ n ≠ 0 := by
  have read := lawful.integer_repr n safe
  rw [trustProxyOf, lawful.lower_repr, if_neg repr_ne_empty, read]
  by_cases zero : n = 0
  · subst zero
    exact iff_of_false (by decide) fun kept => kept rfl
  · have notZero : n.repr ≠ "0" := by
      intro eq
      have same := congrArg Sql.numeral eq
      rw [Sql.numeral_repr] at same
      exact zero (Option.some.inj same)
    have noFlag : n.repr ∉ ["false", "0", "no", "off"] := by
      simp only [List.mem_cons, List.not_mem_nil, or_false, not_or]
      exact ⟨repr_ne (c := 'f') (by decide) rfl, notZero, repr_ne (c := 'n') (by decide) rfl,
        repr_ne (c := 'f') (by decide) rfl⟩
    have noFlag' : n.repr ∉ ["true", "yes", "on"] := by
      simp only [List.mem_cons, List.not_mem_nil, or_false, not_or]
      exact ⟨repr_ne (c := 't') (by decide) rfl, repr_ne (c := 'y') (by decide) rfl,
        repr_ne (c := 'n') (by decide) rfl⟩
    rw [if_neg (mt List.contains_iff_mem.1 noFlag), if_neg (mt List.contains_iff_mem.1 noFlag')]
    refine iff_of_true ?_ zero
    exact if_pos (Int.natCast_pos.2 (Nat.pos_of_ne_zero zero))

/-- A text comes back from the getter just when it is its own trimmed text and reads as nothing else. -/
lemma trustProxyOf_text (nonempty : s ≠ "") :
    trustProxyOf T (trim s) = .text s ↔ (TrustProxy.text s).Kept T := by
  have flags (t : String) : t ∉ ["false", "0", "no", "off", "true", "yes", "on"] ↔
      t ∉ ["false", "0", "no", "off"] ∧ t ∉ ["true", "yes", "on"] := by
    rw [← not_or, ← List.mem_append]
    rfl
  change _ ↔ trim s = s ∧ T.toLowerCase s ∉ ["false", "0", "no", "off", "true", "yes", "on"] ∧ _
  rw [trustProxyOf, flags]
  by_cases same : trim s = s
  · rw [same, if_neg nonempty]
    by_cases off : T.toLowerCase s ∈ ["false", "0", "no", "off"]
    · rw [if_pos (List.contains_iff_mem.2 off)]
      exact iff_of_false nofun fun kept => kept.2.1.1 off
    · rw [if_neg (mt List.contains_iff_mem.1 off)]
      by_cases on : T.toLowerCase s ∈ ["true", "yes", "on"]
      · rw [if_pos (List.contains_iff_mem.2 on)]
        exact iff_of_false nofun fun kept => kept.2.1.2 on
      · rw [if_neg (mt List.contains_iff_mem.1 on)]
        cases integer : T.integer s with
        | none => exact iff_of_true rfl ⟨rfl, ⟨off, on⟩, nofun⟩
        | some hops =>
          by_cases positive : 0 < hops
          · simp only [if_pos positive]
            refine iff_of_false nofun fun kept => ?_
            have none' := kept.2.2 hops rfl
            omega
          · refine iff_of_true (if_neg positive) ⟨rfl, ⟨off, on⟩, fun n eq => ?_⟩
            rw [← Option.some.inj eq]
            omega
  · refine iff_of_false (fun eq => ?_) fun kept => same kept.1
    split at eq
    · cases eq
    · split at eq
      · cases eq
      · split at eq
        · cases eq
        · cases integer : T.integer (trim s) with
          | none =>
            rw [integer] at eq
            exact same (TrustProxy.text.inj eq)
          | some hops =>
            rw [integer] at eq
            simp only at eq
            split at eq
            · cases eq
            · exact same (TrustProxy.text.inj eq)

/-- A value of `trustProxy` comes back just when it is kept. -/
lemma trustProxy_iff (lawful : T.Lawful) {t : Option TrustProxy}
    (written : env "AVASETTLE_TRUST_PROXY" = t.bind TrustProxy.setting) (valid : ∀ v ∈ t, v.Valid) :
    trustProxy T env = t.getD (.flag false) ↔ ∀ v ∈ t, v.Kept T := by
  rw [trustProxy, written]
  cases t with
  | none => exact iff_of_true rfl nofun
  | some t =>
    simp only [Option.mem_some_iff, forall_eq', Option.getD_some]
    have allowed := valid t rfl
    cases t with
    | flag b =>
      refine iff_of_true ?_ trivial
      have trimmed : trim (if b then "true" else "false") = if b then "true" else "false" := by
        cases b <;> decide
      change trustProxyOf T (trim (if b then "true" else "false")) = _
      rw [trimmed, trustProxyOf_flag lawful]
    | hops n =>
      obtain ⟨m, rfl, safe⟩ := allowed
      change trustProxyOf T (trim m.repr) = _ ↔ (m : Int) ≠ 0
      rw [trim_repr, trustProxyOf_hops lawful safe]
      omega
    | text s =>
      have written : setText (some s) = some s := setText_eq fun t mem => by cases mem; exact allowed
      simp only [Option.bind_some, TrustProxy.setting, written, Option.map_some]
      exact trustProxyOf_text allowed

/-- The network of the file is read back. -/
lemma settlementNetwork_text {network : Option SettlementNetwork}
    (written : env "AVASETTLE_NETWORK" = setText (network.map SettlementNetwork.text)) :
    settlementNetwork env = .ok (network.getD .avalancheFuji) := by
  rw [settlementNetwork, written]
  cases network with
  | none => rfl
  | some network => cases network <;> rfl

/-- The settings of an asset are read back. -/
lemma getAssetConfig_said (lawful : T.Lawful) {symbol : String} (known : symbol ∈ ["USDC", "USDT"])
    {asset : Option AssetConfig} (valid : ∀ a ∈ asset, a.Valid)
    (address : env ("AVASETTLE_" ++ symbol ++ "_ADDRESS") = setText (asset.bind (·.address)))
    (decimals : env ("AVASETTLE_" ++ symbol ++ "_DECIMALS") = setNumber (asset.bind (·.decimals)))
    (maxPayout : env ("AVASETTLE_MAX_PAYOUT_" ++ symbol) = setText (asset.bind (·.maxPayoutAmount))) :
    getAssetConfig T env symbol =
      .ok (AssetConfig.said symbol asset (env "AVASETTLE_MAX_PAYOUT_AMOUNT")) := by
  have valid' {α : Type} {p : α → Prop} (f : AssetConfig → Option α) (each : ∀ a, a.Valid → ∀ v ∈ f a, p v) :
      ∀ v ∈ asset.bind f, p v := by
    intro v mem
    obtain ⟨a, said, found⟩ := Option.mem_bind_iff.1 mem
    exact each a (valid a said) v found
  have default : (if symbol = "USDC" || symbol = "USDT" then 6 else 18) = 6 := by
    apply if_pos
    simpa using known
  rw [getAssetConfig, readAddress_text address (valid' (·.address) fun _ v => v.address), default,
    readInt_number lawful decimals (valid' (·.decimals) fun _ v => v.decimals), maxPayout,
    setText_eq (valid' (·.maxPayoutAmount) fun _ v => v.maxPayoutAmount)]
  rfl

/-! ## The trip -/

/-- After the file is loaded the getters return what it says just when its values are kept. -/
theorem file_settings_iff (lawful : T.Lawful) (valid : cfg.Valid)
    (unset : ∀ name ∈ configVariables, env name = none) :
    Says T cfg (loadConfigFile (.parsed cfg) env) ↔ cfg.Kept T := by
  have origins := corsOrigins_iff (loaded_at unset 4 rfl) valid.corsOrigins
  have enabled := enabledAssets_iff lawful (loaded_at unset 13 rfl) valid.enabled
  have minutes := payInDefaultExpirationMinutes_iff lawful (loaded_at unset 11 rfl) valid.defaultExpirationMinutes
  have proxy := trustProxy_iff lawful (loaded_at unset 27 rfl) valid.trustProxy
  constructor
  · intro told
    constructor
    · exact origins.1 told.corsOrigins
    · exact enabled.1 told.enabledAssets
    · exact minutes.1 told.payInDefaultExpirationMinutes
    · exact proxy.1 told.trustProxy
  · intro kept
    have network : settlementNetwork (loadConfigFile (.parsed cfg) env) = .ok (cfg.network.getD .avalancheFuji) :=
      settlementNetwork_text (loaded_at unset 0 rfl)
    constructor
    case corsOrigins => exact origins.2 kept.corsOrigins
    case enabledAssets => exact enabled.2 kept.enabled
    case payInDefaultExpirationMinutes => exact minutes.2 kept.defaultExpirationMinutes
    case trustProxy => exact proxy.2 kept.trustProxy
    case settlementNetwork => exact network
    case networkSummary =>
      rw [networkSummary, network, loaded_at unset 2 rfl, loaded_at unset 3 rfl, setText_eq valid.rpcUrl,
        setText_eq valid.explorerBaseUrl]
      rfl
    case port => exact readInt_number lawful (loaded_at unset 1 rfl) valid.port 3001
    case databaseSsl => exact readBoolean_flag lawful (loaded_at unset 5 rfl) false
    case databaseSslRejectUnauthorized => exact readBoolean_flag lawful (loaded_at unset 6 rfl) true
    case databaseMaxConnections =>
      exact databaseMaxConnections_number lawful (loaded_at unset 7 rfl) valid.maxConnections
    case databaseAutoMigrate => exact readBoolean_flag lawful (loaded_at unset 8 rfl) true
    case payInLookbackBlocks => exact readInt_number lawful (loaded_at unset 9 rfl) valid.lookbackBlocks 50000
    case payInDerivationAccount => exact readInt_number lawful (loaded_at unset 10 rfl) valid.derivationAccount 0
    case paymentRouterAddress => exact readAddress_text (loaded_at unset 12 rfl) valid.paymentRouterAddress
    case usdc =>
      exact getAssetConfig_said lawful (by decide) valid.usdc (loaded_at unset 14 rfl) (loaded_at unset 15 rfl)
        (loaded_at unset 16 rfl)
    case usdt =>
      exact getAssetConfig_said lawful (by decide) valid.usdt (loaded_at unset 17 rfl) (loaded_at unset 18 rfl)
        (loaded_at unset 19 rfl)
    case minConfirmations => exact readInt_number lawful (loaded_at unset 20 rfl) valid.minConfirmations 2
    case waitForReceipt => exact readBoolean_flag lawful (loaded_at unset 21 rfl) false
    case webhookRetryAttempts => exact readInt_number lawful (loaded_at unset 22 rfl) valid.retryAttempts 3
    case webhookDispatchIntervalSeconds =>
      exact readInt_number lawful (loaded_at unset 23 rfl) valid.dispatchIntervalSeconds 5
    case autoReconcileIntervalSeconds =>
      exact autoReconcileIntervalSeconds_number lawful (loaded_at unset 24 rfl) valid.autoReconcileIntervalSeconds
    case autoSweep => exact readBoolean_flag lawful (loaded_at unset 25 rfl) false
    case throttleRps => exact readInt_number lawful (loaded_at unset 26 rfl) valid.throttleRps 100

/-! ## Two files -/

/-- Texts of letters without accents and numbers of digits. -/
def plainTexts : Texts where
  toLowerCase := String.toLower
  toUpperCase := String.toUpper
  integer s := (Sql.numeral s).map Int.ofNat

/-- A numeral has no upper case. -/
lemma toLower_repr {n : Nat} : n.repr.toLower = n.repr := by
  have same : n.repr.toList.map Char.toLower = n.repr.toList := by
    conv_rhs => rw [← List.map_id n.repr.toList]
    apply List.map_congr_left
    intro c mem
    have bounds := digit_bounds (Sql.isDigit_of_mem_repr mem)
    apply dif_neg
    intro upper
    have low : 'A'.toNat ≤ c.toNat := UInt32.le_iff_toNat_le.1 upper.1
    simp only [Char.reduceToNat] at low
    omega
  exact String.toList_inj.1 (String.toList_map.trans same)

/-- The sample text functions are lawful. -/
lemma plainTexts_lawful : plainTexts.Lawful where
  lower_true := by decide +kernel
  lower_false := by decide +kernel
  lower_repr _ := toLower_repr
  upper_asset := by decide +kernel
  integer_repr n _ := by
    change (Sql.numeral n.repr).map Int.ofNat = some (n : Int)
    rw [Sql.numeral_repr]
    rfl

/-- A file with two origins, behind one proxy. -/
def twoOrigins : ConfigFile where
  corsOrigins := some (.list ["https://a.example", "https://b.example"])
  trustProxy := some (.hops 1)

/-- The two origins come back, and all else is the default. -/
theorem twoOrigins_kept : Says plainTexts twoOrigins (loadConfigFile (.parsed twoOrigins) fun _ => none) := by
  apply (file_settings_iff plainTexts_lawful _ fun _ _ => rfl).2
  · constructor
    case corsOrigins =>
      rintro _ ⟨⟩
      change _ ≠ [] ∧ ∀ o ∈ ["https://a.example", "https://b.example"], trim o = o
      exact ⟨nofun, by decide +kernel⟩
    case enabled => nofun
    case defaultExpirationMinutes => nofun
    case trustProxy =>
      rintro _ ⟨⟩
      change (1 : Int) ≠ 0
      decide
  · constructor
    case corsOrigins =>
      rintro _ ⟨⟩
      change ∀ o ∈ ["https://a.example", "https://b.example"], trim o ≠ "" ∧ ',' ∉ o.toList
      decide +kernel
    case trustProxy =>
      rintro _ ⟨⟩
      exact ⟨1, rfl, by change 1 ≤ 9007199254740991; decide⟩
    all_goals nofun

/-- A file that allows no origin. -/
def noOrigins : ConfigFile where
  corsOrigins := some (.list [])

/-- No origins come back as all of them. -/
theorem noOrigins_widened :
    noOrigins.Valid ∧ corsOrigins (loadConfigFile (.parsed noOrigins) fun _ => none) = .all ∧
      ¬Says plainTexts noOrigins (loadConfigFile (.parsed noOrigins) fun _ => none) := by
  have widened : corsOrigins (loadConfigFile (.parsed noOrigins) fun _ => none) = .all := by
    have empty : loadConfigFile (.parsed noOrigins) (fun _ => none) "AVASETTLE_CORS_ORIGINS" = some "" :=
      loaded_at (fun _ _ => rfl) 4 rfl
    rw [corsOrigins_of empty]
    rfl
  refine ⟨?_, widened, fun told => ?_⟩
  · constructor
    case corsOrigins =>
      rintro _ ⟨⟩
      change ∀ o ∈ [], _
      nofun
    all_goals nofun
  · have same := told.corsOrigins
    rw [widened] at same
    cases same

end AvaSettle.Environment
