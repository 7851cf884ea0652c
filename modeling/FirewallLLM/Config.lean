import FirewallLLM.Router
import FirewallLLM.Yaml

/-! # Configuration

`load_config_from_str` of `config.rs`: the overrides from the environment, the fields with their
defaults, and the keys of the providers.  The YAML library, `SocketAddr` and the floats are
parameters; what serde says about a value of the wrong type is left out.

`Config.ofEntries_iff` says what the record is, field by field, and `get?_overrides` what an
override does to it. -/

namespace FirewallLLM.Core

open Dlp (Text)
open Routing (AttackFailoverConfig Builtins RoutingConfig RoutingRule RuleAction RuleCondition
  Threshold)
open Yaml (Entries Reader emptyOf field fieldOr flag intIn listOf mapOf nullable optField record
  text)

/-! ### Records -/

/-- `ConfigError`, as far as `load_config_from_str` returns it. -/
inductive ConfigError where
  | parse
  | validation (message : String)
deriving DecidableEq

/-- `ServerConfig`. -/
structure ServerConfig (F : Type) where
  host : String
  port : ℤ
  requestTimeoutSeconds : F

/-- `ProviderConfig`. -/
structure ProviderConfig where
  providerType : String
  baseUrl : String
  apiKeyEnv : Option String
  apiKey : Option String
  models : List String
  agentId : Option String

/-- `Quotas`. -/
structure Quotas where
  clientTokensPerDay : Option ℤ
  clientRequestsPerDay : Option ℤ
  providerTokensPerDay : Option ℤ
  backendFailClosed : Bool
  completionReserveTokens : ℤ

/-- `EgressConfig`. -/
structure EgressConfig where
  mode : String
  proxyUrl : Option String

/-- `DlpConfig`. -/
structure DlpConfig where
  mode : String
  restorePolicy : String
  profile : String

/-- `MlModelConfig`. -/
structure MlModelConfig (F : Type) where
  enabled : Bool
  modelDir : String
  threshold : F

/-- `InjectionConfig`. -/
structure InjectionConfig (F : Type) where
  mode : String
  blockSeverityGte : String
  ml : MlModelConfig F

/-- `InspectorsConfig`. -/
structure InspectorsConfig (F : Type) where
  dlp : DlpConfig
  injection : InjectionConfig F

/-- `IngressConfig`. -/
structure IngressConfig where
  enabled : Bool
  listen : String
  sans : List String

/-- `AuditConfig`. -/
structure AuditConfig where
  enabled : Bool
  dbPath : String
  dlpRedact : Bool

/-- `Config`. -/
structure Config (F : Type) where
  server : ServerConfig F
  redisUrl : String
  providers : List (String × ProviderConfig)
  clients : List (String × String)
  adminClients : List (String × String)
  metricsTokens : List (String × String)
  quotas : Quotas
  routing : RoutingConfig F
  egress : EgressConfig
  inspectors : InspectorsConfig F
  audit : AuditConfig
  ingress : IngressConfig

/-- The environment; a variable has a name. -/
structure Env where
  var : String → Option String
  unnamed : var "" = none

/-- What is outside of the repository: how serde reads containers, the floats of `serde_yaml` and
of the defaults, the YAML parser and the addresses that `SocketAddr` accepts. -/
structure Libraries (F : Type) where
  nullIsEmpty : Bool
  timeout : F
  threshold : F
  parse : String → Option (Yaml F)
  socketAddr : String → Bool

/-- How serde reads containers. -/
def Libraries.style {F : Type} (lib : Libraries F) : Yaml.Style := ⟨lib.nullIsEmpty, true⟩

/-! ### Fields -/

section Fields

variable {F : Type} [Builtins F] (lib : Libraries F)

def u16 : Reader F ℤ := intIn 0 (2 ^ 16 - 1)

def u64 : Reader F ℤ := intIn 0 (2 ^ 64 - 1)

def i64 : Reader F ℤ := intIn (-2 ^ 63) (2 ^ 63 - 1)

def f64 : Reader F F
  | .int n => some (Builtins.round n)
  | .float x => some x
  | _ => none

def ServerConfig.read : Reader F (ServerConfig F) := fun v => do
  let es ← record lib.style v
  pure {
    host := ← fieldOr es "host" text "127.0.0.1"
    port := ← fieldOr es "port" u16 8080
    requestTimeoutSeconds := ← fieldOr es "request_timeout_seconds" f64 lib.timeout }

def ProviderConfig.read : Reader F ProviderConfig := fun v => do
  let es ← record lib.style v
  pure {
    providerType := ← fieldOr es "type" text "openai_compat"
    baseUrl := ← field es "base_url" text
    apiKeyEnv := ← optField es "api_key_env" text
    apiKey := ← optField es "api_key" text
    models := ← fieldOr es "models" (listOf lib.style text) []
    agentId := ← optField es "agent_id" text }

def Quotas.read : Reader F Quotas := fun v => do
  let es ← record lib.style v
  pure {
    clientTokensPerDay := ← optField es "client_tokens_per_day" i64
    clientRequestsPerDay := ← optField es "client_requests_per_day" i64
    providerTokensPerDay := ← optField es "provider_tokens_per_day" i64
    backendFailClosed := ← fieldOr es "backend_fail_closed" flag false
    completionReserveTokens := ← fieldOr es "completion_reserve_tokens" i64 1024 }

/-- `Quotas::default`; it is derived, so the reserve is zero. -/
def Quotas.default : Quotas := ⟨none, none, none, false, 0⟩

def readThreshold : Reader F (Threshold F) := fun v => do
  let es ← record lib.style v
  pure {
    gt := ← optField es "gt" f64
    gte := ← optField es "gte" f64
    lt := ← optField es "lt" f64
    lte := ← optField es "lte" f64 }

def readCondition : Reader F (RuleCondition F) := fun v => do
  let es ← record lib.style v
  pure {
    provider := ← optField es "provider" text
    providerTokensToday := ← optField es "provider_tokens_today" (readThreshold lib) }

def readAction : Reader F RuleAction := fun v => do
  let es ← record lib.style v
  pure {
    nextInChain := ← fieldOr es "next_in_chain" flag false
    switchTo := ← optField es "switch_to" text }

def readRule : Reader F (RoutingRule F) := fun v => do
  let es ← record lib.style v
  let _ ← field es "name" text
  pure {
    when := ← field es "when" (readCondition lib)
    action := ← field es "action" (readAction lib) }

def readFailover : Reader F AttackFailoverConfig := fun v => do
  let es ← record lib.style v
  pure {
    enabled := ← fieldOr es "enabled" flag false
    count := ← fieldOr es "count" u64 3
    windowSeconds := ← fieldOr es "window_seconds" u64 300
    minSeverity := ← fieldOr es "min_severity" text "high"
    switchTo := ← optField es "switch_to" text
    blockSource := ← fieldOr es "block_source" flag true
    blockTtlSeconds := ← fieldOr es "block_ttl_seconds" u64 600
    cooldownSeconds := ← fieldOr es "cooldown_seconds" u64 300 }

/-- `AttackFailoverConfig::default`; it is derived too. -/
def defaultFailover : AttackFailoverConfig := ⟨false, 0, 0, "", none, false, 0, 0⟩

def readRouting : Reader F (RoutingConfig F) := fun v => do
  let es ← record lib.style v
  pure {
    defaultChain := ← fieldOr es "default_chain" (listOf lib.style text) []
    modelMapping := ← fieldOr es "model_mapping" (mapOf lib.style (mapOf lib.style text)) []
    rules := ← fieldOr es "rules" (listOf lib.style (readRule lib)) []
    attackFailover := ← fieldOr es "attack_failover" (readFailover lib) defaultFailover
    stateStore := ← fieldOr es "state_store" text "memory" }

/-- `RoutingConfig::default`. -/
def defaultRouting : RoutingConfig F := ⟨[], [], [], defaultFailover, "memory"⟩

def EgressConfig.read : Reader F EgressConfig := fun v => do
  let es ← record lib.style v
  pure {
    mode := ← fieldOr es "mode" text "direct"
    proxyUrl := ← optField es "proxy_url" text }

def DlpConfig.default : DlpConfig := ⟨"mask", "mask", "ru_152"⟩

def DlpConfig.read : Reader F DlpConfig := fun v => do
  let es ← record lib.style v
  pure {
    mode := ← fieldOr es "mode" text DlpConfig.default.mode
    restorePolicy := ← fieldOr es "restore_policy" text DlpConfig.default.restorePolicy
    profile := ← fieldOr es "profile" text DlpConfig.default.profile }

def MlModelConfig.default : MlModelConfig F := ⟨false, "", lib.threshold⟩

def MlModelConfig.read : Reader F (MlModelConfig F) := fun v => do
  let es ← record lib.style v
  pure {
    enabled := ← fieldOr es "enabled" flag false
    modelDir := ← fieldOr es "model_dir" text ""
    threshold := ← fieldOr es "threshold" f64 lib.threshold }

def InjectionConfig.default : InjectionConfig F := ⟨"block", "high", MlModelConfig.default lib⟩

def InjectionConfig.read : Reader F (InjectionConfig F) := fun v => do
  let es ← record lib.style v
  pure {
    mode := ← fieldOr es "mode" text (InjectionConfig.default lib).mode
    blockSeverityGte :=
      ← fieldOr es "block_severity_gte" text (InjectionConfig.default lib).blockSeverityGte
    ml := ← fieldOr es "ml" (MlModelConfig.read lib) (MlModelConfig.default lib) }

def InspectorsConfig.default : InspectorsConfig F :=
  ⟨DlpConfig.default, InjectionConfig.default lib⟩

def InspectorsConfig.read : Reader F (InspectorsConfig F) := fun v => do
  let es ← record lib.style v
  pure {
    dlp := ← fieldOr es "dlp" (DlpConfig.read lib) DlpConfig.default
    injection := ← fieldOr es "injection" (InjectionConfig.read lib) (InjectionConfig.default lib) }

def AuditConfig.read : Reader F AuditConfig := fun v => do
  let es ← record lib.style v
  pure {
    enabled := ← fieldOr es "enabled" flag true
    dbPath := ← fieldOr es "db_path" text "audit.db"
    dlpRedact := ← fieldOr es "dlp_redact" flag true }

def IngressConfig.default : IngressConfig := ⟨true, "0.0.0.0:8443", ["localhost", "fwllm-gateway"]⟩

def IngressConfig.read : Reader F IngressConfig := fun v => do
  let es ← record lib.style v
  pure {
    enabled := ← fieldOr es "enabled" flag IngressConfig.default.enabled
    listen := ← fieldOr es "listen" text IngressConfig.default.listen
    sans := ← fieldOr es "sans" (listOf lib.style text) IngressConfig.default.sans }

/-- A map of tokens to labels. -/
def tokenMap : Reader F (List (String × String)) := mapOf lib.style text

/-- `from_value::<Config>`, for the entries of the tree. -/
def Config.ofEntries (es : Entries F) : Option (Config F) := do
  pure {
    server := ← fieldOr es "server" (ServerConfig.read lib) ⟨"127.0.0.1", 8080, lib.timeout⟩
    redisUrl := ← fieldOr es "redis_url" text "redis://localhost:6379/0"
    providers := ← field es "providers" (mapOf lib.style (ProviderConfig.read lib))
    clients := ← fieldOr es "clients" (tokenMap lib) []
    adminClients := ← fieldOr es "admin_clients" (tokenMap lib) []
    metricsTokens := ← fieldOr es "metrics_tokens" (tokenMap lib) []
    quotas := ← fieldOr es "quotas" (Quotas.read lib) Quotas.default
    routing := ← fieldOr es "routing" (readRouting lib) defaultRouting
    egress := ← fieldOr es "egress" (EgressConfig.read lib) ⟨"direct", none⟩
    inspectors := ← fieldOr es "inspectors" (InspectorsConfig.read lib)
      (InspectorsConfig.default lib)
    audit := ← fieldOr es "audit" (AuditConfig.read lib) ⟨true, "audit.db", true⟩
    ingress := ← fieldOr es "ingress" (IngressConfig.read lib) IngressConfig.default }

def Config.read : Reader F (Config F) := fun v => (record lib.style v).bind (Config.ofEntries lib)

end Fields

/-! ### Tokens -/

/-- `char::is_whitespace`. -/
def isWhitespace (c : Char) : Bool :=
  (0x09 ≤ c.toNat && c.toNat ≤ 0x0D) || c.toNat = 0x20 || c.toNat = 0x85 || c.toNat = 0xA0 ||
    c.toNat = 0x1680 || (0x2000 ≤ c.toNat && c.toNat ≤ 0x200A) || c.toNat = 0x2028 ||
    c.toNat = 0x2029 || c.toNat = 0x202F || c.toNat = 0x205F || c.toNat = 0x3000

/-- What is left when characters are taken off both ends. -/
def stripWith (space : Char → Bool) (s : Text) : Text :=
  ((s.dropWhile space).reverse.dropWhile space).reverse

/-- `trim`. -/
def trim : Text → Text := stripWith isWhitespace

/-- `split_once(':')`, with the token as label where there is none. -/
def readPair (pair : Text) : String × String :=
  match pair.span (· ≠ ':') with
  | (token, _ :: label) =>
      (String.ofList token, String.ofList (if label = [] then token else label))
  | (_, []) => (String.ofList pair, String.ofList pair)

/-- The pairs of a list of tokens. -/
def tokenPairs (tokens : String) : List (String × String) :=
  (tokens.toList.splitOn ',').filterMap (fun pair =>
    if trim pair = [] then none else some (readPair (trim pair)))

/-! ### Overrides -/

/-- `parse::<u64>`. -/
def parseU64 (s : Text) : Option ℕ :=
  let digits := match s with
    | '+' :: digits => digits
    | digits => digits
  if digits ≠ [] ∧ digits.all Char.isDigit ∧ Nat.ofDigitChars 10 digits 0 < 2 ^ 64 then
    some (Nat.ofDigitChars 10 digits 0)
  else none

section Load

variable {F : Type}

/-- The override of the port; a server that is no mapping is replaced. -/
def overridePort (env : Env) (es : Entries F) : Entries F :=
  match env.var "FWLLM_SERVER__PORT" with
  | none => es
  | some port => match es.get? "server", parseU64 port.toList with
      | some (.map server), some p => es.set "server" (.map (Entries.set server "port" (.int p)))
      | some (.map _), none => es
      | _, some p => es.set "server" (.map [(.str "port", .int p)])
      | _, none => es.set "server" (.map [])

/-- The override of one field from a variable. -/
def override (env : Env) (var name : String) (value : String → Yaml F) (es : Entries F) :
    Entries F :=
  match env.var var with
  | some s => es.set name (value s)
  | none => es

/-- The map of a list of tokens. -/
def tokensValue (tokens : String) : Yaml F := .ofPairs (Assoc.ofList (tokenPairs tokens))

/-- The overrides, in their order. -/
def overrides (env : Env) (es : Entries F) : Entries F :=
  override env "FWLLM_METRICS_TOKENS" "metrics_tokens" tokensValue
    (override env "FWLLM_ADMIN_TOKENS" "admin_clients" tokensValue
      (override env "FWLLM_CLIENT_TOKENS" "clients" tokensValue
        (override env "FWLLM_REDIS_URL" "redis_url" .str (overridePort env es))))

/-! ### Loading -/

/-- The variable of a provider that is not set. -/
def missingKey (env : Env) (p : String × ProviderConfig) : Option (String × String) :=
  (p.2.apiKeyEnv.filter (fun v => (env.var v).isNone)).map (fun v => (v, p.1))

/-- The key of a provider. -/
def resolveKey (env : Env) (p : ProviderConfig) : ProviderConfig :=
  match p.apiKeyEnv with
  | some v => { p with apiKey := env.var v }
  | none => p

/-- The keys of the providers; the error names the first provider in the order of names. -/
def resolveApiKeys (env : Env) (cfg : Config F) : Except ConfigError (Config F) :=
  match (cfg.providers.insertionSort (fun p q => p.1 ≤ q.1)).findSome? (missingKey env) with
  | some (v, name) => .error (.validation
      s!"environment variable '{v}' (api_key_env of provider '{name}') is not set")
  | none => .ok { cfg with providers := cfg.providers.map (fun p => (p.1, resolveKey env p.2)) }

variable [Builtins F] (lib : Libraries F)

/-- `load_config_from_str`, for a tree. -/
def loadValue (env : Env) (value : Yaml F) : Except ConfigError (Config F) := do
  let value := match value with
    | .map es => .map (overrides env es)
    | value => value
  match Config.read lib value with
  | none => .error .parse
  | some cfg =>
      if cfg.ingress.enabled && !lib.socketAddr cfg.ingress.listen then
        .error (.validation s!"invalid ingress.listen address '{cfg.ingress.listen}'")
      else resolveApiKeys env cfg

/-- `load_config_from_str`. -/
def loadConfigFromStr (env : Env) (raw : String) : Except ConfigError (Config F) :=
  match lib.parse raw with
  | none => .error .parse
  | some value => loadValue lib env value

/-! ### What is loaded -/

/-- The record is read field by field. -/
structure Config.Reads (es : Entries F) (cfg : Config F) : Prop where
  server : fieldOr es "server" (ServerConfig.read lib) ⟨"127.0.0.1", 8080, lib.timeout⟩ =
    some cfg.server
  redisUrl : fieldOr es "redis_url" text "redis://localhost:6379/0" = some cfg.redisUrl
  providers : field es "providers" (mapOf lib.style (ProviderConfig.read lib)) =
    some cfg.providers
  clients : fieldOr es "clients" (tokenMap lib) [] = some cfg.clients
  adminClients : fieldOr es "admin_clients" (tokenMap lib) [] = some cfg.adminClients
  metricsTokens : fieldOr es "metrics_tokens" (tokenMap lib) [] = some cfg.metricsTokens
  quotas : fieldOr es "quotas" (Quotas.read lib) Quotas.default = some cfg.quotas
  routing : fieldOr es "routing" (readRouting lib) defaultRouting = some cfg.routing
  egress : fieldOr es "egress" (EgressConfig.read lib) ⟨"direct", none⟩ = some cfg.egress
  inspectors : fieldOr es "inspectors" (InspectorsConfig.read lib) (InspectorsConfig.default lib) =
    some cfg.inspectors
  audit : fieldOr es "audit" (AuditConfig.read lib) ⟨true, "audit.db", true⟩ = some cfg.audit
  ingress : fieldOr es "ingress" (IngressConfig.read lib) IngressConfig.default = some cfg.ingress

theorem Config.ofEntries_iff {es : Entries F} {cfg : Config F} :
    Config.ofEntries lib es = some cfg ↔ Config.Reads lib es cfg := by
  constructor
  · intro h
    obtain ⟨server, hserver, h⟩ := Option.bind_eq_some_iff.mp h
    obtain ⟨redisUrl, hredis, h⟩ := Option.bind_eq_some_iff.mp h
    obtain ⟨providers, hproviders, h⟩ := Option.bind_eq_some_iff.mp h
    obtain ⟨clients, hclients, h⟩ := Option.bind_eq_some_iff.mp h
    obtain ⟨admins, hadmins, h⟩ := Option.bind_eq_some_iff.mp h
    obtain ⟨metrics, hmetrics, h⟩ := Option.bind_eq_some_iff.mp h
    obtain ⟨quotas, hquotas, h⟩ := Option.bind_eq_some_iff.mp h
    obtain ⟨routing, hrouting, h⟩ := Option.bind_eq_some_iff.mp h
    obtain ⟨egress, hegress, h⟩ := Option.bind_eq_some_iff.mp h
    obtain ⟨inspectors, hinspectors, h⟩ := Option.bind_eq_some_iff.mp h
    obtain ⟨audit, haudit, h⟩ := Option.bind_eq_some_iff.mp h
    obtain ⟨ingress, hingress, h⟩ := Option.bind_eq_some_iff.mp h
    obtain rfl := Option.some.inj h
    exact ⟨hserver, hredis, hproviders, hclients, hadmins, hmetrics, hquotas, hrouting, hegress,
      hinspectors, haudit, hingress⟩
  · intro h
    simp only [Config.ofEntries, h.server, h.redisUrl, h.providers, h.clients, h.adminClients,
      h.metricsTokens, h.quotas, h.routing, h.egress, h.inspectors, h.audit, h.ingress, bind,
      Option.bind, pure]

omit [Builtins F] in
theorem get?_override_of_ne {env : Env} {es : Entries F} {var name name' : String}
    {value : String → Yaml F} (h : name' ≠ name) :
    (override env var name value es).get? name' = es.get? name' := by
  rw [override]
  split
  · exact Yaml.get?_set_of_ne h _
  · rfl

omit [Builtins F] in
theorem get?_overridePort_of_ne {env : Env} {es : Entries F} {name : String}
    (h : name ≠ "server") : (overridePort env es).get? name = es.get? name := by
  rw [overridePort]
  split
  · rfl
  · split <;> first | rfl | exact Yaml.get?_set_of_ne h _

/-- The fields that the environment does not override. -/
def Kept (name : String) : Prop :=
  name ∉ ["server", "redis_url", "clients", "admin_clients", "metrics_tokens"]

instance (name : String) : Decidable (Kept name) := inferInstanceAs (Decidable (_ ∉ _))

omit [Builtins F] in
theorem get?_overrides {env : Env} {es : Entries F} {name : String} (h : Kept name) :
    (overrides env es).get? name = es.get? name := by
  simp only [Kept, List.mem_cons, List.not_mem_nil, or_false, not_or] at h
  obtain ⟨hserver, hredis, hclients, hadmins, hmetrics⟩ := h
  rw [overrides, get?_override_of_ne hmetrics, get?_override_of_ne hadmins,
    get?_override_of_ne hclients, get?_override_of_ne hredis, get?_overridePort_of_ne hserver]

omit [Builtins F] in
theorem resolveApiKeys_eq_ok_iff {env : Env} {cfg cfg' : Config F} :
    resolveApiKeys env cfg = .ok cfg' ↔
      (∀ p ∈ cfg.providers, ∀ v, p.2.apiKeyEnv = some v → (env.var v).isSome = true) ∧
        cfg' = { cfg with
          providers := cfg.providers.map (fun p => (p.1, resolveKey env p.2)) } := by
  have hmissing : ∀ p, missingKey env p = none ↔
      ∀ v, p.2.apiKeyEnv = some v → (env.var v).isSome = true := by
    intro p
    rw [missingKey, Option.map_eq_none_iff]
    cases p.2.apiKeyEnv with
    | none => simp
    | some v =>
        rw [Option.filter_some]
        cases hv : env.var v <;> simp [hv]
  have hnone : (cfg.providers.insertionSort (fun p q => p.1 ≤ q.1)).findSome?
      (missingKey env) = none ↔
        ∀ p ∈ cfg.providers, ∀ v, p.2.apiKeyEnv = some v → (env.var v).isSome = true := by
    simp only [List.findSome?_eq_none_iff, List.mem_insertionSort, hmissing]
  rw [← hnone, resolveApiKeys]
  cases (cfg.providers.insertionSort (fun p q => p.1 ≤ q.1)).findSome? (missingKey env) with
  | none => exact ⟨fun h => ⟨rfl, (Except.ok.inj h).symm⟩, fun h => congrArg _ h.2.symm⟩
  | some x => exact ⟨fun h => (nomatch h), fun h => nomatch h.1⟩

/-- What `from_value` gives is what is loaded, but for the keys of the providers. -/
theorem loadValue_eq_ok_iff {env : Env} {es : Entries F} {cfg : Config F} :
    loadValue lib env (.map es) = .ok cfg ↔
      ∃ cfg₀, Config.read lib (.map (overrides env es)) = some cfg₀ ∧
        (cfg₀.ingress.enabled && !lib.socketAddr cfg₀.ingress.listen) = false ∧
        resolveApiKeys env cfg₀ = .ok cfg := by
  have hunfold : loadValue lib env (.map es) =
      match Config.read lib (.map (overrides env es)) with
      | none => .error .parse
      | some cfg =>
          if cfg.ingress.enabled && !lib.socketAddr cfg.ingress.listen then
            .error (.validation s!"invalid ingress.listen address '{cfg.ingress.listen}'")
          else resolveApiKeys env cfg := rfl
  rw [hunfold]
  cases Config.read lib (.map (overrides env es)) with
  | none => exact ⟨fun h => (nomatch h), fun ⟨_, h, _⟩ => nomatch h⟩
  | some cfg₀ =>
      dsimp only
      split_ifs with hingress
      · refine ⟨fun h => (nomatch h), fun ⟨c, hc, hok, _⟩ => ?_⟩
        obtain rfl := Option.some.inj hc
        rw [hingress] at hok
        nomatch hok
      · rw [Bool.not_eq_true] at hingress
        refine ⟨fun h => ⟨cfg₀, rfl, hingress, h⟩, fun ⟨c, hc, _, hres⟩ => ?_⟩
        obtain rfl := Option.some.inj hc
        exact hres

end Load

end FirewallLLM.Core
