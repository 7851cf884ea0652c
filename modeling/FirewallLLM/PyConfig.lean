import FirewallLLM.Config
import FirewallLLM.PyValue

/-! # Configuration of the Python gateway

`load_config` of `config.py`: the overrides from the environment, the models with their defaults
and checks, and the keys of the providers.  The YAML library and the conversions of pydantic are
parameters; what pydantic says about a value that it does not take is left out.

`readPair_eq` and `tokenPairs_eq_of_no_separators` say how far the two languages read tokens
alike. -/

namespace FirewallLLM.PyConfig

open FirewallLLM.Core (Env Kept isWhitespace stripWith trim)
open Dlp (Text)
open Py (Exn Unicode intOfStr typeError)
open Routing (AttackFailoverConfig Builtins RoutingConfig RoutingRule RuleAction RuleCondition
  Threshold)
open Yaml (Entries Reader field fieldOr listOf literal mapOf optField record text)

/-! ### Models -/

/-- `ServerConfig`. -/
structure ServerConfig (F : Type) where
  host : String
  port : ℤ
  requestTimeoutSeconds : F
  maxInflightRequests : ℤ

/-- `ProviderConfig`. -/
structure ProviderConfig where
  type : String
  baseUrl : String
  apiKeyEnv : Option String
  apiKey : Option String
  models : List String

/-- `Quotas`. -/
structure Quotas where
  clientTokensPerDay : Option ℤ
  clientRequestsPerDay : Option ℤ
  providerTokensPerDay : Option ℤ
  backendFailClosed : Bool
  completionReserveTokens : ℤ

/-- `DLPConfig`. -/
structure DLPConfig where
  mode : String
  restorePolicy : String
  profile : String

/-- `MLModelConfig`. -/
structure MLModelConfig (F : Type) where
  enabled : Bool
  modelDir : String
  threshold : F

/-- `InjectionConfig`. -/
structure InjectionConfig (F : Type) where
  mode : String
  blockSeverityGte : String
  ml : MLModelConfig F

/-- `InspectorsConfig`. -/
structure InspectorsConfig (F : Type) where
  dlp : DLPConfig
  injection : InjectionConfig F

/-- `PoolConfig`. -/
structure PoolConfig where
  proxies : List String
  rotation : String
  requestsPerProxy : ℤ
  failThreshold : ℤ
  cooldownSeconds : ℤ

/-- `EgressConfig`. -/
structure EgressConfig where
  mode : String
  proxyUrl : Option String
  pools : List (String × PoolConfig)
  bindings : List (String × String)

/-- `AuditConfig`. -/
structure AuditConfig where
  enabled : Bool
  dbPath : String
  dlpRedact : Bool

/-- `Config`. -/
structure Config (F : Type) where
  server : ServerConfig F
  redisUrl : String
  providers : List (String × ProviderConfig)
  clients : List (String × String)
  adminClients : List (String × String)
  metricsTokens : List (String × String)
  quotas : Quotas
  inspectors : InspectorsConfig F
  egress : EgressConfig
  routing : RoutingConfig F
  audit : AuditConfig

/-- What is outside of the repository: the conversions that pydantic makes, the floats of the
defaults, the range of a threshold, the characters that `int` takes and the YAML parser. -/
structure Libraries (F : Type) where
  toInt : Reader F ℤ
  toFloat : Reader F F
  toBool : Reader F Bool
  timeout : F
  threshold : F
  inUnit : F → Bool
  truthy : F → Bool
  unicode : Unicode
  safeLoad : String → Option (Yaml F)

/-- How pydantic reads containers. -/
def style : Yaml.Style := ⟨false, false⟩

/-! ### Validation -/

section Fields

variable {F : Type} (lib : Libraries F)

/-- An integer that is at least one. -/
def positive : Reader F ℤ := fun v => (lib.toInt v).filter (1 ≤ ·)

def ServerConfig.read : Reader F (ServerConfig F) := fun v => do
  let es ← record style v
  pure {
    host := ← fieldOr es "host" text "127.0.0.1"
    port := ← fieldOr es "port" lib.toInt 8080
    requestTimeoutSeconds := ← fieldOr es "request_timeout_seconds" lib.toFloat lib.timeout
    maxInflightRequests := ← fieldOr es "max_inflight_requests" lib.toInt 32 }

def ProviderConfig.read : Reader F ProviderConfig := fun v => do
  let es ← record style v
  pure {
    type := ← fieldOr es "type" (literal ["openai_compat", "openrouter", "ollama"]) "openai_compat"
    baseUrl := ← field es "base_url" text
    apiKeyEnv := ← optField es "api_key_env" text
    apiKey := ← optField es "api_key" text
    models := ← fieldOr es "models" (listOf style text) [] }

def Quotas.read : Reader F Quotas := fun v => do
  let es ← record style v
  pure {
    clientTokensPerDay := ← optField es "client_tokens_per_day" lib.toInt
    clientRequestsPerDay := ← optField es "client_requests_per_day" lib.toInt
    providerTokensPerDay := ← optField es "provider_tokens_per_day" lib.toInt
    backendFailClosed := ← fieldOr es "backend_fail_closed" lib.toBool false
    completionReserveTokens := ← fieldOr es "completion_reserve_tokens" lib.toInt 1024 }

def DLPConfig.default : DLPConfig := ⟨"mask", "mask", "ru_152"⟩

def DLPConfig.read : Reader F DLPConfig := fun v => do
  let es ← record style v
  pure {
    mode := ← fieldOr es "mode" (literal ["block", "mask", "log", "off"]) DLPConfig.default.mode
    restorePolicy := ← fieldOr es "restore_policy" (literal ["restore", "mask"])
      DLPConfig.default.restorePolicy
    profile := ← fieldOr es "profile" text DLPConfig.default.profile }

def MLModelConfig.default : MLModelConfig F := ⟨false, "", lib.threshold⟩

def MLModelConfig.read : Reader F (MLModelConfig F) := fun v => do
  let es ← record style v
  pure {
    enabled := ← fieldOr es "enabled" lib.toBool false
    modelDir := ← fieldOr es "model_dir" text ""
    threshold :=
      ← fieldOr es "threshold" (fun v => (lib.toFloat v).filter (lib.inUnit ·)) lib.threshold }

def InjectionConfig.default : InjectionConfig F := ⟨"block", "high", MLModelConfig.default lib⟩

def InjectionConfig.read : Reader F (InjectionConfig F) := fun v => do
  let es ← record style v
  pure {
    mode := ← fieldOr es "mode" (literal ["block", "log", "off"]) (InjectionConfig.default lib).mode
    blockSeverityGte := ← fieldOr es "block_severity_gte"
      (literal ["low", "medium", "high", "critical"]) (InjectionConfig.default lib).blockSeverityGte
    ml := ← fieldOr es "ml" (MLModelConfig.read lib) (MLModelConfig.default lib) }

def InspectorsConfig.default : InspectorsConfig F :=
  ⟨DLPConfig.default, InjectionConfig.default lib⟩

def InspectorsConfig.read : Reader F (InspectorsConfig F) := fun v => do
  let es ← record style v
  pure {
    dlp := ← fieldOr es "dlp" DLPConfig.read DLPConfig.default
    injection := ← fieldOr es "injection" (InjectionConfig.read lib) (InjectionConfig.default lib) }

def PoolConfig.read : Reader F PoolConfig := fun v => do
  let es ← record style v
  pure {
    proxies := ← field es "proxies" (fun v => (listOf style text v).filter (· ≠ []))
    rotation := ← fieldOr es "rotation" (literal ["round_robin", "random", "least_used"])
      "round_robin"
    requestsPerProxy := ← fieldOr es "requests_per_proxy" (positive lib) 100
    failThreshold := ← fieldOr es "fail_threshold" (positive lib) 3
    cooldownSeconds := ← fieldOr es "cooldown_seconds" (positive lib) 300 }

/-- `_validate` of `EgressConfig`. -/
def EgressConfig.valid (cfg : EgressConfig) : Bool :=
  if cfg.mode = "single_proxy" ∧ (cfg.proxyUrl.getD "") = "" then false
  else if cfg.mode = "pools" then
    cfg.pools ≠ [] ∧ cfg.bindings.all (fun b => (cfg.pools.lookup b.2).isSome)
  else true

def EgressConfig.default : EgressConfig := ⟨"direct", none, [], []⟩

def EgressConfig.read : Reader F EgressConfig := fun v => do
  let es ← record style v
  let cfg : EgressConfig := {
    mode := ← fieldOr es "mode" (literal ["direct", "single_proxy", "pools"])
      EgressConfig.default.mode
    proxyUrl := ← optField es "proxy_url" text
    pools := ← fieldOr es "pools" (mapOf style (PoolConfig.read lib)) []
    bindings := ← fieldOr es "bindings" (mapOf style text) [] }
  if cfg.valid then some cfg else none

def readThreshold : Reader F (Threshold F) := fun v => do
  let es ← record style v
  pure {
    gt := ← optField es "gt" lib.toFloat
    gte := ← optField es "gte" lib.toFloat
    lt := ← optField es "lt" lib.toFloat
    lte := ← optField es "lte" lib.toFloat }

def readCondition : Reader F (RuleCondition F) := fun v => do
  let es ← record style v
  pure {
    provider := ← optField es "provider" text
    providerTokensToday := ← optField es "provider_tokens_today" (readThreshold lib) }

def readAction : Reader F RuleAction := fun v => do
  let es ← record style v
  pure {
    nextInChain := ← fieldOr es "next_in_chain" lib.toBool false
    switchTo := ← optField es "switch_to" text }

def readRule : Reader F (RoutingRule F) := fun v => do
  let es ← record style v
  let _ ← field es "name" text
  pure {
    when := ← field es "when" (readCondition lib)
    action := ← field es "action" (readAction lib) }

def defaultFailover : AttackFailoverConfig := ⟨false, 3, 300, "high", none, true, 600, 300⟩

def readFailover : Reader F AttackFailoverConfig := fun v => do
  let es ← record style v
  pure {
    enabled := ← fieldOr es "enabled" lib.toBool defaultFailover.enabled
    count := ← fieldOr es "count" lib.toInt defaultFailover.count
    windowSeconds := ← fieldOr es "window_seconds" lib.toInt defaultFailover.windowSeconds
    minSeverity := ← fieldOr es "min_severity" (literal ["low", "medium", "high", "critical"])
      defaultFailover.minSeverity
    switchTo := ← optField es "switch_to" text
    blockSource := ← fieldOr es "block_source" lib.toBool defaultFailover.blockSource
    blockTtlSeconds := ← fieldOr es "block_ttl_seconds" lib.toInt defaultFailover.blockTtlSeconds
    cooldownSeconds := ← fieldOr es "cooldown_seconds" lib.toInt defaultFailover.cooldownSeconds }

def defaultRouting : RoutingConfig F := ⟨[], [], [], defaultFailover, "memory"⟩

def readRouting : Reader F (RoutingConfig F) := fun v => do
  let es ← record style v
  pure {
    defaultChain := ← fieldOr es "default_chain" (listOf style text) []
    modelMapping := ← fieldOr es "model_mapping" (mapOf style (mapOf style text)) []
    rules := ← fieldOr es "rules" (listOf style (readRule lib)) []
    attackFailover := ← fieldOr es "attack_failover" (readFailover lib) defaultFailover
    stateStore := ← fieldOr es "state_store" (literal ["memory", "redis"]) "memory" }

def AuditConfig.default : AuditConfig := ⟨true, "audit.db", true⟩

def AuditConfig.read : Reader F AuditConfig := fun v => do
  let es ← record style v
  pure {
    enabled := ← fieldOr es "enabled" lib.toBool AuditConfig.default.enabled
    dbPath := ← fieldOr es "db_path" text AuditConfig.default.dbPath
    dlpRedact := ← fieldOr es "dlp_redact" lib.toBool AuditConfig.default.dlpRedact }

/-- A map of tokens to labels. -/
def tokenMap : Reader F (List (String × String)) := mapOf style text

/-- `Config.model_validate`. -/
def Config.ofEntries (es : Entries F) : Option (Config F) := do
  pure {
    server := ← fieldOr es "server" (ServerConfig.read lib) ⟨"127.0.0.1", 8080, lib.timeout, 32⟩
    redisUrl := ← fieldOr es "redis_url" text "redis://localhost:6379/0"
    providers := ← field es "providers" (mapOf style ProviderConfig.read)
    clients := ← fieldOr es "clients" tokenMap []
    adminClients := ← fieldOr es "admin_clients" tokenMap []
    metricsTokens := ← fieldOr es "metrics_tokens" tokenMap []
    quotas := ← fieldOr es "quotas" (Quotas.read lib) ⟨none, none, none, false, 1024⟩
    inspectors := ← fieldOr es "inspectors" (InspectorsConfig.read lib)
      (InspectorsConfig.default lib)
    egress := ← fieldOr es "egress" (EgressConfig.read lib) EgressConfig.default
    routing := ← fieldOr es "routing" (readRouting lib) defaultRouting
    audit := ← fieldOr es "audit" (AuditConfig.read lib) AuditConfig.default }

end Fields

/-! ### Tokens -/

/-- The characters that `strip` takes off. -/
def isspace (c : Char) : Bool := isWhitespace c || (0x1C ≤ c.toNat && c.toNat ≤ 0x1F)

/-- `strip`. -/
def strip : Text → Text := stripWith isspace

/-- `partition(":")`, with the token as label where there is none. -/
def readPair (pair : Text) : String × String :=
  let token := pair.takeWhile (· ≠ ':')
  let label := (pair.dropWhile (· ≠ ':')).drop 1
  (String.ofList token, String.ofList (if label = [] then token else label))

/-- The pairs of a list of tokens. -/
def tokenPairs (tokens : String) : List (String × String) :=
  (tokens.toList.splitOn ',').filterMap (fun pair =>
    if strip pair = [] then none else some (readPair (strip pair)))

theorem readPair_eq (pair : Text) : readPair pair = Core.readPair pair := by
  rw [readPair, Core.readPair, List.span_eq_takeWhile_dropWhile]
  cases hdrop : pair.dropWhile (fun c => decide (c ≠ ':')) with
  | nil =>
      have htake := List.takeWhile_append_dropWhile (p := fun c => decide (c ≠ ':')) (l := pair)
      rw [hdrop, List.append_nil] at htake
      rw [List.drop_nil, if_pos rfl, htake]
  | cons c label => rfl

theorem stripWith_congr {p q : Char → Bool} {s : Text} (h : ∀ c ∈ s, p c = q c) :
    stripWith p s = stripWith q s := by
  have hdrop : ∀ l : Text, (∀ c ∈ l, p c = q c) → l.dropWhile p = l.dropWhile q := by
    intro l hl
    induction l with
    | nil => rfl
    | cons c l ih =>
        obtain ⟨hc, hl⟩ := List.forall_mem_cons.mp hl
        rw [List.dropWhile_cons, List.dropWhile_cons, hc, ih hl]
  have hmem : ∀ c ∈ (s.dropWhile q).reverse, p c = q c := fun c hc =>
    h c ((List.dropWhile_sublist q).subset (List.mem_reverse.mp hc))
  rw [stripWith, stripWith, hdrop s h, hdrop _ hmem]

theorem mem_of_mem_splitOnP {p : Char → Bool} {s pair : Text} (h : pair ∈ s.splitOnP p) :
    ∀ c ∈ pair, c ∈ s := by
  induction s generalizing pair with
  | nil =>
      rw [List.splitOnP_nil, List.mem_singleton] at h
      subst h
      exact fun c hc => hc
  | cons a s ih =>
      rw [List.splitOnP_cons_eq_if_modifyHead] at h
      intro c hc
      split_ifs at h with ha
      · rcases List.mem_cons.mp h with rfl | h
        · nomatch hc
        · exact .tail _ (ih h c hc)
      · cases hs : s.splitOnP p with
        | nil =>
            rw [hs] at h
            nomatch h
        | cons first rest =>
            rw [hs, List.modifyHead_cons] at h
            rw [hs] at ih
            rcases List.mem_cons.mp h with rfl | h
            · rcases List.mem_cons.mp hc with rfl | hc
              · exact .head _
              · exact .tail _ (ih (.head _) c hc)
            · exact .tail _ (ih (.tail _ h) c hc)

/-- Without the four separators of ASCII, the two languages find the same pairs. -/
theorem tokenPairs_eq_of_no_separators {tokens : String}
    (h : ∀ c ∈ tokens.toList, ¬ (0x1C ≤ c.toNat ∧ c.toNat ≤ 0x1F)) :
    tokenPairs tokens = Core.tokenPairs tokens := by
  have hmem : ∀ pair ∈ tokens.toList.splitOn ',', ∀ c ∈ pair, c ∈ tokens.toList :=
    fun pair hpair => mem_of_mem_splitOnP hpair
  rw [tokenPairs, Core.tokenPairs]
  refine List.filterMap_congr fun pair hpair => ?_
  have hstrip : strip pair = trim pair := stripWith_congr fun c hc => by
    have hc := h c (hmem pair hpair c hc)
    rw [isspace]
    simpa using fun h1 h2 => absurd ⟨h1, h2⟩ hc
  rw [hstrip, readPair_eq]

/-! ### Loading -/

/-- What `load_config` raises: `ConfigError` with a text of its own or with one of pydantic or of
the YAML library, or an exception that it does not catch. -/
inductive LoadError where
  | config (message : String)
  | library
  | raised (exc : Exn)

section Load

variable {F : Type} (lib : Libraries F)

/-- A variable that is set and not empty. -/
def nonempty (env : Env) (var : String) : Option String := (env.var var).filter (· ≠ "")

/-- `type(value).__name__`. -/
def typeName : Yaml F → String
  | .null => "NoneType"
  | .bool _ => "bool"
  | .int _ => "int"
  | .float _ => "float"
  | .str _ => "str"
  | .seq _ => "list"
  | .map _ => "dict"

/-- The override of the port. -/
def overridePort (env : Env) (raw : Entries F) : Except LoadError (Entries F) :=
  match nonempty env "FWLLM_SERVER__PORT" with
  | none => .ok raw
  | some port => match intOfStr lib.unicode port.toList, raw.get? "server" with
      | .error exc, _ => .error (.raised exc)
      | .ok n, none => .ok (raw.set "server" (.map [(.str "port", .int n)]))
      | .ok n, some (.map server) =>
          .ok (raw.set "server" (.map (Entries.set server "port" (.int n))))
      | .ok _, some (.seq _) => .error (.raised
          (typeError "list indices must be integers or slices, not str"))
      | .ok _, some v => .error (.raised
          (typeError s!"'{typeName v}' object does not support item assignment"))

/-- The override of one field from a variable. -/
def override (env : Env) (var name : String) (value : String → Yaml F) (raw : Entries F) :
    Entries F :=
  match nonempty env var with
  | some s => raw.set name (value s)
  | none => raw

/-- The dictionary of a list of tokens. -/
def tokensValue (tokens : String) : Yaml F := .ofPairs (Assoc.ofList (tokenPairs tokens))

/-- The other overrides, in their order. -/
def overrides (env : Env) (raw : Entries F) : Entries F :=
  override env "FWLLM_METRICS_TOKENS" "metrics_tokens" tokensValue
    (override env "FWLLM_ADMIN_TOKENS" "admin_clients" tokensValue
      (override env "FWLLM_CLIENT_TOKENS" "clients" tokensValue
        (override env "FWLLM_REDIS_URL" "redis_url" .str raw)))

/-- The variable of a provider, if it has a name. -/
def keyVar (p : ProviderConfig) : Option String := p.apiKeyEnv.filter (· ≠ "")

/-- The variable of a provider that is not set. -/
def missingKey (env : Env) (p : String × ProviderConfig) : Option (String × String) :=
  ((keyVar p.2).filter (fun v => (nonempty env v).isNone)).map (fun v => (v, p.1))

/-- The key of a provider; the dump that is validated again leaves out keys from the file. -/
def resolveKey (env : Env) (p : ProviderConfig) : ProviderConfig :=
  { p with apiKey := (keyVar p).bind (nonempty env) }

/-- `_resolve_api_keys`. -/
def resolveApiKeys (env : Env) (cfg : Config F) : Except LoadError (Config F) :=
  match cfg.providers.findSome? (missingKey env) with
  | some (v, name) => .error (.config
      s!"config error: environment variable '{v}' (api_key_env of provider '{name}') is not set")
  | none => .ok { cfg with providers := cfg.providers.map (fun p => (p.1, resolveKey env p.2)) }

/-- `load_config`, for a dictionary. -/
def loadRaw (env : Env) (raw : Entries F) : Except LoadError (Config F) := do
  let raw ← overridePort lib env raw
  match Config.ofEntries lib (overrides env raw) with
  | none => .error .library
  | some cfg => resolveApiKeys env cfg

/-- `bool(value)`. -/
def truthyValue : Yaml F → Bool
  | .null => false
  | .bool b => b
  | .int n => n ≠ 0
  | .float x => lib.truthy x
  | .str s => s ≠ ""
  | .seq items => !items.isEmpty
  | .map es => !es.isEmpty

/-- `load_config`. -/
def loadConfig (env : Env) (contents : String) : Except LoadError (Config F) :=
  match lib.safeLoad contents with
  | none => .error .library
  | some value =>
      match if truthyValue lib value then value else .map [] with
      | .map raw => loadRaw lib env raw
      | _ => .error (.config "failed to parse config: top level must be a mapping")

/-! ### What is loaded -/

/-- The record is read field by field. -/
structure Config.Reads (es : Entries F) (cfg : Config F) : Prop where
  server : fieldOr es "server" (ServerConfig.read lib) ⟨"127.0.0.1", 8080, lib.timeout, 32⟩ =
    some cfg.server
  redisUrl : fieldOr es "redis_url" text "redis://localhost:6379/0" = some cfg.redisUrl
  providers : field es "providers" (mapOf style ProviderConfig.read) = some cfg.providers
  clients : fieldOr es "clients" tokenMap [] = some cfg.clients
  adminClients : fieldOr es "admin_clients" tokenMap [] = some cfg.adminClients
  metricsTokens : fieldOr es "metrics_tokens" tokenMap [] = some cfg.metricsTokens
  quotas : fieldOr es "quotas" (Quotas.read lib) ⟨none, none, none, false, 1024⟩ = some cfg.quotas
  inspectors : fieldOr es "inspectors" (InspectorsConfig.read lib) (InspectorsConfig.default lib) =
    some cfg.inspectors
  egress : fieldOr es "egress" (EgressConfig.read lib) EgressConfig.default = some cfg.egress
  routing : fieldOr es "routing" (readRouting lib) defaultRouting = some cfg.routing
  audit : fieldOr es "audit" (AuditConfig.read lib) AuditConfig.default = some cfg.audit

theorem Config.ofEntries_iff {es : Entries F} {cfg : Config F} :
    Config.ofEntries lib es = some cfg ↔ Config.Reads lib es cfg := by
  constructor
  · intro h
    obtain ⟨server, hserver, h⟩ := Option.bind_eq_some_iff.mp h
    obtain ⟨redisUrl, hredis, h⟩ := Option.bind_eq_some_iff.mp h
    obtain ⟨providers, hproviders, h⟩ := Option.bind_eq_some_iff.mp h
    obtain ⟨clients, hclients, h⟩ := Option.bind_eq_some_iff.mp h
    obtain ⟨admins, hadmins, h⟩ := Option.bind_eq_some_iff.mp h
    obtain ⟨metrics, hmetrics, h⟩ := Option.bind_eq_some_iff.mp h
    obtain ⟨quotas, hquotas, h⟩ := Option.bind_eq_some_iff.mp h
    obtain ⟨inspectors, hinspectors, h⟩ := Option.bind_eq_some_iff.mp h
    obtain ⟨egress, hegress, h⟩ := Option.bind_eq_some_iff.mp h
    obtain ⟨routing, hrouting, h⟩ := Option.bind_eq_some_iff.mp h
    obtain ⟨audit, haudit, h⟩ := Option.bind_eq_some_iff.mp h
    obtain rfl := Option.some.inj h
    exact ⟨hserver, hredis, hproviders, hclients, hadmins, hmetrics, hquotas, hinspectors,
      hegress, hrouting, haudit⟩
  · intro h
    simp only [Config.ofEntries, h.server, h.redisUrl, h.providers, h.clients, h.adminClients,
      h.metricsTokens, h.quotas, h.inspectors, h.egress, h.routing, h.audit, bind, Option.bind,
      pure]

theorem resolveApiKeys_eq_ok_iff {env : Env} {cfg cfg' : Config F} :
    resolveApiKeys env cfg = .ok cfg' ↔
      (∀ p ∈ cfg.providers, ∀ v, keyVar p.2 = some v → (nonempty env v).isSome = true) ∧
        cfg' = { cfg with
          providers := cfg.providers.map (fun p => (p.1, resolveKey env p.2)) } := by
  have hmissing : ∀ p, missingKey env p = none ↔
      ∀ v, keyVar p.2 = some v → (nonempty env v).isSome = true := by
    intro p
    rw [missingKey, Option.map_eq_none_iff]
    cases keyVar p.2 with
    | none => simp
    | some v =>
        rw [Option.filter_some]
        cases hv : nonempty env v <;> simp [hv]
  have hnone : cfg.providers.findSome? (missingKey env) = none ↔
      ∀ p ∈ cfg.providers, ∀ v, keyVar p.2 = some v → (nonempty env v).isSome = true := by
    simp only [List.findSome?_eq_none_iff, hmissing]
  rw [← hnone, resolveApiKeys]
  cases cfg.providers.findSome? (missingKey env) with
  | none => exact ⟨fun h => ⟨rfl, (Except.ok.inj h).symm⟩, fun h => congrArg _ h.2.symm⟩
  | some x => exact ⟨fun h => (nomatch h), fun h => nomatch h.1⟩

/-- What is validated is what is loaded, but for the keys of the providers. -/
theorem loadRaw_eq_ok_iff {env : Env} {raw : Entries F} {cfg : Config F} :
    loadRaw lib env raw = .ok cfg ↔
      ∃ raw' cfg₀, overridePort lib env raw = .ok raw' ∧
        Config.ofEntries lib (overrides env raw') = some cfg₀ ∧
        resolveApiKeys env cfg₀ = .ok cfg := by
  rw [loadRaw]
  cases overridePort lib env raw with
  | error e => exact ⟨fun h => (nomatch h), fun ⟨_, _, h, _⟩ => nomatch h⟩
  | ok raw' =>
      simp only [bind, Except.bind]
      cases hcfg : Config.ofEntries lib (overrides env raw') with
      | none =>
          refine ⟨fun h => (nomatch h), fun ⟨raw'', c, h, hc, _⟩ => ?_⟩
          rw [← Except.ok.inj h, hcfg] at hc
          nomatch hc
      | some cfg₀ =>
          refine ⟨fun h => ⟨raw', cfg₀, rfl, hcfg, h⟩, fun ⟨raw'', c, h, hc, hres⟩ => ?_⟩
          rw [← Except.ok.inj h, hcfg] at hc
          obtain rfl := Option.some.inj hc
          exact hres

theorem get?_override_of_ne {env : Env} {raw : Entries F} {var name name' : String}
    {value : String → Yaml F} (h : name' ≠ name) :
    (override env var name value raw).get? name' = raw.get? name' := by
  rw [override]
  split
  · exact Yaml.get?_set_of_ne h _
  · rfl

theorem get?_overridePort_of_ne {env : Env} {raw raw' : Entries F} {name : String}
    (hport : overridePort lib env raw = .ok raw') (h : name ≠ "server") :
    raw'.get? name = raw.get? name := by
  rw [overridePort] at hport
  split at hport
  · rw [Except.ok.inj hport]
  · split at hport
    · nomatch hport
    · rw [← Except.ok.inj hport, Yaml.get?_set_of_ne h]
    · rw [← Except.ok.inj hport, Yaml.get?_set_of_ne h]
    · nomatch hport
    · nomatch hport

end Load

end FirewallLLM.PyConfig
