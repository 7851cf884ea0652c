import FirewallLLM.PyConfig

/-! # The same environment for both loaders

Both loaders read the tokens, the address of Redis and the keys of the providers from the
environment.  `same_config_iff`: on a file that both accept with these variables unset and the
keys set, they give the same tokens, address and keys, or both reject, exactly when a key is
unset, or no variable is set to the empty string where the file says something else, no key
stands in the file alone, and stripping the separators U+001C to U+001F makes no difference to
the tokens. -/

namespace FirewallLLM.ConfigAgreement

open FirewallLLM.Core (ConfigError Env isWhitespace stripWith)
open PyConfig (LoadError nonempty)
open Routing (Builtins)
open Yaml (Entries Reader entry field fieldOr mapOf optField record text)

variable {F : Type}

/-! ### Fields that are overridden -/

theorem fieldOr_of_get? {α : Type} {es es' : Entries F} {name : String} {r : Reader F α} {d : α}
    {o : Option (Yaml F)} (h : es'.get? name = o.or (es.get? name)) :
    fieldOr es' name r d = o.elim (fieldOr es name r d) r := by
  rw [fieldOr, h]
  cases o <;> rfl

theorem get?_override_self (env : Env) (var name : String) (value : String → Yaml F)
    (es : Entries F) : (Core.override env var name value es).get? name =
      ((env.var var).map value).or (es.get? name) := by
  rw [Core.override]
  cases env.var var with
  | none => rfl
  | some s =>
      dsimp only
      rw [Yaml.get?_set, if_pos rfl, Option.map_some, Option.some_or]

theorem get?_override_self_python (env : Env) (var name : String) (value : String → Yaml F)
    (es : Entries F) : (PyConfig.override env var name value es).get? name =
      ((nonempty env var).map value).or (es.get? name) := by
  rw [PyConfig.override]
  cases nonempty env var with
  | none => rfl
  | some s =>
      dsimp only
      rw [Yaml.get?_set, if_pos rfl, Option.map_some, Option.some_or]

/-- The variables of the tokens and the fields that they override. -/
def tokenVars : List (String × String) :=
  [("FWLLM_CLIENT_TOKENS", "clients"), ("FWLLM_ADMIN_TOKENS", "admin_clients"),
    ("FWLLM_METRICS_TOKENS", "metrics_tokens")]

theorem get?_overrides_redis (env : Env) (es : Entries F) :
    (Core.overrides env es).get? "redis_url" =
      ((env.var "FWLLM_REDIS_URL").map .str).or ((Core.overridePort env es).get? "redis_url") := by
  rw [Core.overrides, Core.get?_override_of_ne (by decide), Core.get?_override_of_ne (by decide),
    Core.get?_override_of_ne (by decide), get?_override_self]

theorem get?_overrides_tokens (env : Env) (es : Entries F) {x : String × String}
    (hx : x ∈ tokenVars) : (Core.overrides env es).get? x.2 =
      ((env.var x.1).map Core.tokensValue).or ((Core.overridePort env es).get? x.2) := by
  simp only [tokenVars, List.mem_cons, List.not_mem_nil, or_false] at hx
  rw [Core.overrides]
  rcases hx with rfl | rfl | rfl
  · rw [Core.get?_override_of_ne (by decide), Core.get?_override_of_ne (by decide),
      get?_override_self, Core.get?_override_of_ne (by decide)]
  · rw [Core.get?_override_of_ne (by decide), get?_override_self,
      Core.get?_override_of_ne (by decide), Core.get?_override_of_ne (by decide)]
  · rw [get?_override_self, Core.get?_override_of_ne (by decide),
      Core.get?_override_of_ne (by decide), Core.get?_override_of_ne (by decide)]

theorem get?_overrides_redis_python (env : Env) (es : Entries F) :
    (PyConfig.overrides env es).get? "redis_url" =
      ((nonempty env "FWLLM_REDIS_URL").map .str).or (es.get? "redis_url") := by
  rw [PyConfig.overrides, PyConfig.get?_override_of_ne (by decide),
    PyConfig.get?_override_of_ne (by decide), PyConfig.get?_override_of_ne (by decide),
    get?_override_self_python]

theorem get?_overrides_tokens_python (env : Env) (es : Entries F) {x : String × String}
    (hx : x ∈ tokenVars) : (PyConfig.overrides env es).get? x.2 =
      ((nonempty env x.1).map PyConfig.tokensValue).or (es.get? x.2) := by
  simp only [tokenVars, List.mem_cons, List.not_mem_nil, or_false] at hx
  rw [PyConfig.overrides]
  rcases hx with rfl | rfl | rfl
  · rw [PyConfig.get?_override_of_ne (by decide), PyConfig.get?_override_of_ne (by decide),
      get?_override_self_python, PyConfig.get?_override_of_ne (by decide)]
  · rw [PyConfig.get?_override_of_ne (by decide), get?_override_self_python,
      PyConfig.get?_override_of_ne (by decide), PyConfig.get?_override_of_ne (by decide)]
  · rw [get?_override_self_python, PyConfig.get?_override_of_ne (by decide),
      PyConfig.get?_override_of_ne (by decide), PyConfig.get?_override_of_ne (by decide)]

theorem get?_overrides_of_kept_python {env : Env} {es : Entries F} {name : String}
    (h : Core.Kept name ∨ name = "server") :
    (PyConfig.overrides env es).get? name = es.get? name := by
  have hne : name ≠ "redis_url" ∧ name ≠ "clients" ∧ name ≠ "admin_clients" ∧
      name ≠ "metrics_tokens" := by
    rcases h with h | rfl
    · simp only [Core.Kept, List.mem_cons, List.not_mem_nil, or_false, not_or] at h
      exact h.2
    · decide
  rw [PyConfig.overrides, PyConfig.get?_override_of_ne hne.2.2.2,
    PyConfig.get?_override_of_ne hne.2.2.1, PyConfig.get?_override_of_ne hne.2.1,
    PyConfig.get?_override_of_ne hne.1]

/-! ### What the loaders read -/

/-- The map of a variable, or the one of the file. -/
def tokensOr (pairs : String → List (String × String)) (o : Option String)
    (file : List (String × String)) : List (String × String) :=
  (o.map (fun s => Assoc.ofList (pairs s))).getD file

/-- A file under an environment. -/
def withEnv (env : Env) (c : Core.Config F) : Core.Config F where
  __ := c
  redisUrl := (env.var "FWLLM_REDIS_URL").getD c.redisUrl
  clients := tokensOr Core.tokenPairs (env.var "FWLLM_CLIENT_TOKENS") c.clients
  adminClients := tokensOr Core.tokenPairs (env.var "FWLLM_ADMIN_TOKENS") c.adminClients
  metricsTokens := tokensOr Core.tokenPairs (env.var "FWLLM_METRICS_TOKENS") c.metricsTokens

def withEnvPython (env : Env) (d : PyConfig.Config F) : PyConfig.Config F where
  __ := d
  redisUrl := (nonempty env "FWLLM_REDIS_URL").getD d.redisUrl
  clients := tokensOr PyConfig.tokenPairs (nonempty env "FWLLM_CLIENT_TOKENS") d.clients
  adminClients := tokensOr PyConfig.tokenPairs (nonempty env "FWLLM_ADMIN_TOKENS") d.adminClients
  metricsTokens :=
    tokensOr PyConfig.tokenPairs (nonempty env "FWLLM_METRICS_TOKENS") d.metricsTokens

section Read

variable [Builtins F] {lib : Core.Libraries F} {py : PyConfig.Libraries F}

/-- What the Rust loader reads under an environment, from what it reads without it. -/
theorem reads_overrides {env : Env} {es : Entries F} {c : Core.Config F}
    (h : Core.Config.Reads lib (Core.overridePort env es) c) :
    Core.Config.Reads lib (Core.overrides env es) (withEnv env c) := by
  have hkept : ∀ name, Core.Kept name →
      (Core.overrides env es).get? name = (Core.overridePort env es).get? name := by
    intro name hname
    rw [Core.get?_overrides hname, Core.get?_overridePort_of_ne]
    rintro rfl
    exact hname (.head _)
  have hserver : (Core.overrides env es).get? "server" =
      (Core.overridePort env es).get? "server" := by
    rw [Core.overrides, Core.get?_override_of_ne (by decide),
      Core.get?_override_of_ne (by decide), Core.get?_override_of_ne (by decide),
      Core.get?_override_of_ne (by decide)]
  have hfieldOr : ∀ {α : Type} {name : String} {r : Reader F α} {d : α}, Core.Kept name →
      fieldOr (Core.overrides env es) name r d = fieldOr (Core.overridePort env es) name r d := by
    intro α name r d hname
    rw [fieldOr, hkept name hname, fieldOr]
  have htokens : ∀ {x : String × String} {l : List (String × String)}, x ∈ tokenVars →
      fieldOr (Core.overridePort env es) x.2 (Core.tokenMap lib) [] = some l →
      fieldOr (Core.overrides env es) x.2 (Core.tokenMap lib) [] =
        some (tokensOr Core.tokenPairs (env.var x.1) l) := by
    intro x l hx hl
    rw [fieldOr_of_get? (get?_overrides_tokens env es hx)]
    cases env.var x.1 with
    | none => exact hl
    | some s => exact Yaml.mapOf_ofPairs lib.style _
  refine ⟨?_, ?_, ?_, htokens (.head _) h.clients, htokens (.tail _ (.head _)) h.adminClients,
    htokens (.tail _ (.tail _ (.head _))) h.metricsTokens, ?_, ?_, ?_, ?_, ?_, ?_⟩
  · rw [fieldOr, hserver]
    exact h.server
  · rw [fieldOr_of_get? (get?_overrides_redis env es), withEnv]
    cases env.var "FWLLM_REDIS_URL" with
    | none => exact h.redisUrl
    | some s => rfl
  · rw [field, hkept _ (by decide)]
    exact h.providers
  · exact (hfieldOr (by decide)).trans h.quotas
  · exact (hfieldOr (by decide)).trans h.routing
  · exact (hfieldOr (by decide)).trans h.egress
  · exact (hfieldOr (by decide)).trans h.inspectors
  · exact (hfieldOr (by decide)).trans h.audit
  · exact (hfieldOr (by decide)).trans h.ingress

omit [Builtins F] in
theorem reads_overrides_python {env : Env} {es : Entries F} {d : PyConfig.Config F}
    (h : PyConfig.Config.Reads py es d) :
    PyConfig.Config.Reads py (PyConfig.overrides env es) (withEnvPython env d) := by
  have hfieldOr : ∀ {α : Type} {name : String} {r : Reader F α} {a : α},
      Core.Kept name ∨ name = "server" →
      fieldOr (PyConfig.overrides env es) name r a = fieldOr es name r a := by
    intro α name r a hname
    rw [fieldOr, get?_overrides_of_kept_python hname, fieldOr]
  have htokens : ∀ {x : String × String} {l : List (String × String)}, x ∈ tokenVars →
      fieldOr es x.2 PyConfig.tokenMap [] = some l →
      fieldOr (PyConfig.overrides env es) x.2 PyConfig.tokenMap [] =
        some (tokensOr PyConfig.tokenPairs (nonempty env x.1) l) := by
    intro x l hx hl
    rw [fieldOr_of_get? (get?_overrides_tokens_python env es hx)]
    cases nonempty env x.1 with
    | none => exact hl
    | some s => exact Yaml.mapOf_ofPairs PyConfig.style _
  refine ⟨(hfieldOr (.inr rfl)).trans h.server, ?_, ?_, htokens (.head _) h.clients,
    htokens (.tail _ (.head _)) h.adminClients, htokens (.tail _ (.tail _ (.head _)))
    h.metricsTokens, ?_, ?_, ?_, ?_, ?_⟩
  · rw [fieldOr_of_get? (get?_overrides_redis_python env es), withEnvPython]
    cases nonempty env "FWLLM_REDIS_URL" with
    | none => exact h.redisUrl
    | some s => rfl
  · rw [field, get?_overrides_of_kept_python (.inl (by decide))]
    exact h.providers
  · exact (hfieldOr (.inl (by decide))).trans h.quotas
  · exact (hfieldOr (.inl (by decide))).trans h.inspectors
  · exact (hfieldOr (.inl (by decide))).trans h.egress
  · exact (hfieldOr (.inl (by decide))).trans h.routing
  · exact (hfieldOr (.inl (by decide))).trans h.audit

end Read

/-! ### The file -/

/-- The providers of a file. -/
def providerNodes (es : Entries F) : Entries F :=
  match es.get? "providers" with
  | some (.map ps) => ps
  | _ => []

/-- The variable and the key that a provider of the file names. -/
def nodeKeys (v : Yaml F) : Option String × Option String :=
  ((v.get? "api_key_env").bind Yaml.asStr?, (v.get? "api_key").bind Yaml.asStr?)

/-- Those of all providers. -/
def fileKeys (es : Entries F) : List (Option String × Option String) :=
  (providerNodes es).map (fun p => nodeKeys p.2)

theorem optField_text {es : Entries F} {name : String} {o : Option String}
    (h : optField es name text = some o) : o = (es.get? name).bind Yaml.asStr? := by
  rcases Yaml.fieldOr_eq_some_iff.mp h with ⟨v, hv, hr⟩ | ⟨hnone, rfl⟩
  · rw [hv, Option.bind_some]
    cases v <;> simp_all [Yaml.nullable, text, Yaml.asStr?]
  · rw [hnone]
    rfl

section Keys

variable {lib : Core.Libraries F} {es : Entries F}

theorem keys_of_read {v : Yaml F} {p : Core.ProviderConfig}
    (h : Core.ProviderConfig.read lib v = some p) : (p.apiKeyEnv, p.apiKey) = nodeKeys v := by
  obtain ⟨es, hes, h⟩ := Option.bind_eq_some_iff.mp h
  obtain ⟨type, -, h⟩ := Option.bind_eq_some_iff.mp h
  obtain ⟨url, -, h⟩ := Option.bind_eq_some_iff.mp h
  obtain ⟨var, hvar, h⟩ := Option.bind_eq_some_iff.mp h
  obtain ⟨key, hkey, h⟩ := Option.bind_eq_some_iff.mp h
  obtain ⟨models, -, h⟩ := Option.bind_eq_some_iff.mp h
  obtain ⟨agent, -, h⟩ := Option.bind_eq_some_iff.mp h
  obtain rfl := Option.some.inj h
  rw [nodeKeys, Yaml.get?_of_record hes, Yaml.get?_of_record hes, ← optField_text hvar,
    ← optField_text hkey]

theorem keys_of_read_python {v : Yaml F} {p : PyConfig.ProviderConfig}
    (h : PyConfig.ProviderConfig.read v = some p) : (p.apiKeyEnv, p.apiKey) = nodeKeys v := by
  obtain ⟨es, hes, h⟩ := Option.bind_eq_some_iff.mp h
  obtain ⟨type, -, h⟩ := Option.bind_eq_some_iff.mp h
  obtain ⟨url, -, h⟩ := Option.bind_eq_some_iff.mp h
  obtain ⟨var, hvar, h⟩ := Option.bind_eq_some_iff.mp h
  obtain ⟨key, hkey, h⟩ := Option.bind_eq_some_iff.mp h
  obtain ⟨models, -, h⟩ := Option.bind_eq_some_iff.mp h
  obtain rfl := Option.some.inj h
  rw [nodeKeys, Yaml.get?_of_record hes, Yaml.get?_of_record hes, ← optField_text hvar,
    ← optField_text hkey]

theorem keys_of_mapM {α : Type} {r : Reader F α} {f : α → Option String × Option String}
    (hf : ∀ v a, r v = some a → f a = nodeKeys v) {ps : Entries F} {l : List (String × α)}
    (h : ps.mapM (entry r) = some l) :
    l.map (fun p => f p.2) = ps.map (fun p => nodeKeys p.2) := by
  induction ps generalizing l with
  | nil =>
      obtain rfl := Option.some.inj h
      rfl
  | cons e ps ih =>
      rw [List.mapM_cons] at h
      obtain ⟨x, hx, h⟩ := Option.bind_eq_some_iff.mp h
      obtain ⟨xs, hxs, h⟩ := Option.bind_eq_some_iff.mp h
      obtain rfl := Option.some.inj h
      obtain ⟨k, -, hx⟩ := Option.bind_eq_some_iff.mp hx
      obtain ⟨a, ha, rfl⟩ := Option.map_eq_some_iff.mp hx
      rw [List.map_cons, List.map_cons, ih hxs]
      exact congrArg (· :: _) (hf _ _ ha)

theorem fileKeys_eq {l : List (String × Core.ProviderConfig)}
    (h : field es "providers" (mapOf lib.style (Core.ProviderConfig.read lib)) = some l) :
    fileKeys es = l.map (fun p => (p.2.apiKeyEnv, p.2.apiKey)) := by
  obtain ⟨v, hv, h⟩ := Option.bind_eq_some_iff.mp h
  rw [fileKeys, providerNodes, hv]
  cases v with
  | map ps => exact (keys_of_mapM (fun v a => keys_of_read) h).symm
  | null =>
      rw [mapOf, Yaml.emptyOf] at h
      split_ifs at h
      obtain rfl := Option.some.inj h
      rfl
  | _ => exact absurd h.symm (Option.some_ne_none _)

theorem providers_alike {l : List (String × Core.ProviderConfig)}
    {l' : List (String × PyConfig.ProviderConfig)}
    (h : field es "providers" (mapOf lib.style (Core.ProviderConfig.read lib)) = some l)
    (h' : field es "providers" (mapOf PyConfig.style PyConfig.ProviderConfig.read) = some l') :
    List.Forall₂ (fun p q => p.1 = q.1 ∧
      (p.2.apiKeyEnv, p.2.apiKey) = (q.2.apiKeyEnv, q.2.apiKey)) l l' := by
  obtain ⟨v, hv, h⟩ := Option.bind_eq_some_iff.mp h
  obtain ⟨v', hv', h'⟩ := Option.bind_eq_some_iff.mp h'
  obtain rfl := Option.some.inj (hv.symm.trans hv')
  cases v with
  | map ps =>
      exact Yaml.mapM_entry_lookup
        (P := fun a b => (a.apiKeyEnv, a.apiKey) = (b.apiKeyEnv, b.apiKey))
        (fun v a b ha hb => (keys_of_read ha).trans (keys_of_read_python hb).symm) h h'
  | _ => nomatch h'

end Keys

/-! ### The claim -/

/-- The maps of two lists are the same. -/
def SameMap (m m' : List (String × String)) : Prop := ∀ token, m.lookup token = m'.lookup token

/-- The same tokens, address and keys. -/
structure SameValues (c : Core.Config F) (d : PyConfig.Config F) : Prop where
  redisUrl : c.redisUrl = d.redisUrl
  clients : SameMap c.clients d.clients
  adminClients : SameMap c.adminClients d.adminClients
  metricsTokens : SameMap c.metricsTokens d.metricsTokens
  keys : c.providers.map (fun p => (p.1, p.2.apiKey)) = d.providers.map (fun p => (p.1, p.2.apiKey))

/-- Both reject, or both accept with the same values. -/
def Same : Except ConfigError (Core.Config F) → Except LoadError (PyConfig.Config F) → Prop
  | .ok c, .ok d => SameValues c d
  | .error _, .error _ => True
  | _, _ => False

/-- The variables named here are unset, and those of the keys are set and not empty. -/
structure Baseline (env env₀ : Env) (es : Entries F) : Prop where
  redis : env₀.var "FWLLM_REDIS_URL" = none
  tokens : ∀ x ∈ tokenVars, env₀.var x.1 = none
  keys : ∀ k ∈ fileKeys es, ∀ v, k.1 = some v → ∃ s, env₀.var v = some s ∧ s ≠ ""
  port : env₀.var "FWLLM_SERVER__PORT" = env.var "FWLLM_SERVER__PORT"

/-- The pairs of a list of tokens, of whose pieces some characters are stripped. -/
def pairsBy (space : Char → Bool) (tokens : String) : List (String × String) :=
  (tokens.toList.splitOn ',').filterMap (fun pair =>
    if stripWith space pair = [] then none else some (Core.readPair (stripWith space pair)))

/-- The pairs that are read from the tokens, the last of a token being the one that counts, do
not depend on whether the separators U+001C to U+001F are stripped as white space is. -/
def SameTokens (tokens : String) : Prop :=
  ∀ token, (pairsBy isWhitespace tokens).reverse.lookup token =
    (pairsBy PyConfig.isspace tokens).reverse.lookup token

/-- A variable of tokens that both loaders read alike: unset, empty where the file has no tokens,
or without separators that matter. -/
def TokensAlike (env : Env) (es : Entries F) (x : String × String) : Prop :=
  ∀ s, env.var x.1 = some s →
    if s = "" then ∀ v, es.get? x.2 = some v → v = .map [] else SameTokens s

/-- A variable of a key is not set. -/
def KeyUnset (env : Env) (es : Entries F) : Prop :=
  ∃ k ∈ fileKeys es, ∃ v, k.1 = some v ∧ env.var v = none

/-- No variable of a key is empty, and no key stands in the file alone. -/
def KeysAlike (env : Env) (es : Entries F) : Prop :=
  ∀ k ∈ fileKeys es, (∀ v, k.1 = some v → env.var v ≠ some "") ∧ (k.1 = none → k.2 = none)

/-- The address of Redis is not set to the empty string, or it is empty in the file. -/
def RedisAlike (env : Env) (es : Entries F) : Prop :=
  env.var "FWLLM_REDIS_URL" = some "" → es.get? "redis_url" = some (.str "")

/-! ### Values -/

theorem nonempty_of_ne {env : Env} {var s : String} (h : env.var var = some s) (hs : s ≠ "") :
    nonempty env var = some s := by
  rw [nonempty, h, Option.filter_some, if_pos (decide_eq_true hs)]

theorem nonempty_of_empty {env : Env} {var : String} (h : env.var var = some "") :
    nonempty env var = none := by
  rw [nonempty, h]
  rfl

theorem nonempty_of_unset {env : Env} {var : String} (h : env.var var = none) :
    nonempty env var = none := by
  rw [nonempty, h]
  rfl

theorem rust_pairs (tokens : String) : Core.tokenPairs tokens = pairsBy isWhitespace tokens := rfl

theorem python_pairs (tokens : String) :
    PyConfig.tokenPairs tokens = pairsBy PyConfig.isspace tokens := by
  rw [PyConfig.tokenPairs, pairsBy, funext PyConfig.readPair_eq]
  rfl

theorem sameTokens_of_no_separators {tokens : String}
    (h : ∀ c ∈ tokens.toList, ¬ (0x1C ≤ c.toNat ∧ c.toNat ≤ 0x1F)) : SameTokens tokens := by
  intro token
  rw [← rust_pairs, ← python_pairs, PyConfig.tokenPairs_eq_of_no_separators h]

theorem sameMap_nil_iff {m : List (String × String)} : SameMap [] m ↔ m = [] := by
  constructor
  · intro h
    cases m with
    | nil => rfl
    | cons e m =>
        have he := h e.1
        rw [List.lookup_nil, List.lookup_cons, beq_self_eq_true] at he
        nomatch he
  · rintro rfl token
    rfl

section Values

variable {lib : Core.Libraries F} {env : Env} {es : Entries F}

/-- The tokens of a field. -/
theorem tokens_alike_iff {x : String × String} {l : List (String × String)}
    (hl : fieldOr es x.2 PyConfig.tokenMap [] = some l) :
    SameMap (tokensOr Core.tokenPairs (env.var x.1) l)
        (tokensOr PyConfig.tokenPairs (nonempty env x.1) l) ↔ TokensAlike env es x := by
  rw [TokensAlike]
  cases hvar : env.var x.1 with
  | none =>
      rw [nonempty_of_unset hvar]
      exact iff_of_true (fun token => rfl) (fun s hs => nomatch hs)
  | some s =>
      by_cases hs : s = ""
      · subst hs
        have hfile : l = [] ↔ ∀ v, es.get? x.2 = some v → v = .map [] := by
          rcases Yaml.fieldOr_eq_some_iff.mp hl with ⟨v, hv, hr⟩ | ⟨hnone, rfl⟩
          · rw [hv]
            have hempty : l = [] ↔ v = .map [] := by
              cases v with
              | map ps =>
                  rw [Yaml.mapM_entry_eq_nil_iff hr]
                  exact ⟨fun h => congrArg Yaml.map h, fun h => Yaml.map.inj h⟩
              | _ => nomatch hr
            rw [hempty]
            exact ⟨fun h w hw => (Option.some.inj hw).symm.trans h, fun h => h v rfl⟩
          · rw [hnone]
            exact iff_of_true rfl (fun v hv => nomatch hv)
        rw [nonempty_of_empty hvar]
        have hrust : tokensOr Core.tokenPairs (some "") l = [] := rfl
        have hpython : tokensOr PyConfig.tokenPairs none l = l := rfl
        rw [hrust, hpython, sameMap_nil_iff, hfile]
        simp
      · rw [nonempty_of_ne hvar hs]
        have hlookup : SameMap (tokensOr Core.tokenPairs (some s) l)
            (tokensOr PyConfig.tokenPairs (some s) l) ↔ SameTokens s :=
          forall_congr' fun token => by
            rw [tokensOr, tokensOr, Option.map_some, Option.map_some, Option.getD_some,
              Option.getD_some, Assoc.lookup_ofList, Assoc.lookup_ofList, rust_pairs, python_pairs]
        rw [hlookup]
        simp [hs]

end Values

theorem file_redis_iff {env : Env} {es : Entries F} {url : String}
    (h : fieldOr (Core.overridePort env es) "redis_url" text "redis://localhost:6379/0" =
      some url) : es.get? "redis_url" = some (.str "") ↔ "" = url := by
  rw [fieldOr, Core.get?_overridePort_of_ne (by decide), ← fieldOr] at h
  rcases Yaml.fieldOr_eq_some_iff.mp h with ⟨v, hv, hr⟩ | ⟨hnone, rfl⟩
  · obtain rfl := Yaml.text_eq_some_iff.mp hr
    rw [hv]
    simp [eq_comm]
  · rw [hnone]
    exact iff_of_false (Option.some_ne_none _).symm (by decide)

/-! ### Both loaders -/

/-- What both loaders read from a file that they accept. -/
structure Files [Builtins F] (lib : Core.Libraries F) (py : PyConfig.Libraries F) (env : Env)
    (es raw : Entries F) (c : Core.Config F) (d : PyConfig.Config F) : Prop where
  rust : Core.Config.Reads lib (Core.overridePort env es) c
  keys : (Core.overridePort env es).all (fun e => e.1.asStr?.isSome) = true
  ingress : (c.ingress.enabled && !lib.socketAddr c.ingress.listen) = false
  port : PyConfig.overridePort py env es = .ok raw
  python : PyConfig.Config.Reads py raw d
  named : ∀ k ∈ fileKeys es, k.1 ≠ some ""

section Loaders

variable [Builtins F] {lib : Core.Libraries F} {py : PyConfig.Libraries F} {env env₀ : Env}
  {es raw : Entries F} {c : Core.Config F} {d : PyConfig.Config F}

omit [Builtins F] in
theorem override_of_unset {var name : String} {value : String → Yaml F} {es : Entries F}
    (h : env.var var = none) : Core.override env var name value es = es := by
  rw [Core.override, h]

omit [Builtins F] in
theorem override_of_unset_python {var name : String} {value : String → Yaml F} {es : Entries F}
    (h : env.var var = none) : PyConfig.override env var name value es = es := by
  rw [PyConfig.override, nonempty_of_unset h]

omit [Builtins F] in
theorem all_keys_override {var name : String} {value : String → Yaml F} {es : Entries F}
    (h : es.all (fun e => e.1.asStr?.isSome) = true) :
    (Core.override env var name value es).all (fun e => e.1.asStr?.isSome) = true := by
  rw [Core.override]
  split
  · exact Yaml.all_keys_set h _ _
  · exact h

/-- What acceptance under the baseline says about the file. -/
theorem Baseline.files (hb : Baseline env env₀ es)
    (hrust : ∃ c, Core.loadValue lib env₀ (.map es) = .ok c)
    (hpython : ∃ d, PyConfig.loadRaw py env₀ es = .ok d) :
    ∃ raw c d, Files lib py env es raw c d := by
  have hport : Core.overridePort env₀ es = Core.overridePort env es := by
    rw [Core.overridePort, Core.overridePort, hb.port]
  have hport' : PyConfig.overridePort py env₀ es = PyConfig.overridePort py env es := by
    rw [PyConfig.overridePort, PyConfig.overridePort, nonempty, nonempty, hb.port]
  obtain ⟨hclients, hadmins, hmetrics⟩ :
      env₀.var "FWLLM_CLIENT_TOKENS" = none ∧ env₀.var "FWLLM_ADMIN_TOKENS" = none ∧
        env₀.var "FWLLM_METRICS_TOKENS" = none :=
    ⟨hb.tokens _ (.head _), hb.tokens _ (.tail _ (.head _)),
      hb.tokens _ (.tail _ (.tail _ (.head _)))⟩
  obtain ⟨c', hrust⟩ := hrust
  obtain ⟨d', hpython⟩ := hpython
  obtain ⟨c, hread, hingress, -⟩ := (Core.loadValue_eq_ok_iff lib).mp hrust
  obtain ⟨raw, d, hraw, hvalid, -⟩ := (PyConfig.loadRaw_eq_ok_iff py).mp hpython
  rw [Core.overrides, override_of_unset hb.redis, override_of_unset hclients,
    override_of_unset hadmins, override_of_unset hmetrics, hport] at hread
  rw [PyConfig.overrides, override_of_unset_python hb.redis, override_of_unset_python hclients,
    override_of_unset_python hadmins, override_of_unset_python hmetrics] at hvalid
  obtain ⟨es', hes', hread⟩ := Option.bind_eq_some_iff.mp hread
  rw [record] at hes'
  split_ifs at hes' with hkeys
  obtain rfl := Option.some.inj hes'
  have hall : (Core.overridePort env es).all (fun e => e.1.asStr?.isSome) = true := by
    rw [Bool.not_eq_true, Core.Libraries.style, Bool.true_and, Bool.not_eq_false'] at hkeys
    exact hkeys
  refine ⟨raw, c, d, (Core.Config.ofEntries_iff lib).mp hread, hall, hingress,
    hport'.symm.trans hraw, (PyConfig.Config.ofEntries_iff py).mp hvalid, ?_⟩
  intro k hk hempty
  obtain ⟨s, hs, -⟩ := hb.keys k hk "" hempty
  rw [env₀.unnamed] at hs
  cases hs

theorem Files.loadValue (h : Files lib py env es raw c d) :
    Core.loadValue lib env (.map es) = Core.resolveApiKeys env (withEnv env c) := by
  have hkeys : (Core.overrides env es).all (fun e => e.1.asStr?.isSome) = true :=
    all_keys_override (all_keys_override (all_keys_override (all_keys_override h.keys)))
  have hread := (Core.Config.ofEntries_iff lib).mpr (reads_overrides h.rust)
  have hingress : ((withEnv env c).ingress.enabled &&
      !lib.socketAddr (withEnv env c).ingress.listen) = false := h.ingress
  rw [Core.loadValue]
  simp only [Core.Config.read, record, hkeys, Bool.not_true, Bool.and_false, Option.bind_some,
    hread, hingress, Bool.false_eq_true, if_false]

omit [Builtins F] in
theorem loadRaw_eq (hport : PyConfig.overridePort py env es = .ok raw)
    (hpython : PyConfig.Config.Reads py raw d) :
    PyConfig.loadRaw py env es = PyConfig.resolveApiKeys env (withEnvPython env d) := by
  have hreads : PyConfig.Config.Reads py (PyConfig.overrides env raw) (withEnvPython env d) :=
    reads_overrides_python hpython
  have hread := (PyConfig.Config.ofEntries_iff py).mpr hreads
  rw [PyConfig.loadRaw, hport]
  simp only [bind, Except.bind, hread]

theorem Files.alike (h : Files lib py env es raw c d) : c.redisUrl = d.redisUrl ∧
    c.clients = d.clients ∧ c.adminClients = d.adminClients ∧ c.metricsTokens = d.metricsTokens := by
  have hget : ∀ name, name ≠ "server" →
      (Core.overridePort env es).get? name = raw.get? name := fun name hname => by
    rw [Core.get?_overridePort_of_ne hname, PyConfig.get?_overridePort_of_ne py h.port hname]
  have htokens : ∀ {name : String} {l l' : List (String × String)}, name ≠ "server" →
      fieldOr (Core.overridePort env es) name (Core.tokenMap lib) [] = some l →
      fieldOr raw name PyConfig.tokenMap [] = some l' → l = l' := by
    intro name l l' hname hl hl'
    rw [fieldOr, hget name hname] at hl
    rw [fieldOr] at hl'
    split at hl'
    · rename_i v hv
      rw [hv] at hl
      cases v with
      | map ps => exact Option.some.inj (hl.symm.trans hl')
      | _ => exact absurd hl'.symm (Option.some_ne_none _)
    · rename_i hv
      rw [hv] at hl
      exact Option.some.inj (hl.symm.trans hl')
  refine ⟨?_, htokens (by decide) h.rust.clients h.python.clients,
    htokens (by decide) h.rust.adminClients h.python.adminClients,
    htokens (by decide) h.rust.metricsTokens h.python.metricsTokens⟩
  have hrust := h.rust.redisUrl
  rw [fieldOr, hget _ (by decide)] at hrust
  exact Option.some.inj (hrust.symm.trans h.python.redisUrl)

/-- The addresses agree unless an empty variable meets an address in the file. -/
theorem Files.redisAlike_iff (h : Files lib py env es raw c d) :
    RedisAlike env es ↔ (withEnv env c).redisUrl = (withEnvPython env d).redisUrl := by
  have hredis := h.alike.1
  rw [RedisAlike, withEnv, withEnvPython, hredis]
  cases hval : env.var "FWLLM_REDIS_URL" with
  | none =>
      refine iff_of_true (fun he => ?_) (by rw [nonempty_of_unset hval])
      cases he
  | some s =>
      by_cases hs : s = ""
      · subst hs
        rw [nonempty_of_empty hval, forall_prop_of_true rfl, Option.getD_some, Option.getD_none]
        exact file_redis_iff (hredis ▸ h.rust.redisUrl)
      · rw [nonempty_of_ne hval hs]
        exact iff_of_true (fun he => absurd (Option.some.inj he) hs) rfl

end Loaders

/-! ### Keys -/

section Resolve

variable {env : Env} {es : Entries F}

/-- The key that the Rust loader gives to a provider. -/
def rustKey (env : Env) (k : Option String × Option String) : Option String :=
  k.1.elim k.2 env.var

/-- The key that the Python loader gives to it. -/
def pythonKey (env : Env) (k : Option String × Option String) : Option String :=
  (k.1.filter (· ≠ "")).bind (nonempty env)

theorem resolveKey_apiKey (p : Core.ProviderConfig) :
    (Core.resolveKey env p).apiKey = rustKey env (p.apiKeyEnv, p.apiKey) := by
  rw [Core.resolveKey, rustKey]
  cases hvar : p.apiKeyEnv <;> rfl

/-- The keys are the same for every provider or for none. -/
theorem same_keys_iff {l : List (String × Core.ProviderConfig)}
    {l' : List (String × PyConfig.ProviderConfig)}
    (h : List.Forall₂ (fun p q => p.1 = q.1 ∧
      (p.2.apiKeyEnv, p.2.apiKey) = (q.2.apiKeyEnv, q.2.apiKey)) l l') :
    (l.map (fun p => (p.1, Core.resolveKey env p.2))).map (fun p => (p.1, p.2.apiKey)) =
        (l'.map (fun q => (q.1, PyConfig.resolveKey env q.2))).map (fun q => (q.1, q.2.apiKey)) ↔
      ∀ k ∈ l.map (fun p => (p.2.apiKeyEnv, p.2.apiKey)), rustKey env k = pythonKey env k := by
  induction h with
  | nil => simp
  | cons hpq hrest ih =>
      obtain ⟨hname, hkeys⟩ := hpq
      have hvar := (Prod.mk.inj hkeys).1
      simp only [List.map_cons, List.cons.injEq, List.forall_mem_cons, ih, Prod.mk.injEq, hname,
        true_and, resolveKey_apiKey]
      rw [pythonKey, hvar]
      rfl

theorem rustKey_eq_iff {k : Option String × Option String} (hnamed : k.1 ≠ some "")
    (hset : ∀ v, k.1 = some v → ∃ s, env.var v = some s ∧ s ≠ "") :
    rustKey env k = pythonKey env k ↔ (k.1 = none → k.2 = none) := by
  obtain ⟨var, key⟩ := k
  cases var with
  | none => exact ⟨fun h _ => h, fun h => h rfl⟩
  | some v =>
      obtain ⟨s, hs, hne⟩ := hset v rfl
      have hv : v ≠ "" := fun h => hnamed (congrArg some h)
      refine iff_of_true ?_ (fun h => nomatch h)
      rw [rustKey, pythonKey, Option.filter_some, if_pos (decide_eq_true hv), Option.bind_some,
        nonempty_of_ne hs hne]
      exact hs

/-- Where every variable of a key is set to something, only the keys of the file may differ. -/
theorem keysAlike_iff (hnamed : ∀ k ∈ fileKeys es, k.1 ≠ some "")
    (hset : ∀ k ∈ fileKeys es, ∀ v, k.1 = some v → ∃ s, env.var v = some s ∧ s ≠ "") :
    KeysAlike env es ↔ ∀ k ∈ fileKeys es, rustKey env k = pythonKey env k := by
  refine forall₂_congr fun k hk => ?_
  rw [rustKey_eq_iff (hnamed k hk) (hset k hk), and_iff_right]
  intro v hv hempty
  obtain ⟨s, hs, hne⟩ := hset k hk v hv
  exact hne (Option.some.inj (hs.symm.trans hempty))

theorem exists_error {ε α : Type} {r : Except ε α} (h : ∀ a, r ≠ .ok a) : ∃ e, r = .error e := by
  cases r with
  | error e => exact ⟨e, rfl⟩
  | ok a => exact absurd rfl (h a)

/-- The Rust loader finds all keys exactly when no variable is unset. -/
theorem rust_keys_iff {l : List (String × Core.ProviderConfig)}
    (hkeys : fileKeys es = l.map (fun p => (p.2.apiKeyEnv, p.2.apiKey))) :
    (∀ p ∈ l, ∀ v, p.2.apiKeyEnv = some v → (env.var v).isSome = true) ↔ ¬ KeyUnset env es := by
  rw [KeyUnset, hkeys]
  constructor
  · rintro h ⟨k, hk, v, hv, hnone⟩
    obtain ⟨p, hp, rfl⟩ := List.mem_map.mp hk
    have hset := h p hp v hv
    rw [hnone] at hset
    nomatch hset
  · intro h p hp v hv
    rw [← Option.ne_none_iff_isSome]
    exact fun hnone => h ⟨_, List.mem_map_of_mem hp, v, hv, hnone⟩

/-- The Python loader finds all keys exactly when no variable is unset or empty. -/
theorem python_keys_iff {l : List (String × PyConfig.ProviderConfig)}
    (hkeys : fileKeys es = l.map (fun q => (q.2.apiKeyEnv, q.2.apiKey)))
    (hnamed : ∀ k ∈ fileKeys es, k.1 ≠ some "") :
    (∀ q ∈ l, ∀ v, PyConfig.keyVar q.2 = some v → (nonempty env v).isSome = true) ↔
      ∀ k ∈ fileKeys es, ∀ v, k.1 = some v → ∃ s, env.var v = some s ∧ s ≠ "" := by
  have hfilter : ∀ v, (nonempty env v).isSome = true ↔ ∃ s, env.var v = some s ∧ s ≠ "" := by
    intro v
    rw [nonempty]
    cases hv : env.var v with
    | none => simp
    | some s =>
        rw [Option.filter_some]
        by_cases hs : s = "" <;> simp [hs]
  constructor
  · intro h k hk v hv
    rw [hkeys] at hk
    obtain ⟨q, hq, rfl⟩ := List.mem_map.mp hk
    have hne : v ≠ "" := fun hv' => hnamed _ (hkeys ▸ hk) (hv' ▸ hv)
    refine (hfilter v).mp (h q hq v ?_)
    have hv : q.2.apiKeyEnv = some v := hv
    rw [PyConfig.keyVar, hv, Option.filter_some, if_pos (decide_eq_true hne)]
  · intro h q hq v hv
    have hk : (q.2.apiKeyEnv, q.2.apiKey) ∈ fileKeys es := hkeys ▸ List.mem_map_of_mem hq
    exact (hfilter v).mpr (h _ hk v (Option.filter_eq_some_iff.mp hv).1)

end Resolve

/-! ### Agreement -/

section Agreement

variable [Builtins F] {lib : Core.Libraries F} {py : PyConfig.Libraries F} {env env₀ : Env}
  {es : Entries F}

/-- **On a file that both loaders accept with the variables unset and the keys set, they agree**
exactly when a key is unset, or the keys, the address and the tokens are given alike.  Tokens
without separators are. -/
theorem same_config_iff (hb : Baseline env env₀ es)
    (hrust : ∃ c, Core.loadValue lib env₀ (.map es) = .ok c)
    (hpython : ∃ d, PyConfig.loadRaw py env₀ es = .ok d) :
    (Same (Core.loadValue lib env (.map es)) (PyConfig.loadRaw py env es) ↔
      KeyUnset env es ∨
        KeysAlike env es ∧ RedisAlike env es ∧ ∀ x ∈ tokenVars, TokensAlike env es x) ∧
    ∀ tokens : String, (∀ c ∈ tokens.toList, ¬ (0x1C ≤ c.toNat ∧ c.toNat ≤ 0x1F)) →
      SameTokens tokens := by
  refine ⟨?_, fun tokens => sameTokens_of_no_separators⟩
  obtain ⟨raw, c, d, h⟩ := hb.files hrust hpython
  obtain ⟨-, hclients, hadmins, hmetrics⟩ := h.alike
  have hget : ∀ name, name ≠ "server" → raw.get? name = es.get? name := fun name hname =>
    PyConfig.get?_overridePort_of_ne py h.port hname
  have hproviders : field es "providers" (mapOf lib.style (Core.ProviderConfig.read lib)) =
      some c.providers := by
    rw [← h.rust.providers, field, field, Core.get?_overridePort_of_ne (by decide)]
  have halike := providers_alike hproviders (by
    rw [← h.python.providers, field, field, hget _ (by decide)])
  have hkeys := fileKeys_eq hproviders
  have hkeys' : fileKeys es = d.providers.map (fun q => (q.2.apiKeyEnv, q.2.apiKey)) := by
    rw [hkeys]
    exact List.forall₂_eq_eq_eq ▸ (List.forall₂_map_left_iff.mpr
      (List.forall₂_map_right_iff.mpr (halike.imp fun _ _ hpq => hpq.2)))
  rw [h.loadValue, loadRaw_eq h.port h.python]
  have hrustOk : ∀ c', Core.resolveApiKeys env (withEnv env c) = .ok c' ↔ ¬ KeyUnset env es ∧
      c' = { withEnv env c with
        providers := c.providers.map (fun p => (p.1, Core.resolveKey env p.2)) } := fun c' =>
    Core.resolveApiKeys_eq_ok_iff.trans (and_congr (rust_keys_iff hkeys) Iff.rfl)
  have hpythonOk : ∀ d', PyConfig.resolveApiKeys env (withEnvPython env d) = .ok d' ↔
      (∀ k ∈ fileKeys es, ∀ v, k.1 = some v → ∃ s, env.var v = some s ∧ s ≠ "") ∧
        d' = { withEnvPython env d with
          providers := d.providers.map (fun q => (q.1, PyConfig.resolveKey env q.2)) } := fun d' =>
    PyConfig.resolveApiKeys_eq_ok_iff.trans (and_congr (python_keys_iff hkeys' h.named) Iff.rfl)
  by_cases hunset : KeyUnset env es
  · -- both reject
    obtain ⟨e, he⟩ := exists_error fun c' hc => ((hrustOk c').mp hc).1 hunset
    obtain ⟨k, hk, v, hv, hnone⟩ := hunset
    obtain ⟨e', he'⟩ := exists_error fun d' hd => by
      obtain ⟨s, hs, -⟩ := ((hpythonOk d').mp hd).1 k hk v hv
      rw [hnone] at hs
      cases hs
    rw [he, he']
    exact iff_of_true trivial (.inl ⟨k, hk, v, hv, hnone⟩)
  · rw [or_iff_right hunset, (hrustOk _).mpr ⟨hunset, rfl⟩]
    by_cases hset : ∀ k ∈ fileKeys es, ∀ v, k.1 = some v → ∃ s, env.var v = some s ∧ s ≠ ""
    · rw [(hpythonOk _).mpr ⟨hset, rfl⟩]
      have htokens : ∀ x ∈ tokenVars, ∀ l l', l = l' →
          fieldOr raw x.2 PyConfig.tokenMap [] = some l' →
          (SameMap (tokensOr Core.tokenPairs (env.var x.1) l)
            (tokensOr PyConfig.tokenPairs (nonempty env x.1) l') ↔ TokensAlike env es x) := by
        rintro x hx l l' rfl hl
        have hx' : x.2 ≠ "server" := by
          simp only [tokenVars, List.mem_cons, List.not_mem_nil, or_false] at hx
          rcases hx with rfl | rfl | rfl <;> decide
        refine tokens_alike_iff ?_
        rwa [fieldOr, hget _ hx', ← fieldOr] at hl
      rw [keysAlike_iff h.named hset, hkeys, ← same_keys_iff halike, h.redisAlike_iff]
      have hc := htokens _ (.head _) _ _ hclients h.python.clients
      have ha := htokens _ (.tail _ (.head _)) _ _ hadmins h.python.adminClients
      have hm := htokens _ (.tail _ (.tail _ (.head _))) _ _ hmetrics h.python.metricsTokens
      rw [tokenVars, List.forall_mem_cons, List.forall_mem_cons, List.forall_mem_singleton, ← hc,
        ← ha, ← hm]
      constructor
      · intro hsame
        exact ⟨hsame.keys, hsame.redisUrl, hsame.clients, hsame.adminClients,
          hsame.metricsTokens⟩
      · rintro ⟨hk, hr, hcs, has, hms⟩
        exact ⟨hr, hcs, has, hms, hk⟩
    · obtain ⟨e', he'⟩ := exists_error fun d' hd => hset ((hpythonOk d').mp hd).1
      rw [he']
      refine iff_of_false id fun hcond => hset fun k hk v hv => ?_
      cases hval : env.var v with
      | none => exact absurd ⟨k, hk, v, hv, hval⟩ hunset
      | some s => exact ⟨s, rfl, fun hs => (hcond.1 k hk).1 v hv (hs ▸ hval)⟩

end Agreement

/-! ### An empty list of tokens -/

section Example

/-- An environment with some variables. -/
def envOf (vars : List (String × String)) : Env :=
  ⟨fun v => if v = "" then none else vars.lookup v, if_pos rfl⟩

/-- The libraries, on files without floats. -/
def sampleRust : Core.Libraries ℤ where
  nullIsEmpty := true
  timeout := 120
  threshold := 1
  parse _ := none
  socketAddr := (· = "0.0.0.0:8443")

def samplePython : PyConfig.Libraries ℤ where
  toInt := Yaml.intIn (-2 ^ 63) (2 ^ 63)
  toFloat := Yaml.intIn (-2 ^ 63) (2 ^ 63)
  toBool := Yaml.flag
  timeout := 120
  threshold := 1
  inUnit x := 0 ≤ x && x ≤ 1
  truthy := (· ≠ 0)
  unicode := ⟨fun c => if c.isDigit then some (c.toNat - 48) else none, PyConfig.isspace⟩
  safeLoad _ := none

/-- A provider with a key and a client. -/
def sampleFile : Entries ℤ :=
  [(.str "providers", .map [(.str "p", .map [(.str "base_url", .str "https://x.example/v1"),
      (.str "api_key_env", .str "KEY")])]),
    (.str "clients", .map [(.str "t", .str "alice")])]

theorem sample_baseline (tokens : String) :
    Baseline (envOf [("KEY", "sk"), ("FWLLM_CLIENT_TOKENS", tokens)]) (envOf [("KEY", "sk")])
      sampleFile where
  redis := rfl
  tokens := by
    simp only [tokenVars, List.forall_mem_cons]
    exact ⟨rfl, rfl, rfl, List.forall_mem_nil _⟩
  keys k hk v hv := by
    obtain rfl := List.mem_singleton.mp (show k ∈ [(some "KEY", none)] from hk)
    obtain rfl := Option.some.inj hv
    exact ⟨"sk", rfl, by decide⟩
  port := rfl

theorem two_tokens_alike :
    Same (Core.loadValue sampleRust
        (envOf [("KEY", "sk"), ("FWLLM_CLIENT_TOKENS", "tok1:alice,tok2:bob")]) (.map sampleFile))
      (PyConfig.loadRaw samplePython
        (envOf [("KEY", "sk"), ("FWLLM_CLIENT_TOKENS", "tok1:alice,tok2:bob")]) sampleFile) := by
  obtain ⟨hsame, hplain⟩ := same_config_iff (sample_baseline "tok1:alice,tok2:bob")
    (show ∃ c, Core.loadValue sampleRust (envOf [("KEY", "sk")]) (.map sampleFile) = .ok c
      from ⟨_, rfl⟩)
    (show ∃ d, PyConfig.loadRaw samplePython (envOf [("KEY", "sk")]) sampleFile = .ok d
      from ⟨_, rfl⟩)
  refine hsame.mpr (.inr ⟨?_, (fun h => nomatch h), ?_⟩)
  · intro k hk
    obtain rfl := List.mem_singleton.mp (show k ∈ [(some "KEY", none)] from hk)
    exact ⟨fun v hv => by obtain rfl := Option.some.inj hv; decide, fun h => nomatch h⟩
  · simp only [tokenVars, List.forall_mem_cons]
    refine ⟨?_, (fun s hs => nomatch hs), (fun s hs => nomatch hs), List.forall_mem_nil _⟩
    intro s hs
    obtain rfl : s = "tok1:alice,tok2:bob" := (Option.some.inj hs).symm
    rw [if_neg (by decide)]
    have hall : "tok1:alice,tok2:bob".toList.all
        (fun c => !(0x1C ≤ c.toNat && c.toNat ≤ 0x1F)) = true := rfl
    refine hplain _ fun c hc => ?_
    have hrange := List.all_eq_true.mp hall c hc
    rwa [Bool.not_eq_true', ← Bool.not_eq_true, Bool.and_eq_true, decide_eq_true_eq,
      decide_eq_true_eq] at hrange

/-- An empty list of tokens removes the clients of the file in one language only. -/
theorem empty_tokens_differ :
    ¬ ∀ (lib : Core.Libraries ℤ) (py : PyConfig.Libraries ℤ) (env env₀ : Env) (es : Entries ℤ),
      Baseline env env₀ es → (∃ c, Core.loadValue lib env₀ (.map es) = .ok c) →
      (∃ d, PyConfig.loadRaw py env₀ es = .ok d) →
      Same (Core.loadValue lib env (.map es)) (PyConfig.loadRaw py env es) := by
  intro h
  have hsame := h sampleRust samplePython _ _ sampleFile (sample_baseline "") ⟨_, rfl⟩ ⟨_, rfl⟩
  have hclients := SameValues.clients hsame "t"
  nomatch hclients

end Example

end FirewallLLM.ConfigAgreement
