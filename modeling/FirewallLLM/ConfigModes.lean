import FirewallLLM.Config
import FirewallLLM.InspectorChain

/-! # The modes of the inspectors

The modes are strings that `load_config_from_str` does not look at, and the chain compares them
branch by branch.  `FailSafe` is what a configuration promises about the requests that the
inspectors see; `fail_safe_iff` says that a configuration that is accepted keeps it exactly when
the file spells its modes as the chain does, or leaves them out. -/

namespace FirewallLLM.Core

open Dlp (HasMatch Marked Text Vault VaultOrder)
open Inspectors (ContentMatch Engine Finding Outcome contentTexts inspectMessage inspectMessages
  messagesOf processRequestWithClient rank)
open Routing (Builtins)
open Yaml (Entries Reader fieldOr record)

/-! ### The chain of a configuration -/

variable {F : Type}

/-- `InspectorChain::from_config`: the modes, and the classifier if it is enabled. -/
def fromConfig (tryLoadClassifier : String → Option (F → Text → Option Finding))
    (cfg : InspectorsConfig F) :
    Except ConfigError (Inspectors.Config × Option (Text → Option Finding)) :=
  let chain := ⟨cfg.injection.mode, cfg.injection.blockSeverityGte, cfg.dlp.mode⟩
  if cfg.injection.ml.enabled then
    match tryLoadClassifier cfg.injection.ml.modelDir with
    | some classifier => .ok (chain, some (classifier cfg.injection.ml.threshold))
    | none => .error (.validation ("injection.ml is enabled but no model could be loaded - " ++
        "provide a valid model_dir with model.onnx/tokenizer.json"))
  else .ok (chain, none)

def dlpModes : List String := ["block", "mask", "log", "off"]

def injectionModes : List String := ["block", "log", "off"]

/-! ### The promise -/

/-- A request is refused. -/
def IsRefused (out : Outcome) : Prop := ∃ err, out.result = .error err

/-- A token stands over a part, at least, of every match in the content of a message. -/
def ContentMasked (p : Dlp.Patterns) (payload : Json) (out : Outcome) : Prop :=
  List.Forall₂ (fun m m' => List.Forall₂ (Marked p) (contentTexts m) (contentTexts m'))
    ((messagesOf payload).getD []) ((messagesOf out.payload).getD [])

/-- The modes are known, and unless they are off or log, a request with a match is masked or
refused and one with a finding that is severe enough is refused. -/
structure FailSafe (cfg : Inspectors.Config) (e : Engine) : Prop where
  dlpMode : cfg.dlpMode ∈ dlpModes
  injectionMode : cfg.injectionMode ∈ injectionModes
  content : cfg.dlpMode ≠ "off" → cfg.dlpMode ≠ "log" →
    ∀ (ord : VaultOrder) (payload : Json) (client : Option String)
      (draws : List (UInt64 × UInt64)) (out : Outcome),
      processRequestWithClient cfg e ord payload client draws = some out →
      (∃ m ∈ (messagesOf payload).getD [], ContentMatch e.patterns m) →
      IsRefused out ∨ ContentMasked e.patterns payload out
  worst : cfg.injectionMode ≠ "off" → cfg.injectionMode ≠ "log" →
    ∀ (ord : VaultOrder) (payload : Json) (client : Option String)
      (draws : List (UInt64 × UInt64)) (out : Outcome),
      processRequestWithClient cfg e ord payload client draws = some out →
      (∃ f ∈ Inspectors.findings e ((messagesOf payload).getD []),
        rank cfg.blockSeverityGte ≤ rank f.2) → IsRefused out

/-! ### Known modes keep the promise -/

theorem inspectMessages_masked {p : Dlp.Patterns} (hp : p.Plain) {ord : VaultOrder}
    {msgs msgs' : List Json} {s : Inspectors.DlpState} (hs : s.vault.Tokens)
    {r : Except ApiError Inspectors.DlpState}
    (h : inspectMessages "mask" p ord msgs s = some (msgs', r)) :
    List.Forall₂ (fun m m' => List.Forall₂ (Marked p) (contentTexts m) (contentTexts m'))
      msgs msgs' := by
  induction msgs generalizing s msgs' r with
  | nil =>
      obtain ⟨rfl, -⟩ := Prod.mk.inj (Option.some.inj h)
      exact .nil
  | cons m msgs ih =>
      rw [inspectMessages] at h
      obtain ⟨r₁, hm, hrest⟩ := Option.bind_eq_some_iff.mp h
      obtain ⟨m', s', rfl, hs', hcontent, -, -⟩ := Inspectors.inspectMessage_mask hs hm
      obtain ⟨⟨msgs₁, r₂⟩, hmsgs, heq⟩ := Option.map_eq_some_iff.mp hrest
      obtain ⟨rfl, -⟩ := Prod.mk.inj heq
      exact .cons (hcontent.imp fun _ _ hmasked => hmasked.marked hp) (ih hs' hmsgs)

variable {cfg : Inspectors.Config} {e : Engine} {ord : VaultOrder} {payload : Json}
  {client : Option String} {draws : List (UInt64 × UInt64)} {out : Outcome}

/-- Masking and blocking leave no match in a request that is let through. -/
theorem content_masked (hp : e.patterns.Plain)
    (hmode : cfg.dlpMode = "mask" ∨ cfg.dlpMode = "block")
    (h : processRequestWithClient cfg e ord payload client draws = some out)
    (hmatch : ∃ m ∈ (messagesOf payload).getD [], ContentMatch e.patterns m) :
    IsRefused out ∨ ContentMasked e.patterns payload out := by
  rcases Inspectors.processRequest_cases h with ⟨-, herr⟩ | ⟨-, hdlp⟩
  · exact .inl herr
  · unfold Inspectors.dlpStage at hdlp
    rw [if_pos (by rcases hmode with hm | hm <;> rw [hm] <;> decide)] at hdlp
    cases hmsgs : messagesOf payload with
    | none =>
        rw [hmsgs] at hmatch
        obtain ⟨m, hm, -⟩ := hmatch
        nomatch hm
    | some msgs =>
        rw [hmsgs] at hdlp hmatch
        obtain ⟨⟨msgs', r⟩, hrun, heq⟩ := Option.map_eq_some_iff.mp hdlp
        obtain ⟨hpayload, hr⟩ := Prod.mk.inj heq
        rcases hmode with hm | hm
        · right
          rw [hm] at hrun
          have hmsgs' : messagesOf out.payload = some msgs' := by
            rw [← hpayload]
            exact Json.asArr?_get?_set hmsgs msgs'
          rw [ContentMasked, hmsgs, hmsgs']
          exact inspectMessages_masked hp (by simp [Vault.Tokens]) hrun
        · left
          rw [hm] at hrun
          have hiff := Inspectors.inspectMessages_block hp hrun
          obtain ⟨m, hmem, hcontent⟩ := hmatch
          cases hres : r with
          | ok s => exact absurd hcontent (hiff.mp ⟨s, hres⟩ m hmem)
          | error err => exact ⟨err, hr.symm.trans hres⟩

theorem worst_refused (hmode : cfg.injectionMode = "block")
    (h : processRequestWithClient cfg e ord payload client draws = some out)
    (hfound : ∃ f ∈ Inspectors.findings e ((messagesOf payload).getD []),
      rank cfg.blockSeverityGte ≤ rank f.2) : IsRefused out := by
  have hverdict : (Inspectors.injectionVerdict cfg e payload).isSome = true := by
    obtain ⟨f, hf, hle⟩ := hfound
    rw [Inspectors.injectionVerdict, if_pos (by rw [hmode]; decide), Inspectors.verdict_eq]
    cases hmax : (Inspectors.findings e ((messagesOf payload).getD [])).argmax
        (fun f => rank f.2) with
    | none =>
        rw [List.argmax_eq_none.mp hmax] at hf
        nomatch hf
    | some g =>
        have hfg := List.le_of_mem_argmax (f := fun f : Finding => rank f.2) hf hmax
        rw [Option.filter_some, if_pos (decide_eq_true (hle.trans hfg))]
        rfl
  rcases Inspectors.processRequest_cases h with ⟨-, herr⟩ | ⟨hpass, -⟩
  · exact herr
  · exact absurd ⟨hmode, hverdict⟩ hpass

theorem fail_safe_of_modes (hp : e.patterns.Plain) (hdlp : cfg.dlpMode ∈ dlpModes)
    (hinj : cfg.injectionMode ∈ injectionModes) : FailSafe cfg e where
  dlpMode := hdlp
  injectionMode := hinj
  content hoff hlog ord payload client draws out h hmatch := by
    simp only [dlpModes, List.mem_cons, List.not_mem_nil, or_false] at hdlp
    refine content_masked hp ?_ h hmatch
    rcases hdlp with hm | hm | hm | hm
    · exact .inr hm
    · exact .inl hm
    · exact absurd hm hlog
    · exact absurd hm hoff
  worst hoff hlog ord payload client draws out h hfound := by
    simp only [injectionModes, List.mem_cons, List.not_mem_nil, or_false] at hinj
    refine worst_refused ?_ h hfound
    rcases hinj with hm | hm | hm
    · exact hm
    · exact absurd hm hlog
    · exact absurd hm hoff

/-! ### The modes of a file -/

/-- The entry for the mode of an inspector. -/
def modeAt (value : Yaml F) (inspector : String) : Option (Yaml F) :=
  ((value.get? "inspectors").bind (·.get? inspector)).bind (·.get? "mode")

/-- A mode that is left out or spelled as one of a list. -/
def Spelled (modes : List String) (entry : Option (Yaml F)) : Prop :=
  ∀ v, entry = some v → ∃ mode ∈ modes, v = .str mode

/-- A mode that has been read, or its default. -/
def ReadAs (entry : Option (Yaml F)) (default mode : String) : Prop :=
  entry = some (.str mode) ∨ entry = none ∧ default = mode

theorem spelled_iff {modes : List String} {entry : Option (Yaml F)} {default mode : String}
    (h : ReadAs entry default mode) (hdefault : default ∈ modes) :
    Spelled modes entry ↔ mode ∈ modes := by
  rcases h with rfl | ⟨rfl, rfl⟩
  · constructor
    · intro hs
      obtain ⟨mode', hmem, heq⟩ := hs _ rfl
      rwa [Yaml.str.inj heq]
    · rintro hmem v hv
      exact ⟨mode, hmem, (Option.some.inj hv).symm⟩
  · exact iff_of_true (fun v hv => nomatch hv) hdefault

theorem readAs_of_fieldOr {es : Entries F} {name default mode : String}
    (h : fieldOr es name Yaml.text default = some mode) : ReadAs (es.get? name) default mode := by
  rcases Yaml.fieldOr_eq_some_iff.mp h with ⟨v, hv, htext⟩ | h
  · exact .inl (hv.trans (congrArg some (Yaml.text_eq_some_iff.mp htext)))
  · exact .inr h

section Read

variable {lib : Libraries F}

theorem dlp_readAs {v : Yaml F} {c : DlpConfig} (h : DlpConfig.read lib v = some c) :
    ReadAs (v.get? "mode") DlpConfig.default.mode c.mode := by
  obtain ⟨es, hes, h⟩ := Option.bind_eq_some_iff.mp h
  obtain ⟨mode, hmode, h⟩ := Option.bind_eq_some_iff.mp h
  obtain ⟨policy, -, h⟩ := Option.bind_eq_some_iff.mp h
  obtain ⟨profile, -, h⟩ := Option.bind_eq_some_iff.mp h
  obtain rfl := Option.some.inj h
  rw [Yaml.get?_of_record hes]
  exact readAs_of_fieldOr hmode

variable [Builtins F]

theorem injection_readAs {v : Yaml F} {c : InjectionConfig F}
    (h : InjectionConfig.read lib v = some c) :
    ReadAs (v.get? "mode") (InjectionConfig.default lib).mode c.mode := by
  obtain ⟨es, hes, h⟩ := Option.bind_eq_some_iff.mp h
  obtain ⟨mode, hmode, h⟩ := Option.bind_eq_some_iff.mp h
  obtain ⟨gte, -, h⟩ := Option.bind_eq_some_iff.mp h
  obtain ⟨ml, -, h⟩ := Option.bind_eq_some_iff.mp h
  obtain rfl := Option.some.inj h
  rw [Yaml.get?_of_record hes]
  exact readAs_of_fieldOr hmode

theorem inspectors_readAs {es : Entries F} {c : InspectorsConfig F}
    (h : fieldOr es "inspectors" (InspectorsConfig.read lib) (InspectorsConfig.default lib) =
      some c) :
    ReadAs (modeAt (.map es) "dlp") DlpConfig.default.mode c.dlp.mode ∧
      ReadAs (modeAt (.map es) "injection") (InjectionConfig.default lib).mode
        c.injection.mode := by
  have hget : (Yaml.map es).get? "inspectors" = es.get? "inspectors" := rfl
  rcases Yaml.fieldOr_eq_some_iff.mp h with ⟨v, hv, hread⟩ | ⟨hnone, rfl⟩
  · obtain ⟨es', hes', hread⟩ := Option.bind_eq_some_iff.mp hread
    obtain ⟨dlp, hdlp, hread⟩ := Option.bind_eq_some_iff.mp hread
    obtain ⟨injection, hinj, hread⟩ := Option.bind_eq_some_iff.mp hread
    obtain rfl := Option.some.inj hread
    rw [modeAt, modeAt, hget, hv, Option.bind_some, Option.bind_some, Yaml.get?_of_record hes',
      Yaml.get?_of_record hes']
    constructor
    · rcases Yaml.fieldOr_eq_some_iff.mp hdlp with ⟨w, hw, hr⟩ | ⟨hnone, rfl⟩
      · rw [hw]
        exact dlp_readAs hr
      · rw [hnone]
        exact .inr ⟨rfl, rfl⟩
    · rcases Yaml.fieldOr_eq_some_iff.mp hinj with ⟨w, hw, hr⟩ | ⟨hnone, rfl⟩
      · rw [hw]
        exact injection_readAs hr
      · rw [hnone]
        exact .inr ⟨rfl, rfl⟩
  · rw [modeAt, modeAt, hget, hnone]
    exact ⟨.inr ⟨rfl, rfl⟩, .inr ⟨rfl, rfl⟩⟩

/-- `null` reads as the empty mapping, if at all. -/
theorem loadValue_null {env : Env} {c : Config F} (h : loadValue lib env .null = .ok c) :
    ∃ cfg, Config.read lib .null = some cfg := by
  simp only [loadValue] at h
  split at h
  · cases h
  · exact ⟨_, ‹_›⟩

/-- What is loaded has the modes of the file. -/
theorem modes_of_load {env : Env} {raw : String} {value : Yaml F} {c : Config F}
    (hparse : lib.parse raw = some value) (hload : loadConfigFromStr lib env raw = .ok c) :
    ReadAs (modeAt value "dlp") DlpConfig.default.mode c.inspectors.dlp.mode ∧
      ReadAs (modeAt value "injection") (InjectionConfig.default lib).mode
        c.inspectors.injection.mode := by
  rw [loadConfigFromStr, hparse] at hload
  dsimp only at hload
  cases value with
  | map es =>
      obtain ⟨c₀, hread, -, hres⟩ := (loadValue_eq_ok_iff lib).mp hload
      obtain ⟨-, rfl⟩ := resolveApiKeys_eq_ok_iff.mp hres
      obtain ⟨es', hes', hread⟩ := Option.bind_eq_some_iff.mp hread
      have hmodes := inspectors_readAs ((Config.ofEntries_iff lib).mp hread).inspectors
      have hget : Entries.get? es' "inspectors" = Entries.get? es "inspectors" :=
        (Yaml.get?_of_record hes' _).symm.trans (get?_overrides (by decide))
      simp only [modeAt, Yaml.get?, hget] at hmodes
      exact hmodes
  | null =>
      -- the providers have no default
      have hread : Config.read lib .null = none := by
        rw [Option.eq_none_iff_forall_ne_some]
        intro c₀ h
        obtain ⟨es, hes, h⟩ := Option.bind_eq_some_iff.mp h
        have hproviders := ((Config.ofEntries_iff lib).mp h).providers
        rw [Yaml.field, ← Yaml.get?_of_record hes] at hproviders
        cases hproviders
      obtain ⟨cfg, hcfg⟩ := loadValue_null hload
      exact absurd (hcfg.symm.trans hread) (Option.some_ne_none cfg)
  | _ => cases hload

/-- **A configuration that is accepted is fail-safe exactly when its file spells the modes of the
inspectors as the chain does or leaves them out.** -/
theorem fail_safe_iff {env : Env} {raw : String} {value : Yaml F} {c : Config F}
    {tryLoadClassifier : String → Option (F → Text → Option Finding)} {cfg : Inspectors.Config}
    {ml : Option (Text → Option Finding)} {e : Engine} (hp : e.patterns.Plain)
    (hparse : lib.parse raw = some value) (hload : loadConfigFromStr lib env raw = .ok c)
    (hchain : fromConfig tryLoadClassifier c.inspectors = .ok (cfg, ml)) :
    FailSafe cfg { e with ml := ml } ↔
      Spelled dlpModes (modeAt value "dlp") ∧ Spelled injectionModes (modeAt value "injection") := by
  obtain ⟨hdlp, hinj⟩ := modes_of_load hparse hload
  have hcfg : cfg = ⟨c.inspectors.injection.mode, c.inspectors.injection.blockSeverityGte,
      c.inspectors.dlp.mode⟩ := by
    simp only [fromConfig] at hchain
    split_ifs at hchain
    · split at hchain
      · exact (Prod.mk.inj (Except.ok.inj hchain)).1.symm
      · nomatch hchain
    · exact (Prod.mk.inj (Except.ok.inj hchain)).1.symm
  have hblock : (InjectionConfig.default lib).mode ∈ injectionModes := .head _
  rw [spelled_iff hdlp (by decide), spelled_iff hinj hblock, hcfg]
  constructor
  · intro h
    exact ⟨h.dlpMode, h.injectionMode⟩
  · rintro ⟨hd, hi⟩
    exact fail_safe_of_modes hp hd hi

end Read

/-! ### A misspelled mode -/

section Example

open Dlp (samplePatterns sampleText)

/-- A file that sets the mode of the DLP inspector. -/
def modeFile (mode : String) : String :=
  "providers: \x7b\x7d\ninspectors:\n  dlp:\n    mode: " ++ mode

/-- Its tree. -/
def modeTree (mode : String) : Yaml ℤ :=
  .map [(.str "providers", .map []),
    (.str "inspectors", .map [(.str "dlp", .map [(.str "mode", .str mode)])])]

/-- A parser that knows the file with one mode. -/
def modeLibraries (mode : String) : Libraries ℤ where
  nullIsEmpty := true
  timeout := 120
  threshold := 1
  parse raw := if raw = modeFile mode then some (modeTree mode) else none
  socketAddr := (· = "0.0.0.0:8443")

def emptyEnv : Env := ⟨fun _ => none, rfl⟩

/-- What is loaded from it. -/
def modeConfig (mode : String) : Config ℤ where
  server := ⟨"127.0.0.1", 8080, 120⟩
  redisUrl := "redis://localhost:6379/0"
  providers := []
  clients := []
  adminClients := []
  metricsTokens := []
  quotas := Quotas.default
  routing := defaultRouting
  egress := ⟨"direct", none⟩
  inspectors := ⟨⟨mode, "mask", "ru_152"⟩, InjectionConfig.default (modeLibraries mode)⟩
  audit := ⟨true, "audit.db", true⟩
  ingress := IngressConfig.default

theorem parse_modeFile (mode : String) :
    (modeLibraries mode).parse (modeFile mode) = some (modeTree mode) := if_pos rfl

theorem load_modeFile (mode : String) :
    loadConfigFromStr (modeLibraries mode) emptyEnv (modeFile mode) = .ok (modeConfig mode) := by
  rw [loadConfigFromStr, parse_modeFile]
  rfl

theorem mask_fail_safe : FailSafe ⟨"block", "high", "mask"⟩ Inspectors.sampleEngine :=
  (@fail_safe_iff _ _ _ _ _ _ _ (fun _ => none) _ _ Inspectors.sampleEngine
    Inspectors.samplePatterns_plain (parse_modeFile "mask") (load_modeFile "mask") rfl).mpr
    ⟨fun _ hv => ⟨"mask", by decide, (Option.some.inj hv).symm⟩, fun _ hv => nomatch hv⟩

/-- A request with an address passes a chain whose mode is `Mask`. -/
theorem misspelled_mode_leaks :
    ¬ ∀ (lib : Libraries ℤ) (env : Env) (raw : String) (c : Config ℤ) (cfg : Inspectors.Config)
      (e : Engine), e.patterns.Plain → loadConfigFromStr lib env raw = .ok c →
      fromConfig (fun _ => none) c.inspectors = .ok (cfg, none) →
      FailSafe cfg { e with ml := none } := by
  intro h
  have hsafe := h (modeLibraries "Mask") emptyEnv (modeFile "Mask") (modeConfig "Mask")
    ⟨"block", "high", "Mask"⟩ Inspectors.sampleEngine Inspectors.samplePatterns_plain
    (load_modeFile "Mask") rfl
  let message : Inspectors.ChatMessage := ⟨"user".toList, some sampleText, none, none⟩
  rcases hsafe.content (by decide) (by decide) Dlp.insertionOrder
      (Inspectors.samplePayload message) none [] _ rfl
      ⟨message.toJson, .head _, sampleText, .head _, by decide⟩ with ⟨err, herr⟩ | hmasked
  · nomatch herr
  · obtain ⟨hcontent, -⟩ := List.forall₂_cons.mp hmasked
    obtain ⟨hmarked, -⟩ := List.forall₂_cons.mp hcontent
    exact (Dlp.marked_self_iff Inspectors.samplePatterns_plain sampleText).mp hmarked (by decide)

end Example

end FirewallLLM.Core
