import FirewallLLM.InspectorChain
import FirewallLLM.PyGateway

/-! # The inspectors of the Python gateway

`InjectionInspector`, `DLPInspector` and `InspectorChain` of the Python branch, with the events
that they publish for the policy engine.  The compiled signatures, `json.dumps` and the
sanitizer of the library are parameters.

`same_attacks_iff`: on the same findings, the two branches report the same attack and agree
whether to block exactly when the scan is off, nothing was found or the worst finding reaches
`block_severity_gte`. -/

namespace FirewallLLM.Py

open Dlp (Text)
open Inspectors (Finding sigs severityOrder rank sigs_ranked BlockedForInjection)

/-! ### Configuration -/

/-- The modes of `InjectionConfig`. -/
inductive InjectionMode where
  | block | log | off
deriving DecidableEq

/-- The values of `block_severity_gte`. -/
inductive Severity where
  | low | medium | high | critical
deriving DecidableEq

/-- The modes of `DLPConfig`. -/
inductive DLPMode where
  | block | mask | log | off
deriving DecidableEq

def InjectionMode.text : InjectionMode → String
  | block => "block"
  | log => "log"
  | off => "off"

def Severity.text : Severity → String
  | low => "low"
  | medium => "medium"
  | high => "high"
  | critical => "critical"

/-- `InjectionConfig`, without the classifier. -/
structure InjectionConfig where
  mode : InjectionMode
  blockSeverityGte : Severity

/-- `DLPConfig`, as far as `process_request` reads it. -/
structure DLPConfig where
  mode : DLPMode
  profile : String

/-! ### The injection inspector -/

/-- The data of an event `attack_detected`. -/
structure AttackDetected where
  rule : String
  severity : String
  detector : String
  client : Option String

/-- `pattern.search` for every signature, and `json.dumps`. -/
structure Scanner where
  search : Finding → Text → Bool
  dumps : Value → Text

/-- The first finding of the highest severity; `max` raises on a severity that is not known. -/
def worst (findings : List Finding) : Except Exn (Option Finding) :=
  match findings.find? (fun f => severityOrder.lookup f.2 = none) with
  | some f => .error (.other "KeyError" f.2)
  | none => .ok (findings.argmax (fun f => rank f.2))

/-- `handle_findings`. -/
def handleFindings (findings : List Finding) (config : InjectionConfig) (detector : String)
    (client : Option String) : List AttackDetected × Except Exn Unit :=
  if config.mode = .off ∨ findings = [] then ([], .ok ())
  else match worst findings with
    | .error e => ([], .error e)
    | .ok none => ([], .ok ())
    | .ok (some (rule, severity)) =>
        ([⟨rule, severity, detector, client⟩],
          if config.mode = .block ∧ rank severity ≥ rank config.blockSeverityGte.text then
            .error (.blocked s!"prompt injection detected ({rule}, severity={severity})" "injection")
          else .ok ())

namespace Scanner

variable (sc : Scanner)

/-- The texts of a message that are scanned. -/
def texts (fields : Fields) : List Text :=
  ((fields.get? "content").bind Value.asStr?).toList ++
    (match fields.get? "tool_calls" with
      | none | some .none => []
      | some calls => [sc.dumps calls]) ++
    ((fields.get? "name").bind Value.asStr?).toList

/-- `_scan`. -/
def scan (messages : Value) : Except Exn (List Finding) := do
  let found ← (← messages.iter).mapM (fun message => do
    let fields ← message.fields
    pure ((sc.texts fields).flatMap (fun text => sigs.filter (fun sig => sc.search sig text))))
  pure found.flatten

/-- `InjectionInspector.process_request`. -/
def processRequest (config : InjectionConfig) (payload : Fields) (client : Option String) :
    List AttackDetected × Except Exn Unit :=
  if config.mode = .off then ([], .ok ())
  else match sc.scan (payloadMessages payload) with
    | .error e => ([], .error e)
    | .ok findings => handleFindings findings config "signatures" client

end Scanner

/-! ### The DLP inspector -/

/-- `TextSanitizer`: how many matches a text has, and the text with its tokens. -/
structure TextSanitizer (σ : Type) where
  fresh : String → σ
  scan : σ → Text → ℕ
  sanitizeWithScope : σ → Text → Text × List (Text × ℕ) × σ

/-- `DLPState`. -/
structure DLPState (σ : Type) where
  sanitizer : Option σ
  scope : List (Text × ℕ)

section DLP

variable {σ : Type} (ts : TextSanitizer σ)

/-- `state.scope[token] = state.scope.get(token, 0) + count`. -/
def addScope (scope : List (Text × ℕ)) (entry : Text × ℕ) : List (Text × ℕ) :=
  if scope.any (fun e => e.1 = entry.1) then
    scope.map (fun e => if e.1 = entry.1 then (e.1, e.2 + entry.2) else e)
  else scope ++ [entry]

/-- One message, with the sanitizer and the scope. -/
def inspectMessage (mode : DLPMode) (message : Value) (s : σ × List (Text × ℕ)) :
    Except Exn (Value × σ × List (Text × ℕ)) := do
  let fields ← message.fields
  match (fields.get? "content").bind Value.asStr? with
  | none => pure (message, s)
  | some content =>
      match mode with
      | .block =>
          if ts.scan s.1 content ≠ 0 then
            throw (.blocked "sensitive data detected in request (DLP block mode)" "dlp")
          else pure (message, s)
      | .mask =>
          let (clean, scope, st) := ts.sanitizeWithScope s.1 content
          pure (.dict (fields.set "content" (.str clean)), st, scope.foldl addScope s.2)
      | .log | .off => pure (message, s)

/-- The messages one after the other. -/
def inspectMessages (mode : DLPMode) : List Value → σ × List (Text × ℕ) →
    Except Exn (List Value × σ × List (Text × ℕ))
  | [], s => pure ([], s)
  | message :: messages, s => do
      let (message, s) ← inspectMessage ts mode message s
      let (messages, s) ← inspectMessages mode messages s
      pure (message :: messages, s)

/-- `DLPInspector.process_request`; the policy engine takes no notice of what it publishes. -/
def TextSanitizer.processRequest (config : DLPConfig) (payload : Fields) :
    Except Exn (Fields × DLPState σ) :=
  if config.mode = .off then .ok (payload, ⟨none, []⟩)
  else do
    let messages ← (payloadMessages payload).iter
    let (messages, st, scope) ← inspectMessages ts config.mode messages (ts.fresh config.profile, [])
    pure (match payload.get? "messages" with
      | some (.list _) => (payload.set "messages" (.list messages), ⟨some st, scope⟩)
      | _ => (payload, ⟨some st, scope⟩))

/-! ### The chain -/

/-- An inspector that raises a `TypeError` is called again without the client. -/
def retrying {α : Type} (run : Option String → List AttackDetected × Except Exn α)
    (client : String) : List AttackDetected × Except Exn α :=
  match run (some client) with
  | (events, .error (.other "TypeError" _)) => (events ++ (run none).1, (run none).2)
  | r => r

/-- `InspectorChain.process_request`, without the classifier. -/
def chainProcessRequest (sc : Scanner) (injection : InjectionConfig) (dlp : DLPConfig)
    (payload : Fields) (client : String) :
    List AttackDetected × Except Exn (Fields × DLPState σ) :=
  match retrying (sc.processRequest injection payload) client with
  | (events, .error e) => (events, .error e)
  | (events, .ok ()) => (events, ts.processRequest dlp payload)

end DLP

/-! ### The worst finding -/

theorem sigs_known : ∀ f ∈ sigs, severityOrder.lookup f.2 ≠ none := by decide

theorem worst_eq {findings : List Finding} (h : ∀ f ∈ findings, f ∈ sigs) :
    worst findings = .ok (findings.argmax (fun f => rank f.2)) := by
  have hnone : findings.find? (fun f => severityOrder.lookup f.2 = none) = none := by
    rw [List.find?_eq_none]
    intro f hf
    rw [decide_eq_true_eq]
    exact sigs_known f (h f hf)
  rw [worst, hnone]

/-! ### What the chains report -/

/-- The Python chain refuses a request for an injection. -/
def BlockedByPython {α : Type} (r : Except Exn α) : Prop :=
  ∃ message, r = .error (.blocked message "injection")

/-- Both block or none does, and the policy engine is told of the same attacks. -/
structure SameAttacks {α : Type} (out : Inspectors.Outcome)
    (r : List AttackDetected × Except Exn α) : Prop where
  blocked : BlockedForInjection out ↔ BlockedByPython r.2
  reported : out.published.map (fun d => (d.1, some d.2.2)) =
    r.1.map (fun event => (event.severity, event.client))

section Python

variable {σ : Type} {ts : TextSanitizer σ}

theorem inspectMessage_error {mode : DLPMode} {m : Value} {s : σ × List (Text × ℕ)}
    {message : String} :
    inspectMessage ts mode m s ≠ .error (.blocked message "injection") := by
  intro h
  cases m with
  | dict fields =>
      simp only [inspectMessage, Value.fields, bind, Except.bind] at h
      split at h
      · nomatch h
      · cases mode with
        | block =>
            dsimp only at h
            split at h
            · have hreason := (Exn.blocked.inj (Except.error.inj h)).2
              nomatch hreason
            · nomatch h
        | _ => nomatch h
  | _ => nomatch h

theorem inspectMessages_error_python {mode : DLPMode} {ms : List Value}
    {s : σ × List (Text × ℕ)} {message : String} :
    inspectMessages ts mode ms s ≠ .error (.blocked message "injection") := by
  induction ms generalizing s with
  | nil => exact fun h => nomatch h
  | cons m ms ih =>
      intro h
      rw [inspectMessages] at h
      cases hm : inspectMessage ts mode m s with
      | error exc =>
          rw [hm] at h
          obtain rfl := Except.error.inj h
          exact inspectMessage_error hm
      | ok x =>
          rw [hm] at h
          cases hms : inspectMessages ts mode ms x.2 with
          | error exc =>
              simp only [bind, Except.bind, hms] at h
              obtain rfl := Except.error.inj h
              exact ih hms
          | ok y =>
              simp only [bind, Except.bind, hms] at h
              nomatch h

theorem not_blocked_of_dlp {config : DLPConfig} {payload : Fields} :
    ¬ BlockedByPython (ts.processRequest config payload) := by
  rintro ⟨message, h⟩
  rw [TextSanitizer.processRequest] at h
  split at h
  · nomatch h
  · cases hiter : (payloadMessages payload).iter with
    | error exc =>
        simp only [hiter, bind, Except.bind] at h
        obtain rfl := Except.error.inj h
        cases hp : payloadMessages payload <;> rw [hp] at hiter <;> nomatch hiter
    | ok ms =>
        simp only [hiter, bind, Except.bind] at h
        split at h
        · rename_i exc hms
          obtain rfl := Except.error.inj h
          exact inspectMessages_error_python hms
        · nomatch h

/-- The finding that the inspector reports. -/
def reported (injection : InjectionConfig) (findings : List Finding) : Option Finding :=
  if injection.mode = .off then none else findings.argmax (fun f => rank f.2)

/-- What the inspector makes of it. -/
def report (injection : InjectionConfig) (client : Option String) :
    Option Finding → List AttackDetected × Except Exn Unit
  | none => ([], .ok ())
  | some f => ([⟨f.1, f.2, "signatures", client⟩],
      if injection.mode = .block ∧ rank f.2 ≥ rank injection.blockSeverityGte.text then
        .error (.blocked s!"prompt injection detected ({f.1}, severity={f.2})" "injection")
      else .ok ())

theorem processRequest_eq {sc : Scanner} {injection : InjectionConfig} {payload : Fields}
    {findings : List Finding} (hscan : sc.scan (payloadMessages payload) = .ok findings)
    (hsigs : ∀ f ∈ findings, f ∈ sigs) (client : Option String) :
    sc.processRequest injection payload client =
      report injection client (reported injection findings) := by
  rw [Scanner.processRequest, reported]
  by_cases hoff : injection.mode = .off
  · rw [if_pos hoff, if_pos hoff]
    rfl
  · rw [if_neg hoff, if_neg hoff, hscan]
    dsimp only
    rw [handleFindings, worst_eq hsigs]
    cases hmax : findings.argmax (fun f => rank f.2) with
    | none =>
        rw [if_pos (Or.inr (List.argmax_eq_none.mp hmax))]
        rfl
    | some f =>
        have hne : findings ≠ [] := fun hnil => by
          rw [hnil, List.argmax_nil] at hmax
          nomatch hmax
        rw [if_neg (not_or.mpr ⟨hoff, hne⟩)]
        rfl

/-- What the Python chain makes of the finding that is reported. -/
theorem chain_of_reported {sc : Scanner} {injection : InjectionConfig} {dlp : DLPConfig}
    {payload : Fields} {client : String} {findings : List Finding}
    (hscan : sc.scan (payloadMessages payload) = .ok findings)
    (hsigs : ∀ f ∈ findings, f ∈ sigs) :
    (chainProcessRequest ts sc injection dlp payload client).1 =
        ((reported injection findings).map
          (fun f => ⟨f.1, f.2, "signatures", some client⟩)).toList ∧
      (BlockedByPython (chainProcessRequest ts sc injection dlp payload client).2 ↔
        injection.mode = .block ∧ ∃ f, reported injection findings = some f ∧
          rank injection.blockSeverityGte.text ≤ rank f.2) := by
  have hretry : retrying (sc.processRequest injection payload) client =
      report injection (some client) (reported injection findings) := by
    rw [retrying, processRequest_eq hscan hsigs]
    cases reported injection findings with
    | none => rfl
    | some f =>
        rw [report]
        split_ifs <;> rfl
  rw [chainProcessRequest, hretry]
  cases reported injection findings with
  | none => exact ⟨rfl, iff_of_false not_blocked_of_dlp (fun ⟨_, f, hf, _⟩ => nomatch hf)⟩
  | some f =>
      rw [report]
      split_ifs with hblock
      · exact ⟨rfl, iff_of_true ⟨_, rfl⟩ ⟨hblock.1, f, rfl, hblock.2⟩⟩
      · refine ⟨rfl, iff_of_false not_blocked_of_dlp ?_⟩
        rintro ⟨hmode, g, hg, hle⟩
        obtain rfl := Option.some.inj hg
        exact hblock ⟨hmode, hle⟩

end Python

/-! ### The same attacks -/

/-- The configuration of the Rust chain. -/
def InjectionConfig.toRust (injection : InjectionConfig) (dlpMode : String) : Inspectors.Config :=
  ⟨injection.mode.text, injection.blockSeverityGte.text, dlpMode⟩

theorem mode_text_eq_off (mode : InjectionMode) : mode.text = "off" ↔ mode = .off := by
  cases mode <;> decide

theorem mode_text_eq_block (mode : InjectionMode) : mode.text = "block" ↔ mode = .block := by
  cases mode <;> decide

/-- **On the same findings of the signatures, the two chains report the same attack and agree
whether to block** exactly when the scan is off, nothing was found or the worst finding reaches
`block_severity_gte`. -/
theorem same_attacks_iff {σ : Type} {ts : TextSanitizer σ} {sc : Scanner}
    {injection : InjectionConfig} {dlp : DLPConfig} {dlpMode : String} {e : Inspectors.Engine}
    {ord : Dlp.VaultOrder} {payload : Json} {fields : Fields} {client : String}
    {draws : List (UInt64 × UInt64)} {out : Inspectors.Outcome} {findings : List Finding}
    (hml : e.ml = none) (hscan : sc.scan (payloadMessages fields) = .ok findings)
    (hsame : ∀ f, f ∈ findings ↔
      f ∈ Inspectors.scan e ((Inspectors.messagesOf payload).getD []))
    (hout : Inspectors.processRequestWithClient (injection.toRust dlpMode) e ord payload
      (some client) draws = some out) :
    SameAttacks out (chainProcessRequest ts sc injection dlp fields client) ↔
      injection.mode = .off ∨ findings = [] ∨
        ∃ f ∈ findings, rank injection.blockSeverityGte.text ≤ rank f.2 := by
  have hsigs : ∀ f ∈ findings, f ∈ sigs := fun f hf =>
    Inspectors.mem_sigs_of_scan ((hsame f).mp hf)
  have hverdict : Inspectors.injectionVerdict (injection.toRust dlpMode) e payload =
      (reported injection findings).filter
        (fun f => rank injection.blockSeverityGte.text ≤ rank f.2) := by
    rw [Inspectors.injectionVerdict, reported, InjectionConfig.toRust]
    by_cases hoff : injection.mode = .off
    · rw [if_neg (not_not.mpr ((mode_text_eq_off _).mpr hoff)), if_pos hoff, Option.filter_none]
    · rw [if_pos (fun h => hoff ((mode_text_eq_off _).mp h)), if_neg hoff, Inspectors.verdict_eq,
        Inspectors.findings, hml, Option.elim_none, List.append_nil,
        Inspectors.argmax_congr (fun f hf => Inspectors.mem_sigs_of_scan hf) hsame]
  obtain ⟨hpub, hblocked⟩ := Inspectors.outcome_of_verdict hout
  obtain ⟨hevents, hblockedPy⟩ :=
    @chain_of_reported _ ts _ injection dlp _ client _ hscan hsigs
  rw [hverdict] at hpub hblocked
  have hcond : (injection.mode = .off ∨ findings = [] ∨
      ∃ f ∈ findings, rank injection.blockSeverityGte.text ≤ rank f.2) ↔
        ∀ f, reported injection findings = some f →
          rank injection.blockSeverityGte.text ≤ rank f.2 := by
    rw [reported]
    by_cases hoff : injection.mode = .off
    · rw [if_pos hoff]
      exact iff_of_true (.inl hoff) (fun f hf => nomatch hf)
    · rw [if_neg hoff]
      constructor
      · rintro (h | rfl | ⟨g, hg, hle⟩) f hf
        · exact absurd h hoff
        · nomatch hf
        · exact hle.trans (List.le_of_mem_argmax (f := fun f : Finding => rank f.2) hg hf)
      · intro h
        cases hmax : findings.argmax (fun f => rank f.2) with
        | none => exact .inr (.inl (List.argmax_eq_none.mp hmax))
        | some f => exact .inr (.inr ⟨f, List.argmax_mem hmax, h f hmax⟩)
  rw [hcond]
  cases hrep : reported injection findings with
  | none =>
      rw [hrep] at hpub hblocked hevents hblockedPy
      refine iff_of_true ⟨?_, ?_⟩ (fun f hf => nomatch hf)
      · rw [hblocked, hblockedPy]
        exact iff_of_false (fun h => nomatch h.2) (fun ⟨_, f, hf, _⟩ => nomatch hf)
      · rw [hpub, hevents]
        rfl
  | some f =>
      rw [hrep] at hpub hblocked hevents hblockedPy
      by_cases hle : rank injection.blockSeverityGte.text ≤ rank f.2
      · rw [Option.filter_some, if_pos (decide_eq_true hle)] at hpub hblocked
        refine iff_of_true ⟨?_, ?_⟩ (fun g hg => Option.some.inj hg ▸ hle)
        · rw [hblocked, hblockedPy]
          exact and_congr (mode_text_eq_block _) (iff_of_true rfl ⟨f, rfl, hle⟩)
        · rw [hpub, hevents]
          rfl
      · rw [Option.filter_some, if_neg (by simpa using hle)] at hpub
        refine iff_of_false (fun h => ?_) (fun h => hle (h f rfl))
        have hreported := h.reported
        rw [hpub, hevents] at hreported
        nomatch hreported

/-! ### A probe below the threshold -/

section Example

/-- A sanitizer that finds nothing. -/
def plainSanitizer : TextSanitizer Unit := ⟨fun _ => (), fun _ _ => 0, fun _ text => (text, [], ())⟩

/-- Every text matches one signature. -/
def matchesOnly (rule : String) : Scanner := ⟨fun sig _ => sig.1 = rule, fun _ => []⟩

def rustMatchesOnly (rule : String) : Inspectors.Engine :=
  { Inspectors.sampleEngine with isMatch := fun sig _ => sig.1 = rule }

/-- The payload of one message in the two branches. -/
def probe : Fields := [("messages", .list [.dict [("content", .str "hi".toList)]])]

def probeJson : Json := .obj [("messages", .arr [.obj [("content", .str "hi".toList)]])]

theorem critical_reported_by_both :
    SameAttacks ⟨probeJson, [("critical", "override_instructions", "c")], .error (.blocked
        "prompt injection detected (override_instructions, severity=critical)" "injection")⟩
      (chainProcessRequest plainSanitizer (matchesOnly "override_instructions") ⟨.block, .high⟩
        ⟨.off, "ru_152"⟩ probe "c") := by
  refine (@same_attacks_iff _ _ _ _ _ "off" (rustMatchesOnly "override_instructions")
    Dlp.insertionOrder probeJson _ _ [] _ [("override_instructions", "critical")] rfl rfl
    (fun f => Iff.rfl) rfl).mpr ?_
  exact .inr (.inr ⟨_, .head _, by decide⟩)

/-- A medium finding below the threshold is reported by the Python chain only. -/
theorem medium_reported_by_python :
    ¬ ∀ (injection : InjectionConfig) (sc : Scanner) (e : Inspectors.Engine) (payload : Json)
      (fields : Fields) (client : String) (findings : List Finding) (out : Inspectors.Outcome),
      e.ml = none → sc.scan (payloadMessages fields) = .ok findings →
      (∀ f, f ∈ findings ↔ f ∈ Inspectors.scan e ((Inspectors.messagesOf payload).getD [])) →
      Inspectors.processRequestWithClient (injection.toRust "off") e Dlp.insertionOrder payload
        (some client) [] = some out →
      SameAttacks out (chainProcessRequest plainSanitizer sc injection ⟨.off, "ru_152"⟩ fields
        client) := by
  intro h
  have hsame := h ⟨.block, .high⟩ (matchesOnly "roleplay_probe") (rustMatchesOnly "roleplay_probe")
    probeJson probe "c" [("roleplay_probe", "medium")] ⟨probeJson, [], .ok ⟨[], [], []⟩⟩ rfl rfl
    (fun f => Iff.rfl) rfl
  nomatch hsame.reported

end Example

end FirewallLLM.Py
