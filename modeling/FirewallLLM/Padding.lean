import FirewallLLM.MlClassifier

/-! # Padded requests

Messages inserted into a request only add findings, and a verdict looks at the worst finding.  So
a request that is refused stays refused, as long as the chain gets to its verdict: the classifier
panics at a text that is cut in the middle of a character.

`padding_iff`: a padded request is refused like the request exactly when the classifier is not
taken down by one of its messages. -/

namespace FirewallLLM.Inspectors

open Dlp

/-! ### The worst finding -/

/-- The severity is found, and nothing worse is. -/
def Worst (fs : List Finding) (severity : String) : Prop :=
  (∃ f ∈ fs, f.2 = severity) ∧ ∀ f ∈ fs, rank f.2 ≤ rank severity

/-- The severities that the inspectors report. -/
def severityNames : List String := severityOrder.map Prod.fst

theorem rank_injective : ∀ s ∈ severityNames, ∀ t ∈ severityNames, rank s = rank t → s = t := by
  decide

theorem worst_unique {fs : List Finding} (hnames : ∀ f ∈ fs, f.2 ∈ severityNames) {s t : String}
    (hs : Worst fs s) (ht : Worst fs t) : s = t := by
  obtain ⟨⟨f, hf, rfl⟩, hmax⟩ := hs
  obtain ⟨⟨g, hg, rfl⟩, hmax'⟩ := ht
  exact rank_injective f.2 (hnames f hf) g.2 (hnames g hg) (le_antisymm (hmax' f hf) (hmax g hg))

theorem worst_congr {fs gs : List Finding} (h : ∀ f, f ∈ fs ↔ f ∈ gs) (s : String) :
    Worst fs s ↔ Worst gs s := by
  unfold Worst
  simp only [h]

theorem rank_le_of_argmax {fs : List Finding} {f g : Finding}
    (hmax : fs.argmax (fun f => rank f.2) = some f) (hg : g ∈ fs) : rank g.2 ≤ rank f.2 :=
  List.le_of_mem_argmax (f := fun f : Finding => rank f.2) hg hmax

theorem worst_of_verdict {fs : List Finding} {gte : String} {f : Finding}
    (h : verdict fs gte = some f) : Worst fs f.2 ∧ rank gte ≤ rank f.2 := by
  rw [verdict_eq, Option.filter_eq_some_iff] at h
  obtain ⟨hmax, hgte⟩ := h
  exact ⟨⟨⟨f, List.argmax_mem hmax, rfl⟩, fun _ hg => rank_le_of_argmax hmax hg⟩,
    of_decide_eq_true hgte⟩

theorem verdict_isSome_iff {fs : List Finding} {gte : String} :
    (verdict fs gte).isSome ↔ ∃ f ∈ fs, rank gte ≤ rank f.2 := by
  constructor
  · intro h
    obtain ⟨f, hf⟩ := Option.isSome_iff_exists.mp h
    obtain ⟨⟨⟨g, hg, hsame⟩, -⟩, hgte⟩ := worst_of_verdict hf
    exact ⟨g, hg, by rw [hsame]; exact hgte⟩
  · rintro ⟨f, hf, hgte⟩
    rw [verdict_eq]
    cases hmax : fs.argmax (fun f => rank f.2) with
    | none =>
        rw [List.argmax_eq_none.mp hmax] at hf
        cases hf
    | some g =>
        have hle : rank gte ≤ rank g.2 := hgte.trans (rank_le_of_argmax hmax hf)
        rw [Option.filter_some, if_pos (decide_eq_true hle)]
        rfl

/-- **The severity of a verdict is the worst one, if that is high enough.** -/
theorem verdict_severity {fs : List Finding} (hnames : ∀ f ∈ fs, f.2 ∈ severityNames)
    (gte severity : String) :
    (verdict fs gte).map Prod.snd = some severity ↔ Worst fs severity ∧ rank gte ≤ rank severity := by
  constructor
  · intro h
    obtain ⟨f, hf, rfl⟩ := Option.map_eq_some_iff.mp h
    exact worst_of_verdict hf
  · rintro ⟨hworst, hgte⟩
    obtain ⟨g, hg, hsame⟩ := hworst.1
    have hsome : (verdict fs gte).isSome :=
      verdict_isSome_iff.mpr ⟨g, hg, hgte.trans (le_of_eq (congrArg rank hsame.symm))⟩
    obtain ⟨f, hf⟩ := Option.isSome_iff_exists.mp hsome
    rw [hf, Option.map_some, worst_unique hnames (worst_of_verdict hf).1 hworst]

/-! ### The chain with and without the classifier -/

/-- The classifier and its threshold, if `injection.ml` is enabled. -/
abbrev Classifier (F : Type) := Option (OnnxClassifier F × F)

section Chain

variable {F : Type}

/-- The engine with what the classifier finds. -/
def engineWith (e : Engine) (ml : Classifier F) : Engine :=
  { e with ml := ml.map (fun classifier text => (classifier.1.scan classifier.2 text).getD none) }

/-- `process_request_with_client`; it does not return when the classifier panics. -/
def processRequest (cfg : Config) (e : Engine) (ml : Classifier F) (ord : VaultOrder)
    (payload : Json) (clientId : Option String) (draws : List (UInt64 × UInt64)) :
    Option (Option Outcome) :=
  match ml with
  | none => some (processRequestWithClient cfg (engineWith e ml) ord payload clientId draws)
  | some (c, threshold) =>
      processRequestWithMl cfg e (c.scan threshold) ord payload clientId draws

/-- No message takes the classifier down. -/
def Classified (cfg : Config) (ml : Classifier F) (payload : Json) : Prop :=
  cfg.injectionMode = "off" ∨ ml = none ∨ ∀ text ∈ contents payload, Cuttable text

variable {cfg : Config} {e : Engine} {ml : Classifier F} {ord : VaultOrder} {payload : Json}
  {clientId : Option String} {draws : List (UInt64 × UInt64)}

theorem processRequest_eq_some (hml : ∀ c t, ml = some (c, t) → c.Total) {r : Option Outcome} :
    processRequest cfg e ml ord payload clientId draws = some r ↔
      Classified cfg ml payload ∧
        processRequestWithClient cfg (engineWith e ml) ord payload clientId draws = r := by
  cases ml with
  | none =>
      rw [processRequest, Option.some_inj]
      exact (and_iff_right (.inr (.inl rfl))).symm
  | some pair =>
      obtain ⟨c, threshold⟩ := pair
      have hengine : { e with ml := some (fun text => (c.scan threshold text).getD none) } =
          engineWith e (some (c, threshold)) := rfl
      have hcut : ((contents payload).mapM (c.scan threshold)).isSome ↔
          ∀ text ∈ contents payload, Cuttable text := by
        rw [mapM_isSome_iff]
        refine forall₂_congr fun text _ => ?_
        rw [OnnxClassifier.scan, Option.isSome_map, predict_isSome_iff (hml c threshold rfl)]
      unfold processRequest processRequestWithMl Classified
      dsimp only
      rw [hengine]
      by_cases hmode : cfg.injectionMode = "off"
      · rw [if_neg (not_not.mpr hmode), Option.some_inj]
        exact (and_iff_right (.inl hmode)).symm
      · rw [if_pos hmode, or_iff_right hmode, or_iff_right (by simp), ← hcut]
        cases (contents payload).mapM (c.scan threshold) with
        | none => simp
        | some _ => simp

theorem severity_mem {messages : List Json} {f : Finding}
    (h : f ∈ findings (engineWith e ml) messages) : f.2 ∈ severityNames := by
  rcases List.mem_append.mp h with hscan | hml
  · have hall : ∀ f ∈ sigs, f.2 ∈ severityNames := by decide
    exact hall f (mem_sigs_of_scan hscan)
  · cases ml with
    | none => cases hml
    | some pair =>
        obtain ⟨c, threshold⟩ := pair
        obtain ⟨m, -, hm⟩ := List.mem_filterMap.mp hml
        obtain ⟨text, -, htext⟩ := Option.bind_eq_some_iff.mp hm
        change (c.scan threshold text).getD none = some f at htext
        have hscan : c.scan threshold text = some (some f) := by
          cases hc : c.scan threshold text with
          | none => rw [hc] at htext; cases htext
          | some found => rw [hc] at htext; exact congrArg some htext
        obtain ⟨⟨label, conf⟩, -, hf⟩ := Option.map_eq_some_iff.mp hscan
        dsimp only at hf
        split_ifs at hf <;> obtain rfl := Option.some.inj hf <;> decide

/-! ### More messages -/

/-- The messages of the request are among those of the other one, in their order. -/
def Padded (payload payload' : Json) : Prop :=
  ∃ msgs msgs', messagesOf payload = some msgs ∧ messagesOf payload' = some msgs' ∧
    msgs.Sublist msgs'

theorem findings_mono {e : Engine} {msgs msgs' : List Json} (h : msgs ⊆ msgs') :
    findings e msgs ⊆ findings e msgs' := by
  intro f hf
  rcases List.mem_append.mp hf with hscan | hml
  · obtain ⟨m, hm, hfound⟩ := List.mem_flatMap.mp hscan
    exact List.mem_append_left _ (List.mem_flatMap.mpr ⟨m, h hm, hfound⟩)
  · refine List.mem_append_right _ ?_
    cases hengine : e.ml with
    | none => rw [hengine] at hml; cases hml
    | some scan =>
        rw [hengine] at hml
        obtain ⟨m, hm, hfound⟩ := List.mem_filterMap.mp hml
        exact List.mem_filterMap.mpr ⟨m, h hm, hfound⟩

theorem Refused.mono {e : Engine} {payload' : Json} (hpad : Padded payload payload')
    (h : Refused cfg e payload) : Refused cfg e payload' := by
  obtain ⟨msgs, msgs', hmsgs, hmsgs', hsub⟩ := hpad
  obtain ⟨hmode, hverdict⟩ := h
  have hon : cfg.injectionMode ≠ "off" := by
    rw [hmode]
    decide
  unfold injectionVerdict at hverdict
  rw [if_pos hon, hmsgs, Option.getD_some, verdict_isSome_iff] at hverdict
  obtain ⟨f, hf, hgte⟩ := hverdict
  refine ⟨hmode, ?_⟩
  unfold injectionVerdict
  rw [if_pos hon, hmsgs', Option.getD_some, verdict_isSome_iff]
  exact ⟨f, findings_mono hsub.subset hf, hgte⟩

theorem process_of_verdict {e : Engine} {f : Finding}
    (hverdict : injectionVerdict cfg e payload = some f) (hmode : cfg.injectionMode = "block") :
    processRequestWithClient cfg e ord payload clientId draws =
      some ⟨payload, [(f.2, f.1, clientId.getD "")], .error (.blocked
        s!"prompt injection detected ({f.1}, severity={f.2})" "injection")⟩ := by
  unfold processRequestWithClient
  rw [hverdict]
  exact if_pos hmode

theorem blocked_iff_refused {e : Engine} {out : Outcome}
    (h : processRequestWithClient cfg e ord payload clientId draws = some out) :
    BlockedForInjection out ↔ Refused cfg e payload := by
  rcases processRequest_cases h with ⟨hrefused, -⟩ | ⟨hno, hdlp⟩
  · obtain ⟨hmode, hsome⟩ := hrefused
    obtain ⟨f, hf⟩ := Option.isSome_iff_exists.mp hsome
    rw [process_of_verdict hf hmode] at h
    obtain rfl := Option.some.inj h
    exact iff_of_true ⟨_, rfl⟩ ⟨hmode, hsome⟩
  · refine iff_of_false ?_ hno
    rintro ⟨message, hm⟩
    exact not_blocked_of_dlpStage hdlp message hm

/-! ### The DLP inspector in block mode -/

/-- The chain refuses a request for sensitive data. -/
def BlockedForDlp (out : Outcome) : Prop :=
  out.result = .error (.blocked "sensitive data detected (DLP block mode)" "dlp")

theorem not_refused_of_dlp {e : Engine} {out : Outcome}
    (h : processRequestWithClient cfg e ord payload clientId draws = some out)
    (hout : BlockedForDlp out) : ¬ Refused cfg e payload := by
  intro hrefused
  obtain ⟨message, hmessage⟩ := (blocked_iff_refused h).mpr hrefused
  have hsame := Except.error.inj (hout.symm.trans hmessage)
  simp [ApiError.blocked] at hsame

/-- A request that gets to the DLP inspector is refused when a detector matches in a content. -/
theorem dlp_iff {e : Engine} (hp : e.patterns.Plain) (hmode : cfg.dlpMode = "block")
    {out : Outcome} (h : processRequestWithClient cfg e ord payload clientId draws = some out)
    {msgs : List Json} (hmsgs : messagesOf payload = some msgs)
    (hno : ¬ Refused cfg e payload) :
    BlockedForDlp out ↔ ∃ m ∈ msgs, ContentMatch e.patterns m := by
  obtain ⟨hrefused, -⟩ | ⟨-, hdlp⟩ := processRequest_cases h
  · exact absurd hrefused hno
  · unfold dlpStage at hdlp
    rw [if_pos (by rw [hmode]; decide), hmsgs, hmode] at hdlp
    obtain ⟨⟨msgs', r⟩, hrun, heq⟩ := Option.map_eq_some_iff.mp hdlp
    obtain ⟨-, hresult⟩ := Prod.mk.inj heq
    have hiff := inspectMessages_block hp hrun
    unfold BlockedForDlp
    rw [← hresult]
    cases r with
    | ok s =>
        constructor
        · intro herr
          cases herr
        · rintro ⟨m, hm, hmatch⟩
          exact absurd hmatch (hiff.mp ⟨s, rfl⟩ m hm)
    | error err =>
        obtain rfl := inspectMessages_error hrun
        refine iff_of_true rfl ?_
        by_contra hnone
        obtain ⟨s, hs⟩ := hiff.mpr fun m hm hmatch => hnone ⟨m, hm, hmatch⟩
        cases hs

/-- The matches that may need a token. -/
def matchCount (p : Patterns) (texts : List Text) : ℕ :=
  (texts.map (fun text => (accepted p text).length)).sum

theorem sanitize_total {p : Patterns} (ord : VaultOrder) {text : Text} {n : ℕ}
    (hnodup : draws.Nodup)
    (hlen : (accepted p text).length + n ≤ draws.length) :
    ∃ st, sanitize p ord text [] [] draws = some st ∧ st.draws.Nodup ∧ n ≤ st.draws.length := by
  have hsupplied : Masking.Supplied ⟨text, [], [], draws⟩ ((accepted p text).length + n) :=
    ⟨hnodup, hlen, fun e he => absurd he List.not_mem_nil⟩
  obtain ⟨st, hrun, hst⟩ := maskHits_total (accepted p text) hsupplied
  refine ⟨st, ?_, hst.nodup, hst.enough⟩
  rw [sanitize, List.foldlM_reverse]
  exact hrun

/-- With enough draws the DLP inspector comes to its end. -/
theorem inspectMessages_total {p : Patterns} {msgs : List Json} {s : DlpState}
    (hnodup : s.draws.Nodup)
    (hlen : matchCount p (msgs.flatMap contentTexts) ≤ s.draws.length) :
    (inspectMessages "block" p ord msgs s).isSome := by
  induction msgs generalizing s with
  | nil => rfl
  | cons m msgs ih =>
      rw [List.flatMap_cons, matchCount, List.map_append, List.sum_append] at hlen
      have hone : ∃ r, inspectMessage "block" p ord m s = some r ∧ ∀ m' s', r = .ok (m', s') →
          s'.draws.Nodup ∧ matchCount p (msgs.flatMap contentTexts) ≤ s'.draws.length := by
        unfold inspectMessage
        cases hcontent : textField m "content" with
        | none =>
            rw [contentTexts, hcontent] at hlen
            refine ⟨_, rfl, fun m' s' heq => ?_⟩
            obtain ⟨-, rfl⟩ := Prod.mk.inj (Except.ok.inj heq)
            exact ⟨hnodup, le_trans (Nat.le_add_left _ _) hlen⟩
        | some content =>
            rw [contentTexts, hcontent] at hlen
            obtain ⟨st, hst, hdraws, henough⟩ := sanitize_total ord hnodup hlen
            dsimp only
            rw [if_pos rfl, hst, Option.map_some]
            refine ⟨_, rfl, fun m' s' heq => ?_⟩
            split_ifs at heq
            obtain ⟨-, rfl⟩ := Prod.mk.inj (Except.ok.inj heq)
            exact ⟨hdraws, henough⟩
      obtain ⟨r, hr, hnext⟩ := hone
      rw [inspectMessages, hr, Option.bind_some]
      cases r with
      | error err => rfl
      | ok pair =>
          obtain ⟨m', s'⟩ := pair
          obtain ⟨hnodup', hlen'⟩ := hnext m' s' rfl
          obtain ⟨res, hres⟩ := Option.isSome_iff_exists.mp (ih hnodup' hlen')
          dsimp only
          rw [hres]
          rfl

theorem process_total {e : Engine} (hmode : cfg.dlpMode = "block") (hnodup : draws.Nodup)
    (hlen : matchCount e.patterns (contents payload) ≤ draws.length) :
    (processRequestWithClient cfg e ord payload clientId draws).isSome := by
  have hdlp : (dlpStage cfg.dlpMode e.patterns ord payload draws).isSome := by
    unfold dlpStage
    rw [if_pos (by rw [hmode]; decide), hmode]
    unfold contents at hlen
    cases hmsgs : messagesOf payload with
    | none => rfl
    | some msgs =>
        rw [hmsgs, Option.getD_some] at hlen
        dsimp only
        rw [Option.isSome_map]
        exact inspectMessages_total hnodup hlen
  unfold processRequestWithClient
  cases injectionVerdict cfg e payload with
  | none => rwa [Option.isSome_map]
  | some f =>
      dsimp only
      split_ifs
      · rfl
      · rwa [Option.isSome_map]

/-! ### Padded requests stay refused -/

section Refusals

variable {payload' : Json} {ord' : VaultOrder} {clientId' : Option String}
  {draws' : List (UInt64 × UInt64)} {out out' : Outcome}

theorem padded_dlp {e : Engine} (hp : e.patterns.Plain) (hmode : cfg.dlpMode = "block")
    (hpad : Padded payload payload')
    (h : processRequestWithClient cfg e ord payload clientId draws = some out)
    (hout : BlockedForDlp out)
    (h' : processRequestWithClient cfg e ord' payload' clientId' draws' = some out') :
    BlockedForInjection out' ∨ BlockedForDlp out' := by
  obtain ⟨msgs, msgs', hmsgs, hmsgs', hsub⟩ := hpad
  obtain ⟨m, hm, hmatch⟩ := (dlp_iff hp hmode h hmsgs (not_refused_of_dlp h hout)).mp hout
  by_cases hrefused : Refused cfg e payload'
  · exact .inl ((blocked_iff_refused h').mpr hrefused)
  · exact .inr ((dlp_iff hp hmode h' hmsgs' hrefused).mpr ⟨m, hsub.subset hm, hmatch⟩)

theorem padded_injection {e : Engine} (hpad : Padded payload payload')
    (h : processRequestWithClient cfg e ord payload clientId draws = some out)
    (hout : BlockedForInjection out) :
    ∃ out', processRequestWithClient cfg e ord' payload' clientId' draws' = some out' ∧
      BlockedForInjection out' := by
  obtain ⟨hmode, hsome⟩ := ((blocked_iff_refused h).mp hout).mono hpad
  obtain ⟨f, hf⟩ := Option.isSome_iff_exists.mp hsome
  exact ⟨_, process_of_verdict hf hmode, _, rfl⟩

end Refusals

/-! ### The severity of a decision -/

/-- What is published and refused follows from the worst finding and the threshold. -/
structure DecidedBy (cfg : Config) (fs : List Finding) (client : String) (out : Outcome) : Prop where
  published : ∀ severity : String, (∃ rule, out.published = [(severity, rule, client)]) ↔
    Worst fs severity ∧ rank cfg.blockSeverityGte ≤ rank severity
  refused : BlockedForInjection out ↔ cfg.injectionMode = "block" ∧
    ∃ severity, Worst fs severity ∧ rank cfg.blockSeverityGte ≤ rank severity
  message : ∀ severity : String, BlockedForInjection out → Worst fs severity →
    ∃ rule : String, out.result = .error (.blocked
      s!"prompt injection detected ({rule}, severity={severity})" "injection")

theorem published_eq {e : Engine} {out : Outcome}
    (h : processRequestWithClient cfg e ord payload clientId draws = some out) :
    out.published =
      ((injectionVerdict cfg e payload).map (fun f => (f.2, f.1, clientId.getD ""))).toList := by
  unfold processRequestWithClient at h
  cases hverdict : injectionVerdict cfg e payload with
  | none =>
      rw [hverdict] at h
      obtain ⟨⟨payload', r⟩, -, rfl⟩ := Option.map_eq_some_iff.mp h
      rfl
  | some f =>
      rw [hverdict] at h
      dsimp only at h
      split_ifs at h
      · obtain rfl := Option.some.inj h
        rfl
      · obtain ⟨⟨payload', r⟩, -, rfl⟩ := Option.map_eq_some_iff.mp h
        rfl

theorem decidedBy {out : Outcome} (hon : cfg.injectionMode ≠ "off")
    (h : processRequestWithClient cfg (engineWith e ml) ord payload clientId draws = some out) :
    DecidedBy cfg (findings (engineWith e ml) ((messagesOf payload).getD []))
      (clientId.getD "") out := by
  set fs := findings (engineWith e ml) ((messagesOf payload).getD []) with hfs
  have hverdict : injectionVerdict cfg (engineWith e ml) payload =
      verdict fs cfg.blockSeverityGte := if_pos hon
  have hnames : ∀ f ∈ fs, f.2 ∈ severityNames := fun f hf => severity_mem hf
  have hseverity := verdict_severity hnames cfg.blockSeverityGte
  have hpublished := published_eq h
  rw [hverdict] at hpublished
  refine ⟨fun severity => ?_, ?_, fun severity hblocked hworst => ?_⟩
  · rw [← hseverity, hpublished]
    cases verdict fs cfg.blockSeverityGte with
    | none => simp
    | some f => simp
  · rw [blocked_iff_refused h, Refused, hverdict]
    refine and_congr_right fun _ => ?_
    simp only [← hseverity]
    cases verdict fs cfg.blockSeverityGte with
    | none => simp
    | some f => simp
  · obtain ⟨hmode, hsome⟩ := (blocked_iff_refused h).mp hblocked
    obtain ⟨f, hf⟩ := Option.isSome_iff_exists.mp hsome
    rw [process_of_verdict hf hmode] at h
    obtain rfl := Option.some.inj h
    rw [hverdict] at hf
    have hsame : f.2 = severity :=
      worst_unique hnames (worst_of_verdict hf).1 hworst
    rw [← hsame]
    exact ⟨f.1, rfl⟩

/-- The order of the messages and of the findings makes no difference. -/
theorem severity_perm {payload' : Json}
    (hmsgs : ((messagesOf payload).getD []).Perm ((messagesOf payload').getD []))
    {fs : List Finding}
    (hfs : fs.Perm (findings (engineWith e ml) ((messagesOf payload').getD []))) (gte : String) :
    (verdict fs gte).map Prod.snd =
      (verdict (findings (engineWith e ml) ((messagesOf payload).getD [])) gte).map Prod.snd := by
  have hsame : ∀ f, f ∈ fs ↔ f ∈ findings (engineWith e ml) ((messagesOf payload).getD []) := by
    intro f
    rw [hfs.mem_iff]
    exact ⟨fun hf => findings_mono hmsgs.symm.subset hf, fun hf => findings_mono hmsgs.subset hf⟩
  have hnames : ∀ f ∈ fs, f.2 ∈ severityNames := fun f hf => severity_mem ((hsame f).mp hf)
  refine Option.ext fun severity => ?_
  rw [verdict_severity hnames, verdict_severity fun f hf => severity_mem hf, worst_congr hsame]

/-! ### Padding -/

/-- **A padded request is refused like the request exactly when no message takes the classifier
down**, and what is decided follows from the worst finding. -/
theorem padding_iff (hp : e.patterns.Plain) (hml : ∀ c t, ml = some (c, t) → c.Total)
    {payload' : Json} (hpad : Padded payload payload') {ord' : VaultOrder}
    {clientId' : Option String} {draws' : List (UInt64 × UInt64)} {out : Outcome}
    (h : processRequest cfg e ml ord payload clientId draws = some (some out)) :
    (BlockedForInjection out →
      ((∃ out', processRequest cfg e ml ord' payload' clientId' draws' = some (some out') ∧
        BlockedForInjection out') ↔ Classified cfg ml payload')) ∧
    (cfg.dlpMode = "block" → BlockedForDlp out →
      (draws'.Nodup → matchCount e.patterns (contents payload') ≤ draws'.length →
        ((∃ out', processRequest cfg e ml ord' payload' clientId' draws' = some (some out') ∧
          (BlockedForInjection out' ∨ BlockedForDlp out')) ↔ Classified cfg ml payload')) ∧
      ∀ out', processRequest cfg e ml ord' payload' clientId' draws' = some (some out') →
        BlockedForInjection out' ∨ BlockedForDlp out') ∧
    (((∃ r, processRequest cfg e ml ord' payload' clientId' draws' = some r) ↔
        Classified cfg ml payload') ∧
      ∀ out', cfg.injectionMode ≠ "off" →
        processRequest cfg e ml ord' payload' clientId' draws' = some (some out') →
        DecidedBy cfg (findings (engineWith e ml) ((messagesOf payload').getD []))
          (clientId'.getD "") out') ∧
    ∀ payload'', ((messagesOf payload).getD []).Perm ((messagesOf payload'').getD []) →
      ∀ fs, fs.Perm (findings (engineWith e ml) ((messagesOf payload'').getD [])) →
        (verdict fs cfg.blockSeverityGte).map Prod.snd =
          (verdict (findings (engineWith e ml) ((messagesOf payload).getD []))
            cfg.blockSeverityGte).map Prod.snd := by
  obtain ⟨-, hrun⟩ := (processRequest_eq_some hml).mp h
  have hplain : (engineWith e ml).patterns.Plain := hp
  refine ⟨fun hblocked => ?_, fun hmode hblocked => ⟨fun hnodup hlen => ?_, ?_⟩, ⟨?_, ?_⟩, ?_⟩
  · simp only [processRequest_eq_some hml]
    constructor
    · rintro ⟨out', ⟨hclassified, -⟩, -⟩
      exact hclassified
    · intro hclassified
      obtain ⟨out', hrun', hblocked'⟩ := padded_injection hpad hrun hblocked
      exact ⟨out', ⟨hclassified, hrun'⟩, hblocked'⟩
  · simp only [processRequest_eq_some hml]
    constructor
    · rintro ⟨out', ⟨hclassified, -⟩, -⟩
      exact hclassified
    · intro hclassified
      obtain ⟨out', hrun'⟩ := Option.isSome_iff_exists.mp
        (process_total (e := engineWith e ml) hmode hnodup hlen)
      exact ⟨out', ⟨hclassified, hrun'⟩, padded_dlp hplain hmode hpad hrun hblocked hrun'⟩
  · intro out' h'
    exact padded_dlp hplain hmode hpad hrun hblocked ((processRequest_eq_some hml).mp h').2
  · simp only [processRequest_eq_some hml]
    constructor
    · rintro ⟨r, hclassified, -⟩
      exact hclassified
    · exact fun hclassified => ⟨_, hclassified, rfl⟩
  · intro out' hon h'
    exact decidedBy hon ((processRequest_eq_some hml).mp h').2
  · exact fun payload'' hmsgs fs hfs => severity_perm hmsgs hfs cfg.blockSeverityGte

end Chain

/-! ### A message behind an attack -/

/-- One signature for one word. -/
def wordEngine : Engine :=
  ⟨samplePatterns, fun sig text => sig.1 = "jailbreak_persona" && text = "jailbreak".toList,
    fun _ => [], none⟩

/-- The payload of two messages. -/
def twoMessages (first second : Text) : Json :=
  .obj [("messages", .arr [.obj [("role", .str "user".toList), ("content", .str first)],
    .obj [("role", .str "user".toList), ("content", .str second)]])]

theorem padded_twoMessages (first second : Text) :
    Padded (oneMessage first) (twoMessages first second) :=
  ⟨_, _, rfl, rfl, (List.nil_sublist _).cons_cons _⟩

theorem contents_twoMessages (first second : Text) :
    contents (twoMessages first second) = [first, second] := rfl

theorem total_sample {c : OnnxClassifier ℤ} {t : ℤ}
    (h : some (sampleClassifier, (0 : ℤ)) = some (c, t)) : c.Total := by
  obtain ⟨rfl, -⟩ := Prod.mk.inj (Option.some.inj h)
  exact sampleClassifier_total

theorem word_refused : ∃ out, processRequest ⟨"block", "high", "off"⟩ wordEngine
    (some (sampleClassifier, 0)) insertionOrder (oneMessage "jailbreak".toList) none [] =
      some (some out) ∧ BlockedForInjection out := by
  have hverdict : injectionVerdict ⟨"block", "high", "off"⟩
      (engineWith wordEngine (some (sampleClassifier, 0))) (oneMessage "jailbreak".toList) =
        some ("jailbreak_persona", "high") := by decide
  have hclassified : Classified ⟨"block", "high", "off"⟩ (some (sampleClassifier, 0))
      (oneMessage "jailbreak".toList) := by
    refine .inr (.inr fun text htext => ?_)
    rw [contents_oneMessage] at htext
    rw [List.mem_singleton.mp htext]
    exact .inl (by decide)
  exact ⟨_, (processRequest_eq_some fun c t h => total_sample h).mpr
    ⟨hclassified, process_of_verdict hverdict rfl⟩, _, rfl⟩

/-- A greeting behind the attack changes nothing. -/
theorem padding_greeting : ∃ out', processRequest ⟨"block", "high", "off"⟩ wordEngine
    (some (sampleClassifier, 0)) insertionOrder
      (twoMessages "jailbreak".toList "hi".toList) none [] = some (some out') ∧
    BlockedForInjection out' := by
  obtain ⟨out, hout, hblocked⟩ := word_refused
  refine ((padding_iff samplePatterns_plain (fun c t h => total_sample h)
    (padded_twoMessages _ "hi".toList) hout).1 hblocked).mpr (.inr (.inr fun text htext => ?_))
  rw [contents_twoMessages] at htext
  rcases List.mem_cons.mp htext with rfl | htext
  · exact .inl (by decide)
  · rw [List.mem_singleton.mp htext]
    exact .inl (by decide)

/-- A text that is cut in the middle of a letter takes the request away from the inspectors. -/
theorem padding_aborts :
    ¬ ∀ (cfg : Config) (e : Engine) (ml : Classifier ℤ) (ord : VaultOrder) (payload payload' : Json)
      (draws draws' : List (UInt64 × UInt64)) (out : Outcome), e.patterns.Plain →
      (∀ c t, ml = some (c, t) → c.Total) → cfg.injectionMode = "block" →
      Padded payload payload' →
      processRequest cfg e ml ord payload none draws = some (some out) →
      BlockedForInjection out →
      ∃ out', processRequest cfg e ml ord payload' none draws' = some (some out') ∧
        BlockedForInjection out' := by
  intro h
  obtain ⟨out, hout, hblocked⟩ := word_refused
  obtain ⟨out', hrun', -⟩ := h _ _ _ _ _ _ _ [] out samplePatterns_plain
    (fun c t h => total_sample h) rfl (padded_twoMessages _ longText) hout hblocked
  obtain ⟨hclassified, -⟩ := (processRequest_eq_some fun c t h => total_sample h).mp hrun'
  rcases hclassified with hoff | hnone | hall
  · exact absurd hoff (by decide)
  · cases hnone
  · exact longText_not_cuttable (hall longText (by
      rw [contents_twoMessages]
      exact List.mem_cons_of_mem _ (List.mem_singleton_self _)))

end FirewallLLM.Inspectors
