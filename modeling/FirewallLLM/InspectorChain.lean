import Mathlib.Data.List.MinMax
import FirewallLLM.ApiError
import FirewallLLM.DlpLeaks

/-! # The inspector chain

`process_request_with_client` runs the injection scan over the messages of a payload and then
the DLP inspector.  The scan reads the content, the name and the tool calls of a message; the
DLP inspector reads the content only.

The compiled signatures, the serializer and the classifier are parameters (`Engine`).

`covers_iff`: DLP covers all texts of the messages exactly when the request is refused anyway,
or no detector matches in a name or in a string of the tool calls and no match sticks out of a
masked content. -/

namespace FirewallLLM.Inspectors

open Dlp

/-! ### Messages -/

/-- `m.get(field)` as a string. -/
def textField (m : Json) (field : String) : Option Text := (m.get? field).bind Json.asStr?

/-- The messages of a payload. -/
def messagesOf (payload : Json) : Option (List Json) :=
  (payload.get? "messages").bind Json.asArr?

/-- `ChatMessage`. -/
structure ChatMessage where
  role : Text
  content : Option Text
  name : Option Text
  toolCalls : Option Json

/-- A message as the gateway forwards it. -/
def ChatMessage.toJson (m : ChatMessage) : Json :=
  .obj ([("role", .str m.role), ("content", m.content.elim .null .str)] ++
    (m.name.map (fun name => ("name", Json.str name))).toList ++
    (m.toolCalls.map (fun calls => ("tool_calls", calls))).toList)

/-! ### The injection scan -/

/-- The name of a rule and its severity. -/
abbrev Finding := String × String

/-- The signatures. -/
def sigs : List Finding :=
  [("override_instructions", "critical"), ("jailbreak_persona", "high"),
    ("roleplay_probe", "medium")]

/-- What the chain is compiled with: the detectors, the signatures, the serializer of values
and, if it is enabled, the classifier. -/
structure Engine where
  patterns : Patterns
  isMatch : Finding → Text → Bool
  toString : Json → Text
  ml : Option (Text → Option Finding)

/-- `SEVERITY_ORDER`. -/
def severityOrder : List (String × ℕ) := [("low", 0), ("medium", 1), ("high", 2), ("critical", 3)]

def rank (s : String) : ℕ := ((severityOrder.find? (fun e => e.1 = s)).map Prod.snd).getD 0

/-- The texts of a message that are scanned. -/
def scanTexts (e : Engine) (m : Json) : List Text :=
  (textField m "content").toList ++ ((m.get? "tool_calls").map e.toString).toList ++
    (textField m "name").toList

def scan (e : Engine) (messages : List Json) : List Finding :=
  messages.flatMap (fun m => (scanTexts e m).flatMap (fun text =>
    sigs.filter (fun sig => e.isMatch sig text)))

/-- The first finding of the highest severity, if that is high enough. -/
def verdict (findings : List Finding) (blockGte : String) : Option Finding :=
  match findings with
  | [] => none
  | f :: fs =>
      let best := fs.foldl (fun best f => if rank f.2 > rank best.2 then f else best) f
      if rank best.2 ≥ rank blockGte then some best else none

/-- `InspectorsConfig`, as far as `process_request_with_client` reads it. -/
structure Config where
  injectionMode : String
  blockSeverityGte : String
  dlpMode : String

/-- The findings of the signatures and of the classifier. -/
def findings (e : Engine) (messages : List Json) : List Finding :=
  scan e messages ++ e.ml.elim [] (fun ml =>
    messages.filterMap (fun m => (textField m "content").bind ml))

/-- The verdict on a payload. -/
def injectionVerdict (cfg : Config) (e : Engine) (payload : Json) : Option Finding :=
  if cfg.injectionMode ≠ "off" then
    verdict (findings e ((messagesOf payload).getD [])) cfg.blockSeverityGte
  else none

/-! ### The DLP inspector -/

/-- The vault, the scope and the random source of a request. -/
structure DlpState where
  vault : Vault
  scope : Scope
  draws : List (UInt64 × UInt64)

/-- One message. -/
def inspectMessage (mode : String) (p : Patterns) (ord : VaultOrder) (msg : Json) (s : DlpState) :
    Option (Except ApiError (Json × DlpState)) :=
  match textField msg "content" with
  | none => some (.ok (msg, s))
  | some content =>
      if mode = "block" then
        (sanitize p ord content [] [] s.draws).map (fun st =>
          if st.out ≠ content then
            .error (.blocked "sensitive data detected (DLP block mode)" "dlp")
          else .ok (msg, { s with draws := st.draws }))
      else if mode = "mask" then
        (sanitize p ord content s.vault s.scope s.draws).map (fun st =>
          .ok (msg.set "content" (.str st.out), ⟨st.vault, st.scope, st.draws⟩))
      else if mode = "log" then
        (sanitize p ord content [] [] s.draws).map (fun st =>
          .ok (msg, { s with draws := st.draws }))
      else some (.ok (msg, s))

/-- The messages one after the other, up to the first error. -/
def inspectMessages (mode : String) (p : Patterns) (ord : VaultOrder) : List Json → DlpState →
    Option (List Json × Except ApiError DlpState)
  | [], s => some ([], .ok s)
  | msg :: msgs, s =>
      (inspectMessage mode p ord msg s).bind (fun
        | .error err => some (msg :: msgs, .error err)
        | .ok (msg, s) => (inspectMessages mode p ord msgs s).map (fun (msgs, r) =>
            (msg :: msgs, r)))

/-- The second stage of the chain, with the payload as it leaves it. -/
def dlpStage (mode : String) (p : Patterns) (ord : VaultOrder) (payload : Json)
    (draws : List (UInt64 × UInt64)) : Option (Json × Except ApiError DlpState) :=
  if mode ≠ "off" then
    match messagesOf payload with
    | some messages =>
        (inspectMessages mode p ord messages ⟨[], [], draws⟩).map (fun (messages, r) =>
          (payload.set "messages" (.arr messages), r))
    | none => some (payload, .ok ⟨[], [], draws⟩)
  else some (payload, .ok ⟨[], [], draws⟩)

/-- What a request leaves behind: the payload, the published detections (severity, rule,
client) and the result. -/
structure Outcome where
  payload : Json
  published : List (String × String × String)
  result : Except ApiError DlpState

/-- `process_request_with_client`. -/
def processRequestWithClient (cfg : Config) (e : Engine) (ord : VaultOrder) (payload : Json)
    (clientId : Option String) (draws : List (UInt64 × UInt64)) : Option Outcome :=
  match injectionVerdict cfg e payload with
  | some (rule, severity) =>
      let published := [(severity, rule, clientId.getD "")]
      if cfg.injectionMode = "block" then
        some ⟨payload, published, .error (.blocked
          s!"prompt injection detected ({rule}, severity={severity})" "injection")⟩
      else (dlpStage cfg.dlpMode e.patterns ord payload draws).map (fun (payload, r) =>
        ⟨payload, published, r⟩)
  | none => (dlpStage cfg.dlpMode e.patterns ord payload draws).map (fun (payload, r) =>
      ⟨payload, [], r⟩)

/-! ### The texts of a message -/

def contentTexts (m : Json) : List Text := (textField m "content").toList

def nameTexts (m : Json) : List Text := (textField m "name").toList

/-- The strings inside the tool calls. -/
def toolTexts (m : Json) : List Text := ((m.get? "tool_calls").map Json.strings).getD []

/-- Every character of a match in a text of `m` is overwritten in the same text of `m'`. -/
structure Covered (p : Patterns) (m m' : Json) : Prop where
  content : List.Forall₂ (Hidden p) (contentTexts m) (contentTexts m')
  name : List.Forall₂ (Hidden p) (nameTexts m) (nameTexts m')
  toolCalls : List.Forall₂ (Hidden p) (toolTexts m) (toolTexts m')

/-- A detector matches in the content of a message. -/
def ContentMatch (p : Patterns) (m : Json) : Prop := ∃ t ∈ contentTexts m, HasMatch p t

/-- A detector matches in the name or in the tool calls of a message. -/
def OtherMatch (p : Patterns) (m : Json) : Prop := ∃ t ∈ nameTexts m ++ toolTexts m, HasMatch p t

/-- No match of a content sticks out of the place where an accepted one ends. -/
def TidyContent (p : Patterns) (m : Json) : Prop := ∀ t ∈ contentTexts m, Tidy p t

/-- Masking hides every match, and blocking lets no match through. -/
structure Covers (mode : String) (p : Patterns) (payload : Json) (out : Outcome) : Prop where
  mask : mode = "mask" → ∀ s, out.result = .ok s →
    List.Forall₂ (Covered p) ((messagesOf payload).getD []) ((messagesOf out.payload).getD [])
  block : mode = "block" → ∀ s, out.result = .ok s →
    ∀ m ∈ (messagesOf payload).getD [], ¬ ContentMatch p m ∧ ¬ OtherMatch p m

/-- The injection inspector refuses the payload. -/
def Refused (cfg : Config) (e : Engine) (payload : Json) : Prop :=
  cfg.injectionMode = "block" ∧ (injectionVerdict cfg e payload).isSome

/-! ### Masking -/

theorem inspectMessage_mask {p : Patterns} {ord : VaultOrder} {msg : Json} {s : DlpState}
    (hs : s.vault.Tokens) {r : Except ApiError (Json × DlpState)}
    (h : inspectMessage "mask" p ord msg s = some r) :
    ∃ msg' s', r = .ok (msg', s') ∧ s'.vault.Tokens ∧
      List.Forall₂ (Masked p) (contentTexts msg) (contentTexts msg') ∧
      nameTexts msg' = nameTexts msg ∧ toolTexts msg' = toolTexts msg := by
  unfold inspectMessage at h
  cases hcontent : textField msg "content" with
  | none =>
      rw [hcontent] at h
      obtain rfl := Option.some.inj h
      refine ⟨msg, s, rfl, hs, ?_, rfl, rfl⟩
      rw [contentTexts, hcontent]
      exact List.Forall₂.nil
  | some content =>
      rw [hcontent] at h
      dsimp only at h
      rw [if_neg (by decide), if_pos rfl] at h
      obtain ⟨st, hsan, rfl⟩ := Option.map_eq_some_iff.mp h
      obtain ⟨hvault, hmasked⟩ := sanitize_masked hs hsan
      obtain ⟨v, hv, -⟩ := Option.bind_eq_some_iff.mp hcontent
      refine ⟨_, _, rfl, hvault, ?_, ?_, ?_⟩
      · have hset : textField (msg.set "content" (.str st.out)) "content" = some st.out := by
          rw [textField, Json.get?_set_self hv]
          rfl
        rw [contentTexts, contentTexts, hcontent, hset]
        exact List.Forall₂.cons hmasked List.Forall₂.nil
      · rw [nameTexts, nameTexts, textField, textField, Json.get?_set_of_ne (by decide)]
      · rw [toolTexts, toolTexts, Json.get?_set_of_ne (by decide)]

theorem forall₂_hidden_iff {p : Patterns} (hi : p.Iterates) {l l' : List Text}
    (h : List.Forall₂ (Masked p) l l') :
    List.Forall₂ (Hidden p) l l' ↔ ∀ t ∈ l, Tidy p t := by
  induction h with
  | nil => simp
  | @cons t t' l l' hmasked hrest ih =>
      rw [List.forall₂_cons, ih, List.forall_mem_cons]
      simp only [Hidden, hmasked, true_and, noLeak_iff_tidy hi]

/-- A masked message is covered when its content is tidy and no detector matches outside of it. -/
theorem covered_iff {p : Patterns} (hp : p.Plain) (hi : p.Iterates) {m m' : Json}
    (hcontent : List.Forall₂ (Masked p) (contentTexts m) (contentTexts m'))
    (hname : nameTexts m' = nameTexts m) (htools : toolTexts m' = toolTexts m) :
    Covered p m m' ↔ TidyContent p m ∧ ¬ OtherMatch p m := by
  have hsame : ∀ l : List Text, List.Forall₂ (Hidden p) l l ↔ ∀ t ∈ l, ¬ HasMatch p t := by
    intro l
    rw [List.forall₂_same]
    exact forall₂_congr fun t _ => hidden_self_iff hp t
  have hother : ¬ OtherMatch p m ↔
      (∀ t ∈ nameTexts m, ¬ HasMatch p t) ∧ ∀ t ∈ toolTexts m, ¬ HasMatch p t := by
    rw [← List.forall_mem_append]
    unfold OtherMatch
    push Not
    rfl
  rw [hother, ← hsame, ← hsame, TidyContent, ← forall₂_hidden_iff hi hcontent]
  constructor
  · rintro ⟨h0, h1, h2⟩
    rw [hname] at h1
    rw [htools] at h2
    exact ⟨h0, h1, h2⟩
  · rintro ⟨h0, h1, h2⟩
    exact ⟨h0, by rw [hname]; exact h1, by rw [htools]; exact h2⟩

theorem inspectMessages_mask {p : Patterns} (hp : p.Plain) (hi : p.Iterates) {ord : VaultOrder}
    {msgs msgs' : List Json} {s : DlpState} (hs : s.vault.Tokens) {r : Except ApiError DlpState}
    (h : inspectMessages "mask" p ord msgs s = some (msgs', r)) :
    (∃ s', r = .ok s') ∧
      (List.Forall₂ (Covered p) msgs msgs' ↔
        ∀ m ∈ msgs, TidyContent p m ∧ ¬ OtherMatch p m) := by
  induction msgs generalizing s msgs' r with
  | nil =>
      obtain ⟨rfl, rfl⟩ := Prod.mk.inj (Option.some.inj h)
      exact ⟨⟨s, rfl⟩, by simp⟩
  | cons m msgs ih =>
      rw [inspectMessages] at h
      obtain ⟨r₁, hm, hrest⟩ := Option.bind_eq_some_iff.mp h
      obtain ⟨m', s', rfl, hs', hcontent, hname, htools⟩ := inspectMessage_mask hs hm
      obtain ⟨⟨msgs₁, r₂⟩, hmsgs, heq⟩ := Option.map_eq_some_iff.mp hrest
      obtain ⟨rfl, rfl⟩ := Prod.mk.inj heq
      obtain ⟨hok, hiff⟩ := ih hs' hmsgs
      refine ⟨hok, ?_⟩
      rw [List.forall₂_cons, covered_iff hp hi hcontent hname htools, hiff, List.forall_mem_cons]

/-! ### Blocking -/

theorem inspectMessage_block {p : Patterns} (hp : p.Plain) {ord : VaultOrder} {msg : Json}
    {s : DlpState} {r : Except ApiError (Json × DlpState)}
    (h : inspectMessage "block" p ord msg s = some r) :
    (∃ err, r = .error err ∧ ContentMatch p msg) ∨
      ∃ s', r = .ok (msg, s') ∧ ¬ ContentMatch p msg := by
  unfold inspectMessage at h
  cases hcontent : textField msg "content" with
  | none =>
      rw [hcontent] at h
      obtain rfl := Option.some.inj h
      right
      refine ⟨s, rfl, ?_⟩
      simp [ContentMatch, contentTexts, hcontent]
  | some content =>
      rw [hcontent] at h
      dsimp only at h
      rw [if_pos rfl] at h
      obtain ⟨st, hsan, heq⟩ := Option.map_eq_some_iff.mp h
      have hself := sanitize_eq_self_iff hp (by simp [Vault.Tokens]) hsan
      have hmatch : ContentMatch p msg ↔ HasMatch p content := by
        simp [ContentMatch, contentTexts, hcontent]
      rw [hmatch]
      split_ifs at heq with hout
      · left
        exact ⟨_, heq.symm, not_not.mp (fun hnone => hout (hself.mpr hnone))⟩
      · right
        exact ⟨_, heq.symm, hself.mp (not_not.mp hout)⟩

theorem inspectMessages_block {p : Patterns} (hp : p.Plain) {ord : VaultOrder}
    {msgs msgs' : List Json} {s : DlpState} {r : Except ApiError DlpState}
    (h : inspectMessages "block" p ord msgs s = some (msgs', r)) :
    (∃ s', r = .ok s') ↔ ∀ m ∈ msgs, ¬ ContentMatch p m := by
  induction msgs generalizing s msgs' r with
  | nil =>
      obtain ⟨rfl, rfl⟩ := Prod.mk.inj (Option.some.inj h)
      simp
  | cons m msgs ih =>
      rw [inspectMessages] at h
      obtain ⟨r₁, hm, hrest⟩ := Option.bind_eq_some_iff.mp h
      rw [List.forall_mem_cons]
      rcases inspectMessage_block hp hm with ⟨err, rfl, hmatch⟩ | ⟨s', rfl, hnone⟩
      · obtain ⟨rfl, rfl⟩ := Prod.mk.inj (Option.some.inj hrest)
        constructor
        · rintro ⟨s', hs'⟩
          cases hs'
        · rintro ⟨hno, -⟩
          exact absurd hmatch hno
      · obtain ⟨⟨msgs₁, r₂⟩, hmsgs, heq⟩ := Option.map_eq_some_iff.mp hrest
        obtain ⟨rfl, rfl⟩ := Prod.mk.inj heq
        rw [ih hmsgs]
        simp only [hnone, not_false_eq_true, true_and]

/-! ### The worst finding -/

theorem foldl_argAux {α : Type} (r : α → α → Prop) [DecidableRel r] (l : List α) (a : α) :
    l.foldl (List.argAux r) (some a) = some (l.foldl (fun b c => if r c b then c else b) a) := by
  induction l generalizing a with
  | nil => rfl
  | cons c l ih =>
      rw [List.foldl_cons, List.foldl_cons, ← ih]
      simp only [List.argAux]
      split <;> rfl

/-- The loop of `verdict` finds what `max` does. -/
theorem verdict_eq (findings : List Finding) (gte : String) :
    verdict findings gte =
      (findings.argmax (fun f => rank f.2)).filter (fun f => rank gte ≤ rank f.2) := by
  cases findings with
  | nil => rfl
  | cons f fs =>
      have hmax : (f :: fs).argmax (fun f => rank f.2) =
          some (fs.foldl (fun best f => if rank best.2 < rank f.2 then f else best) f) :=
        foldl_argAux (fun b c : Finding => rank c.2 < rank b.2) fs f
      rw [hmax, Option.filter_some]
      simp only [verdict, decide_eq_true_eq]

theorem mem_sigs_of_scan {e : Engine} {messages : List Json} {f : Finding}
    (h : f ∈ scan e messages) : f ∈ sigs := by
  obtain ⟨m, -, hm⟩ := List.mem_flatMap.mp h
  obtain ⟨text, -, htext⟩ := List.mem_flatMap.mp hm
  exact List.mem_of_mem_filter htext

theorem sigs_ranked : ∀ f ∈ sigs, ∀ g ∈ sigs, rank f.2 = rank g.2 → f = g := by decide

/-- The worst finding does not depend on the order in which the findings were made. -/
theorem argmax_congr {fs gs : List Finding} (h : ∀ f ∈ gs, f ∈ sigs)
    (hsame : ∀ f, f ∈ fs ↔ f ∈ gs) :
    fs.argmax (fun f => rank f.2) = gs.argmax (fun f => rank f.2) := by
  cases hf : fs.argmax (fun f => rank f.2) with
  | none =>
      obtain rfl := List.argmax_eq_none.mp hf
      have hgs : gs = [] := List.eq_nil_iff_forall_not_mem.mpr fun g hg =>
        nomatch (hsame g).mpr hg
      rw [hgs, List.argmax_nil]
  | some f =>
      cases hg : gs.argmax (fun f => rank f.2) with
      | none =>
          obtain rfl := List.argmax_eq_none.mp hg
          exact nomatch (hsame f).mp (List.argmax_mem hf)
      | some g =>
          have hfm := (hsame f).mp (List.argmax_mem hf)
          have hgm := List.argmax_mem hg
          have hle := List.le_of_mem_argmax hfm hg
          have hge := List.le_of_mem_argmax ((hsame g).mpr hgm) hf
          rw [sigs_ranked f (h f hfm) g (h g hgm) (le_antisymm hle hge)]

/-! ### What becomes of a verdict -/

/-- The Rust chain refuses a request for an injection. -/
def BlockedForInjection (out : Outcome) : Prop :=
  ∃ message, out.result = .error (.blocked message "injection")

section Verdict

variable {cfg : Config} {e : Engine} {ord : VaultOrder}
  {payload : Json} {draws : List (UInt64 × UInt64)} {out : Outcome} {client : String}

theorem inspectMessages_error {mode : String} {p : Patterns} {msgs msgs' : List Json}
    {s : DlpState} {err : ApiError}
    (h : inspectMessages mode p ord msgs s = some (msgs', .error err)) :
    err = .blocked "sensitive data detected (DLP block mode)" "dlp" := by
  induction msgs generalizing msgs' s with
  | nil => nomatch (Prod.mk.inj (Option.some.inj h)).2
  | cons msg msgs ih =>
      rw [inspectMessages] at h
      obtain ⟨r, hr, h⟩ := Option.bind_eq_some_iff.mp h
      cases r with
      | error err' =>
          obtain ⟨-, h⟩ := Prod.mk.inj (Option.some.inj h)
          obtain rfl := Except.error.inj h
          rw [inspectMessage] at hr
          split at hr
          · nomatch hr
          · split_ifs at hr
            · obtain ⟨st, -, hst⟩ := Option.map_eq_some_iff.mp hr
              split_ifs at hst
              exact (Except.error.inj hst).symm
            · obtain ⟨st, -, hst⟩ := Option.map_eq_some_iff.mp hr
              nomatch hst
            · obtain ⟨st, -, hst⟩ := Option.map_eq_some_iff.mp hr
              nomatch hst
            · nomatch hr
      | ok x =>
          obtain ⟨⟨msgs'', r⟩, hrun, h⟩ := Option.map_eq_some_iff.mp h
          obtain ⟨-, rfl⟩ := Prod.mk.inj h
          exact ih hrun

theorem dlpStage_error {mode : String} {p : Patterns} {payload' : Json} {err : ApiError}
    (h : dlpStage mode p ord payload draws = some (payload', .error err)) :
    err = .blocked "sensitive data detected (DLP block mode)" "dlp" := by
  rw [dlpStage] at h
  split at h
  · split at h
    · obtain ⟨⟨msgs, r⟩, hrun, h⟩ := Option.map_eq_some_iff.mp h
      obtain ⟨-, rfl⟩ := Prod.mk.inj h
      exact inspectMessages_error hrun
    · nomatch (Prod.mk.inj (Option.some.inj h)).2
  · nomatch (Prod.mk.inj (Option.some.inj h)).2

theorem not_blocked_of_dlpStage {mode : String} {p : Patterns} {payload' : Json}
    {r : Except ApiError DlpState}
    (h : dlpStage mode p ord payload draws = some (payload', r)) (message : String) :
    r ≠ .error (.blocked message "injection") := by
  rintro rfl
  have herr := dlpStage_error h
  simp [ApiError.blocked] at herr

theorem outcome_of_verdict
    (h : processRequestWithClient cfg e ord payload (some client) draws = some out) :
    out.published = ((injectionVerdict cfg e payload).map
        (fun f => (f.2, f.1, client))).toList ∧
      (BlockedForInjection out ↔
        cfg.injectionMode = "block" ∧ (injectionVerdict cfg e payload).isSome) := by
  rw [processRequestWithClient] at h
  split at h
  · rename_i rule severity hv
    rw [hv]
    split_ifs at h with hmode
    · obtain rfl := Option.some.inj h
      exact ⟨rfl, iff_of_true ⟨_, rfl⟩ ⟨hmode, rfl⟩⟩
    · obtain ⟨⟨payload', r⟩, hdlp, rfl⟩ := Option.map_eq_some_iff.mp h
      exact ⟨rfl, iff_of_false (fun ⟨m, hm⟩ => not_blocked_of_dlpStage hdlp m hm)
        (fun hb => hmode hb.1)⟩
  · rename_i hv
    rw [hv]
    obtain ⟨⟨payload', r⟩, hdlp, rfl⟩ := Option.map_eq_some_iff.mp h
    exact ⟨rfl, iff_of_false (fun ⟨m, hm⟩ => not_blocked_of_dlpStage hdlp m hm)
      (fun hb => nomatch hb.2)⟩

end Verdict

/-! ### Coverage -/

/-- A request is refused by the injection inspector or handed to the DLP inspector. -/
theorem processRequest_cases {cfg : Config} {e : Engine} {ord : VaultOrder} {payload : Json}
    {clientId : Option String} {draws : List (UInt64 × UInt64)} {out : Outcome}
    (h : processRequestWithClient cfg e ord payload clientId draws = some out) :
    (Refused cfg e payload ∧ ∃ err, out.result = .error err) ∨
      (¬ Refused cfg e payload ∧
        dlpStage cfg.dlpMode e.patterns ord payload draws = some (out.payload, out.result)) := by
  unfold processRequestWithClient at h
  cases hv : injectionVerdict cfg e payload with
  | none =>
      rw [hv] at h
      obtain ⟨⟨payload', r⟩, hdlp, rfl⟩ := Option.map_eq_some_iff.mp h
      exact Or.inr ⟨by simp [Refused, hv], hdlp⟩
  | some f =>
      obtain ⟨rule, severity⟩ := f
      rw [hv] at h
      dsimp only at h
      split_ifs at h with hmode
      · obtain rfl := Option.some.inj h
        exact Or.inl ⟨⟨hmode, by rw [hv]; rfl⟩, _, rfl⟩
      · obtain ⟨⟨payload', r⟩, hdlp, rfl⟩ := Option.map_eq_some_iff.mp h
        exact Or.inr ⟨fun href => hmode href.1, hdlp⟩

/-- A payload that gets to the DLP inspector: no detector may match outside the contents, and these
have to be tidy if they are masked; blocking covers it also when it refuses the payload for one of
them. -/
theorem dlpStage_covers {mode : String} {p : Patterns} (hp : p.Plain) (hi : p.Iterates)
    {ord : VaultOrder} {payload : Json} {draws : List (UInt64 × UInt64)} {out : Outcome}
    (hmode : mode = "mask" ∨ mode = "block")
    (h : dlpStage mode p ord payload draws = some (out.payload, out.result)) :
    Covers mode p payload out ↔
      (mode = "block" ∧ ∃ m ∈ (messagesOf payload).getD [], ContentMatch p m) ∨
        ∀ m ∈ (messagesOf payload).getD [],
          (mode = "mask" → TidyContent p m) ∧ ¬ OtherMatch p m := by
  unfold dlpStage at h
  rw [if_pos (by rcases hmode with rfl | rfl <;> decide)] at h
  cases hmsgs : messagesOf payload with
  | none =>
      rw [hmsgs] at h
      obtain ⟨hpayload, -⟩ := Prod.mk.inj (Option.some.inj h)
      have hcovers : Covers mode p payload out :=
        ⟨fun _ _ _ => by rw [← hpayload, hmsgs]; exact List.Forall₂.nil,
          fun _ _ _ => by simp [hmsgs]⟩
      exact iff_of_true hcovers (Or.inr (by simp))
  | some msgs =>
      rw [hmsgs] at h
      obtain ⟨⟨msgs', r⟩, hrun, heq⟩ := Option.map_eq_some_iff.mp h
      obtain ⟨hpayload, rfl⟩ := Prod.mk.inj heq
      have hmsgs' : messagesOf out.payload = some msgs' := by
        rw [← hpayload]
        exact Json.asArr?_get?_set hmsgs msgs'
      rw [Option.getD_some]
      rcases hmode with rfl | rfl
      · obtain ⟨⟨s, hok⟩, hiff⟩ := inspectMessages_mask hp hi (by simp [Vault.Tokens]) hrun
        simp only [true_implies]
        rw [← hiff]
        constructor
        · intro hcovers
          have := hcovers.mask rfl s hok
          rw [hmsgs, hmsgs'] at this
          exact Or.inr this
        · rintro (⟨hne, -⟩ | hall)
          · exact absurd hne (by decide)
          · refine ⟨fun _ _ _ => ?_, fun hne => absurd hne (by decide)⟩
            rw [hmsgs, hmsgs']
            exact hall
      · have hiff := inspectMessages_block hp hrun
        constructor
        · intro hcovers
          by_cases hcontent : ∃ m ∈ msgs, ContentMatch p m
          · exact Or.inl ⟨rfl, hcontent⟩
          · right
            obtain ⟨s, hok⟩ := hiff.mpr (fun m hm hmatch => hcontent ⟨m, hm, hmatch⟩)
            have := hcovers.block rfl s hok
            rw [hmsgs] at this
            exact fun m hm => ⟨fun hne => absurd hne (by decide), (this m hm).2⟩
        · intro hcond
          refine ⟨fun hne => absurd hne (by decide), fun _ s hok m hm => ?_⟩
          have hnone := hiff.mp ⟨s, hok⟩
          rw [hmsgs] at hm
          rcases hcond with ⟨-, m', hm', hmatch⟩ | hother
          · exact absurd hmatch (hnone m' hm')
          · exact ⟨hnone m hm, (hother m hm).2⟩

/-- **DLP covers all texts of the messages** exactly when it is not asked to mask or to block,
or the request is refused anyway, or no detector matches in a name or in a string of the tool
calls and, where it masks, every content is tidy. -/
theorem covers_iff {cfg : Config} {e : Engine} (hp : e.patterns.Plain) (hi : e.patterns.Iterates)
    {ord : VaultOrder} {payload : Json} {clientId : Option String}
    {draws : List (UInt64 × UInt64)} {out : Outcome}
    (h : processRequestWithClient cfg e ord payload clientId draws = some out) :
    Covers cfg.dlpMode e.patterns payload out ↔
      (cfg.dlpMode = "mask" ∨ cfg.dlpMode = "block" →
        Refused cfg e payload ∨
        (cfg.dlpMode = "block" ∧
          ∃ m ∈ (messagesOf payload).getD [], ContentMatch e.patterns m) ∨
        ∀ m ∈ (messagesOf payload).getD [],
          (cfg.dlpMode = "mask" → TidyContent e.patterns m) ∧ ¬ OtherMatch e.patterns m) := by
  by_cases hmode : cfg.dlpMode = "mask" ∨ cfg.dlpMode = "block"
  · rw [forall_prop_of_true hmode]
    rcases processRequest_cases h with ⟨hrefused, err, herr⟩ | ⟨hpass, hdlp⟩
    · refine iff_of_true ⟨fun _ s hok => ?_, fun _ s hok => ?_⟩ (Or.inl hrefused)
      · rw [herr] at hok
        cases hok
      · rw [herr] at hok
        cases hok
    · rw [dlpStage_covers hp hi hmode hdlp]
      simp only [hpass, false_or]
  · refine iff_of_true ⟨fun heq => ?_, fun heq => ?_⟩ (fun hm => absurd hm hmode)
    · exact absurd (Or.inl heq) hmode
    · exact absurd (Or.inr heq) hmode

/-- The detectors of `samplePatterns`, without signatures. -/
def sampleEngine : Engine := ⟨samplePatterns, fun _ _ => false, fun _ => [], none⟩

/-- A payload of one message. -/
def samplePayload (m : ChatMessage) : Json :=
  .obj [("model", .str "gpt".toList), ("messages", .arr [m.toJson]), ("stream", .bool false)]

theorem samplePatterns_plain : samplePatterns.Plain := by
  constructor
  · intro d text m hm
    unfold samplePatterns at hm
    dsimp only at hm
    split_ifs at hm with ht
    · cases d <;> simp only [List.mem_singleton, List.not_mem_nil] at hm <;> subst hm <;> decide
    · cases hm
  · intro d text m hm
    unfold samplePatterns at hm
    dsimp only at hm
    split_ifs at hm with ht
    · subst ht
      cases d <;> simp only [List.mem_singleton, List.not_mem_nil] at hm <;> subst hm <;> decide
    · cases hm

theorem sampleText_noLeak : NoLeak samplePatterns sampleText := by
  have hinside : ∀ h ∈ hits samplePatterns sampleText,
      ∃ a ∈ accepted samplePatterns sampleText, a.start ≤ h.start ∧ h.stop ≤ a.stop := by
    decide
  rintro x ⟨h, hm, hx⟩
  obtain ⟨a, ha, hstart, hstop⟩ := hinside h hm
  exact ⟨a, ha, hstart.trans hx.1, hx.2.trans_le hstop⟩

/-- An address in the content is masked. -/
theorem covers_content :
    Covers "mask" samplePatterns (samplePayload ⟨"user".toList, some sampleText, none, none⟩)
      ⟨samplePayload ⟨"user".toList,
          some "to [EMAIL_00000000000000ab00000000000000cd]".toList, none, none⟩, [],
        .ok ⟨[(formatToken Detector.email.typ (171, 205), "ivan@mail.ru".toList)],
          [(formatToken Detector.email.typ (171, 205), 1)], []⟩⟩ := by
  have hrun : processRequestWithClient ⟨"block", "high", "mask"⟩ sampleEngine insertionOrder
      (samplePayload ⟨"user".toList, some sampleText, none, none⟩) (some "alice") [(171, 205)] =
        some ⟨samplePayload ⟨"user".toList,
          some "to [EMAIL_00000000000000ab00000000000000cd]".toList, none, none⟩, [],
        .ok ⟨[(formatToken Detector.email.typ (171, 205), "ivan@mail.ru".toList)],
          [(formatToken Detector.email.typ (171, 205), 1)], []⟩⟩ := rfl
  refine (covers_iff samplePatterns_plain samplePatterns_iterates hrun).mpr
    fun _ => Or.inr (Or.inr ?_)
  have hmsgs : (messagesOf (samplePayload ⟨"user".toList, some sampleText, none, none⟩)).getD [] =
      [ChatMessage.toJson ⟨"user".toList, some sampleText, none, none⟩] := rfl
  rw [hmsgs]
  intro m hm
  rw [List.mem_singleton.mp hm]
  constructor
  · intro _ t ht
    rw [List.mem_singleton.mp ht]
    exact (noLeak_iff_tidy samplePatterns_iterates sampleText).mp sampleText_noLeak
  · rintro ⟨t, ht, -⟩
    cases ht

/-- An address in the name of a message goes to the provider as it is. -/
theorem name_not_covered :
    ¬ ∀ (cfg : Config) (e : Engine) (ord : VaultOrder) (payload : Json) (clientId : Option String)
      (draws : List (UInt64 × UInt64)) (out : Outcome), e.patterns.Plain → e.patterns.Iterates →
      processRequestWithClient cfg e ord payload clientId draws = some out →
      Covers cfg.dlpMode e.patterns payload out := by
  intro h
  have hcovers := h ⟨"block", "high", "mask"⟩ sampleEngine insertionOrder
    (samplePayload ⟨"user".toList, some "hello".toList, some sampleText, none⟩) (some "alice") []
    ⟨samplePayload ⟨"user".toList, some "hello".toList, some sampleText, none⟩, [],
      .ok ⟨[], [], []⟩⟩ samplePatterns_plain samplePatterns_iterates rfl
  have hall := hcovers.mask rfl _ rfl
  have hname := (List.forall₂_cons.mp hall).1.name
  have hhidden := (List.forall₂_cons.mp hname).1
  exact (hidden_self_iff samplePatterns_plain sampleText).mp hhidden (by decide)

end FirewallLLM.Inspectors
