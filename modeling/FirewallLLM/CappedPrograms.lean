import FirewallLLM.Accounting
import FirewallLLM.TokenStore

/-! # What a capped request asks for

A request is admitted with an estimate of its prompt and a cap of its completion, its
`Allowance`.  As long as the answers keep to the allowance, the programs of the request settle
within it: whatever they ask the store for keeps to what was reserved.

The answers relied on are those of a store that works, and of providers whose usage, reported
or estimated, is within the allowance. -/

namespace FirewallLLM

/-! ### The cap in the payload -/

namespace Inspectors

open Dlp (VaultOrder Patterns)

/-- The DLP inspector touches only the messages of a payload. -/
theorem dlpStage_get? {mode : String} {p : Patterns} {ord : VaultOrder} {payload payload' : Json}
    {draws : List (UInt64 × UInt64)} {r : Except ApiError DlpState}
    (h : dlpStage mode p ord payload draws = some (payload', r)) {key : String}
    (hkey : key ≠ "messages") : payload'.get? key = payload.get? key := by
  unfold dlpStage at h
  split_ifs at h
  · cases hm : messagesOf payload with
    | none =>
        rw [hm] at h
        cases h
        rfl
    | some messages =>
        rw [hm] at h
        obtain ⟨⟨msgs', r'⟩, -, heq⟩ := Option.map_eq_some_iff.mp h
        cases heq
        exact Json.get?_set_of_ne hkey _ _
  · cases h
    rfl

theorem processRequest_get? {cfg : Config} {e : Engine} {ord : VaultOrder} {payload : Json}
    {clientId : Option String} {draws : List (UInt64 × UInt64)} {out : Outcome}
    (h : processRequestWithClient cfg e ord payload clientId draws = some out) {key : String}
    (hkey : key ≠ "messages") : out.payload.get? key = payload.get? key := by
  unfold processRequestWithClient at h
  cases hv : injectionVerdict cfg e payload with
  | none =>
      rw [hv] at h
      obtain ⟨⟨payload', r⟩, hdlp, rfl⟩ := Option.map_eq_some_iff.mp h
      exact dlpStage_get? hdlp hkey
  | some f =>
      rw [hv] at h
      dsimp only at h
      split_ifs at h
      · cases h
        rfl
      · obtain ⟨⟨payload', r⟩, hdlp, rfl⟩ := Option.map_eq_some_iff.mp h
        exact dlpStage_get? hdlp hkey

end Inspectors

namespace Chat

open Dlp (Text Item StreamState StreamRestore)
open Inspectors (processRequestWithClient messagesOf)

theorem maxTokens_buildPayload (concrete : String) (body : ChatCompletionRequest) :
    (buildPayload concrete body).get? "max_tokens" = body.maxTokens.map jsonInt := by
  unfold buildPayload
  cases body.temperature <;> cases body.topP <;> cases body.maxTokens <;> cases body.stop <;>
    cases streamOptions body <;> simp [Json.get?]

/-! ### Allowances -/

/-- The estimate of the prompt of a request. -/
def ChatCompletionRequest.promptEst (body : ChatCompletionRequest) : UInt64 :=
  (estimateUsage (joinLines (body.messages.filterMap Inspectors.ChatMessage.content)) []).1

/-- What a request may use. -/
structure Allowance where
  prompt : UInt64
  completion : Int64
  prompt_lt : prompt.toNat < 2 ^ 63
  completion_nonneg : 0 ≤ completion.toInt

/-- The usage is within the allowance, as a total. -/
def Allowance.Holds (al : Allowance) (prompt completion : UInt64) : Prop :=
  (prompt.toNat + completion.toNat : ℤ) ≤ al.prompt.toNat + al.completion.toInt

/-- A reported usage, if there is one, is within the allowance. -/
def Allowance.Reports (al : Allowance) (usage : Option Json) : Prop :=
  ∀ p d, upstreamUsage usage = some (p, d) → al.Holds p d

/-- An item of a stream that reports nothing beyond the allowance. -/
def Allowance.Keeps (al : Allowance) : Item → Prop
  | .ok chunk => al.Reports (chunk.get? "usage")
  | .error _ => True

/-- The reservation is one of the allowance. -/
structure Allowance.Reserves (al : Allowance) (rsv : Reservation) : Prop where
  sound : rsv.Sound
  prompt : rsv.promptEst = al.prompt.toInt64
  completion : rsv.completionCap = al.completion

/-- The accountant settles a reservation of the allowance. -/
structure Allowance.Backs (al : Allowance) (a : Accountant) : Prop where
  metering : a.metering = true
  reserves : ∃ rsv, a.reservation = some rsv ∧ al.Reserves rsv

theorem promptEst_lt (body : ChatCompletionRequest) : body.promptEst.toNat < 2 ^ 63 := by
  unfold ChatCompletionRequest.promptEst estimateUsage
  rw [UInt64.toNat_div]
  have h := (UInt64.ofNat (joinLines
    (body.messages.filterMap Inspectors.ChatMessage.content)).length).toNat_lt
  have h4 : (4 : UInt64).toNat = 4 := by decide
  rw [h4]
  omega

/-- The allowance that `admit` reserves for a request. -/
def allowance (m : Quota.Metering Int64) (body : ChatCompletionRequest) : Allowance where
  prompt := body.promptEst
  completion := max (body.maxTokens.getD m.completionReserveTokens) 0
  prompt_lt := promptEst_lt body
  completion_nonneg := by
    have h0 : (0 : Int64).toInt = 0 := by decide
    rw [Wrapping.toInt_max, h0]
    exact le_max_right _ _

theorem toInt_toInt64_of_lt {u : UInt64} (h : u.toNat < 2 ^ 63) : u.toInt64.toInt = u.toNat := by
  rw [Wrapping.toInt_toInt64, Wrapping.wrap_eq_iff.mpr]
  constructor <;> omega

/-- Usage within the allowance keeps to its reservation. -/
theorem Allowance.Reserves.holds {al : Allowance} {rsv : Reservation} (hr : al.Reserves rsv)
    {p d : UInt64} (h : al.Holds p d) : rsv.Holds p.toInt64 d.toInt64 := by
  have htotal : (p.toNat + d.toNat : ℤ) ≤ rsv.promptEst.toInt + rsv.completionCap.toInt := by
    rw [hr.prompt, hr.completion, toInt_toInt64_of_lt al.prompt_lt]
    exact h
  have hfit := hr.sound.total
  have hp := toInt_toInt64_of_lt (u := p) (by omega)
  have hd := toInt_toInt64_of_lt (u := d) (by omega)
  exact ⟨by omega, by omega, by omega⟩

/-! ### Answers and requests -/

section Programs

variable (g : Gateway) (cfg : Inspectors.Config) (eng : Inspectors.Engine) (ord : Dlp.VaultOrder)
  (draws : List (UInt64 × UInt64)) (clientId : String) (body : ChatCompletionRequest)
  (al : Allowance) (acc : Option Accountant)

/-- The answers that the programs of a request rely on. -/
def Relied : (e : Op) → Res e → Prop
  | .inspect payload c, out =>
      processRequestWithClient cfg eng ord payload (some c) draws = some out
  | .admitReq .., r => match r with
      | .ok rsv => al.Reserves rsv
      | .error (.quotaExceeded _ _) => True
      | .error (.backendUnavailable _) => False
  | .chat _, r => match r with
      | .ok completion => ∀ chain, chainOf cfg eng ord draws clientId body = some chain →
          al.Holds (completionUsage (restoreFirst g chain completion)).1
            (completionUsage (restoreFirst g chain completion)).2.1
      | .error _ => True
  | .chatStream payload, r => match r with
      | .ok items => ∀ item ∈ items, al.Keeps item
      -- the prompt of a stream that did not open is settled by its estimate
      | .error _ => al.Holds (estimateUsage (promptText payload) []).1 0
  | .cells, st => ∀ a, acc = some a → al.Holds (a.usage st).1 (a.usage st).2.1
  | _, _ => True

/-- What the programs of a request may ask for. -/
def Asked : Op → Prop
  | .admitReq c _ _ est cap => c = clientId ∧ est = al.prompt.toInt64 ∧ cap = body.maxTokens
  | .chat payload => payload.get? "max_tokens" = body.maxTokens.map jsonInt
  | .chatStream payload => payload.get? "max_tokens" = body.maxTokens.map jsonInt
  | .settle rsv p d => rsv.Sound ∧ rsv.Holds p d
  | .record .. => False
  | .mapItem item => al.Keeps item
  | _ => True

/-- The program keeps to the allowance. -/
abbrev KeepsTo {α : Type} (Q : α → Prop) (p : Prog α) : Prop :=
  p.Meets (Relied g cfg eng ord draws clientId body al acc) (Asked clientId body al) Q

/-- What the handler answers with. -/
def Answers : Reply → Prop
  | .json _ _ => True
  | .sse a items => al.Backs a ∧ ∀ item ∈ items, al.Keeps item

variable {g cfg eng ord draws clientId body al acc}

/-! ### Streams -/

theorem keepsTo_settleOrRecord {a : Accountant} (ha : al.Backs a) {p d : UInt64}
    (h : al.Holds p d) :
    KeepsTo g cfg eng ord draws clientId body al acc (fun _ => True) (a.settleOrRecord p d) := by
  obtain ⟨rsv, hrsv, hres⟩ := ha.reserves
  unfold Accountant.settleOrRecord
  rw [if_pos ha.metering, hrsv]
  exact ⟨⟨hres.sound, hres.holds h⟩, fun _ _ => trivial⟩

theorem keepsTo_settleOnce {a : Accountant} (ha : al.Backs a) {p d : UInt64} (h : al.Holds p d) :
    KeepsTo g cfg eng ord draws clientId body al acc (fun _ => True) (a.settleOnce p d) := by
  have hsettle : ∀ recorded : Bool, KeepsTo g cfg eng ord draws clientId body al acc
      (fun _ => True) (if recorded then pure () else a.settleOrRecord p d) := by
    intro recorded
    cases recorded with
    | false => exact keepsTo_settleOrRecord ha h
    | true => trivial
  exact ⟨trivial, fun recorded _ => hsettle recorded⟩

theorem keepsTo_dropTask {a : Accountant} (ha : al.Backs a) {st : StreamState}
    (h : al.Holds (a.usage st).1 (a.usage st).2.1) :
    KeepsTo g cfg eng ord draws clientId body al acc (fun _ => True) (a.dropTask st) := by
  show Program.Meets _ _ _ (a.settleOnce (a.usage st).1 (a.usage st).2.1 >>= fun _ => _)
  exact (keepsTo_settleOnce ha h).bind fun _ _ => ⟨trivial, fun _ _ => trivial⟩

theorem keepsTo_terminal {a : Accountant} (ha : al.Backs a) (hacc : acc = some a) :
    KeepsTo g cfg eng ord draws clientId body al acc (fun _ => True) a.terminal := by
  refine ⟨trivial, fun st hst => ?_⟩
  show Program.Meets _ _ _ (a.settleOnce (a.usage st).1 (a.usage st).2.1 >>= fun _ => _)
  refine (keepsTo_settleOnce ha (hst a hacc)).bind fun _ _ => ?_
  refine ⟨trivial, fun _ _ => ⟨trivial, fun _ _ => ⟨trivial, fun _ _ => ⟨trivial, fun _ _ => ?_⟩⟩⟩⟩
  exact ⟨trivial, fun _ _ => ⟨trivial, fun _ _ => trivial⟩⟩

theorem keepsTo_sendFlushed (flushed : Text) :
    KeepsTo g cfg eng ord draws clientId body al acc (fun _ => True)
      (Accountant.sendFlushed flushed) := by
  unfold Accountant.sendFlushed
  by_cases hnil : flushed = []
  · rw [if_pos hnil]
    trivial
  · rw [if_neg hnil]
    exact ⟨trivial, fun _ _ => trivial⟩

theorem keepsTo_bodyStream {a : Accountant} (ha : al.Backs a) (hacc : acc = some a)
    {items : List Item} (hitems : ∀ item ∈ items, al.Keeps item) :
    KeepsTo g cfg eng ord draws clientId body al acc (fun _ => True) (a.bodyStream items) := by
  induction items with
  | nil =>
      refine ⟨trivial, fun _ _ => ⟨trivial, fun flushed _ => ?_⟩⟩
      exact (keepsTo_sendFlushed flushed).bind fun _ _ => keepsTo_terminal ha hacc
  | cons item items ih =>
      obtain ⟨hitem, hrest⟩ := List.forall_mem_cons.mp hitems
      have hobserve : KeepsTo g cfg eng ord draws clientId body al acc (fun _ => True)
          (a.observeItem item) := by
        cases item with
        | error err => exact ⟨trivial, fun _ _ => trivial⟩
        | ok chunk => trivial
      refine ⟨trivial, fun _ _ => ⟨hitem, fun event _ => ?_⟩⟩
      exact hobserve.bind fun _ _ => ⟨trivial, fun _ _ => ih hrest⟩

/-! ### The handler -/

theorem keepsTo_settleFailed {a : Accountant} (ha : al.Backs a) {p : UInt64}
    (h : al.Holds p 0) :
    KeepsTo g cfg eng ord draws clientId body al acc (fun _ => True) (settleFailed a p) := by
  obtain ⟨rsv, hrsv, hres⟩ := ha.reserves
  unfold settleFailed
  rw [if_pos ha.metering, hrsv]
  exact ⟨⟨hres.sound, hres.holds h⟩, fun _ _ => trivial⟩

theorem keepsTo_refusal (m : Metric) (row : Row) (status : ℕ) (out : Json) :
    KeepsTo g cfg eng ord draws clientId body al acc (Answers al)
      (do observe m; audit row; pure (.json status out)) :=
  ⟨trivial, fun _ _ => ⟨trivial, fun _ _ => trivial⟩⟩

theorem keepsTo_streamResponse {a : Accountant} (ha : al.Backs a) {payload : Json}
    (hcap : payload.get? "max_tokens" = body.maxTokens.map jsonInt) (session : StreamRestore) :
    KeepsTo g cfg eng ord draws clientId body al acc (Answers al)
      (streamResponse a payload session) := by
  have ha' : al.Backs { a with requestText := promptText payload } := ⟨ha.metering, ha.reserves⟩
  refine ⟨hcap, fun r hr => ?_⟩
  cases r with
  | ok items => exact ⟨trivial, fun _ _ => ⟨ha', hr⟩⟩
  | error err =>
      refine (keepsTo_settleFailed ha' hr).bind fun _ _ => ?_
      exact ⟨trivial, fun _ _ => ⟨trivial, fun _ _ => trivial⟩⟩

theorem completionUsage_tagRouted {requested concrete : String} {completion tagged : Json}
    (h : tagRouted requested concrete completion = some tagged) (chain : Inspectors.DlpState) :
    completionUsage (restoreFirst g chain tagged) =
      completionUsage (restoreFirst g chain completion) := by
  have hcontents : contents (restoreFirst g chain tagged) =
      contents (restoreFirst g chain completion) := by
    rw [contents_restoreFirst, contents_restoreFirst, contents_tagRouted h]
  have htexts : ∀ out : Json, (completionChoices out).filterMap choiceContent =
      (contents out).filterMap id := by
    intro out
    unfold contents
    rw [List.filterMap_map]
    rfl
  unfold completionUsage
  rw [usage_restoreFirst, usage_restoreFirst, usage_tagRouted h, htexts, htexts, hcontents]

theorem keepsTo_chatResponse {a : Accountant} (ha : al.Backs a) {payload : Json}
    (hcap : payload.get? "max_tokens" = body.maxTokens.map jsonInt) (requested concrete : String)
    {chain : Inspectors.DlpState} (hchain : chainOf cfg eng ord draws clientId body = some chain)
    {promptEst : UInt64} (hest : al.Holds promptEst 0) :
    KeepsTo g cfg eng ord draws clientId body al acc (Answers al)
      (chatResponse g a requested concrete payload chain promptEst) := by
  refine ⟨hcap, fun r hr => ?_⟩
  cases r with
  | ok completion =>
      simp only [Program.bind]
      cases htag : tagRouted requested concrete completion with
      | none => exact ⟨trivial, fun r => r.elim⟩
      | some tagged =>
          have huse := hr chain hchain
          rw [← completionUsage_tagRouted htag] at huse
          refine ⟨trivial, fun _ _ => ?_⟩
          refine (keepsTo_settleOrRecord ha huse).bind fun _ _ => ?_
          exact ⟨trivial, fun _ _ => ⟨trivial, fun _ _ => trivial⟩⟩
  | error err =>
      refine (keepsTo_settleFailed ha hest).bind fun _ _ => ?_
      exact ⟨trivial, fun _ _ => ⟨trivial, fun _ _ => trivial⟩⟩

theorem keepsTo_serve {a : Accountant} (ha : al.Backs a) (concrete : String) {payload : Json}
    (hcap : payload.get? "max_tokens" = body.maxTokens.map jsonInt)
    {chain : Inspectors.DlpState} (hchain : chainOf cfg eng ord draws clientId body = some chain)
    {promptEst : UInt64} (hest : al.Holds promptEst 0) :
    KeepsTo g cfg eng ord draws clientId body al acc (Answers al)
      (serve g a body concrete payload chain promptEst) := by
  unfold serve
  by_cases hs : body.stream = true
  · rw [if_pos hs]
    exact keepsTo_streamResponse ha hcap _
  · rw [if_neg hs]
    exact keepsTo_chatResponse ha hcap _ _ hchain hest

theorem keepsTo_admission {a : Accountant} (hg : g.metering = true) (ha : a.metering = true)
    (hclient : a.clientId = clientId) (hal : al.prompt = body.promptEst) (concrete : String)
    {payload : Json} (hcap : payload.get? "max_tokens" = body.maxTokens.map jsonInt)
    {chain : Inspectors.DlpState} (hchain : chainOf cfg eng ord draws clientId body = some chain) :
    KeepsTo g cfg eng ord draws clientId body al acc (Answers al)
      (admission g a body concrete payload chain) := by
  have hest : al.Holds body.promptEst 0 := by
    have h0 := al.completion_nonneg
    unfold Allowance.Holds
    rw [hal, UInt64.toNat_zero]
    omega
  unfold admission
  rw [if_pos hg]
  refine ⟨⟨hclient, by rw [hal]; rfl, rfl⟩, fun r hr => ?_⟩
  cases r with
  | ok rsv =>
      have hback : al.Backs { a with reservation := some rsv } := ⟨ha, rsv, rfl, hr⟩
      exact keepsTo_serve hback concrete hcap hchain hest
  | error err =>
      cases err with
      | quotaExceeded scope limit => exact keepsTo_refusal _ _ _ _
      | backendUnavailable msg => exact hr.elim

/-- **The handler keeps to its allowance**, in a gateway with a metering. -/
theorem keepsTo_chatCompletions (hg : g.metering = true) (hal : al.prompt = body.promptEst)
    (requestId : String) :
    KeepsTo g cfg eng ord draws clientId body al acc (Answers al)
      (chatCompletions g requestId clientId body) := by
  refine ⟨trivial, fun target _ => ?_⟩
  cases target with
  | error err =>
      cases err with
      | blocked message => exact keepsTo_refusal _ _ _ _
      | budgetExhausted message => exact keepsTo_refusal _ _ _ _
  | ok target =>
      obtain ⟨providerName, concrete⟩ := target
      simp only [Program.bind]
      cases validate g body with
      | some err => trivial
      | none =>
          dsimp only
          by_cases hp : providerName ∉ g.providers
          · rw [if_pos hp]
            exact ⟨trivial, fun _ _ => trivial⟩
          · rw [if_neg hp]
            refine ⟨trivial, fun out hout => ?_⟩
            simp only [Program.bind]
            cases hres : out.result with
            | error err => exact keepsTo_refusal _ _ _ _
            | ok chain =>
                have hcap : out.payload.get? "max_tokens" = body.maxTokens.map jsonInt :=
                  (Inspectors.processRequest_get? hout (by decide)).trans
                    (maxTokens_buildPayload concrete body)
                have hchain : chainOf cfg eng ord draws clientId body = some chain :=
                  chainOf_eq (messagesOf_buildPayload body concrete) hout hres
                refine keepsTo_admission hg ?_ ?_ hal concrete hcap hchain
                · exact hg
                · rfl

end Programs

end Chat

end FirewallLLM
