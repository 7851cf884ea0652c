import FirewallLLM.ChatCompletions

/-! # The gates in front of the provider

A request passes the router, the contract checks, the inspectors and the admission before its
provider is called.  `gate` runs the handler up to this call in an environment that answers the
router and the store as it likes, and the inspectors as the chain does.

`gates_hold`: streamed or not, a request gets the same verdict; a refusal is final; and a
fail-closed gateway calls the provider only for a request whose reserve succeeded. -/

namespace FirewallLLM

/-! ### What the inspectors see -/

namespace Inspectors

open Dlp (VaultOrder Patterns)

/-- The second stage depends on the messages of a payload only. -/
theorem dlpStage_congr {p p' : Json} (h : messagesOf p = messagesOf p') (mode : String)
    (patterns : Patterns) (ord : VaultOrder) (draws : List (UInt64 × UInt64)) :
    Option.Rel (fun x y => messagesOf x.1 = messagesOf y.1 ∧ x.2 = y.2)
      (dlpStage mode patterns ord p draws) (dlpStage mode patterns ord p' draws) := by
  unfold dlpStage
  split_ifs
  · cases hm : messagesOf p with
    | none =>
        rw [← h, hm]
        exact .some ⟨h, rfl⟩
    | some messages =>
        rw [← h, hm]
        dsimp only
        cases inspectMessages mode patterns ord messages ⟨[], [], draws⟩ with
        | none => exact .none
        | some r =>
            refine .some ⟨?_, rfl⟩
            exact (Json.asArr?_get?_set hm r.1).trans (Json.asArr?_get?_set (h ▸ hm) r.1).symm
  · exact .some ⟨h, rfl⟩

theorem processRequest_congr {p p' : Json} (h : messagesOf p = messagesOf p') (cfg : Config)
    (e : Engine) (ord : VaultOrder) (clientId : Option String) (draws : List (UInt64 × UInt64)) :
    Option.Rel (fun out out' => messagesOf out.payload = messagesOf out'.payload ∧
        out.published = out'.published ∧ out.result = out'.result)
      (processRequestWithClient cfg e ord p clientId draws)
      (processRequestWithClient cfg e ord p' clientId draws) := by
  have hverdict : injectionVerdict cfg e p = injectionVerdict cfg e p' := by
    unfold injectionVerdict
    rw [h]
  have hstage := dlpStage_congr h cfg.dlpMode e.patterns ord draws
  have hmap : ∀ published, Option.Rel
      (fun out out' : Outcome => messagesOf out.payload = messagesOf out'.payload ∧
        out.published = out'.published ∧ out.result = out'.result)
      ((dlpStage cfg.dlpMode e.patterns ord p draws).map (fun x => ⟨x.1, published, x.2⟩))
      ((dlpStage cfg.dlpMode e.patterns ord p' draws).map (fun x => ⟨x.1, published, x.2⟩)) := by
    intro published
    generalize dlpStage cfg.dlpMode e.patterns ord p draws = x at hstage ⊢
    generalize dlpStage cfg.dlpMode e.patterns ord p' draws = y at hstage ⊢
    cases hstage with
    | none => exact .none
    | some hrel => exact .some ⟨hrel.1, rfl, hrel.2⟩
  unfold processRequestWithClient
  rw [← hverdict]
  cases injectionVerdict cfg e p with
  | none => exact hmap []
  | some f =>
      obtain ⟨rule, severity⟩ := f
      dsimp only
      split_ifs
      · exact .some ⟨h, rfl, rfl⟩
      · exact hmap _

end Inspectors

namespace Chat

open Inspectors (messagesOf processRequestWithClient)

/-! ### Running the gates -/

/-- The gateway around a request: the inspectors with their random source, the router, what a
published detection does, and the metering over its store. -/
structure Environment (σ : Type) where
  inspectors : Inspectors.Config
  engine : Inspectors.Engine
  order : Dlp.VaultOrder
  draws : σ → List (UInt64 × UInt64)
  publish : List (String × String × String) → σ → σ
  resolve : String → String → σ → Except RoutingError (String × String) × σ
  metering : Quota.Metering Int64
  ping : σ → Except String Unit
  reserve : Quota.AdmitOp Int64 → σ → Except Quota.ReserveError Unit × σ
  now : σ → ℤ
  newId : σ → String

variable {σ : Type}

/-- `ensure_ready`. -/
def Environment.ensureReady (env : Environment σ) (s : σ) : Except String Unit :=
  if env.metering.backendFailClosed then env.ping s else .ok ()

/-- `admit`, after `ensure_ready`. -/
def Environment.admitReq (env : Environment σ) (clientId provider model : String)
    (promptEst : Int64) (cap : Option Int64) (s : σ) : Except MeteringError Reservation × σ :=
  match env.ensureReady s with
  | .error msg => (.error (.backendUnavailable msg), s)
  | .ok () => env.metering.admitReq env.reserve (env.now s) (env.newId s) clientId provider model
      promptEst cap s

/-- How far a request gets: it is answered, its provider is called, or it waits (for a random
number, or for what does not belong to the gates). -/
inductive Verdict (σ : Type) where
  | refused (reply : Reply) (s : σ)
  | passed (payload : Json) (s : σ)
  | waiting

/-- Run the handler up to the call of the provider. -/
def gate (env : Environment σ) : Prog Reply → σ → Verdict σ
  | .ret reply, s => .refused reply s
  | .op (.resolve model clientId) k, s =>
      gate env (k (env.resolve model clientId s).1) (env.resolve model clientId s).2
  | .op (.inspect payload clientId) k, s =>
      (processRequestWithClient env.inspectors env.engine env.order payload (some clientId)
        (env.draws s)).elim .waiting (fun out => gate env (k out) (env.publish out.published s))
  | .op (.admitReq clientId provider model promptEst cap) k, s =>
      gate env (k (env.admitReq clientId provider model promptEst cap s).1)
        (env.admitReq clientId provider model promptEst cap s).2
  | .op (.observe _) k, s => gate env (k ()) s
  | .op (.audit _) k, s => gate env (k ()) s
  | .op (.chat payload) _, s => .passed payload s
  | .op (.chatStream payload) _, s => .passed payload s
  | .op _ _, _ => .waiting

/-- The same answer, or both requests pass with the same messages. -/
def Verdict.Same : Verdict σ → Verdict σ → Prop
  | .refused reply s, .refused reply' s' => reply = reply' ∧ s = s'
  | .passed payload s, .passed payload' s' => messagesOf payload = messagesOf payload' ∧ s = s'
  | .waiting, .waiting => True
  | _, _ => False

section Same

variable (env : Environment σ) (g : Gateway) (body : ChatCompletionRequest)

theorem gate_resolve (model clientId : String)
    (f : Except RoutingError (String × String) → Prog Reply) (s : σ) :
    gate env (resolve model clientId >>= f) s =
      gate env (f (env.resolve model clientId s).1) (env.resolve model clientId s).2 := rfl

theorem gate_inspect (payload : Json) (clientId : String)
    (f : Inspectors.Outcome → Prog Reply) (s : σ) :
    gate env (inspect payload clientId >>= f) s =
      (processRequestWithClient env.inspectors env.engine env.order payload (some clientId)
        (env.draws s)).elim .waiting
        (fun out => gate env (f out) (env.publish out.published s)) := rfl

theorem gate_admitReq (clientId provider model : String) (promptEst : Int64)
    (cap : Option Int64) (f : Except MeteringError Reservation → Prog Reply) (s : σ) :
    gate env (admitReq clientId provider model promptEst cap >>= f) s =
      gate env (f (env.admitReq clientId provider model promptEst cap s).1)
        (env.admitReq clientId provider model promptEst cap s).2 := rfl

theorem gate_serve (a : Accountant) (concrete : String) (payload : Json)
    (chain : Inspectors.DlpState) (promptEst : UInt64) (s : σ) :
    gate env (serve g a body concrete payload chain promptEst) s = .passed payload s := by
  unfold serve
  split_ifs
  · rfl
  · rfl

theorem same_admission {a a' : Accountant} (hclient : a.clientId = a'.clientId)
    (hprovider : a.providerName = a'.providerName) (stream stream' : Bool) (concrete : String)
    {payload payload' : Json} (hmessages : messagesOf payload = messagesOf payload')
    (chain : Inspectors.DlpState) (s : σ) :
    (gate env (admission g a { body with stream := stream } concrete payload chain) s).Same
      (gate env (admission g a' { body with stream := stream' } concrete payload' chain) s) := by
  unfold admission
  dsimp only
  by_cases hm : g.metering = true
  · rw [if_pos hm, if_pos hm, ← hclient, ← hprovider, gate_admitReq, gate_admitReq]
    cases (env.admitReq a.clientId a.providerName body.model _ body.maxTokens s).1 with
    | ok rsv =>
        dsimp only
        rw [gate_serve, gate_serve]
        exact ⟨hmessages, rfl⟩
    | error err =>
        cases err with
        | quotaExceeded scope limit => exact ⟨rfl, rfl⟩
        | backendUnavailable msg =>
            dsimp only
            by_cases hclosed : g.backendFailClosed = true
            · rw [if_pos hclosed, if_pos hclosed]
              exact ⟨rfl, rfl⟩
            · rw [if_neg hclosed, if_neg hclosed, gate_serve, gate_serve]
              exact ⟨hmessages, rfl⟩
  · rw [if_neg hm, if_neg hm, gate_serve, gate_serve]
    exact ⟨hmessages, rfl⟩

theorem messagesOf_buildPayload (concrete : String) :
    messagesOf (buildPayload concrete body) =
      some (body.messages.map Inspectors.ChatMessage.toJson) := by
  unfold messagesOf buildPayload
  simp [Json.get?, Json.asArr?]

theorem same_chatCompletions (requestId clientId : String) (stream stream' : Bool) (s : σ) :
    (gate env (chatCompletions g requestId clientId { body with stream := stream }) s).Same
      (gate env (chatCompletions g requestId clientId { body with stream := stream' }) s) := by
  unfold chatCompletions
  dsimp only
  rw [gate_resolve, gate_resolve]
  cases (env.resolve body.model clientId s).1 with
  | error err =>
      cases err with
      | blocked message => exact ⟨rfl, rfl⟩
      | budgetExhausted message => exact ⟨rfl, rfl⟩
  | ok target =>
      obtain ⟨providerName, concrete⟩ := target
      dsimp only
      rw [validate_stream g body stream, validate_stream g body stream']
      cases validate g body with
      | some err =>
          dsimp only
          exact ⟨rfl, rfl⟩
      | none =>
          dsimp only
          by_cases hp : providerName ∉ g.providers
          · rw [if_pos hp, if_pos hp]
            exact ⟨rfl, rfl⟩
          · rw [if_neg hp, if_neg hp, gate_inspect, gate_inspect]
            have hrel := Inspectors.processRequest_congr
              ((messagesOf_buildPayload { body with stream := stream } concrete).trans
                (messagesOf_buildPayload { body with stream := stream' } concrete).symm)
              env.inspectors env.engine env.order (some clientId)
              (env.draws (env.resolve body.model clientId s).2)
            generalize processRequestWithClient env.inspectors env.engine env.order
              (buildPayload concrete { body with stream := stream }) (some clientId)
              (env.draws (env.resolve body.model clientId s).2) = x at hrel ⊢
            generalize processRequestWithClient env.inspectors env.engine env.order
              (buildPayload concrete { body with stream := stream' }) (some clientId)
              (env.draws (env.resolve body.model clientId s).2) = y at hrel ⊢
            cases hrel with
            | none => trivial
            | @some out out' hrel =>
                obtain ⟨hmessages, hpublished, hresult⟩ := hrel
                rw [Option.elim_some, Option.elim_some, hpublished, hresult]
                cases out'.result with
                | error err => exact ⟨rfl, rfl⟩
                | ok chain =>
                    dsimp only
                    refine same_admission env g body ?_ ?_ stream stream' concrete hmessages chain _
                    · rfl
                    · rfl

end Same

/-! ### Refusals are final -/

section Refusals

variable {α β : Type}

/-- The calls of a provider. -/
def Op.callsProvider : Op → Bool
  | .chat _ | .chatStream _ => true
  | _ => false

/-- The answers of the gates. -/
def Op.isGate : Op → Bool
  | .resolve .. | .inspect .. | .admitReq .. => true
  | _ => false

/-- An answer after which the request is refused; a request that fails the contract checks, or
whose provider is not configured, is refused after the routing. -/
def refuses (g : Gateway) (body : ChatCompletionRequest) : (e : Op) → Res e → Bool
  | .resolve _ _, r => match (r : Except RoutingError (String × String)) with
      | .error _ => true
      | .ok (providerName, _) => (validate g body).isSome || decide (providerName ∉ g.providers)
  | .inspect _ _, out => match Inspectors.Outcome.result out with
      | .error _ => true
      | .ok _ => false
  | .admitReq .., r => match (r : Except MeteringError Reservation) with
      | .error (.quotaExceeded _ _) => true
      | .error (.backendUnavailable _) => g.backendFailClosed
      | .ok _ => false
  | _, _ => false

/-- The reserve succeeded. -/
def admits : (e : Op) → Res e → Bool
  | .admitReq .., r => match (r : Except MeteringError Reservation) with
      | .ok _ => true
      | .error _ => false
  | _, _ => false

/-- No provider is called. -/
def NoProvider (p : Prog α) : Prop := p.Uses (fun e => e.callsProvider = false)

/-- No provider is called after a refusal. -/
def RefusalsFinal (g : Gateway) (body : ChatCompletionRequest) : Prog α → Prop
  | .ret _ => True
  | .op e k => ∀ r, (refuses g body e r = true → NoProvider (k r)) ∧ RefusalsFinal g body (k r)

/-- No provider is called before a reserve has succeeded. -/
def ReservedFirst : Prog α → Prop
  | .ret _ => True
  | .op e k => e.callsProvider = false ∧ ∀ r, admits e r = true ∨ ReservedFirst (k r)

variable {g : Gateway} {body : ChatCompletionRequest}

theorem refuses_of_not_gate {e : Op} (he : e.isGate = false) (r : Res e) :
    refuses g body e r = false := by
  cases e with
  | resolve | inspect | admitReq => cases he
  | _ => rfl

/-- Behind the gates nothing is refused. -/
theorem refusalsFinal_of_uses {p : Prog α} (h : p.Uses (fun e => e.isGate = false)) :
    RefusalsFinal g body p := by
  induction p with
  | ret a => trivial
  | op e k ih =>
      intro r
      rw [refuses_of_not_gate h.1 r]
      exact ⟨nofun, ih r (h.2 r)⟩

theorem NoProvider.reservedFirst {p : Prog α} (h : NoProvider p) : ReservedFirst p := by
  induction p with
  | ret a => trivial
  | op e k ih => exact ⟨h.1, fun r => .inr (ih r (h.2 r))⟩

theorem noProvider_refusal (m : Metric) (row : Row) (reply : Reply) :
    NoProvider (.op (.observe m) fun _ => .op (.audit row) fun _ => .ret reply) :=
  ⟨rfl, fun _ => ⟨rfl, fun _ => trivial⟩⟩

theorem refusalsFinal_refusal (m : Metric) (row : Row) (reply : Reply) :
    RefusalsFinal g body (.op (.observe m) fun _ => .op (.audit row) fun _ => .ret reply) :=
  refusalsFinal_of_uses ⟨rfl, fun _ => ⟨rfl, fun _ => trivial⟩⟩

/-! ### The handler -/

theorem noGate_settleFailed (a : Accountant) (promptEst : UInt64) :
    (settleFailed a promptEst).Uses (fun e => e.isGate = false) := by
  unfold settleFailed
  split_ifs
  · cases a.reservation with
    | some rsv => exact ⟨rfl, fun _ => trivial⟩
    | none => trivial
  · trivial

theorem noGate_settleOrRecord (a : Accountant) (prompt done : UInt64) :
    (a.settleOrRecord prompt done).Uses (fun e => e.isGate = false) := by
  unfold Accountant.settleOrRecord
  split_ifs
  · cases a.reservation with
    | some rsv => exact ⟨rfl, fun _ => trivial⟩
    | none => exact ⟨rfl, fun _ => trivial⟩
  · trivial

theorem noGate_serve (g : Gateway) (a : Accountant) (body : ChatCompletionRequest)
    (concrete : String) (payload : Json) (chain : Inspectors.DlpState) (promptEst : UInt64) :
    (serve g a body concrete payload chain promptEst).Uses (fun e => e.isGate = false) := by
  unfold serve
  split_ifs
  · refine ⟨rfl, fun res => ?_⟩
    cases res with
    | ok items => exact ⟨rfl, fun _ => trivial⟩
    | error err =>
        change (settleFailed _ _ >>= _).Uses _
        exact Program.Uses.bind (noGate_settleFailed _ _) fun _ =>
          ⟨rfl, fun _ => ⟨rfl, fun _ => trivial⟩⟩
  · refine ⟨rfl, fun res => ?_⟩
    cases res with
    | ok completion =>
        simp only [Program.bind]
        cases tagRouted body.model concrete completion with
        | none => exact ⟨rfl, fun r => r.elim⟩
        | some completion =>
            refine ⟨rfl, fun _ => ?_⟩
            change (a.settleOrRecord _ _ >>= _).Uses _
            exact Program.Uses.bind (noGate_settleOrRecord _ _ _) fun _ =>
              ⟨rfl, fun _ => ⟨rfl, fun _ => trivial⟩⟩
    | error err =>
        change (settleFailed _ _ >>= _).Uses _
        exact Program.Uses.bind (noGate_settleFailed _ _) fun _ =>
          ⟨rfl, fun _ => ⟨rfl, fun _ => trivial⟩⟩

theorem refusalsFinal_admission (a : Accountant) (concrete : String) (payload : Json)
    (chain : Inspectors.DlpState) :
    RefusalsFinal g body (admission g a body concrete payload chain) := by
  unfold admission
  dsimp only
  by_cases hm : g.metering = true
  · rw [if_pos hm]
    intro res
    cases res with
    | ok rsv => exact ⟨nofun, refusalsFinal_of_uses (noGate_serve _ _ _ _ _ _ _)⟩
    | error err =>
        cases err with
        | quotaExceeded scope limit =>
            exact ⟨fun _ => noProvider_refusal _ _ _, refusalsFinal_refusal _ _ _⟩
        | backendUnavailable msg =>
            simp only [Program.bind, refuses]
            by_cases hclosed : g.backendFailClosed = true
            · rw [if_pos hclosed]
              exact ⟨fun _ => noProvider_refusal _ _ _, refusalsFinal_refusal _ _ _⟩
            · rw [if_neg hclosed]
              exact ⟨fun h => absurd h hclosed, refusalsFinal_of_uses (noGate_serve _ _ _ _ _ _ _)⟩
  · rw [if_neg hm]
    exact refusalsFinal_of_uses (noGate_serve _ _ _ _ _ _ _)

theorem refusalsFinal_chatCompletions (g : Gateway) (requestId clientId : String)
    (body : ChatCompletionRequest) :
    RefusalsFinal g body (chatCompletions g requestId clientId body) := by
  intro res
  cases res with
  | error err =>
      cases err with
      | blocked message =>
          exact ⟨fun _ => noProvider_refusal _ _ _, refusalsFinal_refusal _ _ _⟩
      | budgetExhausted message =>
          exact ⟨fun _ => noProvider_refusal _ _ _, refusalsFinal_refusal _ _ _⟩
  | ok target =>
      obtain ⟨providerName, concrete⟩ := target
      simp only [Program.bind, refuses]
      cases validate g body with
      | some err => exact ⟨fun _ => trivial, trivial⟩
      | none =>
          by_cases hp : providerName ∉ g.providers
          · simp only [if_pos hp]
            exact ⟨fun _ => ⟨rfl, fun _ => trivial⟩,
              refusalsFinal_of_uses ⟨rfl, fun _ => trivial⟩⟩
          · simp only [if_neg hp]
            refine ⟨fun h => absurd (by simpa using h) hp, fun out => ?_⟩
            simp only [Program.bind, refuses]
            cases out.result with
            | error err =>
                exact ⟨fun _ => noProvider_refusal _ _ _, refusalsFinal_refusal _ _ _⟩
            | ok chain =>
                exact ⟨fun h => absurd h (by simp), refusalsFinal_admission _ _ _ _⟩

/-- In a fail-closed gateway the reserve comes first. -/
theorem reservedFirst_chatCompletions (hm : g.metering = true)
    (hclosed : g.backendFailClosed = true) (requestId clientId : String)
    (body : ChatCompletionRequest) :
    ReservedFirst (chatCompletions g requestId clientId body) := by
  refine ⟨rfl, fun res => .inr ?_⟩
  cases res with
  | error err =>
      cases err with
      | blocked message => exact (noProvider_refusal _ _ _).reservedFirst
      | budgetExhausted message =>
          exact (noProvider_refusal _ _ _).reservedFirst
  | ok target =>
      obtain ⟨providerName, concrete⟩ := target
      simp only [Program.bind]
      cases validate g body with
      | some err => trivial
      | none =>
          by_cases hp : providerName ∉ g.providers
          · simp only [if_pos hp]
            exact NoProvider.reservedFirst ⟨rfl, fun _ => trivial⟩
          · simp only [if_neg hp]
            refine ⟨rfl, fun out => .inr ?_⟩
            simp only [Program.bind]
            cases out.result with
            | error err =>
                exact (noProvider_refusal _ _ _).reservedFirst
            | ok chain =>
                simp only [admission, if_pos hm]
                refine ⟨rfl, fun res => ?_⟩
                cases res with
                | ok rsv => exact .inl rfl
                | error err =>
                    cases err with
                    | quotaExceeded scope limit =>
                        exact .inr ((noProvider_refusal _ _ _).reservedFirst)
                    | backendUnavailable msg =>
                        simp only [Program.bind, if_pos hclosed]
                        exact .inr ((noProvider_refusal _ _ _).reservedFirst)

/-- An admission succeeds only with the reserve of the store. -/
theorem reserve_of_admitReq {m : Quota.Metering Int64}
    {reserve : Quota.AdmitOp Int64 → σ → Except Quota.ReserveError Unit × σ} {now : ℤ}
    {id clientId provider model : String} {promptEst : Int64} {cap : Option Int64} {s s' : σ}
    {rsv : Reservation}
    (h : m.admitReq reserve now id clientId provider model promptEst cap s = (.ok rsv, s')) :
    reserve (m.admitOp rsv (Quota.dayString now)) s = (.ok (), s') := by
  unfold Quota.Metering.admitReq at h
  set new := m.newReservation id clientId provider model promptEst cap
  rcases hreserve : reserve (m.admitOp new (Quota.dayString now)) s with
    ⟨(denied | backend) | ⟨⟩, t⟩
  · simp [hreserve, Quota.Metering.admitResult] at h
  · simp [hreserve, Quota.Metering.admitResult] at h
  · simp only [hreserve, Quota.Metering.admitResult, Prod.mk.injEq, Except.ok.injEq] at h
    obtain ⟨rfl, rfl⟩ := h
    exact hreserve

theorem Environment.reserve_of_ok (env : Environment σ) {clientId provider model : String}
    {promptEst : Int64} {cap : Option Int64} {s s' : σ} {rsv : Reservation}
    (h : env.admitReq clientId provider model promptEst cap s = (.ok rsv, s')) :
    env.reserve (env.metering.admitOp rsv (Quota.dayString (env.now s))) s = (.ok (), s') := by
  unfold Environment.admitReq at h
  cases hready : env.ensureReady s with
  | error msg =>
      rw [hready] at h
      cases h
  | ok u =>
      rw [hready] at h
      exact reserve_of_admitReq h

/-- **The gates hold**: the flag does not change the verdict, no provider is called after a
refusal, and a fail-closed gateway calls it only when the reserve of the store has succeeded. -/
theorem gates_hold (env : Environment σ) (s : σ) (g : Gateway) (requestId clientId : String)
    (body : ChatCompletionRequest) :
    (gate env (chatCompletions g requestId clientId { body with stream := true }) s).Same
        (gate env (chatCompletions g requestId clientId { body with stream := false }) s) ∧
      RefusalsFinal g body (chatCompletions g requestId clientId body) ∧
      (g.metering = true → g.backendFailClosed = true →
        ReservedFirst (chatCompletions g requestId clientId body)) ∧
      ∀ provider model promptEst cap t t' rsv,
        env.admitReq clientId provider model promptEst cap t = (.ok rsv, t') →
        env.reserve (env.metering.admitOp rsv (Quota.dayString (env.now t))) t = (.ok (), t') :=
  ⟨same_chatCompletions env g body requestId clientId true false s,
    refusalsFinal_chatCompletions g requestId clientId body,
    fun hm hclosed => reservedFirst_chatCompletions hm hclosed requestId clientId body,
    fun _ _ _ _ _ _ _ h => env.reserve_of_ok h⟩

/-- An environment in which every request passes. -/
def openEnvironment : Environment Unit where
  inspectors := ⟨"off", "high", "off"⟩
  engine := Inspectors.sampleEngine
  order := Dlp.insertionOrder
  draws _ := []
  publish _ s := s
  resolve model _ s := (.ok ("p", model), s)
  metering := ⟨none, none, none, true, 1024⟩
  ping _ := .ok ()
  reserve _ s := (.ok (), s)
  now _ := 0
  newId _ := "r"

theorem gates_hold_open :
    ReservedFirst (chatCompletions sampleGateway "r" "c" (sampleRequest true)) ∧
      openEnvironment.reserve (openEnvironment.metering.admitOp ⟨"r", "c", "p", "m", 0, 1024⟩
        (Quota.dayString 0)) () = (.ok (), ()) := by
  have h := gates_hold openEnvironment () sampleGateway "r" "c" (sampleRequest true)
  exact ⟨h.2.2.1 rfl rfl, h.2.2.2 "p" "m" 0 none () () ⟨"r", "c", "p", "m", 0, 1024⟩ rfl⟩

end Refusals

end Chat

end FirewallLLM
