import FirewallLLM.AuditSearch
import FirewallLLM.Ingress

/-! # Who may do what

The endpoints of the gateway, with their authentication: the chat and what it changes, which are
parameters here, the audit log, the tokens of the agents and the tunnels that are opened with
them, the metrics.  Times are whole numbers of seconds.

`access_control`: a caller whom the gateway does not know gets an answer that depends on the
request alone and changes nothing; every tunnel was opened with a token that an administrator had
issued for its agent and that had not expired. -/

namespace FirewallLLM.Endpoints

open Dlp (Text)
open AuditSearch (AppState AuditLog bearerToken requireAdmin requireClient)
open Runs (final)

/-! ### The state -/

/-- `TokenEntry`. -/
structure TokenEntry where
  agentId : String
  token : String
  expiresAt : ℤ

/-- `CreateTokenRequest`. -/
structure CreateTokenRequest where
  agentId : String
  ttlHours : UInt64

/-- `TokenSummary`. -/
structure TokenSummary where
  agentId : String
  pfx : String
  expiresAt : ℤ

/-- What the gateway is configured with, and the parts of it that are not opened here: the chat
behind its authentication, the audit log, the metrics, and how a time is written. -/
structure Setting (σ : Type) where
  clients : List (String × String)
  adminClients : List (String × String)
  metricsTokens : List (String × String)
  chat : String → Json → σ → (ℕ × Json) × σ
  audit : σ → Option AuditLog
  renderMetrics : σ → String
  time : ℤ → Json

/-- The tokens of the agents, the tunnels, and the rest. -/
structure World (σ : Type) where
  tokens : AList (fun _ : String => TokenEntry)
  registry : Ingress.State
  rest : σ

/-! ### Requests -/

/-- What is asked for.  A body that cannot be read comes as the text of its rejection; the random
token and the time come with the request. -/
inductive Endpoint where
  | healthz
  | chatCompletions (body : Except String Json)
  | adminAudit (params : String → Option String)
  | createIngressToken (body : Except String CreateTokenRequest) (draw : String) (now : ℤ)
  | listIngressAgents
  | ingressWs (upgrade : Bool) (now : ℤ)
  | metrics

structure Request where
  authorization : Option Text
  endpoint : Endpoint

inductive Response where
  | json (status : ℕ) (body : Json)
  | text (status : ℕ) (body : String)
  | upgraded

def Response.error (err : ApiError) : Response := .json err.intoResponse.1 err.intoResponse.2

section Handlers

variable {σ : Type} (g : Setting σ)

def Setting.state (rest : σ) : AppState := ⟨g.clients, g.adminClients, g.audit rest⟩

/-- `validate_token`. -/
def World.validateToken (w : World σ) (token : String) (now : ℤ) : Option TokenEntry :=
  (w.tokens.lookup token).filter (fun entry => !decide (entry.expiresAt < now))

/-- `issue_token`. -/
def issueToken (req : CreateTokenRequest) (draw : String) (now : ℤ) : TokenEntry :=
  ⟨req.agentId, draw, now + req.ttlHours.toNat * 3600⟩

/-- `list_token_summaries`. -/
def World.tokenSummaries (w : World σ) : List TokenSummary :=
  w.tokens.entries.map (fun e => ⟨e.2.agentId, String.ofList (e.2.token.toList.take 6),
    e.2.expiresAt⟩)

/-- `list_agents`; only agents that have connected have a record. -/
def World.agents (w : World σ) : List Ingress.AgentConn :=
  (w.registry.conns.map Ingress.Conn.agentId).dedup.filterMap w.registry.agents

def TokenSummary.toJson (s : TokenSummary) : Json :=
  .obj [("agent_id", .str s.agentId.toList), ("prefix", .str s.pfx.toList),
    ("expires_at", g.time s.expiresAt)]

def agentJson (conn : Ingress.AgentConn) : Json :=
  .obj [("agent_id", .str conn.agentId.toList), ("connected_at", g.time conn.connectedAt),
    ("last_seen", g.time conn.lastSeen)]

/-- `chat_completions`: the body is looked at before the caller. -/
def chatCompletions (authorization : Option Text) (body : Except String Json) (w : World σ) :
    Response × World σ :=
  match body with
  | .error rejection =>
      (.error (.invalidRequest s!"invalid request body: {rejection}"), w)
  | .ok body => match requireClient (g.state w.rest) authorization with
      | .error err => (.error err, w)
      | .ok clientId =>
          let out := g.chat clientId body w.rest
          (.json out.1.1 out.1.2, { w with rest := out.2 })

/-- `create_ingress_token`. -/
def createIngressToken (authorization : Option Text) (body : Except String CreateTokenRequest)
    (draw : String) (now : ℤ) (w : World σ) : Response × World σ :=
  match requireAdmin (g.state w.rest) authorization with
  | .error err => (.error err, w)
  | .ok _ => match body with
      | .error e => (.error (.invalidRequest s!"invalid body: {e}"), w)
      | .ok req =>
          if Core.trim req.agentId.toList = [] then
            (.error (.invalidRequest "agent_id is required"), w)
          else
            let entry := issueToken req draw now
            (.json 200 (.obj [("token", .str entry.token.toList),
              ("agent_id", .str entry.agentId.toList), ("expires_at", g.time entry.expiresAt)]),
              { w with tokens := w.tokens.insert draw entry })

/-- `list_ingress_agents`. -/
def listIngressAgents (authorization : Option Text) (w : World σ) : Response :=
  match requireAdmin (g.state w.rest) authorization with
  | .error err => .error err
  | .ok _ => .json 200 (.obj [("tokens", .arr (w.tokenSummaries.map (TokenSummary.toJson g))),
      ("agents", .arr (w.agents.map (agentJson g)))])

/-- `ingress_ws_handler`. -/
def ingressWsHandler (authorization : Option Text) (upgrade : Bool) (now : ℤ) (w : World σ) :
    Response × World σ :=
  match w.validateToken (bearerToken authorization) now with
  | none => (.error (.auth "invalid ingress token" "invalid_api_key"), w)
  | some entry =>
      if !upgrade then (.text 426 "Upgrade Required", w)
      else (.upgraded, { w with registry := Ingress.step w.registry (.connect entry.agentId) })

/-- `metrics_handler`. -/
def metricsHandler (authorization : Option Text) (w : World σ) : Response :=
  let scrapes := (authorization.bind (fun auth => auth.dropPrefix? "Bearer ".toList)).any
    (fun token => (g.metricsTokens.lookup (String.ofList (Core.trim token))).isSome)
  if scrapes then .text 200 (g.renderMetrics w.rest)
  else match requireAdmin (g.state w.rest) authorization with
    | .error err => .error err
    | .ok _ => .text 200 (g.renderMetrics w.rest)

/-- A request at its endpoint. -/
def handle (w : World σ) (r : Request) : Response × World σ :=
  match r.endpoint with
  | .healthz => (.json 200 (.obj [("status", .str "ok".toList)]), w)
  | .chatCompletions body => chatCompletions g r.authorization body w
  | .adminAudit params =>
      let out := AuditSearch.adminAudit (g.state w.rest) r.authorization params
      (.json out.1 out.2, w)
  | .createIngressToken body draw now => createIngressToken g r.authorization body draw now w
  | .listIngressAgents => (listIngressAgents g r.authorization w, w)
  | .ingressWs upgrade now => ingressWsHandler r.authorization upgrade now w
  | .metrics => (metricsHandler g r.authorization w, w)

end Handlers

/-! ### Strangers -/

section Strangers

variable {σ : Type} {g : Setting σ} {w : World σ} {r : Request}

/-- The token of the request is none that the gateway accepts. -/
structure Unknown (g : Setting σ) (w : World σ) (r : Request) : Prop where
  client : g.clients.lookup (bearerToken r.authorization) = none
  admin : g.adminClients.lookup (bearerToken r.authorization) = none
  metrics : g.metricsTokens.lookup (bearerToken r.authorization) = none
  ingress : ∀ upgrade now, r.endpoint = .ingressWs upgrade now →
    w.validateToken (bearerToken r.authorization) now = none

/-- The error for a caller without a token, and for one with a wrong token. -/
def denied (authorization : Option Text) : ApiError :=
  if bearerToken authorization = "" then .auth "missing bearer token" "missing_api_key"
  else .auth "invalid API key" "invalid_api_key"

/-- What a stranger gets. -/
def refusal (r : Request) : Response :=
  match r.endpoint with
  | .healthz => .json 200 (.obj [("status", .str "ok".toList)])
  | .chatCompletions (.error rejection) =>
      .error (.invalidRequest s!"invalid request body: {rejection}")
  | .ingressWs _ _ => .error (.auth "invalid ingress token" "invalid_api_key")
  | _ => .error (denied r.authorization)

theorem Unknown.requireClient (h : Unknown g w r) :
    requireClient (g.state w.rest) r.authorization = .error (denied r.authorization) := by
  simp only [AuditSearch.requireClient, Setting.state, h.client, denied]
  split_ifs <;> rfl

theorem Unknown.requireAdmin (h : Unknown g w r) :
    requireAdmin (g.state w.rest) r.authorization = .error (denied r.authorization) := by
  simp only [AuditSearch.requireAdmin, Setting.state, h.client, h.admin, denied]
  split_ifs with h₁ h₂
  · rfl
  · cases h₂
  · rfl

theorem Unknown.not_scrapes (h : Unknown g w r) :
    (r.authorization.bind (fun auth => auth.dropPrefix? "Bearer ".toList)).any
      (fun token => (g.metricsTokens.lookup (String.ofList (Core.trim token))).isSome) =
        false := by
  have hmetrics := h.metrics
  unfold bearerToken at hmetrics
  cases hauth : r.authorization with
  | none => rfl
  | some auth =>
      rw [hauth, Option.getD_some] at hmetrics
      rw [Option.bind_some]
      cases hdrop : auth.dropPrefix? "Bearer ".toList with
      | none => rfl
      | some token =>
          rw [hdrop, Option.elim_some] at hmetrics
          rw [Option.any_some, hmetrics]
          rfl

/-- **A stranger learns nothing and changes nothing.** -/
theorem handle_unknown (h : Unknown g w r) : handle g w r = (refusal r, w) := by
  have hclient := h.requireClient
  have hadmin := h.requireAdmin
  have hmetrics := h.not_scrapes
  have hingress := h.ingress
  obtain ⟨authorization, endpoint⟩ := r
  cases endpoint with
  | healthz => rfl
  | chatCompletions body =>
      cases body with
      | error rejection => rfl
      | ok body => simp only [handle, chatCompletions, hclient, refusal]
  | adminAudit params =>
      simp only [handle, AuditSearch.adminAudit, AuditSearch.caller, hadmin, hclient, refusal]
      rfl
  | createIngressToken body draw now =>
      simp only [handle, createIngressToken, hadmin, refusal]
  | listIngressAgents => simp only [handle, listIngressAgents, hadmin, refusal]
  | ingressWs upgrade now =>
      simp only [handle, ingressWsHandler, hingress upgrade now rfl, refusal]
  | metrics =>
      simp only [handle, metricsHandler, hmetrics, Bool.false_eq_true, if_false, hadmin, refusal]

end Strangers

/-! ### The registry -/

section Registry

open Ingress (State Conn Event)

variable {s s' : State} {c : ℕ} {k : Conn}

/-- The connections keep their agents, and a tunnel is one of its agent. -/
structure Keeps (s s' : State) : Prop where
  agents : s'.conns.map Conn.agentId = s.conns.map Conn.agentId
  tunnels : ∀ agentId c, s'.tunnels agentId = some c →
    s.tunnels agentId = some c ∨ ∃ k, s.conns[c]? = some k ∧ k.agentId = agentId

theorem Keeps.refl (s : State) : Keeps s s := ⟨rfl, fun _ _ h => .inl h⟩

theorem agents_set {conns : List Conn} (hk : conns[c]? = some k) {k' : Conn}
    (hagent : k'.agentId = k.agentId) :
    (conns.set c k').map Conn.agentId = conns.map Conn.agentId := by
  refine List.ext_getElem? fun i => ?_
  rw [List.getElem?_map, List.getElem?_map, List.getElem?_set]
  split_ifs with hi hlt
  · subst hi
    rw [hk, Option.map_some, Option.map_some, hagent]
  · subst hi
    rw [List.getElem?_eq_none (Nat.not_lt.mp hlt)] at hk
    cases hk
  · rfl

theorem Keeps.setConn (hk : s.conns[c]? = some k) {k' : Conn} (hagent : k'.agentId = k.agentId) :
    Keeps s (s.setConn c k') := ⟨agents_set hk hagent, fun _ _ h => .inl h⟩

theorem Keeps.connStep (hk : s.conns[c]? = some k) (e : Event) :
    Keeps s (Ingress.connStep s c k e) := by
  unfold Ingress.connStep
  split
  · refine ⟨agents_set hk rfl, fun agentId c' h => ?_⟩
    by_cases ha : agentId = k.agentId
    · subst ha
      dsimp only at h
      rw [Function.update_self] at h
      obtain rfl := Option.some.inj h
      exact .inr ⟨k, hk, rfl⟩
    · dsimp only at h
      rw [Function.update_of_ne ha] at h
      exact .inl h
  · exact ⟨agents_set hk rfl, fun _ _ h => .inl h⟩
  · unfold Ingress.loopStep
    split
    · split_ifs
      · exact .setConn hk rfl
      · exact .refl s
    · exact .setConn hk rfl
    · unfold Ingress.touchAgent
      split
      · exact ⟨rfl, fun _ _ h => .inl h⟩
      · exact .refl s
    · exact .setConn hk rfl
    · split
      · exact .refl s
      · exact .setConn hk rfl
    · split_ifs
      · exact .setConn hk rfl
      · exact .refl s
    · exact .refl s
  · exact ⟨agents_set hk rfl, fun _ _ h => .inl h⟩
  · refine ⟨agents_set hk rfl, fun agentId c' h => ?_⟩
    by_cases ha : agentId = k.agentId
    · subst ha
      dsimp only at h
      rw [Function.update_self] at h
      cases h
    · dsimp only at h
      rw [Function.update_of_ne ha] at h
      exact .inl h
  · exact .refl s

theorem Keeps.step {e : Event} (he : ∀ agentId, e ≠ .connect agentId) :
    Keeps s (Ingress.step s e) := by
  unfold Ingress.step
  split
  · exact absurd rfl (he _)
  · split
    · next s' hf =>
        unfold Ingress.forward at hf
        split at hf
        · cases hf
        · split at hf
          · cases hf
          · next k hk =>
              split_ifs at hf
              obtain rfl := Except.ok.inj hf
              exact .setConn hk rfl
    · exact .refl s
  · split
    · next k hk => exact .setConn hk rfl
    · exact .refl s
  · split
    · split
      · next k hk => exact .connStep hk _
      · exact .refl s
    · exact .refl s

end Registry

/-! ### Runs -/

/-- A request, a step of the loops of the tunnels, and a change of the rest. -/
inductive Move (σ : Type) where
  | request (r : Request)
  | registry (e : Ingress.Event)
  | other (rest : σ)

section Runs

variable {σ : Type} (g : Setting σ)

/-- One step; connections are made by requests only. -/
def step (w : World σ) : Move σ → World σ
  | .request r => (handle g w r).2
  | .registry e =>
      if e matches .connect _ then w else { w with registry := Ingress.step w.registry e }
  | .other rest => { w with rest }

def init (rest : σ) : World σ := ⟨∅, Ingress.init, rest⟩

/-- An administrator has a token issued for an agent. -/
def Issues (m : Move σ) (token agentId : String) (expiresAt : ℤ) : Prop :=
  ∃ authorization ttlHours now admin,
    m = .request ⟨authorization, .createIngressToken (.ok ⟨agentId, ttlHours⟩) token now⟩ ∧
      requireAdmin ⟨g.clients, g.adminClients, none⟩ authorization = .ok admin ∧
      Core.trim agentId.toList ≠ [] ∧ expiresAt = now + ttlHours.toNat * 3600

/-- The last token of this text was issued for the agent. -/
def Granted (ms : List (Move σ)) (token agentId : String) (expiresAt : ℤ) : Prop :=
  ∃ pre m post, ms = pre ++ m :: post ∧ Issues g m token agentId expiresAt ∧
    ∀ m' ∈ post, ∀ agentId' expiresAt', ¬ Issues g m' token agentId' expiresAt'

/-- A tunnel of the agent was asked for, with a token that was granted and had not expired. -/
def Opened (ms : List (Move σ)) (agentId : String) : Prop :=
  ∃ pre authorization now post expiresAt,
    ms = pre ++ .request ⟨authorization, .ingressWs true now⟩ :: post ∧
      Granted g pre (bearerToken authorization) agentId expiresAt ∧ now ≤ expiresAt

/-- The tokens were granted, the tunnels were opened, and a tunnel is one of its agent. -/
structure Lawful (ms : List (Move σ)) (w : World σ) : Prop where
  tokens : ∀ token entry, w.tokens.lookup token = some entry →
    Granted g ms token entry.agentId entry.expiresAt
  conns : ∀ agentId ∈ w.registry.conns.map Ingress.Conn.agentId, Opened g ms agentId
  tunnels : ∀ agentId c, w.registry.tunnels agentId = some c →
    ∃ k, w.registry.conns[c]? = some k ∧ k.agentId = agentId

variable {g} {ms : List (Move σ)} {m : Move σ} {w : World σ}

theorem Granted.snoc {token agentId : String} {expiresAt : ℤ}
    (h : Granted g ms token agentId expiresAt)
    (hm : ∀ agentId' expiresAt', ¬ Issues g m token agentId' expiresAt') :
    Granted g (ms ++ [m]) token agentId expiresAt := by
  obtain ⟨pre, m₀, post, rfl, hissues, hpost⟩ := h
  refine ⟨pre, m₀, post ++ [m], by rw [List.append_assoc, List.cons_append], hissues, ?_⟩
  intro m' hm'
  rcases List.mem_append.mp hm' with hm' | hm'
  · exact hpost m' hm'
  · obtain rfl := List.mem_singleton.mp hm'
    exact hm

theorem Opened.append {agentId : String} (h : Opened g ms agentId) (ms' : List (Move σ)) :
    Opened g (ms ++ ms') agentId := by
  obtain ⟨pre, authorization, now, post, expiresAt, rfl, hrest⟩ := h
  exact ⟨pre, authorization, now, post ++ ms', expiresAt,
    by rw [List.append_assoc, List.cons_append], hrest⟩

/-- A step issues a token, or it leaves the tokens alone. -/
theorem tokens_step (g : Setting σ) (w : World σ) (m : Move σ) :
    (∃ token agentId expiresAt, Issues g m token agentId expiresAt ∧
      (step g w m).tokens = w.tokens.insert token ⟨agentId, token, expiresAt⟩) ∨
    (step g w m).tokens = w.tokens ∧ ∀ token agentId expiresAt,
      ¬ Issues g m token agentId expiresAt := by
  cases m with
  | other rest =>
      refine .inr ⟨rfl, ?_⟩
      rintro token agentId expiresAt ⟨_, _, _, _, h, -⟩
      cases h
  | registry e =>
      refine .inr ⟨by simp only [step]; split_ifs <;> rfl, ?_⟩
      rintro token agentId expiresAt ⟨_, _, _, _, h, -⟩
      cases h
  | request r =>
      obtain ⟨authorization, endpoint⟩ := r
      cases endpoint with
      | createIngressToken body draw now =>
          have hstate : requireAdmin (g.state w.rest) authorization =
              requireAdmin ⟨g.clients, g.adminClients, none⟩ authorization := rfl
          simp only [step, handle, createIngressToken, hstate]
          cases hadmin : requireAdmin ⟨g.clients, g.adminClients, none⟩ authorization with
          | error err =>
              refine .inr ⟨rfl, ?_⟩
              rintro token agentId expiresAt ⟨_, _, _, admin, h, hok, -⟩
              cases h
              rw [hadmin] at hok
              cases hok
          | ok admin =>
              cases body with
              | error e =>
                  refine .inr ⟨rfl, ?_⟩
                  rintro token agentId expiresAt ⟨_, _, _, _, h, -⟩
                  cases h
              | ok req =>
                  by_cases hblank : Core.trim req.agentId.toList = []
                  · refine .inr ⟨by simp only [if_pos hblank], ?_⟩
                    rintro token agentId expiresAt ⟨_, _, _, _, h, -, hne, -⟩
                    cases h
                    exact hne hblank
                  · exact .inl ⟨draw, req.agentId, _,
                      ⟨authorization, req.ttlHours, now, admin, rfl, hadmin, hblank, rfl⟩,
                      by simp only [if_neg hblank]; rfl⟩
      | healthz | adminAudit | listIngressAgents | metrics =>
          refine .inr ⟨rfl, ?_⟩
          rintro token agentId expiresAt ⟨_, _, _, _, h, -⟩
          cases h
      | chatCompletions body =>
          refine .inr ⟨?_, ?_⟩
          · simp only [step, handle, chatCompletions]
            split
            · rfl
            · split <;> rfl
          · rintro token agentId expiresAt ⟨_, _, _, _, h, -⟩
            cases h
      | ingressWs upgrade now =>
          refine .inr ⟨?_, ?_⟩
          · simp only [step, handle, ingressWsHandler]
            split
            · rfl
            · split_ifs <;> rfl
          · rintro token agentId expiresAt ⟨_, _, _, _, h, -⟩
            cases h

theorem issues_token {token token' agentId agentId' : String} {expiresAt expiresAt' : ℤ}
    (h : Issues g m token agentId expiresAt) (h' : Issues g m token' agentId' expiresAt') :
    token = token' := by
  obtain ⟨_, _, _, _, rfl, -⟩ := h
  obtain ⟨_, _, _, _, heq, -⟩ := h'
  cases heq
  rfl

theorem Lawful.tokens_step (h : Lawful g ms w) (m : Move σ) (token : String) (entry : TokenEntry)
    (hentry : (step g w m).tokens.lookup token = some entry) :
    Granted g (ms ++ [m]) token entry.agentId entry.expiresAt := by
  rcases Endpoints.tokens_step g w m with ⟨token', agentId, expiresAt, hissues, heq⟩ | ⟨heq, hnone⟩
  · rw [heq] at hentry
    by_cases htoken : token = token'
    · subst htoken
      rw [AList.lookup_insert] at hentry
      obtain rfl := Option.some.inj hentry
      exact ⟨ms, m, [], rfl, hissues, fun _ h => (List.not_mem_nil h).elim⟩
    · rw [AList.lookup_insert_ne htoken] at hentry
      exact (h.tokens token entry hentry).snoc
        fun _ _ h' => htoken (issues_token h' hissues)
  · rw [heq] at hentry
    exact (h.tokens token entry hentry).snoc (hnone token)

/-- A step opens a tunnel, or the registry takes a step of its own, or none. -/
theorem registry_step (g : Setting σ) (w : World σ) (m : Move σ) :
    Keeps w.registry (step g w m).registry ∨ ∃ authorization now entry,
      m = .request ⟨authorization, .ingressWs true now⟩ ∧
        w.tokens.lookup (bearerToken authorization) = some entry ∧ now ≤ entry.expiresAt ∧
        (step g w m).registry = Ingress.step w.registry (.connect entry.agentId) := by
  cases m with
  | other rest => exact .inl (.refl _)
  | registry e =>
      left
      simp only [step]
      split_ifs with he
      · exact .refl _
      · refine .step fun agentId heq => he ?_
        rw [heq]
  | request r =>
      obtain ⟨authorization, endpoint⟩ := r
      cases endpoint with
      | createIngressToken body draw now =>
          left
          simp only [step, handle, createIngressToken]
          split
          · exact .refl _
          · split
            · exact .refl _
            · split_ifs <;> exact .refl _
      | healthz | adminAudit | listIngressAgents | metrics => exact .inl (.refl _)
      | chatCompletions body =>
          left
          simp only [step, handle, chatCompletions]
          split
          · exact .refl _
          · split <;> exact .refl _
      | ingressWs upgrade now =>
          simp only [step, handle, ingressWsHandler]
          split
          · exact .inl (.refl _)
          · next entry hentry =>
              cases upgrade with
              | false => exact .inl (.refl _)
              | true =>
                  obtain ⟨hlookup, hlive⟩ := Option.filter_eq_some_iff.mp hentry
                  exact .inr ⟨authorization, now, entry, rfl, hlookup, by simpa using hlive, rfl⟩

theorem Lawful.step (h : Lawful g ms w) (m : Move σ) :
    Lawful g (ms ++ [m]) (Endpoints.step g w m) := by
  rcases registry_step g w m with hkeeps | ⟨authorization, now, entry, rfl, hlookup, hlive, heq⟩
  · refine ⟨h.tokens_step m, ?_, ?_⟩
    · rw [hkeeps.agents]
      exact fun agentId hagent => (h.conns agentId hagent).append [m]
    · intro agentId c hc
      obtain ⟨k, hk, hagent⟩ : ∃ k, w.registry.conns[c]? = some k ∧ k.agentId = agentId := by
        rcases hkeeps.tunnels agentId c hc with hold | hnew
        · exact h.tunnels agentId c hold
        · exact hnew
      have hmap : ((Endpoints.step g w m).registry.conns.map Ingress.Conn.agentId)[c]? =
          some agentId := by
        rw [hkeeps.agents, List.getElem?_map, hk, Option.map_some, hagent]
      rw [List.getElem?_map] at hmap
      obtain ⟨k', hk', heq⟩ := Option.map_eq_some_iff.mp hmap
      exact ⟨k', hk', heq⟩
  · refine ⟨h.tokens_step _, ?_, ?_⟩
    · intro agentId hagent
      rw [heq] at hagent
      simp only [Ingress.step, List.map_append, List.mem_append, List.map_cons, List.map_nil,
        List.mem_singleton] at hagent
      rcases hagent with hagent | rfl
      · exact (h.conns agentId hagent).append _
      · exact ⟨ms, authorization, now, [], entry.expiresAt, rfl,
          h.tokens _ entry hlookup, hlive⟩
    · intro agentId c hc
      rw [heq] at hc ⊢
      obtain ⟨k, hk, hagent⟩ := h.tunnels agentId c hc
      refine ⟨k, ?_, hagent⟩
      simp only [Ingress.step]
      rw [List.getElem?_append_left (List.getElem?_eq_some_iff.mp hk).1, hk]

theorem lawful_final (g : Setting σ) (rest : σ) (ms : List (Move σ)) :
    Lawful g ms (final (Endpoints.step g) (init rest) ms) := by
  induction ms using List.reverseRecOn with
  | nil =>
      exact ⟨fun _ _ h => (by cases h), fun _ h => (List.not_mem_nil h).elim,
        fun _ _ h => (by cases h)⟩
  | append_singleton ms m ih =>
      rw [Runs.final_append]
      exact ih.step m

/-- **Who may do what.**  A stranger gets an answer that depends on the request alone, and changes
nothing.  In every run each connection was asked for with a token that an administrator had issued
for its agent, as the last one of this text, and that had not expired; and what is forwarded to an
agent goes to a connection of this agent. -/
theorem access_control (g : Setting σ) (rest : σ) (ms : List (Move σ)) :
    let w := final (Endpoints.step g) (init rest) ms
    (∀ r, Unknown g w r → handle g w r = (refusal r, w)) ∧
    (∀ agentId ∈ w.registry.conns.map Ingress.Conn.agentId, Opened g ms agentId) ∧
    ∀ agentId c, w.registry.tunnels agentId = some c →
      ∃ k, w.registry.conns[c]? = some k ∧ k.agentId = agentId := by
  intro w
  have h := lawful_final g rest ms
  exact ⟨fun r hr => handle_unknown hr, h.conns, h.tunnels⟩

end Runs

/-- A gateway with one client and one administrator, and an agent that connects to it. -/
def sampleSetting : Setting Unit where
  clients := [("c1", "alice")]
  adminClients := [("a1", "root")]
  metricsTokens := []
  chat _ _ s := ((200, .null), s)
  audit _ := none
  renderMetrics _ := ""
  time n := .num (.posInt n.toNat.toUInt64)

def sampleMoves : List (Move Unit) :=
  [.request ⟨some "Bearer a1".toList, .createIngressToken (.ok ⟨"edge", 1⟩) "tok" 100⟩,
    .request ⟨some "Bearer tok".toList, .ingressWs true 200⟩, .registry (.insertTunnel 0)]

/-- The agent was let in, and somebody else was not. -/
theorem access_control_sample :
    Opened sampleSetting sampleMoves "edge" ∧
      ∃ w : World Unit, w.registry.tunnels "edge" = some 0 ∧
        handle sampleSetting w ⟨some "Bearer x".toList, .ingressWs true 200⟩ =
          (.error (.auth "invalid ingress token" "invalid_api_key"), w) := by
  have h := access_control sampleSetting () sampleMoves
  refine ⟨h.2.1 "edge" (by decide), _, by decide, h.1 _ ⟨rfl, rfl, rfl, ?_⟩⟩
  intro upgrade now heq
  cases heq
  rfl

end FirewallLLM.Endpoints
