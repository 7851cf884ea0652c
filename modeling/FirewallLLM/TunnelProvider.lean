import FirewallLLM.ChatCompletions
import FirewallLLM.TunnelTransport
import Mathlib.Data.List.DropRight

/-! # A provider behind a tunnel

`chat` of the two providers of the gateway: `OpenAiCompatProvider` asks the upstream itself,
`TunnelProvider` puts the request into the tunnel of an agent.  How `serde_json` writes and reads
a body is a parameter.

`tunnel_chat`: through a tunnel the upstream gets the request that the direct provider would have
sent, but for two headers, and the answer is read as there, unless it is a redirect. -/

namespace FirewallLLM.Providers

open Dlp (Text)
open Runs (final)
open Chat (ProviderError)
open Tunnel (ProxyRequest ProxyResponse HttpCrate newRequest maskForTunnel asciiLower agentHeader)
open Tunnel.Agent (HttpRequest HttpResponse)

/-! ### The two providers -/

/-- `trim_end_matches('/')`. -/
def trimSlashes (s : Text) : Text := s.rdropWhile (· = '/')

/-- `OpenAiCompatProvider`, with the address as it is configured. -/
structure OpenAiCompatProvider where
  baseUrl : Text
  apiKey : Option Text
  extraHeaders : List (String × Text)

/-- `TunnelProvider`, without its registry. -/
structure TunnelProvider where
  agentId : String
  baseUrl : Text
  apiKey : Option Text

def contentType : String × Text := ("content-type", "application/json".toList)

def accept : String × Text := ("accept", "application/json".toList)

def chatUrl (baseUrl : Text) : Text := trimSlashes baseUrl ++ "/chat/completions".toList

/-- `bearer_auth`. -/
def bearerAuth (apiKey : Option Text) : List (String × Text) :=
  (apiKey.map (fun key => ("authorization", "Bearer ".toList ++ key))).toList

/-- An error of `send`: its status, if it has one, and its text. -/
structure SendError where
  status : Option UInt16
  text : Text

section Chat

variable (toStr : Json → Text) (fromStr : Text → Except Text Json)

/-- `build_request` without a stream. -/
def OpenAiCompatProvider.buildRequest (p : OpenAiCompatProvider) (payload : Json) :
    HttpRequest where
  method := "POST".toList
  url := chatUrl p.baseUrl
  headers := [contentType, accept] ++ bearerAuth p.apiKey ++ p.extraHeaders
  body := some (toStr payload)

/-- The body of a response as JSON. -/
def readBody (body : Text) : Except ProviderError Json :=
  (fromStr body).mapError (fun e =>
    .connection (String.ofList ("non-JSON body: ".toList ++ e)))

/-- The error for a response that is none. -/
def httpError (status : UInt16) (body : Text) : ProviderError :=
  .http status.toNat (String.ofList (body.take 200))

/-- `is_success`. -/
def isSuccess (status : UInt16) : Bool := 200 ≤ status && status < 300

/-- `OpenAiCompatProvider::chat` once the request is sent. -/
def OpenAiCompatProvider.chat : Except SendError HttpResponse → Except ProviderError Json
  | .error e => match e.status with
      | some status => .error (.http status.toNat "")
      | none => .error (.connection (String.ofList e.text))
  | .ok resp =>
      let body := resp.body.getD []
      if !isSuccess resp.status then .error (httpError resp.status body)
      else readBody fromStr body

/-- The request that `TunnelProvider::chat` forwards. -/
def TunnelProvider.request (p : TunnelProvider) (draw : UInt64) (payload : Json) : ProxyRequest :=
  newRequest draw "POST".toList (chatUrl p.baseUrl) (contentType :: bearerAuth p.apiKey)
    (some (toStr payload))

/-- `TunnelProvider::chat` once the forward has returned. -/
def TunnelProvider.chat : Except String ProxyResponse → Except ProviderError Json
  | .error msg => .error (.connection msg)
  | .ok resp =>
      if 400 ≤ resp.status then .error (httpError resp.status resp.body)
      else readBody fromStr resp.body

end Chat

/-- The direct provider with the same settings. -/
def TunnelProvider.direct (p : TunnelProvider) : OpenAiCompatProvider := ⟨p.baseUrl, p.apiKey, []⟩

/-! ### The request -/

theorem names_of_mem {apiKey : Option Text} {h : String × Text}
    (hh : h ∈ contentType :: bearerAuth apiKey) :
    Tunnel.isHop h.1 = false ∧ Tunnel.isUserAgent h.1 = false ∧ asciiLower h.1 = h.1 := by
  have hall : ∀ name ∈ ["content-type", "authorization"], Tunnel.isHop name = false ∧
      Tunnel.isUserAgent name = false ∧ asciiLower name = name := by decide
  refine hall h.1 ?_
  rcases List.mem_cons.mp hh with rfl | hh
  · exact List.mem_cons_self
  · obtain ⟨key, -, rfl⟩ := Option.map_eq_some_iff.mp (Option.mem_toList.mp hh)
    exact List.mem_cons_of_mem _ List.mem_cons_self

/-- No header of the provider is masked, and the agent is named. -/
theorem headers_request (toStr : Json → Text) (p : TunnelProvider) (draw : UInt64)
    (payload : Json) :
    (p.request toStr draw payload).headers =
      contentType :: bearerAuth p.apiKey ++ [agentHeader] := by
  change maskForTunnel (contentType :: bearerAuth p.apiKey) = _
  rw [Tunnel.maskForTunnel_eq, if_neg]
  · congr 1
    exact List.filter_eq_self.mpr fun h hh => by rw [(names_of_mem hh).1]; rfl
  · rw [Bool.not_eq_true, List.any_eq_false]
    exact fun h hh => by rw [(names_of_mem hh).2.1]; exact Bool.false_ne_true

/-- The upstream gets the same request, but for two headers. -/
structure SameRequest (p : TunnelProvider) (toStr : Json → Text) (payload : Json)
    (request : HttpRequest) : Prop where
  method : request.method = (p.direct.buildRequest toStr payload).method
  url : request.url = (p.direct.buildRequest toStr payload).url
  headers : (accept :: request.headers).Perm
    (("user-agent", agentHeader.2) :: (p.direct.buildRequest toStr payload).headers)
  body : request.body = (p.direct.buildRequest toStr payload).body

theorem sameRequest_of_carries {toStr : Json → Text} {p : TunnelProvider} {draw : UInt64}
    {payload : Json} (hbody : toStr payload ≠ []) {request : HttpRequest}
    (h : Tunnel.Agent.Carries (p.request toStr draw payload) request) :
    SameRequest p toStr payload request := by
  refine ⟨h.method, h.url, ?_, ?_⟩
  · have hnames : (contentType :: bearerAuth p.apiKey).map (fun h => (asciiLower h.1, h.2)) =
        contentType :: bearerAuth p.apiKey :=
      (List.map_congr_left fun h hh => by rw [(names_of_mem hh).2.2]; rfl).trans (List.map_id _)
    have hagent : asciiLower agentHeader.1 = "user-agent" := by decide
    have hheaders := h.headers
    rw [headers_request, List.map_append, hnames, List.map_singleton, hagent] at hheaders
    change List.Perm _ (("user-agent", agentHeader.2) ::
      contentType :: accept :: (bearerAuth p.apiKey ++ []))
    rw [List.append_nil]
    refine ((hheaders.trans List.perm_append_comm).cons accept).trans ?_
    exact (List.Perm.swap _ _ _).trans ((List.Perm.swap _ _ _).cons _)
  · exact h.body.trans (Option.filter_some_pos (by simpa using hbody))

/-! ### The answer -/

/-- How an answer of the upstream is read at the other end of a tunnel: as the direct provider
reads it, but that a redirect counts as a completion and that an upstream which cannot be reached
has answered with status 502. -/
def Through (fromStr : Text → Except Text Json) (result : Except ProviderError Json) :
    Except SendError HttpResponse → Prop
  | .ok resp =>
      if isSuccess resp.status || 400 ≤ resp.status then
        result = OpenAiCompatProvider.chat fromStr (.ok resp)
      else result = readBody fromStr (resp.body.getD []) ∧
        OpenAiCompatProvider.chat fromStr (.ok resp) =
          .error (httpError resp.status (resp.body.getD []))
  | .error e => result = .error (httpError 502 e.text)

theorem not_isSuccess {status : UInt16} (h : 400 ≤ status) : isSuccess status = false := by
  have hlt : ¬ status < 300 := by
    rw [UInt16.not_lt]
    exact UInt16.le_trans (by decide) h
  rw [isSuccess, Bool.and_eq_false_iff]
  exact .inr (by simpa using hlt)

theorem through_of_returns {fromStr : Text → Except Text Json}
    {answer : Except SendError HttpResponse} {response : ProxyResponse}
    (h : Tunnel.Agent.Returns (Tunnel.Agent.respond (answer.mapError SendError.text)) response) :
    Through fromStr (TunnelProvider.chat fromStr (.ok response)) answer := by
  cases answer with
  | error e =>
      have hstatus : response.status = 502 := h.status
      have hbody : response.body = e.text := h.body
      unfold Through TunnelProvider.chat
      dsimp only
      rw [hstatus, hbody]
      exact if_pos (by decide)
  | ok resp =>
      have hstatus : response.status = resp.status := h.status
      have hbody : response.body = resp.body.getD [] := h.body
      unfold Through TunnelProvider.chat OpenAiCompatProvider.chat
      dsimp only
      rw [hstatus, hbody]
      by_cases hfour : 400 ≤ resp.status
      · rw [if_pos hfour, if_pos (by simp [hfour]), not_isSuccess hfour]
        rfl
      · rw [if_neg hfour]
        cases hsuccess : isSuccess resp.status with
        | true => rfl
        | false =>
            rw [if_neg (by simp [hfour])]
            exact ⟨rfl, rfl⟩

/-- **A provider behind a tunnel.**  A chat that has returned a response went to the upstream once,
with the request of the direct provider but for two headers; its result is what the direct provider
makes of the answer, unless that is a redirect or there was none. -/
theorem tunnel_chat {Name Value Map : Type} {http : HttpCrate Name Value Map}
    {isMethod : Text → Bool} {toStr : Json → Text} {fromStr : Text → Except Text Json}
    {agentId : String} (hhttp : http.Lawful) (hpost : isMethod "POST".toList = true)
    (p : TunnelProvider) {payload : Json} (hbody : toStr payload ≠ [])
    (ms : List Tunnel.Transport.Move)
    (hok : Tunnel.Transport.Ok http toStr (fun t => (fromStr t).toOption)
      (final (Tunnel.Transport.step http isMethod toStr (fun t => (fromStr t).toOption) agentId)
        Tunnel.Transport.init ms)) :
    let w := final (Tunnel.Transport.step http isMethod toStr (fun t => (fromStr t).toOption)
      agentId) Tunnel.Transport.init ms
    ∀ (n : ℕ) c draw response, w.gateway.calls[n]? = some c →
      c.request = p.request toStr draw payload → w.gateway.result n = some (.ok response) →
      ∃ turn request, w.log[n]? = some turn ∧
        turn.outcome = .called (.str c.request.id) request turn.answer ∧
        (∀ (m : ℕ) turn' request' answer', w.log[m]? = some turn' →
          turn'.outcome = .called (.str c.request.id) request' answer' → m = n) ∧
        SameRequest p toStr payload request ∧
        ∀ answer, turn.answer = answer.mapError SendError.text →
          Through fromStr (TunnelProvider.chat fromStr (.ok response)) answer := by
  intro w n c draw response hc hrequest hresult
  have hs := Tunnel.Transport.good_final hhttp hok
  obtain ⟨turn, c', resp, hturn, hc', hreply, hreturns⟩ :=
    Tunnel.Transport.returns_of_result hhttp hok hs hresult
  obtain rfl := Option.some.inj (hc.symm.trans hc')
  obtain ⟨d, hd, -, hserves⟩ := Tunnel.Transport.serves_of_taken hhttp hok hs
    (Tunnel.Transport.taken_of_log hturn) turn.answer
  rw [← hs.linked.served turn (List.mem_of_getElem? hturn)] at hserves
  obtain rfl := Option.some.inj (hc.symm.trans hd)
  have hurl : c.request.url ≠ [] := by
    rw [hrequest]
    exact List.append_ne_nil_of_right_ne_nil _ (by decide)
  have hmethod : c.request.method = "POST".toList := by rw [hrequest]; rfl
  cases houtcome : turn.outcome with
  | skipped | panicked =>
      rw [houtcome] at hserves
      exact hserves.elim
  | refused id resp' =>
      rw [houtcome] at hserves
      rcases hserves.2 with ⟨hempty, -⟩ | ⟨-, hno, -⟩
      · exact absurd hempty hurl
      · rw [hmethod, hpost] at hno
        cases hno
  | called id request answer =>
      rw [houtcome] at hserves hreply
      obtain ⟨rfl, hcarries, rfl, -⟩ := hserves
      have hcarried : Tunnel.Agent.Carries (p.request toStr draw payload) request :=
        hrequest ▸ hcarries
      refine ⟨turn, request, hturn, houtcome, fun m turn' request' answer' hturn' houtcome' => ?_,
        sameRequest_of_carries hbody hcarried, ?_⟩
      · obtain ⟨c', hc', -, hserves'⟩ := Tunnel.Transport.serves_of_taken hhttp hok hs
          (Tunnel.Transport.taken_of_log hturn') turn'.answer
        rw [← hs.linked.served turn' (List.mem_of_getElem? hturn'), houtcome'] at hserves'
        exact hok.distinct.eq hc' hc (Json.str.inj hserves'.1).symm
      · intro answer hanswer
        obtain rfl := Tunnel.Agent.replyFrame_injective _ (Option.some.inj hreply)
        exact through_of_returns (hanswer ▸ hreturns)

/-- A provider, and how it reads the bodies of two calls. -/
def sampleProvider : TunnelProvider := ⟨"a1", "http://up/".toList, none⟩

def sampleRead (t : Text) : Except Text Json :=
  (Tunnel.Transport.readFrame t).elim (.error "expected value".toList) .ok

theorem toOption_sampleRead :
    (fun t => (sampleRead t).toOption) = Tunnel.Transport.readFrame := by
  funext t
  rw [sampleRead]
  cases Tunnel.Transport.readFrame t <;> rfl

set_option maxRecDepth 8000 in
/-- A chat with an empty payload, and its empty completion, while another one is on its way. -/
theorem tunnel_chat_twoCalls :
    ∃ (turn : Tunnel.Transport.Turn) (request : HttpRequest),
      SameRequest sampleProvider Tunnel.Transport.writeFrame (.obj []) request ∧
      ∀ answer, turn.answer = answer.mapError SendError.text →
        Through sampleRead (TunnelProvider.chat sampleRead
          (.ok ⟨200, [("x-up", ['8'])], "\x7b\x7d".toList⟩)) answer := by
  obtain ⟨turn, request, -, -, -, hsame, hthrough⟩ := @tunnel_chat _ _ _
    Tunnel.HttpCrate.Lawful.listHttp (fun _ => true) Tunnel.Transport.writeFrame sampleRead "a1"
    Tunnel.HttpCrate.Lawful.lawful_listHttp rfl sampleProvider (.obj []) (by decide)
    Tunnel.Transport.twoCalls (toOption_sampleRead ▸ Tunnel.Transport.ok_twoCalls) 1
    ⟨Tunnel.Transport.sentRequest 8, _, _⟩ 8 _ (by rw [toOption_sampleRead]; rfl) rfl
    (by rw [toOption_sampleRead]; exact Tunnel.Transport.result_second)
  exact ⟨turn, request, hsame, hthrough⟩

end FirewallLLM.Providers
