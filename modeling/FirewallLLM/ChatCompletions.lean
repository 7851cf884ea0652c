import FirewallLLM.Program
import FirewallLLM.InspectorChain
import FirewallLLM.StreamResponse
import FirewallLLM.Metering

/-! # Chat completions

`chat_completions`, `stream_response` and `StreamAccountant` of `lib.rs` as programs: the
handler of one authenticated request, the body of a streamed response and the tasks that
dropped accountants spawn.  A program asks for the awaits of its future and for its effects on
what is shared, one by one; everything between two of them is computed on the spot.

The router, the admission and the providers answer what they like.  Durations are left out of
the metrics, and an audit row is what `audit_once` is called with. -/

namespace FirewallLLM.Chat

open Dlp (Text Item Event StreamState StreamRestore tailChunk)
open Inspectors (ChatMessage textField messagesOf)

abbrev Reservation := Quota.Reservation Int64
abbrev MeteringError := Quota.MeteringError Int64

/-! ### Requests -/

/-- `ChatCompletionRequest`. -/
structure ChatCompletionRequest where
  model : String
  messages : List ChatMessage
  stream : Bool
  temperature : Option Number
  topP : Option Number
  maxTokens : Option Int64
  stop : Option Json
  streamOptions : Option Json

/-- `RoutingError`, with its message. -/
inductive RoutingError where
  | blocked (message : String)
  | budgetExhausted (message : String)

/-- `ProviderError`. -/
inductive ProviderError where
  | http (status : ℕ) (body : String)
  | connection (msg : String)

/-- `to_string`. -/
def ProviderError.toString : ProviderError → String
  | http status body => s!"provider returned {status}: {body}"
  | connection msg => s!"provider connection failed: {msg}"

/-- What the handler reads of `AppState`: the names of the providers, whether there is a
metering and whether it is fail-closed, and the DLP settings.  The serializer and the
comparison of a number with a range are parameters. -/
structure Gateway where
  providers : List String
  metering : Bool
  backendFailClosed : Bool
  dlpMode : String
  restorePolicy : String
  toString : Json → Text
  inRange : Number → ℕ → Bool

/-- `metrics::observe_request`. -/
structure Metric where
  clientId : String
  provider : String
  model : String
  status : String
  prompt : UInt64
  completion : UInt64

/-- What `audit_once` writes. -/
structure Row where
  requestId : String
  clientId : String
  provider : String
  model : String
  messagesJson : Text
  code : String
  prompt : Int64
  completion : Int64
  responseText : Text
  usageSource : String

/-- `StreamAccountant`, and what its `RequestLifecycle` knows; the cells that the accountants
of a request share are with the machine. -/
structure Accountant where
  requestId : String
  clientId : String
  providerName : String
  model : String
  messagesJson : Text
  requestText : Text
  metering : Bool
  reservation : Option Reservation

/-- What the handler answers with: a status and a JSON body, or an SSE body over the items of
the provider. -/
inductive Reply where
  | json (status : ℕ) (body : Json)
  | sse (a : Accountant) (items : List Item)

def Reply.error (err : ApiError) : Reply := .json err.intoResponse.1 err.intoResponse.2

/-! ### Operations -/

/-- What the programs ask for. -/
inductive Op where
  -- awaits of the handler
  | resolve (model clientId : String)
  | admitReq (clientId provider model : String) (promptEst : Int64) (cap : Option Int64)
  | chat (payload : Json)
  | chatStream (payload : Json)
  -- awaits of more than one program
  | settle (rsv : Reservation) (prompt completion : Int64)
  | record (clientId provider model : String) (prompt completion : Int64)
  | recordTokensToday (provider : String) (tokens : Int64)
  -- where the body waits for the provider and for the client
  | nextItem
  | send (event : Event)
  -- effects
  | inspect (payload : Json) (clientId : String)
  | observe (m : Metric)
  | audit (row : Row)
  | finish (row : Row)
  | openStream (session : StreamRestore)
  | mapItem (item : Item)
  | flush
  | cells
  | swapRecorded
  | dropGuard
  -- an index into a value that is no object
  | panic

/-- What the operations answer. -/
def Res : Op → Type
  | .resolve _ _ => Except RoutingError (String × String)
  | .admitReq .. => Except MeteringError Reservation
  | .chat _ => Except ProviderError Json
  | .chatStream _ => Except ProviderError (List Item)
  | .inspect _ _ => Inspectors.Outcome
  | .mapItem _ => Event
  | .flush => Text
  | .cells => StreamState
  | .swapRecorded => Bool
  | .panic => Empty
  | _ => Unit

abbrev Prog := Program Op Res

abbrev resolve (model clientId : String) : Prog (Except RoutingError (String × String)) :=
  .op (.resolve model clientId) .ret

abbrev admitReq (clientId provider model : String) (promptEst : Int64) (cap : Option Int64) :
    Prog (Except MeteringError Reservation) :=
  .op (.admitReq clientId provider model promptEst cap) .ret

abbrev chat (payload : Json) : Prog (Except ProviderError Json) := .op (.chat payload) .ret

abbrev chatStream (payload : Json) : Prog (Except ProviderError (List Item)) :=
  .op (.chatStream payload) .ret

abbrev settle (rsv : Reservation) (prompt completion : Int64) : Prog Unit :=
  .op (.settle rsv prompt completion) .ret

abbrev record (clientId provider model : String) (prompt completion : Int64) : Prog Unit :=
  .op (.record clientId provider model prompt completion) .ret

abbrev recordTokensToday (provider : String) (tokens : Int64) : Prog Unit :=
  .op (.recordTokensToday provider tokens) .ret

abbrev nextItem : Prog Unit := .op .nextItem .ret

abbrev send (event : Event) : Prog Unit := .op (.send event) .ret

abbrev inspect (payload : Json) (clientId : String) : Prog Inspectors.Outcome :=
  .op (.inspect payload clientId) .ret

abbrev observe (m : Metric) : Prog Unit := .op (.observe m) .ret

abbrev audit (row : Row) : Prog Unit := .op (.audit row) .ret

abbrev finish (row : Row) : Prog Unit := .op (.finish row) .ret

abbrev openStream (session : StreamRestore) : Prog Unit := .op (.openStream session) .ret

abbrev mapItem (item : Item) : Prog Event := .op (.mapItem item) .ret

abbrev flush : Prog Text := .op .flush .ret

abbrev cells : Prog StreamState := .op .cells .ret

abbrev swapRecorded : Prog Bool := .op .swapRecorded .ret

abbrev dropGuard : Prog Unit := .op .dropGuard .ret

abbrev panic {α : Type} : Prog α := .op .panic Empty.elim

/-! ### Usage -/

/-- `estimate_usage`: about four characters a token. -/
def estimateUsage (promptText completionText : Text) : UInt64 × UInt64 :=
  (UInt64.ofNat promptText.length / 4, UInt64.ofNat completionText.length / 4)

/-- `join("\n")`. -/
def joinLines (texts : List Text) : Text := List.intercalate ['\n'] texts

/-- `prompt_text`: the contents of the messages of a payload. -/
def promptText (payload : Json) : Text :=
  joinLines (((messagesOf payload).getD []).filterMap (fun m => textField m "content"))

/-- A token count of a usage object. -/
def usageField (usage : Json) (field : String) : UInt64 :=
  ((usage.get? field).bind Json.asU64?).getD 0

/-- The usage that the provider reports, if it is a non-empty object. -/
def upstreamUsage (usage : Option Json) : Option (UInt64 × UInt64) :=
  match usage.bind Json.asObj? with
  | some (f :: fs) => some (usageField (.obj (f :: fs)) "prompt_tokens",
      usageField (.obj (f :: fs)) "completion_tokens")
  | _ => none

/-- Provider usage wins; otherwise the usage is estimated. -/
def usageNumbers (usage : Option Json) (promptText completionText : Text) :
    UInt64 × UInt64 × String :=
  match upstreamUsage usage with
  | some (prompt, done) => (prompt, done, "upstream")
  | none => ((estimateUsage promptText completionText).1,
      (estimateUsage promptText completionText).2, "estimated")

/-! ### Streams -/

namespace Accountant

/-- `usage_numbers`. -/
def usage (a : Accountant) (st : StreamState) : UInt64 × UInt64 × String :=
  usageNumbers st.lastUsage a.requestText st.completionText

/-- The audit row of `lifecycle.finish`. -/
def row (a : Accountant) (code : String) (prompt completion : Int64) (responseText : Text)
    (usageSource : String) : Row :=
  ⟨a.requestId, a.clientId, a.providerName, a.model, a.messagesJson, code, prompt, completion,
    responseText, usageSource⟩

def metric (a : Accountant) (status : String) (prompt completion : UInt64) : Metric :=
  ⟨a.clientId, a.providerName, a.model, status, prompt, completion⟩

/-- Settle the reservation, or record the usage when there is none. -/
def settleOrRecord (a : Accountant) (prompt completion : UInt64) : Prog Unit :=
  if a.metering then
    match a.reservation with
    | some rsv => settle rsv prompt.toInt64 completion.toInt64
    | none => record a.clientId a.providerName a.model prompt.toInt64 completion.toInt64
  else pure ()

/-- `settle_once`. -/
def settleOnce (a : Accountant) (prompt completion : UInt64) : Prog Unit := do
  if ← swapRecorded then pure () else a.settleOrRecord prompt completion

/-- The terminal chunk. -/
def terminal (a : Accountant) : Prog Unit := do
  let st ← cells
  let (prompt, done, source) := a.usage st
  a.settleOnce prompt done
  recordTokensToday a.providerName (prompt.toInt64 + done.toInt64)
  let st ← cells
  let code := if st.streamError then "upstream_error" else "ok"
  finish (a.row code prompt.toInt64 done.toInt64 st.completionText source)
  observe (a.metric code prompt done)
  -- the guard is dropped at the end of the future
  dropGuard
  send .done

/-- Hand over the flushed text, if there is any. -/
def sendFlushed (flushed : Text) : Prog Unit :=
  if flushed = [] then pure () else send (.data (tailChunk flushed))

/-- A failed item is counted. -/
def observeItem (a : Accountant) : Item → Prog Unit
  | .error _ => observe (a.metric "upstream_error" 0 0)
  | .ok _ => pure ()

/-- The body: the mapped items, the flushed text and the terminal chunk. -/
def bodyStream (a : Accountant) : List Item → Prog Unit
  | item :: items => do
      nextItem
      let event ← mapItem item
      a.observeItem item
      send event
      a.bodyStream items
  | [] => do
      nextItem
      let flushed ← flush
      sendFlushed flushed
      a.terminal

/-- The task that a dropped accountant spawns, with what it reads when it is dropped: it does
what `settle_once` does, and finishes the request. -/
def dropTask (a : Accountant) (st : StreamState) : Prog Unit := do
  let (prompt, done, source) := a.usage st
  let code := if st.streamError then "upstream_error" else "cancelled"
  a.settleOnce prompt done
  finish (a.row code prompt.toInt64 done.toInt64 st.completionText source)

end Accountant

/-- The settle of a request whose completion never happened. -/
def settleFailed (a : Accountant) (promptEst : UInt64) : Prog Unit :=
  if a.metering then
    match a.reservation with
    | some rsv => settle rsv promptEst.toInt64 0
    | none => pure ()
  else pure ()

/-- `stream_response`. -/
def streamResponse (a : Accountant) (payload : Json) (session : StreamRestore) : Prog Reply := do
  let a := { a with requestText := promptText payload }
  match ← chatStream payload with
  | .ok items =>
      openStream session
      pure (.sse a items)
  | .error err =>
      settleFailed a (estimateUsage a.requestText []).1
      observe (a.metric "upstream_error" 0 0)
      finish (a.row "upstream_error" 0 0 err.toString.toList "upstream")
      pure (Reply.error (.upstream err.toString))

/-! ### Completions -/

/-- `completion[key] = v`; neither an object nor null can be indexed so. -/
def assign? (j : Json) (key : String) (v : Json) : Option Json :=
  match j with
  | .obj _ => some (j.set key v)
  | .null => some (.obj [(key, v)])
  | _ => none

/-- Tell the client which model it asked for, if another one served it. -/
def tagRouted (requested concrete : String) (completion : Json) : Option Json :=
  if concrete ≠ requested then assign? completion "routed_from" (.str requested.toList)
  else some completion

def completionChoices (completion : Json) : List Json :=
  ((completion.get? "choices").bind Json.asArr?).getD []

/-- The content of the message of a choice. -/
def choiceContent (choice : Json) : Option Text :=
  (choice.get? "message").bind (fun m => textField m "content")

/-- `completion["choices"][0]["message"]["content"]`, if it is a string. -/
def firstContent (completion : Json) : Option Text :=
  (completionChoices completion).head?.bind choiceContent

/-- The policy that is handed to `deanonymize`. -/
def Gateway.policy (g : Gateway) : String :=
  if g.restorePolicy = "restore" then "restore" else "mask"

/-- `process_response`. -/
def Gateway.processResponse (g : Gateway) (text : Text) (chain : Inspectors.DlpState) : Text :=
  if g.dlpMode = "off" then text else Dlp.deanonymize text chain.vault chain.scope g.policy

/-- Restore the content of the first choice. -/
def restoreFirst (g : Gateway) (chain : Inspectors.DlpState) (completion : Json) : Json :=
  match firstContent completion with
  | none => completion
  | some content => completion.modify "choices" (fun choices => match choices with
      | .arr (choice :: rest) => .arr (choice.modify "message" (fun m =>
          m.set "content" (.str (g.processResponse content chain))) :: rest)
      | choices => choices)

/-- The rest of the handler for a request that is not streamed.  The payload has been taken, so
that the estimate sees no prompt. -/
def chatResponse (g : Gateway) (a : Accountant) (requested concrete : String) (payload : Json)
    (chain : Inspectors.DlpState) (promptEst : UInt64) : Prog Reply := do
  match ← chat payload with
  | .ok completion =>
      match tagRouted requested concrete completion with
      | none => panic
      | some completion =>
          let completion := restoreFirst g chain completion
          let (prompt, done, source) := usageNumbers (completion.get? "usage") (promptText .null)
            (joinLines ((completionChoices completion).filterMap choiceContent))
          observe (a.metric "ok" prompt done)
          a.settleOrRecord prompt done
          recordTokensToday a.providerName (prompt.toInt64 + done.toInt64)
          finish (a.row "ok" prompt.toInt64 done.toInt64 ((firstContent completion).getD []) source)
          pure (.json 200 completion)
  | .error err =>
      settleFailed a promptEst
      observe (a.metric "upstream_error" 0 0)
      finish (a.row "upstream_error" 0 0 err.toString.toList "upstream")
      pure (Reply.error (.upstream err.toString))

/-! ### The handler -/

/-- The contract checks, in their order. -/
def validate (g : Gateway) (body : ChatCompletionRequest) : Option ApiError :=
  if body.messages = [] then
    some (.invalidRequest "messages must contain at least 1 item")
  else if body.temperature.any (fun t => !g.inRange t 2) then
    some (.invalidRequest "temperature must be within 0..2")
  else if body.topP.any (fun p => !g.inRange p 1) then
    some (.invalidRequest "top_p must be within 0..1")
  else if body.maxTokens.any (fun m => m < 1) then
    some (.invalidRequest "max_tokens must be >= 1")
  else if body.stop.any (fun stop => !(stop.asStr?.isSome ||
      (stop.asArr?.map (fun items => items.all (fun v => v.asStr?.isSome))).getD false)) then
    some (.invalidRequest "stop must be a string or array of strings")
  else none

theorem validate_stream (g : Gateway) (body : ChatCompletionRequest) (stream : Bool) :
    validate g { body with stream := stream } = validate g body := rfl

/-- `json!` of an `i64`. -/
def jsonInt (n : Int64) : Json :=
  .num (if 0 ≤ n then .posInt n.toUInt64 else .negInt n)

/-- The stream options that go to the provider: those of the client, with usage asked for when
the request is streamed. -/
def streamOptions (body : ChatCompletionRequest) : Option Json :=
  let user := body.streamOptions.bind Json.asObj?
  if body.stream then
    let options := user.getD []
    some (.obj (if options.any (fun e => e.1 = "include_usage") then options
      else options ++ [("include_usage", .bool true)]))
  else user.map .obj

/-- The payload for the provider. -/
def buildPayload (concrete : String) (body : ChatCompletionRequest) : Json :=
  .obj ([("model", .str concrete.toList), ("messages", .arr (body.messages.map ChatMessage.toJson)),
      ("stream", .bool body.stream)] ++
    (body.temperature.map (fun t => ("temperature", Json.num t))).toList ++
    (body.topP.map (fun p => ("top_p", Json.num p))).toList ++
    (body.maxTokens.map (fun m => ("max_tokens", jsonInt m))).toList ++
    (body.stop.map (fun stop => ("stop", stop))).toList ++
    ((streamOptions body).map (fun options => ("stream_options", options))).toList)

/-- `json!` of a message as it came in. -/
def serializeMessage (m : ChatMessage) : Json :=
  .obj [("role", .str m.role), ("content", m.content.elim .null .str),
    ("name", m.name.elim .null .str), ("tool_calls", m.toolCalls.getD .null)]

/-- The handler after the admission. -/
def serve (g : Gateway) (a : Accountant) (body : ChatCompletionRequest) (concrete : String)
    (payload : Json) (chain : Inspectors.DlpState) (promptEst : UInt64) : Prog Reply :=
  if body.stream then
    streamResponse a payload (StreamRestore.new chain.vault chain.scope g.policy)
  else chatResponse g a body.model concrete payload chain promptEst

/-- The admission of an inspected request, and the rest of the handler. -/
def admission (g : Gateway) (a : Accountant) (body : ChatCompletionRequest) (concrete : String)
    (payload : Json) (chain : Inspectors.DlpState) : Prog Reply := do
  let promptEst := (estimateUsage (joinLines (body.messages.filterMap ChatMessage.content)) []).1
  if g.metering then
    match ← admitReq a.clientId a.providerName body.model promptEst.toInt64 body.maxTokens with
    | .ok rsv => serve g { a with reservation := some rsv } body concrete payload chain promptEst
    | .error (.quotaExceeded scope limit) =>
        let message := s!"daily {scope} quota exceeded (limit={limit})"
        observe (a.metric "rate_limited" 0 0)
        audit (a.row "rate_limited" 0 0 message.toList "upstream")
        pure (Reply.error (.rateLimited message))
    | .error (.backendUnavailable msg) =>
        if g.backendFailClosed then do
          observe (a.metric "backend_error" 0 0)
          audit (a.row "backend_error" 0 0 msg.toList "upstream")
          pure (Reply.error (.backendUnavailable msg))
        -- fail-open
        else serve g a body concrete payload chain promptEst
  else serve g a body concrete payload chain promptEst

/-- `chat_completions`, for an authenticated client. -/
def chatCompletions (g : Gateway) (requestId clientId : String) (body : ChatCompletionRequest) :
    Prog Reply := do
  let unrouted : Accountant := ⟨requestId, clientId, "unrouted", body.model,
    g.toString (.arr (body.messages.map serializeMessage)), [], g.metering, none⟩
  match ← resolve body.model clientId with
  | .error (.blocked message) =>
      observe (unrouted.metric "blocked_source" 0 0)
      audit (unrouted.row "blocked_source" 0 0 message.toList "upstream")
      pure (Reply.error (.blocked message "blocked_source"))
  | .error (.budgetExhausted message) =>
      observe (unrouted.metric "rate_limited" 0 0)
      audit (unrouted.row "rate_limited" 0 0 message.toList "upstream")
      pure (Reply.error (.rateLimited message))
  | .ok (providerName, concrete) =>
      let routed := { unrouted with providerName }
      match validate g body with
      | some err => pure (Reply.error err)
      | none =>
          if providerName ∉ g.providers then do
            observe (routed.metric "upstream_error" 0 0)
            pure (Reply.error (.upstream s!"routed provider '{providerName}' not configured"))
          else do
            let out ← inspect (buildPayload concrete body) clientId
            match out.result with
            | .error err =>
                observe (routed.metric "blocked" 0 0)
                audit ({ routed with messagesJson := g.toString out.payload }.row "blocked" 0 0
                  err.message.toList "upstream")
                pure (Reply.error err)
            | .ok chain =>
                let messagesJson := g.toString ((out.payload.get? "messages").getD .null)
                admission g { routed with messagesJson } body concrete out.payload chain

/-! ### A small gateway -/

/-- A gateway with one provider and a metering. -/
def sampleGateway : Gateway where
  providers := ["p"]
  metering := true
  backendFailClosed := true
  dlpMode := "off"
  restorePolicy := "restore"
  toString := fun _ => []
  inRange := fun _ _ => true

/-- One message, streamed or not. -/
def sampleRequest (stream : Bool) : ChatCompletionRequest where
  model := "m"
  messages := [⟨"user".toList, some "hi".toList, none, none⟩]
  stream
  temperature := none
  topP := none
  maxTokens := none
  stop := none
  streamOptions := none

end FirewallLLM.Chat
