import FirewallLLM.Program
import FirewallLLM.Metering
import FirewallLLM.PyValue

/-! # Chat completions of the Python gateway

`chat_completions` and its generator `sse` of `app.py` as programs.  A program asks for the
awaits of its coroutine, for its effects and for the expressions over an upstream answer that
may raise; what it asks for is answered with a value or with the exception that it raises.

The router, the inspectors, the admission and the providers answer what they like, the metrics
backend may raise, and an await may be cancelled.  Durations are left out of the metrics. -/

namespace FirewallLLM.Py

open Dlp (Text)

abbrev Reservation := Quota.Reservation ℤ

/-! ### Requests -/

/-- `ChatMessage`. -/
structure ChatMessage where
  role : Text
  content : Option Text
  name : Option Text
  toolCalls : Option Value

/-- `ChatCompletionRequest`, without the metadata that is never forwarded. -/
structure ChatCompletionRequest where
  model : String
  messages : List ChatMessage
  stream : Bool
  temperature : Option PyFloat
  topP : Option PyFloat
  maxTokens : Option ℤ
  stop : Option Value
  streamOptions : Option Fields

/-- `model_dump(exclude_none=True)`. -/
def ChatMessage.dumpSome (m : ChatMessage) : Value :=
  .dict ([("role", .str m.role)] ++ (m.content.map (fun s => ("content", Value.str s))).toList ++
    (m.name.map (fun s => ("name", Value.str s))).toList ++
    (m.toolCalls.map (fun v => ("tool_calls", v))).toList)

/-- `model_dump()`. -/
def ChatMessage.dump (m : ChatMessage) : Value :=
  .dict [("role", .str m.role), ("content", m.content.elim .none .str),
    ("name", m.name.elim .none .str), ("tool_calls", m.toolCalls.getD .none)]

/-- `body.model_dump()["messages"]`. -/
def ChatCompletionRequest.dumpMessages (body : ChatCompletionRequest) : Value :=
  .list (body.messages.map ChatMessage.dump)

/-- `to_payload`. -/
def ChatCompletionRequest.toPayload (body : ChatCompletionRequest) : Fields :=
  let payload : Fields :=
    [("model", .str body.model.toList), ("messages", .list (body.messages.map ChatMessage.dumpSome)),
      ("stream", .bool body.stream)] ++
    (body.temperature.map (fun t => ("temperature", Value.float t))).toList ++
    (body.topP.map (fun p => ("top_p", Value.float p))).toList ++
    (body.maxTokens.map (fun m => ("max_tokens", Value.int m))).toList ++
    (body.stop.map (fun stop => ("stop", stop))).toList ++
    (body.streamOptions.map (fun options => ("stream_options", Value.dict options))).toList
  if body.stream then
    payload.set "stream_options"
      (.dict (Fields.setDefault (body.streamOptions.getD []) "include_usage" (.bool true)))
  else payload

/-- `"\n".join`. -/
def joinLines (texts : List Text) : Text := List.intercalate ['\n'] texts

/-- The content of a message of a payload, if it is a string. -/
def messageText (message : Value) : Option Text :=
  ((message.asDict?.bind (fun f => Fields.get? f "content")).bind Value.asStr?)

/-- `_prompt_text`. -/
def promptText (payload : Fields) : Text :=
  joinLines ((((payload.get? "messages").bind Value.asList?).getD []).filterMap messageText)

/-- `payload.get("messages", [])`. -/
def payloadMessages (payload : Fields) : Value := (payload.get? "messages").getD (.list [])

/-- What the handler reads of the configuration. -/
structure Gateway where
  providers : List String
  backendFailClosed : Bool
  completionReserve : ℤ
  maxInflight : ℤ
  unicode : Unicode

/-- `InspectionContext`: what the chain does to a text of the response, and to the text of a
stream if one of its inspectors is aware of streams. -/
structure Ctx where
  processText : Text → Except Exn Text
  restoreStream : Option (Text → Except Exn Text)

/-! ### Usage -/

/-- `estimate_usage`. -/
def estimateUsage (promptText completionText : Text) : ℤ × ℤ :=
  ((promptText.length / 4 : ℕ), (completionText.length / 4 : ℕ))

/-- `int(usage.get(field, 0))`. -/
def tokenCount (u : Unicode) (usage : Fields) (field : String) : Except Exn ℤ :=
  toInt u ((usage.get? field).getD (.int 0))

/-- Provider usage wins; otherwise the usage is estimated. -/
def usageNumbers (u : Unicode) (usage : Value) (promptText completionText : Text) :
    Except Exn (ℤ × ℤ × String) :=
  if usage.truthy then do
    let fields ← usage.fields
    let prompt ← tokenCount u fields "prompt_tokens"
    let completion ← tokenCount u fields "completion_tokens"
    pure (prompt, completion, "upstream")
  else pure ((estimateUsage promptText completionText).1,
    (estimateUsage promptText completionText).2, "estimated")

/-! ### Results -/

/-- `choice.get("message", {}).get("content")`. -/
def choiceContent (choice : Value) : Except Exn Value := do
  let fields ← choice.fields
  let message ← ((fields.get? "message").getD (.dict [])).fields
  pure ((message.get? "content").getD .none)

/-- `choice["message"]["content"] = v`, where there is a message. -/
def setContent (choice : Value) (v : Value) : Value :=
  match choice with
  | .dict fields => match Fields.get? fields "message" with
    | some (.dict message) =>
        .dict (Fields.set fields "message" (.dict (Fields.set message "content" v)))
    | _ => choice
  | _ => choice

/-- `process_response` for one choice. -/
def restoreChoice (ctx : Ctx) (choice : Value) : Except Exn Value := do
  match ← choiceContent choice with
  | .str s =>
      let text ← ctx.processText s
      pure (setContent choice (.str text))
  | _ => pure choice

/-- `result.get("choices", [])`. -/
def choicesOf (fields : Fields) : Value := (fields.get? "choices").getD (.list [])

/-- `InspectorChain.process_response`. -/
def processResponse (ctx : Ctx) (result : Value) : Except Exn Value :=
  match result with
  | .str s => do
      let text ← ctx.processText s
      pure (.str text)
  | result => do
      let fields ← result.fields
      let choices ← (choicesOf fields).iter
      let restored ← choices.mapM (restoreChoice ctx)
      match fields.get? "choices" with
      | some (.list _) => pure (.dict (fields.set "choices" (.list restored)))
      | _ => pure result

/-- `result["routed_from"] = model`. -/
def setRouted (result : Value) (model : String) : Except Exn Value :=
  match result with
  | .dict fields => pure (.dict (Fields.set fields "routed_from" (.str model.toList)))
  | v => throw (typeError s!"'{v.typeName}' object does not support item assignment")

/-- `value or ""`, as an item that is joined. -/
def joined (v : Value) : Except Exn Text :=
  if v.truthy then
    match v with
    | .str s => pure s
    | v => throw (typeError s!"sequence item: expected str instance, {v.typeName} found")
  else pure []

/-- The texts of the choices, joined. -/
def responseText (result : Value) : Except Exn Text := do
  let fields ← result.fields
  let contents ← (← (choicesOf fields).iter).mapM choiceContent
  let parts ← contents.mapM joined
  pure (joinLines parts)

/-- What the handler makes of a completion. -/
structure Completion where
  result : Value
  text : Text
  prompt : ℤ
  completion : ℤ
  source : String

/-- From the completion of the provider to its accounting. -/
def readResult (u : Unicode) (ctx : Ctx) (routedFrom : Option String) (payload : Fields)
    (result : Value) : Except Exn Completion := do
  let result ← processResponse ctx result
  let result ← match routedFrom with
    | some model => setRouted result model
    | none => pure result
  let text ← responseText result
  let fields ← result.fields
  let (prompt, completion, source) ←
    usageNumbers u ((fields.get? "usage").getD .none) (promptText payload) text
  pure ⟨result, text, prompt, completion, source⟩

/-! ### Operations -/

/-- `observe_request`. -/
structure Metric where
  client : String
  provider : String
  model : String
  code : String
  prompt : ℤ
  completion : ℤ

/-- `_audit_write`. -/
structure Row where
  client : String
  provider : String
  model : String
  code : String
  messages : Value
  responseText : Text
  prompt : ℤ
  completion : ℤ
  usageSource : String
  requestId : String

/-- What the generator yields. -/
inductive Event where
  | data (chunk : Value)
  | done

/-- What the programs ask for. -/
inductive Op where
  -- awaits of the handler
  | lock
  | resolve (model client : String)
  | inspect (payload : Fields) (client : String)
  | admitReq (client provider model : String) (promptEst completionCap : ℤ)
  | chat (payload : Fields)
  -- the slot
  | acquire
  | auditNow (row : Row)
  -- where the generator waits for the provider and for the client
  | chatStream (payload : Fields)
  | nextItem
  | send (event : Event)
  -- effects of both
  | settle (rsv : Reservation) (prompt completion : ℤ) (usageSource : String)
  | observe (m : Metric)
  | auditWrite (row : Row)
  -- expressions that may raise
  | readResult (ctx : Ctx) (routedFrom : Option String) (payload : Fields) (result : Value)
  | usageNumbers (usage : Value) (promptText completionText : Text)

/-- What the operations answer. -/
def Res : Op → Type
  | .lock | .nextItem | .send _ | .settle .. | .observe _ => Except Exn Unit
  | .resolve _ _ => Except Exn (String × String)
  | .inspect _ _ => Except Exn (Fields × Ctx)
  | .admitReq .. => Except Exn Reservation
  | .chat _ => Except Exn Value
  | .acquire => Bool
  | .chatStream _ => List Value
  | .readResult .. => Except Exn Completion
  | .usageNumbers .. => Except Exn (ℤ × ℤ × String)
  | .auditNow _ | .auditWrite _ => Unit

abbrev Prog := Program Op Res

abbrev lock : Prog (Except Exn Unit) := .op .lock .ret

abbrev resolve (model client : String) : Prog (Except Exn (String × String)) :=
  .op (.resolve model client) .ret

abbrev inspect (payload : Fields) (client : String) : Prog (Except Exn (Fields × Ctx)) :=
  .op (.inspect payload client) .ret

abbrev admitReq (client provider model : String) (promptEst completionCap : ℤ) :
    Prog (Except Exn Reservation) :=
  .op (.admitReq client provider model promptEst completionCap) .ret

abbrev chat (payload : Fields) : Prog (Except Exn Value) := .op (.chat payload) .ret

abbrev acquire : Prog Bool := .op .acquire .ret

abbrev auditNow (row : Row) : Prog Unit := .op (.auditNow row) .ret

abbrev chatStream (payload : Fields) : Prog (List Value) := .op (.chatStream payload) .ret

abbrev nextItem : Prog (Except Exn Unit) := .op .nextItem .ret

abbrev send (event : Event) : Prog (Except Exn Unit) := .op (.send event) .ret

abbrev settle (rsv : Reservation) (prompt completion : ℤ) (usageSource : String) :
    Prog (Except Exn Unit) :=
  .op (.settle rsv prompt completion usageSource) .ret

abbrev observe (m : Metric) : Prog (Except Exn Unit) := .op (.observe m) .ret

abbrev auditWrite (row : Row) : Prog Unit := .op (.auditWrite row) .ret

/-! ### The handler -/

/-- What the rows and the metrics of a request are written with. -/
structure Caller where
  requestId : String
  clientId : String
  providerName : String
  model : String

namespace Caller

def metric (c : Caller) (code : String) (prompt completion : ℤ) : Metric :=
  ⟨c.clientId, c.providerName, c.model, code, prompt, completion⟩

/-- The final row of `_audit_now`. -/
def row (c : Caller) (code : String) (messages : Value) (responseText : Text)
    (prompt completion : ℤ) (usageSource : String) : Row :=
  ⟨c.clientId, c.providerName, c.model, code, messages, responseText, prompt, completion,
    usageSource, c.requestId⟩

end Caller

/-- What the handler returns: a completion, or a response over the generator `sse`. -/
inductive Reply where
  | json (result : Value)
  | stream (c : Caller) (payload : Fields) (ctx : Ctx) (rsv : Option Reservation)

/-- `_metering_safe`. -/
def meteringSafe {α : Type} : Except Exn α → Except Exn (Option α)
  | .ok a => .ok (some a)
  | .error (.quotaExceeded message) => .error (.quotaExceeded message)
  | .error e => if e.isException then .ok none else .error e

/-- `_settle_safe`. -/
def settleSafe (rsv : Option Reservation) (prompt completion : ℤ) (usageSource : String) :
    Prog (Except Exn Unit) :=
  match rsv with
  | none => pure (.ok ())
  | some rsv => do
      match meteringSafe (← settle rsv prompt completion usageSource) with
      | .ok _ => pure (.ok ())
      | .error e => pure (.error e)

/-- A refusal: the metrics, the final row and the error for the client. -/
def refuse (c : Caller) (code auditCode text : String) (messages : Value) (err : ApiError) :
    Prog (Except Exn Reply) := do
  match ← observe (c.metric code 0 0) with
  | .error e => pure (.error e)
  | .ok () =>
      auditNow (c.row auditCode messages text.toList 0 0 "upstream")
      pure (.error (.api err))

/-- A provider that failed: the prompt estimate is settled first. -/
def failed (c : Caller) (rsv : Option Reservation) (promptEst : ℤ) (code text : String)
    (messages : Value) (err : ApiError) : Prog (Except Exn Reply) := do
  match ← settleSafe rsv promptEst 0 "upstream" with
  | .error e => pure (.error e)
  | .ok () => refuse c code code text messages err

/-- The handler with a completion. -/
def complete (c : Caller) (payload : Fields) (rsv : Option Reservation) (done : Completion) :
    Prog (Except Exn Reply) := do
  match ← settleSafe rsv done.prompt done.completion done.source with
  | .error e => pure (.error e)
  | .ok () =>
      auditNow (c.row "ok" (payloadMessages payload) done.text done.prompt done.completion
        done.source)
      match ← observe (c.metric "ok" done.prompt done.completion) with
      | .error e => pure (.error e)
      | .ok () => pure (.ok (.json done.result))

/-- The handler of an admitted request that is not streamed. -/
def chatResponse (c : Caller) (routedFrom : Option String) (payload : Fields) (ctx : Ctx)
    (rsv : Option Reservation) (promptEst : ℤ) : Prog (Except Exn Reply) := do
  match ← chat payload with
  | .error (.blocked message reason) =>
      failed c rsv promptEst "blocked" message (payloadMessages payload)
        (blockedError message reason)
  | .error (.provider message) =>
      failed c rsv promptEst "upstream_error" message (payloadMessages payload)
        (upstreamError message)
  | .error e => pure (.error e)
  | .ok result =>
      match ← (.op (.readResult ctx routedFrom payload result) .ret : Prog _) with
      | .error e => pure (.error e)
      | .ok done => complete c payload rsv done

/-- The handler after the admission. -/
def serve (c : Caller) (body : ChatCompletionRequest) (concrete : String) (payload : Fields)
    (ctx : Ctx) (rsv : Option Reservation) (promptEst : ℤ) : Prog (Except Exn Reply) :=
  if body.stream then pure (.ok (.stream c payload ctx rsv))
  else chatResponse c (if concrete ≠ body.model then some body.model else none) payload ctx rsv
    promptEst

/-- The admission of an inspected request. -/
def admission (g : Gateway) (c : Caller) (body : ChatCompletionRequest) (concrete : String)
    (payload : Fields) (ctx : Ctx) : Prog (Except Exn Reply) := do
  let promptEst := (estimateUsage (promptText payload) []).1
  let answer ← admitReq c.clientId c.providerName body.model promptEst
    ((body.maxTokens.filter (· ≠ 0)).getD g.completionReserve)
  match if g.backendFailClosed then answer.map some else meteringSafe answer with
  | .ok rsv => serve c body concrete payload ctx rsv promptEst
  | .error (.quotaExceeded message) =>
      refuse c "rate_limited" "rate_limited" message (payloadMessages payload)
        (rateLimitError message)
  | .error e =>
      if e.isException then
        refuse c "backend_error" "backend_error" e.str (payloadMessages payload)
          ⟨503, "rate_limit_error", s!"metering backend unavailable: {e.str}",
            some "backend_unavailable", none⟩
      else pure (.error e)

/-- The handler with a slot. -/
def handle (g : Gateway) (c : Caller) (body : ChatCompletionRequest) : Prog (Except Exn Reply) := do
  match ← resolve body.model c.clientId with
  | .error (.quotaExceeded message) =>
      refuse c "rate_limited" "rate_limited" message body.dumpMessages (rateLimitError message)
  | .error (.blocked message reason) =>
      refuse c "blocked" "blocked_source" message body.dumpMessages (blockedError message reason)
  | .error e => pure (.error e)
  | .ok (providerName, concrete) =>
      let c := { c with providerName }
      if providerName ∉ g.providers then
        pure (.error (.api (upstreamError s!"routed provider '{providerName}' not configured")))
      else
        match ← inspect (body.toPayload.set "model" (.str concrete.toList)) c.clientId with
        | .error (.blocked message reason) =>
            refuse c "blocked" "blocked" message body.dumpMessages (blockedError message reason)
        | .error e => pure (.error e)
        | .ok (payload, ctx) => admission g c body concrete payload ctx

/-- `chat_completions`, for an authenticated client. -/
def chatCompletions (g : Gateway) (requestId clientId : String) (body : ChatCompletionRequest) :
    Prog (Except Exn Reply) := do
  let c : Caller := ⟨requestId, clientId, "unrouted", body.model⟩
  match ← lock with
  | .error e => pure (.error e)
  | .ok () =>
      if ← acquire then handle g c body
      else
        match ← observe (c.metric "rate_limited" 0 0) with
        | .error e => pure (.error e)
        | .ok () =>
            let message := "server saturated: too many inflight requests"
            auditWrite { c.row "rate_limited" body.dumpMessages message.toList 0 0 "upstream" with
              requestId := "" }
            pure (.error (.api (rateLimitError message)))

end FirewallLLM.Py
