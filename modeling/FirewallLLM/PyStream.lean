import FirewallLLM.PyGateway

/-! # The stream generator of the Python gateway

`StreamRestore` of `dlp.py` and the generator `sse` of `app.py`.  The items of the provider are
fixed when the generator asks for them; at each of them it may raise instead, and so may every
yield.  Whatever ends the loop, the `finally` block settles, observes and audits the request,
unless it raises itself. -/

namespace FirewallLLM.Py

open Dlp (Text)

/-! ### Restoring a stream -/

/-- `[A-Za-z0-9_]`. -/
def isTokenChar (c : Char) : Bool := c.isAlphanum || c = '_'

/-- What may follow the bracket of an incomplete token: up to 64 characters, and the newline
that the end of a pattern lets pass. -/
def openTail (cs : Text) : Bool :=
  let word := if cs.getLast? = some '\n' then cs.dropLast else cs
  word.length ≤ 64 && word.all isTokenChar

/-- The text in front of a trailing incomplete token, and the token. -/
def splitPartial : Text → Text × Text
  | [] => ([], [])
  | c :: cs =>
      if c = '[' && openTail cs then ([], c :: cs)
      else (c :: (splitPartial cs).1, (splitPartial cs).2)

/-- `_MAX_CARRY`. -/
def maxCarry : ℕ := 256

/-- `StreamRestore`; without a `process` it passes the text through. -/
structure StreamRestore where
  process : Option (Text → Except Exn Text)
  carry : Text

namespace StreamRestore

/-- `feed`. -/
def feed (s : StreamRestore) (text : Text) : Except Exn Text × StreamRestore :=
  match s.process with
  | none => (.ok text, s)
  | some process =>
      let (head, carry) := splitPartial (s.carry ++ text)
      if maxCarry < carry.length then (process (head ++ carry), { s with carry := [] })
      else (process head, { s with carry })

/-- `flush`. -/
def flush (s : StreamRestore) : Except Exn Text × StreamRestore :=
  match s.process with
  | none => (.ok [], s)
  | some process =>
      if s.carry = [] then (.ok [], s) else (process s.carry, { s with carry := [] })

end StreamRestore

/-! ### The generator -/

/-- The local variables of the generator. -/
structure Locals where
  code : String
  parts : List Text
  session : StreamRestore
  lastUsage : Option Fields

/-- At the start. -/
def Locals.init (ctx : Ctx) : Locals := ⟨"ok", [], ⟨ctx.restoreStream, []⟩, none⟩

/-- The text of a choice of a chunk, with the fields around it. -/
def deltaText (choice : Value) : Option (Fields × Fields × Text) :=
  match choice with
  | .dict fields => match Fields.get? fields "delta" with
    | some (.dict delta) => match Fields.get? delta "content" with
      | some (.str text) => if text = [] then none else some (fields, delta, text)
      | _ => none
    | _ => none
  | _ => none

/-- Restore one choice; a text that cannot be restored stays as it is. -/
def feedChoice (choice : Value) (l : Locals) : Value × Locals :=
  match deltaText choice with
  | none => (choice, l)
  | some (fields, delta, text) => match l.session.feed text with
    | (.ok restored, session) =>
        (.dict (fields.set "delta" (.dict (delta.set "content" (.str restored)))),
          { l with session, parts := l.parts ++ [restored] })
    | (.error _, session) => (choice, { l with session, parts := l.parts ++ [text] })

/-- One choice after the other. -/
def feedChoices : List Value → Locals → List Value × Locals
  | [], l => ([], l)
  | choice :: choices, l =>
      let (choice, l) := feedChoice choice l
      let (choices, l) := feedChoices choices l
      (choice :: choices, l)

/-- The usage of a chunk, if it is a non-empty object, replaces the last one. -/
def Locals.seeUsage (l : Locals) (chunk : Fields) : Locals :=
  match chunk.get? "usage" with
  | some (.dict (f :: fs)) => { l with lastUsage := some (f :: fs) }
  | _ => l

/-- A chunk of the provider; what is no object is skipped. -/
def readChunk (item : Value) (l : Locals) : Option (Value × Locals) :=
  match item with
  | .dict chunk =>
      let l := l.seeUsage chunk
      match Fields.get? chunk "choices" with
      | some (.list choices) =>
          let (choices, l) := feedChoices choices l
          some (.dict (Fields.set chunk "choices" (.list choices)), l)
      | _ => some (item, l)
  | _ => none

/-- The chunk of the flushed text. -/
def tailChunk (flushed : Text) : Value :=
  .dict [("id", .str "chatcmpl-stream".toList), ("object", .str "chat.completion.chunk".toList),
    ("choices", .list [.dict [("index", .int 0), ("delta", .dict [("content", .str flushed)])]])]

/-- `as_dict`. -/
def ApiError.asDict (err : ApiError) : Value :=
  .dict [("error", .dict ([("message", .str err.message.toList), ("type", .str err.type.toList)] ++
    (err.code.map (fun code => ("code", Value.str code.toList))).toList ++
    (err.reason.map (fun reason =>
      ("details", Value.dict [("reason", .str reason.toList)]))).toList))]

/-- The settle of the `finally` block. -/
def settleQuiet (rsv : Option Reservation) (prompt completion : ℤ) (usageSource : String) :
    Prog (Except Exn Unit) :=
  match rsv with
  | none => pure (.ok ())
  | some rsv => do
      match ← settle rsv prompt completion usageSource with
      | .ok () => pure (.ok ())
      | .error e => if e.isException then pure (.ok ()) else pure (.error e)

/-- What the generator closes over. -/
structure Sse where
  caller : Caller
  payload : Fields
  reservation : Option Reservation

namespace Sse

/-- The `finally` block. -/
def finalize (g : Sse) (l : Locals) : Prog (Except Exn Unit) := do
  let text := l.parts.flatten
  match ← (.op (.usageNumbers (l.lastUsage.elim .none .dict) (promptText g.payload) text) .ret :
      Prog _) with
  | .error e => pure (.error e)
  | .ok (prompt, completion, source) =>
      match ← settleQuiet g.reservation prompt completion source with
      | .error e => pure (.error e)
      | .ok () =>
          match ← observe (g.caller.metric l.code prompt completion) with
          | .error e => pure (.error e)
          | .ok () =>
              auditNow (g.caller.row l.code (payloadMessages g.payload) text prompt completion
                source)
              pure (.ok ())

/-- Leave through the `finally` block; what it raises wins. -/
def leave (g : Sse) (l : Locals) (outcome : Except Exn Unit) : Prog (Except Exn Unit) := do
  match ← g.finalize l with
  | .error e => pure (.error e)
  | .ok () => pure outcome

/-- Tell the client about an error, and leave. -/
def leaveWith (g : Sse) (l : Locals) (err : ApiError) : Prog (Except Exn Unit) := do
  let sent ← send (.data err.asDict)
  g.leave l sent

/-- The `except` clauses. -/
def handleExn (g : Sse) (l : Locals) : Exn → Prog (Except Exn Unit)
  | .generatorExit => g.leave { l with code := "cancelled" } (.ok ())
  | .cancelled => g.leave { l with code := "cancelled" } (.error .cancelled)
  | .blocked message reason =>
      g.leaveWith { l with code := "blocked" } (blockedError message reason)
  | .provider message => g.leaveWith { l with code := "upstream_error" } (upstreamError message)
  | e => g.leave l (.error e)

/-- The end of the stream: the `finally` block, and `[DONE]`. -/
def finish (g : Sse) (l : Locals) : Prog (Except Exn Unit) := do
  match ← g.finalize l with
  | .error e => pure (.error e)
  | .ok () => send .done

/-- The flushed text, after the last item. -/
def flushTail (g : Sse) (l : Locals) : Prog (Except Exn Unit) :=
  match l.session.flush with
  | (.ok flushed, session) =>
      if flushed = [] then g.finish { l with session }
      else do
        let l := { l with session, parts := l.parts ++ [flushed] }
        match ← send (.data (tailChunk flushed)) with
        | .error e => g.handleExn l e
        | .ok () => g.finish l
  | (.error _, session) => g.finish { l with session }

/-- The loop over the items of the provider. -/
def loop (g : Sse) : List Value → Locals → Prog (Except Exn Unit)
  | [], l => do
      match ← nextItem with
      | .error e => g.handleExn l e
      | .ok () => g.flushTail l
  | item :: items, l => do
      match ← nextItem with
      | .error e => g.handleExn l e
      | .ok () =>
          match readChunk item l with
          | none => g.loop items l
          | some (chunk, l) =>
              match ← send (.data chunk) with
              | .error e => g.handleExn l e
              | .ok () => g.loop items l

end Sse

/-- `sse`. -/
def sse (c : Caller) (payload : Fields) (ctx : Ctx) (rsv : Option Reservation) :
    Prog (Except Exn Unit) := do
  let items ← chatStream payload
  Sse.loop ⟨c, payload, rsv⟩ items (Locals.init ctx)

end FirewallLLM.Py
