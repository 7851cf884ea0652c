import FirewallLLM.ChatRuntime
import FirewallLLM.Gates

/-! # Requests that are served to their end

A request on its own: the handler runs to its answer, the body of a stream is polled to its end
and dropped, and the tasks of the dropped accountants run.  The operations are those of the
machine; the environment answers each of them by one oracle.

`solo_pair` compares two requests that differ in the `stream` flag: up to the provider they go
the same way, with the same messages and the same chain. -/

namespace FirewallLLM

/-! ### Refusals of the inspectors -/

namespace Inspectors

open Dlp (VaultOrder Patterns)

theorem inspectMessage_status {mode : String} {p : Patterns} {ord : VaultOrder} {msg : Json}
    {s : DlpState} {err : ApiError} (h : inspectMessage mode p ord msg s = some (.error err)) :
    err.status ≠ 200 := by
  unfold inspectMessage at h
  cases hc : textField msg "content" with
  | none => simp [hc] at h
  | some content =>
      simp only [hc] at h
      split_ifs at h
      · obtain ⟨st, -, heq⟩ := Option.map_eq_some_iff.mp h
        split_ifs at heq
        cases heq
        exact nofun
      · obtain ⟨st, -, heq⟩ := Option.map_eq_some_iff.mp h
        cases heq
      · obtain ⟨st, -, heq⟩ := Option.map_eq_some_iff.mp h
        cases heq
      · cases h

theorem inspectMessages_status {mode : String} {p : Patterns} {ord : VaultOrder}
    {msgs msgs' : List Json} {s : DlpState} {err : ApiError}
    (h : inspectMessages mode p ord msgs s = some (msgs', .error err)) : err.status ≠ 200 := by
  induction msgs generalizing s msgs' with
  | nil => cases h
  | cons msg msgs ih =>
      obtain ⟨r, hr, hrest⟩ := Option.bind_eq_some_iff.mp h
      cases r with
      | ok next =>
          obtain ⟨⟨msgs₁, r₁⟩, hnext, heq⟩ := Option.map_eq_some_iff.mp hrest
          obtain ⟨-, rfl⟩ := Prod.mk.inj heq
          exact ih hnext
      | error err' =>
          cases hrest
          exact inspectMessage_status hr

theorem processRequest_status {cfg : Config} {e : Engine} {ord : VaultOrder} {payload : Json}
    {clientId : Option String} {draws : List (UInt64 × UInt64)} {out : Outcome} {err : ApiError}
    (h : processRequestWithClient cfg e ord payload clientId draws = some out)
    (hres : out.result = .error err) : err.status ≠ 200 := by
  have hstage : ∀ {payload'}, dlpStage cfg.dlpMode e.patterns ord payload draws =
      some (payload', .error err) → err.status ≠ 200 := by
    intro payload' h
    unfold dlpStage at h
    split_ifs at h
    · cases hm : messagesOf payload with
      | none => simp [hm] at h
      | some messages =>
          rw [hm] at h
          obtain ⟨⟨msgs', r⟩, hmsgs, heq⟩ := Option.map_eq_some_iff.mp h
          obtain ⟨-, rfl⟩ := Prod.mk.inj heq
          exact inspectMessages_status hmsgs
    · cases h
  unfold processRequestWithClient at h
  cases hv : injectionVerdict cfg e payload with
  | none =>
      rw [hv] at h
      obtain ⟨⟨payload', r⟩, hdlp, rfl⟩ := Option.map_eq_some_iff.mp h
      cases hres
      exact hstage hdlp
  | some f =>
      obtain ⟨rule, severity⟩ := f
      rw [hv] at h
      dsimp only at h
      split_ifs at h
      · cases h
        cases hres
        exact nofun
      · obtain ⟨⟨payload', r⟩, hdlp, rfl⟩ := Option.map_eq_some_iff.mp h
        cases hres
        exact hstage hdlp

end Inspectors

namespace Chat

open Dlp (StreamState StreamRestore Item Event)
open Inspectors (messagesOf processRequestWithClient)

/-! ### Running on its own -/

/-- Run a program to its end. -/
abbrev solo {α : Type} (o : Oracle) (p : Prog α) (s : State) : Option (α × State) :=
  p.interp (fun e s => perform s o e) s

/-- Run tasks one after the other. -/
def soloTasks (o : Oracle) : List (Prog Unit) → State → Option State
  | [], s => some s
  | t :: ts, s => (solo o t s).bind (fun x => soloTasks o ts x.2)

/-- Poll the body to its end and drop it. -/
def soloBody (o : Oracle) (s : State) : Option State :=
  s.body.elim (some s) (fun b => (solo o b s).bind (fun x =>
    let s := step { x.2 with body := some (.ret ()) } .dropBody
    soloTasks o s.tasks s))

/-- Serve a request to its end: the answer, and the state afterwards. -/
def served (g : Gateway) (requestId clientId : String) (body : ChatCompletionRequest)
    (o : Oracle) : Option (Reply × State) :=
  (solo o (chatCompletions g requestId clientId body)
    { init g requestId clientId body with handler := none }).bind (fun x =>
      (soloBody o (step { x.2 with handler := some (.ret x.1) } .returned)).map (fun s => (x.1, s)))

/-- The payload that goes to the provider. -/
def forwarded (o : Oracle) : Prog Reply → State → Option Json
  | .ret _, _ => none
  | .op (.chat payload) _, _ => some payload
  | .op (.chatStream payload) _, _ => some payload
  | .op e k, s => (perform s o e).bind (fun x => forwarded o (k x.1) x.2)

/-- The inspectors answer as the chain does. -/
def Inspects (o : Oracle) (cfg : Inspectors.Config) (e : Inspectors.Engine) (ord : Dlp.VaultOrder)
    (draws : List (UInt64 × UInt64)) : Prop :=
  ∀ payload clientId, o (.inspect payload clientId) =
    processRequestWithClient cfg e ord payload (some clientId) draws

/-! ### Figures -/

/-- Token counts, and in an audit row where they come from. -/
structure Figures where
  prompt : Int64
  completion : Int64
  source : Option String
deriving DecidableEq

/-- What an entry accounts for. -/
def Entry.figures : Entry → Option Figures
  | .settled _ prompt completion => some ⟨prompt, completion, none⟩
  | .recorded _ _ _ prompt completion => some ⟨prompt, completion, none⟩
  | .audited row => some ⟨row.prompt, row.completion, some row.usageSource⟩
  | _ => none

/-- What has been settled, recorded and audited, in order. -/
def State.figures (s : State) : List Figures := s.log.filterMap Entry.figures

@[simp] theorem figures_note (s : State) (entry : Entry) :
    (s.note entry).figures = s.figures ++ entry.figures.toList := by
  unfold State.figures State.note
  rw [List.filterMap_append]
  cases h : entry.figures <;> simp [h]

/-! ### One operation -/

section Operations

variable {α : Type} {o : Oracle}

theorem solo_bind {β : Type} (p : Prog α) (f : α → Prog β) (s : State) :
    solo o (p >>= f) s = (solo o p s).bind (fun x => solo o (f x.1) x.2) :=
  Program.interp_bind _ p f s

/-- The state after an admission. -/
def State.noteAdmission (s : State) : Except MeteringError Reservation → State
  | .ok rsv => { s.note (.admitted rsv) with reservation := some rsv }
  | .error _ => s

theorem perform_admitReq_eq (s : State) (clientId provider model : String) (promptEst : Int64)
    (cap : Option Int64) : perform s o (.admitReq clientId provider model promptEst cap) =
      (o (.admitReq clientId provider model promptEst cap)).map
        (fun r => (r, s.noteAdmission r)) := by
  rw [perform]
  congr 1
  funext r
  cases r <;> rfl

theorem solo_ask {e : Op} {s : State} {next : Res e → State}
    (he : perform s o e = (o e).map (fun r => (r, next r))) (f : Res e → Prog α) :
    solo o (.op e f) s = (o e).bind (fun r => solo o (f r) (next r)) := by
  rw [solo, Program.interp_op, he, Option.bind_map]
  rfl

theorem solo_ask_some {e : Op} {s : State} {next : Res e → State} {f : Res e → Prog α}
    {x : α × State} (he : perform s o e = (o e).map (fun r => (r, next r)))
    (h : solo o (.op e f) s = some x) : ∃ r, solo o (f r) (next r) = some x := by
  rw [solo_ask he] at h
  obtain ⟨r, -, h⟩ := Option.bind_eq_some_iff.mp h
  exact ⟨r, h⟩

theorem solo_resolve (model clientId : String)
    (f : Except RoutingError (String × String) → Prog α) (s : State) :
    solo o (resolve model clientId >>= f) s =
      (o (.resolve model clientId)).bind (fun r => solo o (f r) s) :=
  solo_ask (e := .resolve model clientId) rfl f

theorem solo_inspect (payload : Json) (clientId : String) (f : Inspectors.Outcome → Prog α)
    (s : State) : solo o (inspect payload clientId >>= f) s =
      (o (.inspect payload clientId)).bind (fun r => solo o (f r) s) :=
  solo_ask (e := .inspect payload clientId) rfl f

theorem solo_chat {payload : Json} {r : Except ProviderError Json}
    (hr : o (.chat payload) = some r) (f : Except ProviderError Json → Prog α) (s : State) :
    solo o (chat payload >>= f) s = solo o (f r) s := by
  refine (solo_ask (e := .chat payload) rfl f).trans ?_
  rw [hr]
  rfl

theorem solo_chatStream {payload : Json} {r : Except ProviderError (List Item)}
    (hr : o (.chatStream payload) = some r) (f : Except ProviderError (List Item) → Prog α)
    (s : State) : solo o (chatStream payload >>= f) s = solo o (f r) s := by
  refine (solo_ask (e := .chatStream payload) rfl f).trans ?_
  rw [hr]
  rfl

theorem solo_admitReq (clientId provider model : String) (promptEst : Int64)
    (cap : Option Int64) (f : Except MeteringError Reservation → Prog α) (s : State) :
    solo o (admitReq clientId provider model promptEst cap >>= f) s =
      (o (.admitReq clientId provider model promptEst cap)).bind
        (fun r => solo o (f r) (s.noteAdmission r)) :=
  solo_ask (perform_admitReq_eq s clientId provider model promptEst cap) f

theorem forwarded_ask {e : Op} {s : State} {next : Res e → State} (hc : e.callsProvider = false)
    (he : perform s o e = (o e).map (fun r => (r, next r))) (f : Res e → Prog Reply) :
    forwarded o (.op e f) s = (o e).bind (fun r => forwarded o (f r) (next r)) := by
  have hop : forwarded o (.op e f) s = (perform s o e).bind (fun x => forwarded o (f x.1) x.2) := by
    cases e with
    | chat | chatStream => cases hc
    | _ => rfl
  rw [hop, he, Option.bind_map]
  rfl

theorem forwarded_resolve (model clientId : String)
    (f : Except RoutingError (String × String) → Prog Reply) (s : State) :
    forwarded o (resolve model clientId >>= f) s =
      (o (.resolve model clientId)).bind (fun r => forwarded o (f r) s) :=
  forwarded_ask (e := .resolve model clientId) rfl rfl f

theorem forwarded_inspect (payload : Json) (clientId : String)
    (f : Inspectors.Outcome → Prog Reply) (s : State) :
    forwarded o (inspect payload clientId >>= f) s =
      (o (.inspect payload clientId)).bind (fun r => forwarded o (f r) s) :=
  forwarded_ask (e := .inspect payload clientId) rfl rfl f

theorem forwarded_admitReq (clientId provider model : String) (promptEst : Int64)
    (cap : Option Int64) (f : Except MeteringError Reservation → Prog Reply) (s : State) :
    forwarded o (admitReq clientId provider model promptEst cap >>= f) s =
      (o (.admitReq clientId provider model promptEst cap)).bind
        (fun r => forwarded o (f r) (s.noteAdmission r)) :=
  forwarded_ask rfl (perform_admitReq_eq s clientId provider model promptEst cap) f

theorem forwarded_serve (g : Gateway) (a : Accountant) (body : ChatCompletionRequest)
    (concrete : String) (payload : Json) (chain : Inspectors.DlpState) (promptEst : UInt64)
    (s : State) : forwarded o (serve g a body concrete payload chain promptEst) s = some payload := by
  unfold serve
  split_ifs
  · rfl
  · rfl

end Operations

/-! ### Notes -/

/-- Everything but the log, the reservation and the handler is as it was. -/
structure Untouched (s t : State) : Prop where
  body : t.body = s.body
  accountant : t.accountant = s.accountant
  guard : t.guard = s.guard
  tasks : t.tasks = s.tasks
  recorded : t.recorded = s.recorded
  finalized : t.finalized = s.finalized
  stream : t.stream = s.stream

theorem Untouched.refl (s : State) : Untouched s s := ⟨rfl, rfl, rfl, rfl, rfl, rfl, rfl⟩

theorem Untouched.trans {s t u : State} (h : Untouched s t) (h' : Untouched t u) :
    Untouched s u :=
  ⟨h'.body.trans h.body, h'.accountant.trans h.accountant, h'.guard.trans h.guard,
    h'.tasks.trans h.tasks, h'.recorded.trans h.recorded, h'.finalized.trans h.finalized,
    h'.stream.trans h.stream⟩

theorem untouched_note (s : State) (entry : Entry) : Untouched s (s.note entry) :=
  ⟨rfl, rfl, rfl, rfl, rfl, rfl, rfl⟩

/-- What the metering accounts for, by a settle or by a record. -/
def Accountant.charges (a : Accountant) (prompt done : UInt64) : List Figures :=
  if a.metering then [⟨prompt.toInt64, done.toInt64, none⟩] else []

theorem solo_settleOrRecord {o : Oracle} {a : Accountant} {prompt done : UInt64} {s t : State}
    {r : Unit} (h : solo o (a.settleOrRecord prompt done) s = some (r, t)) :
    Untouched s t ∧ t.figures = s.figures ++ a.charges prompt done := by
  unfold Accountant.settleOrRecord at h
  unfold Accountant.charges
  by_cases hm : a.metering = true
  · rw [if_pos hm] at h ⊢
    cases hr : a.reservation with
    | some rsv =>
        rw [hr] at h
        obtain ⟨_, hu⟩ := solo_ask_some (e := .settle rsv _ _) rfl h
        cases hu
        exact ⟨untouched_note s _, figures_note s _⟩
    | none =>
        rw [hr] at h
        obtain ⟨_, hu⟩ := solo_ask_some (e := .record ..) rfl h
        cases hu
        exact ⟨untouched_note s _, figures_note s _⟩
  · rw [if_neg hm] at h ⊢
    cases h
    exact ⟨Untouched.refl s, (List.append_nil _).symm⟩

/-- The audit row of a request: only the first one is written. -/
def State.written (s : State) (row : Row) : List Figures :=
  if s.finalized then [] else (Entry.audited row).figures.toList

theorem solo_finish {α : Type} {o : Oracle} (row : Row) (f : Unit → Prog α) (s : State) :
    ∃ t, solo o (finish row >>= f) s = solo o (f ()) t ∧ t.figures = s.figures ++ s.written row ∧
      t.finalized = true ∧ t.body = s.body ∧ t.accountant = s.accountant ∧ t.guard = s.guard ∧
      t.tasks = s.tasks ∧ t.recorded = s.recorded ∧ t.stream = s.stream := by
  refine ⟨if s.finalized then s else { s.note (.audited row) with finalized := true }, rfl, ?_⟩
  unfold State.written
  by_cases hf : s.finalized = true
  · rw [if_pos hf, if_pos hf, List.append_nil]
    exact ⟨rfl, hf, rfl, rfl, rfl, rfl, rfl, rfl⟩
  · rw [if_neg hf, if_neg hf]
    exact ⟨figures_note s _, rfl, rfl, rfl, rfl, rfl, rfl, rfl⟩

theorem solo_recordTokensToday {α : Type} {o : Oracle} {provider : String} {tokens : Int64}
    {f : Unit → Prog α} {s : State} {x : α × State}
    (h : solo o (recordTokensToday provider tokens >>= f) s = some x) :
    solo o (f ()) (s.note (.routed provider tokens)) = some x := by
  obtain ⟨_, hu⟩ := solo_ask_some (e := .recordTokensToday ..) rfl h
  exact hu

theorem solo_observe {α : Type} {o : Oracle} (m : Metric) (f : Unit → Prog α) (s : State) :
    solo o (observe m >>= f) s = solo o (f ()) (s.note (.observed m)) := rfl

/-! ### Up to the provider -/

theorem validate_status {g : Gateway} {body : ChatCompletionRequest} {err : ApiError}
    (h : validate g body = some err) : err.status ≠ 200 := by
  unfold validate at h
  split_ifs at h <;> (cases h; exact nofun)

/-- The chain that the inspectors leave behind for the messages of a request. -/
def chainOf (cfg : Inspectors.Config) (e : Inspectors.Engine) (ord : Dlp.VaultOrder)
    (draws : List (UInt64 × UInt64)) (clientId : String) (body : ChatCompletionRequest) :
    Option Inspectors.DlpState :=
  (processRequestWithClient cfg e ord
    (.obj [("messages", .arr (body.messages.map Inspectors.ChatMessage.toJson))])
    (some clientId) draws).bind (fun out => out.result.toOption)

theorem chainOf_eq {cfg : Inspectors.Config} {e : Inspectors.Engine} {ord : Dlp.VaultOrder}
    {draws : List (UInt64 × UInt64)} {clientId : String} {body : ChatCompletionRequest}
    {payload : Json} {out : Inspectors.Outcome} {chain : Inspectors.DlpState}
    (hm : messagesOf payload = some (body.messages.map Inspectors.ChatMessage.toJson))
    (h : processRequestWithClient cfg e ord payload (some clientId) draws = some out)
    (hres : out.result = .ok chain) : chainOf cfg e ord draws clientId body = some chain := by
  have hplain : messagesOf payload = messagesOf (.obj [("messages",
      .arr (body.messages.map Inspectors.ChatMessage.toJson))]) := hm
  have hrel := Inspectors.processRequest_congr hplain cfg e ord (some clientId) draws
  rw [h] at hrel
  unfold chainOf
  generalize processRequestWithClient cfg e ord _ (some clientId) draws = x at hrel ⊢
  cases hrel with
  | some hrel =>
      rw [Option.bind_some, ← hrel.2.2, hres]
      rfl

theorem untouched_noteAdmission (s : State) (r : Except MeteringError Reservation) :
    Untouched s (s.noteAdmission r) := by
  cases r <;> exact ⟨rfl, rfl, rfl, rfl, rfl, rfl, rfl⟩

theorem figures_noteAdmission (s : State) (r : Except MeteringError Reservation) :
    (s.noteAdmission r).figures = s.figures := by
  cases r with
  | ok rsv => exact (figures_note s (.admitted rsv)).trans (List.append_nil _)
  | error err => rfl

/-- The model that the router serves a request with. -/
def servedModel (o : Oracle) (model clientId : String) : Option String :=
  (o (.resolve model clientId)).bind (fun r => r.toOption.map Prod.snd)

/-- Two requests are refused alike, or are served by the same model with the same messages and the
same chain. -/
inductive Alike (o : Oracle) (g : Gateway) (body body' : ChatCompletionRequest)
    (route : Option String) (chain : Option Inspectors.DlpState) (s : State) (p p' : Prog Reply) :
    Prop where
  | stuck (h : solo o p s = none) (h' : solo o p' s = none)
  | refused (err : ApiError) (t t' : State)
      (h : solo o p s = some (Reply.error err, t)) (h' : solo o p' s = some (Reply.error err, t'))
      (status : err.status ≠ 200) (touch : Untouched s t) (touch' : Untouched s t')
      (figures : t.figures = t'.figures)
      (fwd : forwarded o p s = none) (fwd' : forwarded o p' s = none)
  | passed (a a' : Accountant) (u : State) (concrete : String) (payload payload' : Json)
      (c : Inspectors.DlpState) (promptEst : UInt64)
      (h : solo o p s = solo o (serve g a body concrete payload c promptEst) u)
      (h' : solo o p' s = solo o (serve g a' body' concrete payload' c promptEst) u)
      (metering : a.metering = g.metering) (metering' : a'.metering = g.metering)
      (touch : Untouched s u) (figures : u.figures = s.figures)
      (messages : messagesOf payload = messagesOf payload') (route : route = some concrete)
      (chain : chain = some c)
      (fwd : forwarded o p s = some payload) (fwd' : forwarded o p' s = some payload')

section Alike

variable {o : Oracle} {g : Gateway} {body body' : ChatCompletionRequest}
  {route : Option String} {chain : Option Inspectors.DlpState} {s u : State}
  {p p' q q' : Prog Reply}

/-- Both programs have come this far with the same answers. -/
theorem Alike.of_answers (h : Alike o g body body' route chain u q q')
    (hp : solo o p s = solo o q u) (hp' : solo o p' s = solo o q' u)
    (hf : forwarded o p s = forwarded o q u) (hf' : forwarded o p' s = forwarded o q' u)
    (htouch : Untouched s u) (hfigures : u.figures = s.figures) :
    Alike o g body body' route chain s p p' := by
  cases h with
  | stuck h h' => exact .stuck (hp.trans h) (hp'.trans h')
  | refused err t t' h h' status touch touch' figures fwd fwd' =>
      exact .refused err t t' (hp.trans h) (hp'.trans h') status (htouch.trans touch)
        (htouch.trans touch') figures (hf.trans fwd) (hf'.trans fwd')
  | passed a a' v concrete payload payload' c est h h' hm hm' touch figures messages hr hc fwd
      fwd' =>
      exact .passed a a' v concrete payload payload' c est (hp.trans h) (hp'.trans h') hm hm'
        (htouch.trans touch) (figures.trans hfigures) messages hr hc (hf.trans fwd)
        (hf'.trans fwd')

theorem alike_resolve {model clientId : String}
    {f f' : Except RoutingError (String × String) → Prog Reply}
    (hf : ∀ r, o (.resolve model clientId) = some r →
      Alike o g body body' route chain s (f r) (f' r)) :
    Alike o g body body' route chain s (resolve model clientId >>= f)
      (resolve model clientId >>= f') := by
  cases hr : o (.resolve model clientId) with
  | none =>
      refine .stuck ?_ ?_
      · rw [solo_resolve, hr, Option.bind_none]
      · rw [solo_resolve, hr, Option.bind_none]
  | some r =>
      refine (hf r hr).of_answers ?_ ?_ ?_ ?_ ⟨rfl, rfl, rfl, rfl, rfl, rfl, rfl⟩ rfl
      · rw [solo_resolve, hr, Option.bind_some]
      · rw [solo_resolve, hr, Option.bind_some]
      · rw [forwarded_resolve, hr, Option.bind_some]
      · rw [forwarded_resolve, hr, Option.bind_some]

/-- The inspectors answer both requests alike. -/
theorem alike_inspect {payload payload' : Json} {clientId : String}
    {R : Inspectors.Outcome → Inspectors.Outcome → Prop}
    (hrel : Option.Rel R (o (.inspect payload clientId)) (o (.inspect payload' clientId)))
    {f f' : Inspectors.Outcome → Prog Reply}
    (hf : ∀ out out', o (.inspect payload clientId) = some out → R out out' →
      Alike o g body body' route chain s (f out) (f' out')) :
    Alike o g body body' route chain s (inspect payload clientId >>= f)
      (inspect payload' clientId >>= f') := by
  cases hr : o (.inspect payload clientId) with
  | none =>
      rw [hr] at hrel
      cases hr' : o (.inspect payload' clientId) with
      | none =>
          refine .stuck ?_ ?_
          · rw [solo_inspect, hr, Option.bind_none]
          · rw [solo_inspect, hr', Option.bind_none]
      | some out' =>
          rw [hr'] at hrel
          cases hrel
  | some out =>
      rw [hr] at hrel
      cases hr' : o (.inspect payload' clientId) with
      | none =>
          rw [hr'] at hrel
          cases hrel
      | some out' =>
          rw [hr'] at hrel
          cases hrel with
          | some hout =>
              refine (hf out out' hr hout).of_answers ?_ ?_ ?_ ?_
                ⟨rfl, rfl, rfl, rfl, rfl, rfl, rfl⟩ rfl
              · rw [solo_inspect, hr, Option.bind_some]
              · rw [solo_inspect, hr', Option.bind_some]
              · rw [forwarded_inspect, hr, Option.bind_some]
              · rw [forwarded_inspect, hr', Option.bind_some]

theorem alike_admitReq {clientId provider model : String} {promptEst : Int64}
    {cap : Option Int64} {f f' : Except MeteringError Reservation → Prog Reply}
    (hf : ∀ r, Alike o g body body' route chain (s.noteAdmission r) (f r) (f' r)) :
    Alike o g body body' route chain s (admitReq clientId provider model promptEst cap >>= f)
      (admitReq clientId provider model promptEst cap >>= f') := by
  cases hr : o (.admitReq clientId provider model promptEst cap) with
  | none =>
      refine .stuck ?_ ?_
      · rw [solo_admitReq, hr, Option.bind_none]
      · rw [solo_admitReq, hr, Option.bind_none]
  | some r =>
      refine (hf r).of_answers ?_ ?_ ?_ ?_ (untouched_noteAdmission s r) (figures_noteAdmission s r)
      · rw [solo_admitReq, hr, Option.bind_some]
      · rw [solo_admitReq, hr, Option.bind_some]
      · rw [forwarded_admitReq, hr, Option.bind_some]
      · rw [forwarded_admitReq, hr, Option.bind_some]

theorem alike_refusal (m m' : Metric) {row row' : Row} (err : ApiError) (hs : err.status ≠ 200)
    (hrow : (Entry.audited row).figures = (Entry.audited row').figures) :
    Alike o g body body' route chain s
      (observe m >>= fun _ => audit row >>= fun _ => pure (Reply.error err))
      (observe m' >>= fun _ => audit row' >>= fun _ => pure (Reply.error err)) := by
  refine .refused err _ _ rfl rfl hs ⟨rfl, rfl, rfl, rfl, rfl, rfl, rfl⟩
    ⟨rfl, rfl, rfl, rfl, rfl, rfl, rfl⟩ ?_ rfl rfl
  rw [figures_note, figures_note, figures_note, figures_note, hrow]
  rfl

/-- The admission does not look at the flag. -/
theorem alike_admission {a a' : Accountant} (hclient : a.clientId = a'.clientId)
    (hprovider : a.providerName = a'.providerName) (ha : a.metering = g.metering)
    (ha' : a'.metering = g.metering) (stream stream' : Bool) (concrete : String)
    {payload payload' : Json} (hmessages : messagesOf payload = messagesOf payload')
    (c : Inspectors.DlpState) (s : State) :
    Alike o g { body with stream := stream } { body with stream := stream' } (some concrete)
      (some c) s
      (admission g a { body with stream := stream } concrete payload c)
      (admission g a' { body with stream := stream' } concrete payload' c) := by
  have hserve : ∀ a a' : Accountant, a.metering = g.metering → a'.metering = g.metering →
      ∀ u est, Alike o g { body with stream := stream } { body with stream := stream' }
        (some concrete) (some c) u
        (serve g a { body with stream := stream } concrete payload c est)
        (serve g a' { body with stream := stream' } concrete payload' c est) := by
    intro a a' ha ha' u est
    exact .passed a a' u concrete payload payload' c est rfl rfl ha ha'
      ⟨rfl, rfl, rfl, rfl, rfl, rfl, rfl⟩ rfl
      hmessages rfl rfl (forwarded_serve ..) (forwarded_serve ..)
  unfold admission
  dsimp only
  by_cases hm : g.metering = true
  · rw [if_pos hm, if_pos hm, ← hclient, ← hprovider]
    refine alike_admitReq fun r => ?_
    cases r with
    | ok rsv =>
        dsimp only
        refine hserve _ _ ?_ ?_ _ _
        · exact ha
        · exact ha'
    | error err =>
        cases err with
        | quotaExceeded scope limit => exact alike_refusal _ _ _ nofun rfl
        | backendUnavailable msg =>
            dsimp only
            by_cases hclosed : g.backendFailClosed = true
            · rw [if_pos hclosed, if_pos hclosed]
              exact alike_refusal _ _ _ nofun rfl
            · rw [if_neg hclosed, if_neg hclosed]
              refine hserve _ _ ?_ ?_ _ _
              · exact ha
              · exact ha'
  · rw [if_neg hm, if_neg hm]
    exact hserve _ _ ha ha' _ _

theorem alike_chatCompletions {cfg : Inspectors.Config} {e : Inspectors.Engine}
    {ord : Dlp.VaultOrder} {draws : List (UInt64 × UInt64)}
    (hinspect : Inspects o cfg e ord draws) (g : Gateway) (requestId clientId : String)
    (body : ChatCompletionRequest) (stream stream' : Bool) (s : State) :
    Alike o g { body with stream := stream } { body with stream := stream' }
      (servedModel o body.model clientId) (chainOf cfg e ord draws clientId body) s
      (chatCompletions g requestId clientId { body with stream := stream })
      (chatCompletions g requestId clientId { body with stream := stream' }) := by
  unfold chatCompletions
  dsimp only
  refine alike_resolve fun r hroute => ?_
  cases r with
  | error err =>
      cases err with
      | blocked message => exact alike_refusal _ _ _ (by simp [ApiError.blocked]) rfl
      | budgetExhausted message => exact alike_refusal _ _ _ (by simp [ApiError.rateLimited]) rfl
  | ok target =>
      obtain ⟨providerName, concrete⟩ := target
      dsimp only
      rw [validate_stream g body stream, validate_stream g body stream']
      cases hv : validate g body with
      | some err =>
          exact .refused err s s rfl rfl (validate_status hv) ⟨rfl, rfl, rfl, rfl, rfl, rfl, rfl⟩
            ⟨rfl, rfl, rfl, rfl, rfl, rfl, rfl⟩ rfl rfl rfl
      | none =>
          dsimp only
          by_cases hp : providerName ∉ g.providers
          · rw [if_pos hp, if_pos hp]
            exact .refused _ _ _ rfl rfl (by simp [ApiError.upstream])
              ⟨rfl, rfl, rfl, rfl, rfl, rfl, rfl⟩
              ⟨rfl, rfl, rfl, rfl, rfl, rfl, rfl⟩ rfl rfl rfl
          · rw [if_neg hp, if_neg hp]
            have hmsgs := (messagesOf_buildPayload { body with stream := stream } concrete).trans
              (messagesOf_buildPayload { body with stream := stream' } concrete).symm
            have hrel := Inspectors.processRequest_congr hmsgs cfg e ord (some clientId) draws
            rw [← hinspect, ← hinspect] at hrel
            refine alike_inspect hrel fun out out' hout hrel => ?_
            obtain ⟨hmessages, -, hresult⟩ := hrel
            rw [← hresult]
            cases hres : out.result with
            | error err =>
                exact alike_refusal _ _ _ (Inspectors.processRequest_status (hinspect _ _ ▸ hout) hres)
                  rfl
            | ok chain =>
                dsimp only
                have hchain : chainOf cfg e ord draws clientId body = some chain :=
                  chainOf_eq (messagesOf_buildPayload { body with stream := stream } concrete)
                    (hinspect _ _ ▸ hout) hres
                have hmodel : servedModel o body.model clientId = some concrete := by
                  rw [servedModel, hroute]
                  rfl
                rw [hchain, hmodel]
                refine alike_admission ?_ ?_ ?_ ?_ stream stream' concrete hmessages chain s
                all_goals rfl

end Alike

end Chat

end FirewallLLM
