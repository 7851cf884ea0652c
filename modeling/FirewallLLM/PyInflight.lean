import FirewallLLM.PyStream
import FirewallLLM.Runs

/-! # The slots of the Python gateway

The machine that runs the requests of one worker.  A request takes a slot, and `_audit_now`
gives it back with the final row.  The requests interleave at every operation.

A request that is gone without its final row has kept its slot: `leaks` lists the events by
which that happens.  `slots_conserved_iff`: the slots in use are those of the admitted requests
that have not ended, in every state of a run, if and only if no event of the run leaks one. -/

namespace FirewallLLM.Py

open Dlp (Text)

/-! ### The machine -/

/-- What has been done for a request, in order. -/
inductive Entry where
  | settled (rsv : Reservation) (prompt completion : ℤ) (usageSource : String)
  | observed (m : Metric)
  | audited (row : Row)
  | sent (event : Event)

/-- Where a request runs: its handler, its generator, or nowhere. -/
inductive Thread where
  | handler (p : Prog (Except Exn Reply))
  | stream (p : Prog (Except Exn Unit))
  | closed

/-- A request: whether it was admitted, `slot_held`, and whether its final row was written. -/
structure Request where
  thread : Thread
  admitted : Bool
  held : Bool
  audited : Bool
  log : List Entry

/-- `inflight_used`, and the requests so far. -/
structure State where
  used : ℤ
  requests : List Request

/-- A worker at its start. -/
def init : State := ⟨0, []⟩

/-- The answers of the environment. -/
abbrev Oracle := (e : Op) → Option (Res e)

def Request.note (r : Request) (entry : Entry) : Request := { r with log := r.log ++ [entry] }

/-- Log what was done, unless it raised. -/
def Request.noteOk (r : Request) (entry : Entry) : Except Exn Unit → Request
  | .ok _ => r.note entry
  | .error _ => r

/-- `_audit_now`: `_release_slot`, and the final row. -/
def auditAndRelease (used : ℤ) (r : Request) (row : Row) : ℤ × Request :=
  (if r.held then used - 1 else used, { r.note (.audited row) with held := false, audited := true })

/-- An operation of a request completes. -/
def perform (g : Gateway) (used : ℤ) (r : Request) (o : Oracle) :
    (e : Op) → Option (Res e × ℤ × Request)
  | .lock => (o .lock).map (fun x => (x, used, r))
  | .resolve m c => (o (.resolve m c)).map (fun x => (x, used, r))
  | .inspect payload c => (o (.inspect payload c)).map (fun x => (x, used, r))
  | .admitReq c p m est cap => (o (.admitReq c p m est cap)).map (fun x => (x, used, r))
  | .chat payload => (o (.chat payload)).map (fun x => (x, used, r))
  | .chatStream payload => (o (.chatStream payload)).map (fun x => (x, used, r))
  | .nextItem => (o .nextItem).map (fun x => (x, used, r))
  | .send event => (o (.send event)).map (fun x => (x, used, r.noteOk (.sent event) x))
  | .settle rsv p c source => (o (.settle rsv p c source)).map
      (fun x => (x, used, r.noteOk (.settled rsv p c source) x))
  | .observe m => (o (.observe m)).map (fun x => (x, used, r.noteOk (.observed m) x))
  | .acquire => some (if g.maxInflight ≤ used then (false, used, r)
      else (true, used + 1, { r with admitted := true, held := true }))
  | .auditNow row => some ((), auditAndRelease used r row)
  | .auditWrite row => some ((), used, r.note (.audited row))
  | .readResult ctx routed payload result =>
      some (readResult g.unicode ctx routed payload result, used, r)
  | .usageNumbers usage prompt text => some (usageNumbers g.unicode usage prompt text, used, r)

/-- A request arrives; one goes on by an operation; the generator of a response is started, or
dropped before it starts. -/
inductive RunEvent where
  | arrive (requestId clientId : String) (body : ChatCompletionRequest)
  | run (i : ℕ) (o : Oracle)
  | start (i : ℕ)
  | abandon (i : ℕ)

/-- The first operation of a program completes. -/
def advance {α : Type} (g : Gateway) (used : ℤ) (r : Request) (o : Oracle) :
    Prog α → Option (Prog α × ℤ × Request)
  | .ret _ => none
  | .op e k => (perform g used r o e).map (fun (x, used, r) => (k x, used, r))

/-- A request goes on by one operation. -/
def Request.run (g : Gateway) (used : ℤ) (r : Request) (o : Oracle) : Option (ℤ × Request) :=
  match r.thread with
  | .handler p => (advance g used r o p).map
      (fun (p, used, r) => (used, { r with thread := .handler p }))
  | .stream p => (advance g used r o p).map
      (fun (p, used, r) => (used, { r with thread := .stream p }))
  | .closed => none

/-- The generator of the response of a request. -/
def Request.generator? (r : Request) : Option (Prog (Except Exn Unit)) :=
  match r.thread with
  | .handler (.ret (.ok (.stream c payload ctx rsv))) => some (sse c payload ctx rsv)
  | _ => none

/-- One event; one that is not possible changes nothing. -/
def step (g : Gateway) (s : State) : RunEvent → State
  | .arrive requestId clientId body => { s with
      requests := s.requests ++
        [⟨.handler (chatCompletions g requestId clientId body), false, false, false, []⟩] }
  | .run i o => match s.requests[i]?.bind (fun r => r.run g s.used o) with
      | some (used, r) => ⟨used, s.requests.set i r⟩
      | none => s
  | .start i => match s.requests[i]? with
      | some r => match r.generator? with
        | some p => { s with requests := s.requests.set i { r with thread := .stream p } }
        | none => s
      | none => s
  | .abandon i => match s.requests[i]? with
      | some r => match r.generator? with
        | some _ => { s with requests := s.requests.set i { r with thread := .closed } }
        | none => s
      | none => s

/-- The request runs no more and never will. -/
def Thread.gone : Thread → Bool
  | .handler (.ret (.ok (.stream ..))) => false
  | .handler (.ret _) | .stream (.ret _) | .closed => true
  | _ => false

/-- The final row of the request is written, or the request is gone. -/
def Request.ended (r : Request) : Bool := r.audited || r.thread.gone

/-- Admitted, and not ended. -/
def Request.live (r : Request) : Bool := r.admitted && !r.ended

/-- The slots in use are those of the admitted requests that have not ended, and there are not
more of them than the limit. -/
structure Conserved (g : Gateway) (s : State) : Prop where
  used_eq : s.used = s.requests.countP Request.live
  nonneg : 0 ≤ s.used
  le_max : s.used ≤ g.maxInflight

/-! ### Leaks -/

/-- An answer of a handler that holds its slot, after which it is gone without a final row: a
provider that is not configured, what the handler does not catch, an upstream answer that it
cannot read, and metrics that fail. -/
def handlerLeaks (g : Gateway) : (e : Op) → Res e → Bool
  | .resolve _ _, .ok (providerName, _) => decide (providerName ∉ g.providers)
  | .resolve _ _, .error (.quotaExceeded _) | .resolve _ _, .error (.blocked _ _) => false
  | .resolve _ _, .error _ => true
  | .inspect _ _, .ok _ | .inspect _ _, .error (.blocked _ _) => false
  | .inspect _ _, .error _ => true
  | .admitReq .., .error e => !e.isException
  | .chat _, .ok _ | .chat _, .error (.blocked _ _) | .chat _, .error (.provider _) => false
  | .chat _, .error _ => true
  | .settle .., .error (.quotaExceeded _) => true
  | .settle .., .error e => !e.isException
  | .observe _, .error _ | .readResult .., .error _ => true
  | _, _ => false

/-- An answer of a generator that holds its slot, after which its `finally` block raises. -/
def streamLeaks : (e : Op) → Res e → Bool
  | .settle .., .error e => !e.isException
  | .observe _, .error _ | .usageNumbers .., .error _ => true
  | _, _ => false

/-- The next operation of a request takes its slot away for good. -/
def Request.leaks (g : Gateway) (used : ℤ) (r : Request) (o : Oracle) : Bool :=
  r.held && match r.thread with
    | .handler (.op e _) => (perform g used r o e).any (fun x => handlerLeaks g e x.1)
    | .stream (.op e _) => (perform g used r o e).any (fun x => streamLeaks e x.1)
    | _ => false

/-- The event takes the slot of a request away for good. -/
def leaks (g : Gateway) (s : State) : RunEvent → Bool
  | .run i o => s.requests[i]?.any (fun r => r.leaks g s.used o)
  | .abandon i => s.requests[i]?.any (fun r => r.held && r.generator?.isSome)
  | _ => false

/-! ### What a program does with its slot -/

variable {α : Type} {g : Gateway}

def Op.isAcquire : Op → Bool
  | .acquire => true
  | _ => false

/-- Never takes a slot. -/
def NoAcquire (p : Prog α) : Prop := p.Uses (fun e => e.isAcquire = false)

/-- A program that holds a slot: it gives it back with the final row, leaks it by an answer for
which `leak` says so, or ends as `done` allows. -/
def Holds (leak : (e : Op) → Res e → Bool) (done : Except Exn α → Prop) :
    Prog (Except Exn α) → Prop
  | .ret a => done a
  | .op .acquire _ => False
  | .op (.auditNow _) k => NoAcquire (k ())
  | .op e k => ∀ x, (leak e x = true ∧ ∃ err, k x = .ret (.error err)) ∨
      (leak e x = false ∧ Holds leak done (k x))

/-- A handler hands its slot over to a generator. -/
def IsStream (a : Except Exn Reply) : Prop := ∃ c payload ctx rsv, a = .ok (.stream c payload ctx rsv)

abbrev HandlerHolds (g : Gateway) : Prog (Except Exn Reply) → Prop :=
  Holds (handlerLeaks g) IsStream

abbrev StreamHolds : Prog (Except Exn Unit) → Prop := Holds streamLeaks (fun _ => False)

/-- The handler before it takes a slot. -/
def Entering (g : Gateway) : Prog (Except Exn Reply) → Prop
  | .ret a => ∃ e, a = .error e
  | .op .lock k => ∀ x, Entering g (k x)
  | .op .acquire k => HandlerHolds g (k true) ∧ NoAcquire (k false)
  | _ => False

/-! ### The generator -/

theorem holds_settleQuiet_bind {rsv : Option Reservation} {prompt completion : ℤ} {source : String}
    {f : Except Exn Unit → Prog (Except Exn Unit)}
    (herr : ∀ e, ∃ err, f (.error e) = .ret (.error err)) (hok : StreamHolds (f (.ok ()))) :
    StreamHolds (settleQuiet rsv prompt completion source >>= f) := by
  cases rsv with
  | none => exact hok
  | some rsv =>
      intro x
      cases x with
      | ok _ => exact .inr ⟨rfl, hok⟩
      | error e =>
          cases he : e.isException with
          | true =>
              refine .inr ⟨by simp [streamLeaks, he], ?_⟩
              simpa [Program.bind, he] using hok
          | false =>
              refine .inl ⟨by simp [streamLeaks, he], ?_⟩
              simpa [Program.bind, he] using herr e

namespace Sse

variable {sg : Sse} {l : Locals}

/-- The `finally` block writes the final row, unless it leaks. -/
theorem holds_finalize (sg : Sse) (l : Locals) {f : Except Exn Unit → Prog (Except Exn Unit)}
    (herr : ∀ e, ∃ err, f (.error e) = .ret (.error err)) (hok : NoAcquire (f (.ok ()))) :
    StreamHolds (sg.finalize l >>= f) := by
  intro x
  cases x with
  | error e => exact .inl ⟨rfl, herr e⟩
  | ok usage =>
      refine .inr ⟨rfl, ?_⟩
      obtain ⟨prompt, completion, source⟩ := usage
      simp only [Program.bind]
      change StreamHolds (Program.bind
        (Program.bind (settleQuiet sg.reservation prompt completion source) _) f)
      rw [Program.bind_assoc]
      refine holds_settleQuiet_bind herr ?_
      intro x
      cases x with
      | error e => exact .inl ⟨rfl, herr e⟩
      | ok _ => exact .inr ⟨rfl, hok⟩

theorem holds_leave (sg : Sse) (l : Locals) (outcome : Except Exn Unit) :
    StreamHolds (sg.leave l outcome) :=
  holds_finalize sg l (fun e => ⟨e, rfl⟩) trivial

theorem holds_leaveWith (sg : Sse) (l : Locals) (err : ApiError) :
    StreamHolds (sg.leaveWith l err) :=
  fun sent => .inr ⟨rfl, holds_leave sg l sent⟩

theorem holds_handleExn (sg : Sse) (l : Locals) (e : Exn) : StreamHolds (sg.handleExn l e) := by
  cases e with
  | blocked message reason => exact holds_leaveWith sg _ _
  | provider message => exact holds_leaveWith sg _ _
  | _ => exact holds_leave sg _ _

theorem holds_finish (sg : Sse) (l : Locals) : StreamHolds (sg.finish l) :=
  holds_finalize sg l (fun e => ⟨e, rfl⟩) ⟨rfl, fun _ => trivial⟩

theorem holds_flushTail (sg : Sse) (l : Locals) : StreamHolds (sg.flushTail l) := by
  unfold flushTail
  obtain ⟨flushed, session⟩ := l.session.flush
  cases flushed with
  | error e => exact holds_finish sg _
  | ok flushed =>
      by_cases h : flushed = []
      · simp only [if_pos h]
        exact holds_finish sg _
      · simp only [if_neg h]
        intro sent
        refine .inr ⟨rfl, ?_⟩
        cases sent with
        | error e => exact holds_handleExn sg _ e
        | ok _ => exact holds_finish sg _

theorem holds_loop (sg : Sse) (items : List Value) (l : Locals) :
    StreamHolds (sg.loop items l) := by
  induction items generalizing l with
  | nil =>
      intro x
      refine .inr ⟨rfl, ?_⟩
      cases x with
      | error e => exact holds_handleExn sg l e
      | ok _ => exact holds_flushTail sg l
  | cons item items ih =>
      intro x
      refine .inr ⟨rfl, ?_⟩
      cases x with
      | error e => exact holds_handleExn sg l e
      | ok _ =>
          simp only [Program.bind]
          cases readChunk item l with
          | none => exact ih l
          | some chunk =>
              intro sent
              refine .inr ⟨rfl, ?_⟩
              cases sent with
              | error e => exact holds_handleExn sg chunk.2 e
              | ok _ => exact ih chunk.2

end Sse

/-- The generator of a response gives its slot back, unless it leaks it. -/
theorem holds_sse (c : Caller) (payload : Fields) (ctx : Ctx) (rsv : Option Reservation) :
    StreamHolds (sse c payload ctx rsv) :=
  fun items => .inr ⟨rfl, Sse.holds_loop _ items _⟩

/-! ### The handler -/

theorem holds_refuse (c : Caller) (code auditCode text : String) (messages : Value)
    (err : ApiError) : HandlerHolds g (refuse c code auditCode text messages err) := by
  intro x
  cases x with
  | error e => exact .inl ⟨rfl, e, rfl⟩
  | ok _ => exact .inr ⟨rfl, trivial⟩

theorem holds_settleSafe_bind {rsv : Option Reservation} {prompt completion : ℤ}
    {source : String} {f : Except Exn Unit → Prog (Except Exn Reply)}
    (herr : ∀ e, ∃ err, f (.error e) = .ret (.error err)) (hok : HandlerHolds g (f (.ok ()))) :
    HandlerHolds g (settleSafe rsv prompt completion source >>= f) := by
  cases rsv with
  | none => exact hok
  | some rsv =>
      intro x
      cases x with
      | ok _ => exact .inr ⟨rfl, hok⟩
      | error e =>
          cases e with
          | quotaExceeded message => exact .inl ⟨rfl, herr _⟩
          | cancelled => exact .inl ⟨rfl, herr _⟩
          | generatorExit => exact .inl ⟨rfl, herr _⟩
          | _ => exact .inr ⟨rfl, hok⟩

theorem holds_failed (c : Caller) (rsv : Option Reservation) (promptEst : ℤ)
    (code text : String) (messages : Value) (err : ApiError) :
    HandlerHolds g (failed c rsv promptEst code text messages err) :=
  holds_settleSafe_bind (fun e => ⟨e, rfl⟩) (holds_refuse c code code text messages err)

theorem holds_complete (c : Caller) (payload : Fields) (rsv : Option Reservation)
    (done : Completion) : HandlerHolds g (complete c payload rsv done) := by
  refine holds_settleSafe_bind (fun e => ⟨e, rfl⟩) ⟨rfl, fun x => ?_⟩
  cases x with
  | error e => trivial
  | ok _ => trivial

theorem holds_chatResponse (c : Caller) (routedFrom : Option String) (payload : Fields)
    (ctx : Ctx) (rsv : Option Reservation) (promptEst : ℤ) :
    HandlerHolds g (chatResponse c routedFrom payload ctx rsv promptEst) := by
  intro x
  cases x with
  | ok result =>
      refine .inr ⟨rfl, fun done => ?_⟩
      cases done with
      | error e => exact .inl ⟨rfl, e, rfl⟩
      | ok done => exact .inr ⟨rfl, holds_complete c payload rsv done⟩
  | error e =>
      cases e with
      | blocked message reason => exact .inr ⟨rfl, holds_failed _ _ _ _ _ _ _⟩
      | provider message => exact .inr ⟨rfl, holds_failed _ _ _ _ _ _ _⟩
      | _ => exact .inl ⟨rfl, _, rfl⟩

theorem holds_serve (c : Caller) (body : ChatCompletionRequest) (concrete : String)
    (payload : Fields) (ctx : Ctx) (rsv : Option Reservation) (promptEst : ℤ) :
    HandlerHolds g (serve c body concrete payload ctx rsv promptEst) := by
  unfold serve
  split_ifs
  · exact ⟨_, _, _, _, rfl⟩
  · exact holds_chatResponse _ _ _ _ _ _
  · exact holds_chatResponse _ _ _ _ _ _

theorem holds_admission (c : Caller) (body : ChatCompletionRequest) (concrete : String)
    (payload : Fields) (ctx : Ctx) : HandlerHolds g (admission g c body concrete payload ctx) := by
  intro x
  simp only [Program.bind]
  cases x with
  | ok rsv =>
      refine .inr ⟨rfl, ?_⟩
      split_ifs
      · exact holds_serve _ _ _ _ _ _ _
      · exact holds_serve _ _ _ _ _ _ _
  | error e =>
      cases e with
      | cancelled =>
          refine .inl ⟨rfl, .cancelled, ?_⟩
          split_ifs <;> rfl
      | generatorExit =>
          refine .inl ⟨rfl, .generatorExit, ?_⟩
          split_ifs <;> rfl
      | _ =>
          refine .inr ⟨rfl, ?_⟩
          split_ifs
          · exact holds_refuse _ _ _ _ _ _
          -- fail-open: the exhausted quota still refuses
          · first
              | exact holds_serve _ _ _ _ _ _ _
              | exact holds_refuse _ _ _ _ _ _

theorem holds_handle (c : Caller) (body : ChatCompletionRequest) :
    HandlerHolds g (handle g c body) := by
  intro x
  cases x with
  | error e =>
      cases e with
      | quotaExceeded message => exact .inr ⟨rfl, holds_refuse _ _ _ _ _ _⟩
      | blocked message reason => exact .inr ⟨rfl, holds_refuse _ _ _ _ _ _⟩
      | _ => exact .inl ⟨rfl, _, rfl⟩
  | ok target =>
      obtain ⟨providerName, concrete⟩ := target
      simp only [Program.bind, handlerLeaks]
      by_cases hp : providerName ∉ g.providers
      · simp only [if_pos hp]
        exact .inl ⟨decide_eq_true hp, _, rfl⟩
      · simp only [if_neg hp]
        refine .inr ⟨decide_eq_false hp, fun x => ?_⟩
        cases x with
        | ok inspected => exact .inr ⟨rfl, holds_admission _ _ _ _ _⟩
        | error e =>
            cases e with
            | blocked message reason => exact .inr ⟨rfl, holds_refuse _ _ _ _ _ _⟩
            | _ => exact .inl ⟨rfl, _, rfl⟩

theorem entering_chatCompletions (requestId clientId : String) (body : ChatCompletionRequest) :
    Entering g (chatCompletions g requestId clientId body) := by
  intro x
  cases x with
  | error e => exact ⟨e, rfl⟩
  | ok _ =>
      refine ⟨holds_handle _ body, rfl, fun x => ?_⟩
      cases x with
      | error e => trivial
      | ok _ => exact ⟨rfl, fun _ => trivial⟩

theorem Holds.noAcquire {leak : (e : Op) → Res e → Bool} {done : Except Exn α → Prop}
    {p : Prog (Except Exn α)} (h : Holds leak done p) : NoAcquire p := by
  induction p with
  | ret a => trivial
  | op e k ih =>
      have hgo : ∀ x, ((leak e x = true ∧ ∃ err, k x = .ret (.error err)) ∨
          (leak e x = false ∧ Holds leak done (k x))) → NoAcquire (k x) := by
        rintro x (⟨-, err, herr⟩ | ⟨-, hk⟩)
        · rw [herr]
          trivial
        · exact ih x hk
      cases e with
      | acquire => exact h.elim
      | auditNow row => exact ⟨rfl, fun _ => h⟩
      | _ => exact ⟨rfl, fun x => hgo x (h x)⟩

/-! ### One operation -/

section Steps

variable {used used' : ℤ} {r r' : Request} {o : Oracle} {e : Op} {x : Res e}

/-- What the operations that do not touch the slot leave alone. -/
structure Same (r r' : Request) : Prop where
  thread : r'.thread = r.thread
  admitted : r'.admitted = r.admitted
  held : r'.held = r.held
  audited : r'.audited = r.audited

theorem same_noteOk (r : Request) (entry : Entry) (x : Except Exn Unit) :
    Same r (r.noteOk entry x) := by
  cases x with
  | ok _ => exact ⟨rfl, rfl, rfl, rfl⟩
  | error _ => exact ⟨rfl, rfl, rfl, rfl⟩

theorem perform_acquire {x : Res .acquire} (h : perform g used r o .acquire = some (x, used', r')) :
    (x = false ∧ used' = used ∧ r' = r) ∨
      (x = true ∧ used < g.maxInflight ∧ used' = used + 1 ∧
        r' = { r with admitted := true, held := true }) := by
  by_cases hfull : g.maxInflight ≤ used
  · simp only [perform, if_pos hfull, Option.some.injEq] at h
    obtain ⟨_, rfl, rfl⟩ := h
    exact .inl ⟨rfl, rfl, rfl⟩
  · simp only [perform, if_neg hfull, Option.some.injEq] at h
    obtain ⟨_, rfl, rfl⟩ := h
    exact .inr ⟨rfl, not_le.mp hfull, rfl, rfl⟩

theorem perform_auditNow {row : Row} {x : Res (.auditNow row)}
    (h : perform g used r o (.auditNow row) = some (x, used', r')) :
    used' = (if r.held then used - 1 else used) ∧
      r' = { r.note (.audited row) with held := false, audited := true } := by
  simp only [perform, auditAndRelease, Option.some.injEq] at h
  obtain ⟨_, rfl, rfl⟩ := h
  exact ⟨rfl, rfl⟩

theorem perform_same (h : perform g used r o e = some (x, used', r')) (ha : e.isAcquire = false)
    (hn : ∀ row, e ≠ .auditNow row) : used' = used ∧ Same r r' := by
  cases e with
  | acquire => cases ha
  | auditNow row => exact absurd rfl (hn row)
  | lock | resolve | inspect | admitReq | chat | chatStream | nextItem =>
      simp only [perform, Option.map_eq_some_iff, Prod.mk.injEq] at h
      obtain ⟨_, _, _, rfl, rfl⟩ := h
      exact ⟨rfl, rfl, rfl, rfl, rfl⟩
  | send | settle | observe =>
      simp only [perform, Option.map_eq_some_iff, Prod.mk.injEq] at h
      obtain ⟨y, _, _, rfl, rfl⟩ := h
      exact ⟨rfl, same_noteOk r _ y⟩
  | auditWrite | readResult | usageNumbers =>
      simp only [perform, Option.some.injEq] at h
      obtain ⟨_, rfl, rfl⟩ := h
      exact ⟨rfl, rfl, rfl, rfl, rfl⟩

/-- What becomes of a request that holds a slot: it gives it back with its final row, it leaks
it, or it goes on. -/
theorem Holds.step {leak : (e : Op) → Res e → Bool} {done : Except Exn α → Prop}
    {k : Res e → Prog (Except Exn α)} (hp : Holds leak done (.op e k)) (hheld : r.held = true)
    (hleak : ∀ row x, leak (.auditNow row) x = false)
    (h : perform g used r o e = some (x, used', r')) :
    (leak e x = false ∧ NoAcquire (k x) ∧ used' = used - 1 ∧ r'.thread = r.thread ∧
        r'.held = false ∧ r'.audited = true) ∨
      (leak e x = true ∧ (∃ err, k x = .ret (.error err)) ∧ used' = used ∧ Same r r') ∨
      (leak e x = false ∧ Holds leak done (k x) ∧ used' = used ∧ Same r r') := by
  cases e with
  | acquire => exact hp.elim
  | auditNow row =>
      obtain ⟨hu, hr⟩ := perform_auditNow h
      rw [hheld, if_pos rfl] at hu
      subst hr
      exact .inl ⟨hleak row x, hp, hu, rfl, rfl, rfl⟩
  | _ =>
      obtain ⟨hu, hsame⟩ := perform_same h rfl (fun _ => nofun)
      rcases hp x with ⟨hl, herr⟩ | ⟨hl, hk⟩
      · exact .inr (.inl ⟨hl, herr, hu, hsame⟩)
      · exact .inr (.inr ⟨hl, hk, hu, hsame⟩)

theorem NoAcquire.step {k : Res e → Prog α} (hp : NoAcquire (.op e k)) (hheld : r.held = false)
    (h : perform g used r o e = some (x, used', r')) :
    NoAcquire (k x) ∧ used' = used ∧ r'.held = false ∧ (r.audited = true → r'.audited = true) ∧
      r'.admitted = r.admitted ∧ r'.thread = r.thread := by
  refine ⟨hp.2 x, ?_⟩
  have ha := hp.1
  cases e with
  | acquire => cases ha
  | auditNow row =>
      obtain ⟨hu, hr⟩ := perform_auditNow h
      rw [hheld] at hu
      subst hr
      exact ⟨hu, rfl, fun _ => rfl, rfl, rfl⟩
  | _ =>
      obtain ⟨hu, hsame⟩ := perform_same h rfl (fun _ => nofun)
      exact ⟨hu, hsame.held.trans hheld, fun h => hsame.audited.trans h, hsame.admitted,
        hsame.thread⟩

end Steps

/-! ### One request -/

/-- Where a request stands with its slot. -/
inductive Standing (g : Gateway) (r : Request) : Prop where
  | entering {p : Prog (Except Exn Reply)} (thread : r.thread = .handler p)
      (enters : Entering g p) (admitted : r.admitted = false) (held : r.held = false)
      (audited : r.audited = false)
  | handling {p : Prog (Except Exn Reply)} (thread : r.thread = .handler p)
      (holds : HandlerHolds g p) (admitted : r.admitted = true) (held : r.held = true)
      (audited : r.audited = false)
  | streaming {p : Prog (Except Exn Unit)} (thread : r.thread = .stream p)
      (holds : StreamHolds p) (admitted : r.admitted = true) (held : r.held = true)
      (audited : r.audited = false)
  | leaked (gone : r.thread.gone = true) (admitted : r.admitted = true) (held : r.held = true)
      (audited : r.audited = false)
  | finished (handler : ∀ p, r.thread = .handler p → NoAcquire p)
      (stream : ∀ p, r.thread = .stream p → NoAcquire p) (held : r.held = false)
      (audited : r.admitted = true → r.audited = true)

/-- The slot of the request is lost. -/
def Request.lost (r : Request) : Bool := r.held && r.thread.gone

/-- What one operation of a request does to the slots. -/
structure RunSpec (g : Gateway) (used used' : ℤ) (r r' : Request) (leak : Bool) : Prop where
  standing : Standing g r'
  used_eq : used' + (if r.held then 1 else 0) = used + (if r'.held then 1 else 0)
  le_max : used' ≤ used ∨ used' ≤ g.maxInflight
  lost : r.lost = false
  lost' : r'.lost = leak

section Request

variable {used used' : ℤ} {r r' : Request} {o : Oracle}

theorem advance_eq_some {p q : Prog α} (h : advance g used r o p = some (q, used', r')) :
    ∃ e k x, p = .op e k ∧ perform g used r o e = some (x, used', r') ∧ q = k x := by
  cases p with
  | ret a => cases h
  | op e k =>
      simp only [advance, Option.map_eq_some_iff, Prod.mk.injEq] at h
      obtain ⟨⟨x, used₁, r₁⟩, hperform, rfl, rfl, rfl⟩ := h
      exact ⟨e, k, x, rfl, hperform, rfl⟩

theorem run_cases (h : r.run g used o = some (used', r')) :
    (∃ e k x r₁, r.thread = .handler (.op e k) ∧ perform g used r o e = some (x, used', r₁) ∧
        r' = { r₁ with thread := .handler (k x) }) ∨
      ∃ e k x r₁, r.thread = .stream (.op e k) ∧ perform g used r o e = some (x, used', r₁) ∧
        r' = { r₁ with thread := .stream (k x) } := by
  unfold Request.run at h
  cases ht : r.thread with
  | closed =>
      rw [ht] at h
      cases h
  | handler p =>
      rw [ht] at h
      simp only [Option.map_eq_some_iff, Prod.mk.injEq] at h
      obtain ⟨⟨q, used₁, r₁⟩, hadv, rfl, rfl⟩ := h
      obtain ⟨e, k, x, rfl, hperform, rfl⟩ := advance_eq_some hadv
      exact .inl ⟨e, k, x, r₁, rfl, hperform, rfl⟩
  | stream p =>
      rw [ht] at h
      simp only [Option.map_eq_some_iff, Prod.mk.injEq] at h
      obtain ⟨⟨q, used₁, r₁⟩, hadv, rfl, rfl⟩ := h
      obtain ⟨e, k, x, rfl, hperform, rfl⟩ := advance_eq_some hadv
      exact .inr ⟨e, k, x, r₁, rfl, hperform, rfl⟩

theorem not_gone_of_handlerHolds {p : Prog (Except Exn Reply)} (h : HandlerHolds g p) :
    (Thread.handler p).gone = false := by
  cases p with
  | op e k => rfl
  | ret a =>
      obtain ⟨c, payload, ctx, rsv, rfl⟩ := h
      rfl

theorem not_gone_of_streamHolds {p : Prog (Except Exn Unit)} (h : StreamHolds p) :
    (Thread.stream p).gone = false := by
  cases p with
  | op e k => rfl
  | ret a => exact h.elim

theorem leaks_eq_handler {e : Op} {k : Res e → Prog (Except Exn Reply)} {x : Res e}
    {r₁ : Request} (ht : r.thread = .handler (.op e k)) (hheld : r.held = true)
    (h : perform g used r o e = some (x, used', r₁)) :
    r.leaks g used o = handlerLeaks g e x := by
  simp only [Request.leaks, ht, hheld, h, Option.any_some, Bool.true_and]

theorem leaks_eq_stream {e : Op} {k : Res e → Prog (Except Exn Unit)} {x : Res e}
    {r₁ : Request} (ht : r.thread = .stream (.op e k)) (hheld : r.held = true)
    (h : perform g used r o e = some (x, used', r₁)) : r.leaks g used o = streamLeaks e x := by
  simp only [Request.leaks, ht, hheld, h, Option.any_some, Bool.true_and]

theorem leaks_of_not_held (hheld : r.held = false) : r.leaks g used o = false := by
  simp only [Request.leaks, hheld, Bool.false_and]

theorem leaks_of_run_none (h : r.run g used o = none) : r.leaks g used o = false := by
  have hadv : ∀ {α : Type} {e : Op} {k : Res e → Prog α}, advance g used r o (.op e k) = none →
      perform g used r o e = none := by
    intro α e k hnone
    simpa only [advance, Option.map_eq_none_iff] using hnone
  unfold Request.run at h
  unfold Request.leaks
  cases ht : r.thread with
  | closed => exact Bool.and_false _
  | handler p =>
      rw [ht] at h
      cases p with
      | ret a => exact Bool.and_false _
      | op e k => simp only [hadv (Option.map_eq_none_iff.mp h), Option.any_none, Bool.and_false]
  | stream p =>
      rw [ht] at h
      cases p with
      | ret a => exact Bool.and_false _
      | op e k => simp only [hadv (Option.map_eq_none_iff.mp h), Option.any_none, Bool.and_false]

theorem lost_of_not_held (hheld : r.held = false) : r.lost = false := by
  simp only [Request.lost, hheld, Bool.false_and]

theorem Standing.run_entering {e : Op} {k : Res e → Prog (Except Exn Reply)} {x : Res e}
    {r₁ : Request} (henter : Entering g (.op e k)) (hadm : r.admitted = false)
    (hheld : r.held = false) (haud : r.audited = false)
    (h : perform g used r o e = some (x, used', r₁)) :
    RunSpec g used used' r { r₁ with thread := .handler (k x) } (r.leaks g used o) := by
  rw [leaks_of_not_held hheld]
  cases e with
  | acquire =>
      rcases perform_acquire h with ⟨rfl, rfl, rfl⟩ | ⟨rfl, hlt, rfl, rfl⟩
      · refine ⟨.finished ?_ (fun _ h => nomatch h) hheld ?_, by rfl, .inl le_rfl,
          lost_of_not_held hheld, lost_of_not_held hheld⟩
        · rintro p ⟨⟩
          exact henter.2
        · intro hadm'
          cases hadm.symm.trans hadm'
      · refine ⟨.handling rfl henter.1 rfl rfl haud, ?_, .inr hlt, lost_of_not_held hheld,
          not_gone_of_handlerHolds henter.1⟩
        simp only [hheld, Bool.false_eq_true, if_false, if_true, add_zero]
  | lock =>
      obtain ⟨rfl, hsame⟩ := perform_same h rfl (fun _ => nofun)
      have hheld' := hsame.held.trans hheld
      refine ⟨.entering rfl (henter x) (hsame.admitted.trans hadm) hheld'
        (hsame.audited.trans haud), ?_, .inl le_rfl, lost_of_not_held hheld,
        lost_of_not_held hheld'⟩
      simp only [hheld, hheld']
  | _ => exact henter.elim

theorem Standing.run_holding {leak : (e : Op) → Res e → Bool} {done : Except Exn α → Prop}
    {t : Prog (Except Exn α) → Thread} {e : Op} {k : Res e → Prog (Except Exn α)} {x : Res e}
    {r₁ : Request} (hp : Holds leak done (.op e k)) (hadm : r.admitted = true)
    (hheld : r.held = true) (haud : r.audited = false) (hlost : r.lost = false)
    (hleak : ∀ row x, leak (.auditNow row) x = false)
    (hgone : ∀ err, (t (.ret (.error err))).gone = true)
    (hgo : ∀ (r' : Request) q, r'.thread = t q → Holds leak done q → r'.admitted = true →
      r'.held = true → r'.audited = false → Standing g r' ∧ r'.thread.gone = false)
    (hover : ∀ (r' : Request) q, r'.thread = t q → NoAcquire q → r'.held = false →
      r'.audited = true → Standing g r')
    (h : perform g used r o e = some (x, used', r₁)) :
    RunSpec g used used' r { r₁ with thread := t (k x) } (leak e x) := by
  rcases hp.step hheld hleak h with ⟨hl, hno, rfl, ht, hheld', haud'⟩ |
    ⟨hl, ⟨err, herr⟩, rfl, hsame⟩ | ⟨hl, hk, rfl, hsame⟩
  · rw [hl]
    refine ⟨hover _ _ rfl hno hheld' haud', ?_, .inl (by omega), hlost, lost_of_not_held hheld'⟩
    simp only [hheld, hheld', Bool.false_eq_true, if_false, if_true]
    omega
  · have hheld' := hsame.held.trans hheld
    have hgone' : (t (k x)).gone = true := by
      rw [herr]
      exact hgone err
    rw [hl]
    refine ⟨.leaked hgone' (hsame.admitted.trans hadm) hheld' (hsame.audited.trans haud), ?_,
      .inl le_rfl, hlost, ?_⟩
    · simp only [hheld, hheld']
    · simp only [Request.lost, hheld', hgone', Bool.and_self]
  · have hheld' := hsame.held.trans hheld
    obtain ⟨hstand, hng⟩ := hgo { r₁ with thread := t (k x) } _ rfl hk (hsame.admitted.trans hadm)
      hheld' (hsame.audited.trans haud)
    rw [hl]
    refine ⟨hstand, ?_, .inl le_rfl, hlost, ?_⟩
    · simp only [hheld, hheld']
    · simp only [Request.lost, hng, Bool.and_false]

theorem Standing.run_over {t : Prog α → Thread} {e : Op} {k : Res e → Prog α} {x : Res e}
    {r₁ : Request} (hp : NoAcquire (.op e k)) (hheld : r.held = false)
    (haud : r.admitted = true → r.audited = true)
    (hover : ∀ (r' : Request) q, r'.thread = t q → NoAcquire q → r'.held = false →
      (r'.admitted = true → r'.audited = true) → Standing g r')
    (h : perform g used r o e = some (x, used', r₁)) :
    RunSpec g used used' r { r₁ with thread := t (k x) } (r.leaks g used o) := by
  obtain ⟨hno, rfl, hheld', haud', hadm', -⟩ := hp.step hheld h
  rw [leaks_of_not_held hheld]
  refine ⟨hover _ _ rfl hno hheld' ?_, ?_, .inl le_rfl, lost_of_not_held hheld,
    lost_of_not_held hheld'⟩
  · intro hadm
    exact haud' (haud (hadm'.symm.trans hadm))
  · simp only [hheld, hheld']

theorem standing_over_handler (r' : Request) (q : Prog (Except Exn Reply))
    (ht : r'.thread = .handler q) (hno : NoAcquire q) (hheld : r'.held = false)
    (haud : r'.admitted = true → r'.audited = true) : Standing g r' := by
  refine .finished ?_ ?_ hheld haud
  · intro p hp
    cases ht.symm.trans hp
    exact hno
  · intro p hp
    cases ht.symm.trans hp

theorem standing_over_stream (r' : Request) (q : Prog (Except Exn Unit))
    (ht : r'.thread = .stream q) (hno : NoAcquire q) (hheld : r'.held = false)
    (haud : r'.admitted = true → r'.audited = true) : Standing g r' := by
  refine .finished ?_ ?_ hheld haud
  · intro p hp
    cases ht.symm.trans hp
  · intro p hp
    cases ht.symm.trans hp
    exact hno

/-- **One operation of a request.** -/
theorem Standing.run (hr : Standing g r) (h : r.run g used o = some (used', r')) :
    RunSpec g used used' r r' (r.leaks g used o) := by
  rcases run_cases h with ⟨e, k, x, r₁, ht, hp, rfl⟩ | ⟨e, k, x, r₁, ht, hp, rfl⟩
  · cases hr with
    | entering ht' henter hadm hheld haud =>
        cases ht.symm.trans ht'
        exact Standing.run_entering henter hadm hheld haud hp
    | handling ht' hholds hadm hheld haud =>
        cases ht.symm.trans ht'
        rw [leaks_eq_handler ht hheld hp]
        refine Standing.run_holding hholds hadm hheld haud ?_ (fun _ _ => rfl) (fun _ => rfl) ?_
          (fun r' q ht hno hh ha => standing_over_handler r' q ht hno hh fun _ => ha) hp
        · simp only [Request.lost, ht, Thread.gone, Bool.and_false]
        · intro r' q ht hq hadm hheld haud
          refine ⟨.handling ht hq hadm hheld haud, ?_⟩
          rw [ht]
          exact not_gone_of_handlerHolds hq
    | streaming ht' => cases ht.symm.trans ht'
    | leaked hgone =>
        rw [ht] at hgone
        cases hgone
    | finished hno _ hheld haud =>
        exact Standing.run_over (hno _ ht) hheld haud standing_over_handler hp
  · cases hr with
    | entering ht' => cases ht.symm.trans ht'
    | handling ht' => cases ht.symm.trans ht'
    | streaming ht' hholds hadm hheld haud =>
        cases ht.symm.trans ht'
        rw [leaks_eq_stream ht hheld hp]
        refine Standing.run_holding hholds hadm hheld haud ?_ (fun _ _ => rfl) (fun _ => rfl) ?_
          (fun r' q ht hno hh ha => standing_over_stream r' q ht hno hh fun _ => ha) hp
        · simp only [Request.lost, ht, Thread.gone, Bool.and_false]
        · intro r' q ht hq hadm hheld haud
          refine ⟨.streaming ht hq hadm hheld haud, ?_⟩
          rw [ht]
          exact not_gone_of_streamHolds hq
    | leaked hgone =>
        rw [ht] at hgone
        cases hgone
    | finished _ hno hheld haud =>
        exact Standing.run_over (hno _ ht) hheld haud standing_over_stream hp

end Request

/-! ### All requests -/

theorem countP_set_add {β : Type} {l : List β} {i : ℕ} {a b : β} (p : β → Bool)
    (h : l[i]? = some a) :
    (l.set i b).countP p + (if p a then 1 else 0) = l.countP p + (if p b then 1 else 0) := by
  obtain ⟨hlt, rfl⟩ := List.getElem?_eq_some_iff.mp h
  have hpos : p l[i] = true → 0 < l.countP p := fun hp =>
    List.countP_pos_iff.mpr ⟨_, List.getElem_mem hlt, hp⟩
  rw [List.countP_set hlt]
  split_ifs with hp <;> grind

/-- The slots whose requests are gone. -/
def State.lost (s : State) : ℕ := s.requests.countP Request.lost

/-- Every request stands somewhere with its slot, and the slots in use are those held. -/
structure Inv (g : Gateway) (s : State) : Prop where
  standing : ∀ r ∈ s.requests, Standing g r
  used_eq : s.used = s.requests.countP Request.held
  le_max : s.used ≤ max 0 g.maxInflight

section Runs

variable {s : State}

theorem inv_init (g : Gateway) : Inv g init :=
  ⟨by simp [init], rfl, le_max_left _ _⟩

theorem Inv.set (h : Inv g s) {i : ℕ} {r r' : Request} {used' : ℤ} {leak : Bool}
    (hi : s.requests[i]? = some r) (hrun : RunSpec g s.used used' r r' leak) :
    Inv g ⟨used', s.requests.set i r'⟩ ∧
      (State.mk used' (s.requests.set i r')).lost = s.lost + leak.toNat := by
  have hheld := countP_set_add (b := r') Request.held hi
  have hlost := countP_set_add (b := r') Request.lost hi
  have hle := h.le_max
  refine ⟨⟨?_, ?_, ?_⟩, ?_⟩
  · intro q hq
    rcases List.mem_or_eq_of_mem_set hq with hq | rfl
    · exact h.standing q hq
    · exact hrun.standing
  · have hused := hrun.used_eq
    rw [h.used_eq] at hused
    change used' = ((s.requests.set i r').countP Request.held : ℤ)
    split_ifs at hused hheld <;> omega
  · rcases hrun.le_max with hmax | hmax
    · exact hmax.trans hle
    · exact hmax.trans (le_max_right _ _)
  · rw [hrun.lost, hrun.lost'] at hlost
    change (s.requests.set i r').countP Request.lost = s.requests.countP Request.lost + _
    cases leak with
    | true => simpa using hlost
    | false => simpa using hlost

theorem generator?_eq_some {r : Request} {p : Prog (Except Exn Unit)}
    (h : r.generator? = some p) : ∃ c payload ctx rsv,
      r.thread = .handler (.ret (.ok (.stream c payload ctx rsv))) ∧ p = sse c payload ctx rsv := by
  unfold Request.generator? at h
  split at h
  · next c payload ctx rsv ht => exact ⟨c, payload, ctx, rsv, ht, (Option.some.inj h).symm⟩
  · cases h

theorem Standing.start {r : Request} {p : Prog (Except Exn Unit)} {used : ℤ} (hr : Standing g r)
    (h : r.generator? = some p) : RunSpec g used used r { r with thread := .stream p } false := by
  obtain ⟨c, payload, ctx, rsv, ht, rfl⟩ := generator?_eq_some h
  have hholds := holds_sse c payload ctx rsv
  have hlost : r.lost = false := by simp only [Request.lost, ht, Thread.gone, Bool.and_false]
  cases hr with
  | entering ht' henter =>
      cases ht.symm.trans ht'
      obtain ⟨e, he⟩ := henter
      cases he
  | handling _ _ hadm hheld haud =>
      refine ⟨.streaming rfl hholds hadm hheld haud, rfl, .inl le_rfl, hlost, ?_⟩
      simp only [Request.lost, not_gone_of_streamHolds hholds, Bool.and_false]
  | streaming ht' => cases ht.symm.trans ht'
  | leaked hgone =>
      rw [ht] at hgone
      cases hgone
  | finished _ _ hheld haud =>
      exact ⟨standing_over_stream _ _ rfl hholds.noAcquire hheld haud, rfl, .inl le_rfl, hlost,
        lost_of_not_held hheld⟩

/-- The response is dropped before its generator starts: a slot that it held is lost. -/
theorem Standing.abandon {r : Request} {p : Prog (Except Exn Unit)} {used : ℤ}
    (hr : Standing g r) (h : r.generator? = some p) :
    RunSpec g used used r { r with thread := .closed } r.held := by
  obtain ⟨c, payload, ctx, rsv, ht, rfl⟩ := generator?_eq_some h
  have hlost : r.lost = false := by simp only [Request.lost, ht, Thread.gone, Bool.and_false]
  have hlost' : ({ r with thread := .closed } : Request).lost = r.held := Bool.and_true _
  cases hr with
  | entering ht' henter =>
      cases ht.symm.trans ht'
      obtain ⟨e, he⟩ := henter
      cases he
  | handling _ _ hadm hheld haud =>
      exact ⟨.leaked rfl hadm hheld haud, rfl, .inl le_rfl, hlost, hlost'⟩
  | streaming ht' => cases ht.symm.trans ht'
  | leaked hgone =>
      rw [ht] at hgone
      cases hgone
  | finished _ _ hheld haud =>
      exact ⟨.finished (fun _ h => nomatch h) (fun _ h => nomatch h) hheld haud, rfl,
        .inl le_rfl, hlost, hlost'⟩

/-- **One event.** -/
theorem Inv.step (h : Inv g s) (ev : RunEvent) :
    Inv g (Py.step g s ev) ∧ (Py.step g s ev).lost = s.lost + (leaks g s ev).toNat := by
  cases ev with
  | arrive requestId clientId body =>
      refine ⟨⟨?_, ?_, h.le_max⟩, ?_⟩
      · intro r hr
        rcases List.mem_append.mp hr with hr | hr
        · exact h.standing r hr
        · cases List.mem_singleton.mp hr
          exact .entering rfl (entering_chatCompletions requestId clientId body) rfl rfl rfl
      · simpa [Py.step] using h.used_eq
      · simp [Py.step, State.lost, leaks, Request.lost]
  | run i o =>
      cases hi : s.requests[i]? with
      | none =>
          simp only [Py.step, leaks, hi, Option.bind_none, Option.any_none]
          exact ⟨h, rfl⟩
      | some r =>
          have hstand := h.standing r (List.mem_of_getElem? hi)
          simp only [Py.step, leaks, hi, Option.bind_some, Option.any_some]
          cases hrun : r.run g s.used o with
          | some next => exact h.set hi (hstand.run hrun)
          | none =>
              rw [leaks_of_run_none hrun]
              exact ⟨h, rfl⟩
  | start i =>
      cases hi : s.requests[i]? with
      | none =>
          simp only [Py.step, hi]
          exact ⟨h, rfl⟩
      | some r =>
          have hstand := h.standing r (List.mem_of_getElem? hi)
          simp only [Py.step, hi]
          cases hgen : r.generator? with
          | none => exact ⟨h, rfl⟩
          | some p => exact h.set hi (hstand.start hgen)
  | abandon i =>
      cases hi : s.requests[i]? with
      | none =>
          simp only [Py.step, leaks, hi, Option.any_none]
          exact ⟨h, rfl⟩
      | some r =>
          have hstand := h.standing r (List.mem_of_getElem? hi)
          simp only [Py.step, leaks, hi, Option.any_some]
          cases hgen : r.generator? with
          | none => simpa using h
          | some p => simpa using h.set hi (hstand.abandon hgen)

theorem Standing.live {r : Request} (hr : Standing g r) :
    r.live = (r.held && !r.thread.gone) := by
  cases hr with
  | entering _ _ hadm hheld => simp only [Request.live, hadm, hheld, Bool.false_and]
  | handling _ _ hadm hheld haud =>
      simp only [Request.live, Request.ended, hadm, hheld, haud, Bool.false_or, Bool.true_and]
  | streaming _ _ hadm hheld haud =>
      simp only [Request.live, Request.ended, hadm, hheld, haud, Bool.false_or, Bool.true_and]
  | leaked _ hadm hheld haud =>
      simp only [Request.live, Request.ended, hadm, hheld, haud, Bool.false_or, Bool.true_and]
  | finished _ _ hheld haud =>
      cases hadm : r.admitted with
      | false => simp only [Request.live, hadm, hheld, Bool.false_and]
      | true =>
          simp only [Request.live, Request.ended, hadm, hheld, haud hadm, Bool.true_or,
            Bool.not_true, Bool.and_false, Bool.false_and]

/-- The slots in use are those of the live requests and those that are lost. -/
theorem Inv.used_eq_add (h : Inv g s) : s.used = s.requests.countP Request.live + s.lost := by
  have hcount : ∀ rs : List Request, (∀ r ∈ rs, Standing g r) →
      rs.countP Request.held = rs.countP Request.live + rs.countP Request.lost := by
    intro rs hrs
    induction rs with
    | nil => rfl
    | cons r rs ih =>
        obtain ⟨hr, hrs⟩ := List.forall_mem_cons.mp hrs
        rw [List.countP_cons, List.countP_cons, List.countP_cons, ih hrs, hr.live, Request.lost]
        cases r.held <;> cases r.thread.gone <;> simp <;> omega
  rw [h.used_eq, State.lost, hcount _ h.standing, Nat.cast_add]

/-- No event of a run leaks a slot. -/
def LeaksNothing (g : Gateway) (s : State) (es : List RunEvent) : Prop :=
  Runs.Along (Py.step g) (fun s ev => leaks g s ev = false) s es

/-- A run keeps the invariant, and loses a slot if and only if one of its events leaks it. -/
theorem Inv.run (h : Inv g s) (es : List RunEvent) :
    Inv g (Runs.final (Py.step g) s es) ∧
      ((Runs.final (Py.step g) s es).lost = 0 ↔ s.lost = 0 ∧ LeaksNothing g s es) := by
  induction es generalizing s with
  | nil => exact ⟨h, by simp [LeaksNothing]⟩
  | cons ev es ih =>
      obtain ⟨hinv, hlost⟩ := h.step ev
      obtain ⟨hfinal, hiff⟩ := ih hinv
      refine ⟨hfinal, hiff.trans ?_⟩
      rw [hlost, LeaksNothing, LeaksNothing, Runs.along_cons, Nat.add_eq_zero_iff,
        Bool.toNat_eq_zero, and_assoc]

/-- **The slots in use are at every time those of the admitted requests that have not ended,
and lie between 0 and the limit, if and only if the limit is not negative and no event leaks a
slot; when all requests have ended, no slot is in use if and only if no event leaked one.** -/
theorem slots_conserved_iff (g : Gateway) (es : List RunEvent) :
    ((∀ pre post, es = pre ++ post → Conserved g (Runs.final (step g) init pre)) ↔
        0 ≤ g.maxInflight ∧ LeaksNothing g init es) ∧
      ((∀ r ∈ (Runs.final (step g) init es).requests, r.ended = true) →
        ((Runs.final (step g) init es).used = 0 ↔ LeaksNothing g init es)) := by
  have hlost : ∀ es', (Runs.final (step g) init es').lost = 0 ↔ LeaksNothing g init es' := by
    intro es'
    rw [((inv_init g).run es').2]
    exact and_iff_right rfl
  refine ⟨⟨fun h => ⟨?_, ?_⟩, ?_⟩, fun hended => ?_⟩
  · exact (h [] es rfl).le_max
  · have hused := ((inv_init g).run es).1.used_eq_add
    have hcons := (h es [] (List.append_nil es).symm).used_eq
    rw [← hlost]
    omega
  · rintro ⟨hmax, hleaks⟩ pre post rfl
    have hpre := (hlost pre).mpr ((Runs.along_append _ _ _).mp hleaks).1
    have hinv := ((inv_init g).run pre).1
    have hused := hinv.used_eq_add
    have hle := hinv.le_max
    refine ⟨?_, ?_, ?_⟩ <;> omega
  · have hused := ((inv_init g).run es).1.used_eq_add
    have hlive : (Runs.final (step g) init es).requests.countP Request.live = 0 := by
      rw [List.countP_eq_zero]
      intro r hr
      simp [Request.live, hended r hr]
    rw [← hlost]
    omega

/-- A worker with two slots and one provider. -/
def sampleGateway : Gateway where
  providers := ["p"]
  backendFailClosed := false
  completionReserve := 1024
  maxInflight := 2
  unicode := ⟨fun _ => none, fun _ => false⟩

def sampleRequest : ChatCompletionRequest where
  model := "m"
  messages := [⟨"user".toList, some "hi".toList, none, none⟩]
  stream := false
  temperature := none
  topP := none
  maxTokens := none
  stop := none
  streamOptions := none

/-- The provider answers with a usage whose prompt tokens are null. -/
def nullUsage : Oracle
  | .lock | .settle .. | .observe _ => some (.ok ())
  | .resolve m _ => some (.ok ("p", m))
  | .inspect payload _ => some (.ok (payload, ⟨fun text => .ok text, none⟩))
  | .admitReq c p m est cap => some (.ok ⟨"r", c, p, m, est, cap⟩)
  | .chat _ => some (.ok (.dict [("choices", .list []),
      ("usage", .dict [("prompt_tokens", .none), ("completion_tokens", .int 1)])]))
  | _ => none

/-- One request, to its end. -/
def nullUsageRun : List RunEvent := .arrive "r" "c" sampleRequest :: List.replicate 7 (.run 0 nullUsage)

theorem slot_lost :
    (Runs.final (step sampleGateway) init nullUsageRun).requests.map Request.ended = [true] ∧
      (Runs.final (step sampleGateway) init nullUsageRun).used = 1 := by
  constructor <;> rfl

end Runs

end FirewallLLM.Py
