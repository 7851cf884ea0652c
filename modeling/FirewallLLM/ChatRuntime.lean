import FirewallLLM.ChatCompletions
import FirewallLLM.Runs

/-! # One chat request at run time

The machine that runs the programs of a chat request.  The handler answers with a JSON body or
with an SSE body; the server polls the body and drops it at some point; dropped accountants
spawn tasks.  The threads interleave at every operation.

A future can be dropped where it waits, and dropping it abandons the operation it waits for.  A
panic drops the handler where it stands.  What the environment answers comes with the events;
an operation that it does not answer stays pending. -/

namespace FirewallLLM.Chat

open Dlp (StreamState StreamRestore Event)

/-- What has been done, in order. -/
inductive Entry where
  | admitted (rsv : Reservation)
  | settled (rsv : Reservation) (prompt completion : Int64)
  | recorded (clientId provider model : String) (prompt completion : Int64)
  | routed (provider : String) (tokens : Int64)
  | observed (m : Metric)
  | audited (row : Row)
  | sent (event : Event)

/-- The threads of a request, the accountants it still owns and what they share.  `handler` is
`none` once it has returned or was dropped, and `body` before and after the stream. -/
structure State where
  handler : Option (Prog Reply)
  body : Option (Prog Unit)
  accountant : Option Accountant
  guard : Bool
  tasks : List (Prog Unit)
  recorded : Bool
  finalized : Bool
  stream : StreamState
  reservation : Option Reservation
  log : List Entry

/-- A request at its start. -/
def init (g : Gateway) (requestId clientId : String) (body : ChatCompletionRequest) : State where
  handler := some (chatCompletions g requestId clientId body)
  body := none
  accountant := none
  guard := false
  tasks := []
  recorded := false
  finalized := false
  stream := StreamState.new (StreamRestore.new [] [] g.policy)
  reservation := none
  log := []

/-- The operations at which a future waits. -/
def Op.suspends : Op → Bool
  | .resolve .. | .admitReq .. | .chat _ | .chatStream _ | .settle .. | .record ..
  | .recordTokensToday .. | .nextItem | .send _ | .panic => true
  | _ => false

/-- The answers of the environment. -/
abbrev Oracle := (e : Op) → Option (Res e)

def State.note (s : State) (entry : Entry) : State := { s with log := s.log ++ [entry] }

/-- The tasks that are spawned when the accountant of the terminal chunk is dropped. -/
def State.guardTasks (s : State) : List (Prog Unit) :=
  match s.guard, s.accountant with
  | true, some a => [a.dropTask s.stream]
  | _, _ => []

/-- The tasks that are spawned when the accountant of the body is dropped. -/
def State.bodyTasks (s : State) : List (Prog Unit) :=
  match s.accountant with
  | some a => [a.dropTask s.stream]
  | none => []

/-- An operation completes. -/
def perform (s : State) (o : Oracle) : (e : Op) → Option (Res e × State)
  | .resolve m c => (o (.resolve m c)).map (fun r => (r, s))
  | .admitReq c p m est cap => (o (.admitReq c p m est cap)).map (fun r => (r, match r with
      | .ok rsv => { s.note (.admitted rsv) with reservation := some rsv }
      | .error _ => s))
  | .chat payload => (o (.chat payload)).map (fun r => (r, s))
  | .chatStream payload => (o (.chatStream payload)).map (fun r => (r, s))
  | .settle rsv p d => (o (.settle rsv p d)).map (fun r => (r, s.note (.settled rsv p d)))
  | .record c p m n d => (o (.record c p m n d)).map (fun r => (r, s.note (.recorded c p m n d)))
  | .recordTokensToday p n => (o (.recordTokensToday p n)).map (fun r => (r, s.note (.routed p n)))
  | .nextItem => (o .nextItem).map (fun r => (r, s))
  | .send event => (o (.send event)).map (fun r => (r, s.note (.sent event)))
  | .inspect payload c => (o (.inspect payload c)).map (fun r => (r, s))
  | .observe m => some ((), s.note (.observed m))
  | .audit row => some ((), s.note (.audited row))
  | .finish row => some ((), if s.finalized then s
      else { s.note (.audited row) with finalized := true })
  | .openStream session => some ((), { s with stream := StreamState.new session })
  | .mapItem item => some ((Dlp.mapItem s.stream item).1,
      { s with stream := (Dlp.mapItem s.stream item).2 })
  | .flush => some (s.stream.session.flush.1, { s with stream := { s.stream with
      session := s.stream.session.flush.2
      completionText := s.stream.completionText ++ s.stream.session.flush.1 } })
  | .cells => some (s.stream, s)
  | .swapRecorded => some (s.recorded, { s with recorded := true })
  | .dropGuard => some ((), { s with guard := false, tasks := s.tasks ++ s.guardTasks })
  | .panic => none

/-- The threads. -/
inductive Thread where
  | handler
  | body
  | task (i : ℕ)

/-- A thread goes on by one operation; the handler returns; the server drops the handler or
the body. -/
inductive RunEvent where
  | run (t : Thread) (o : Oracle)
  | returned
  | dropHandler
  | dropBody

/-- The first operation of a program completes. -/
def advance {α : Type} (s : State) (o : Oracle) : Prog α → Option (Prog α × State)
  | .ret _ => none
  | .op e k => (perform s o e).map (fun (r, s) => (k r, s))

/-- A future that waits or has ended. -/
def droppable {α : Type} : Prog α → Bool
  | .ret _ => true
  | .op e _ => e.suspends

/-- One event; one that is not possible changes nothing. -/
def step (s : State) : RunEvent → State
  | .run .handler o => match s.handler.bind (advance s o) with
      | some (p, s) => { s with handler := some p }
      | none => s
  | .run .body o => match s.body.bind (advance s o) with
      | some (p, s) => { s with body := some p }
      | none => s
  | .run (.task i) o => match (s.tasks[i]?).bind (advance s o) with
      | some (p, s) => { s with tasks := s.tasks.set i p }
      | none => s
  | .returned => match s.handler with
      | some (.ret (.sse a items)) => { s with
          handler := none
          body := some (a.bodyStream items)
          accountant := some a
          guard := true }
      | some (.ret (.json _ _)) => { s with handler := none }
      | _ => s
  | .dropHandler => match s.handler with
      | some (.op e _) => if e.suspends then { s with handler := none } else s
      | _ => s
  | .dropBody => match s.body with
      | some b => if droppable b then { s with
          body := none
          guard := false
          tasks := s.tasks ++ s.guardTasks ++ s.bodyTasks }
        else s
      | none => s

/-- The handler, the body and all tasks have ended. -/
def State.Ended (s : State) : Prop :=
  s.handler = none ∧ s.body = none ∧ ∀ t ∈ s.tasks, t = .ret ()

/-- The reservations that have been settled. -/
def State.settles (s : State) : List Reservation :=
  s.log.filterMap (fun entry => match entry with
    | .settled rsv _ _ => some rsv
    | _ => none)

/-! ### One event -/

section Events

variable {α : Type} {s s' : State} {o : Oracle}

theorem advance_eq_some {p q : Prog α} (h : advance s o p = some (q, s')) :
    ∃ e k r, p = .op e k ∧ perform s o e = some (r, s') ∧ q = k r := by
  cases p with
  | ret a => cases h
  | op e k =>
      simp only [advance, Option.map_eq_some_iff, Prod.mk.injEq] at h
      obtain ⟨⟨r, s₁⟩, hperform, rfl, rfl⟩ := h
      exact ⟨e, k, r, rfl, hperform, rfl⟩

theorem run_handler {p : Prog Reply} (h : s.handler = some p) (o : Oracle) :
    (advance s o p = none ∧ step s (.run .handler o) = s) ∨
      ∃ e k r s', p = .op e k ∧ perform s o e = some (r, s') ∧
      step s (.run .handler o) = { s' with handler := some (k r) } := by
  simp only [step, h, Option.bind_some]
  cases hadv : advance s o p with
  | none => exact .inl ⟨rfl, rfl⟩
  | some q =>
      obtain ⟨q, s'⟩ := q
      obtain ⟨e, k, r, hp, hperform, rfl⟩ := advance_eq_some hadv
      exact .inr ⟨e, k, r, s', hp, hperform, rfl⟩

theorem run_body {p : Prog Unit} (h : s.body = some p) (o : Oracle) :
    (advance s o p = none ∧ step s (.run .body o) = s) ∨
      ∃ e k r s', p = .op e k ∧ perform s o e = some (r, s') ∧
      step s (.run .body o) = { s' with body := some (k r) } := by
  simp only [step, h, Option.bind_some]
  cases hadv : advance s o p with
  | none => exact .inl ⟨rfl, rfl⟩
  | some q =>
      obtain ⟨q, s'⟩ := q
      obtain ⟨e, k, r, hp, hperform, rfl⟩ := advance_eq_some hadv
      exact .inr ⟨e, k, r, s', hp, hperform, rfl⟩

theorem run_task (s : State) (i : ℕ) (o : Oracle) :
    step s (.run (.task i) o) = s ∨ ∃ l e k ps r s', s.tasks = l ++ .op e k :: ps ∧
      l.length = i ∧ perform s o e = some (r, s') ∧
      step s (.run (.task i) o) = { s' with tasks := s'.tasks.set i (k r) } := by
  simp only [step]
  cases hi : s.tasks[i]? with
  | none => exact .inl rfl
  | some p =>
      simp only [Option.bind_some]
      cases hadv : advance s o p with
      | none => exact .inl rfl
      | some q =>
          obtain ⟨q, s'⟩ := q
          obtain ⟨e, k, r, rfl, hperform, rfl⟩ := advance_eq_some hadv
          obtain ⟨hlt, hget⟩ := List.getElem?_eq_some_iff.mp hi
          refine .inr ⟨s.tasks.take i, e, k, s.tasks.drop (i + 1), r, s', ?_, ?_, hperform, rfl⟩
          · rw [← hget, ← List.drop_eq_getElem_cons hlt, List.take_append_drop]
          · exact List.length_take_of_le hlt.le

theorem run_body_none (h : s.body = none) (o : Oracle) : step s (.run .body o) = s := by
  simp only [step, h, Option.bind_none]

theorem run_handler_none (h : s.handler = none) (o : Oracle) :
    step s (.run .handler o) = s := by
  simp only [step, h, Option.bind_none]

end Events

end FirewallLLM.Chat
