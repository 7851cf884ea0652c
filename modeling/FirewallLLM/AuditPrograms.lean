import FirewallLLM.ChatRuntime

/-! # What the programs of a chat request write to the audit log

The handler writes one row after its last await, or leaves it to the body of a stream; it
skips it for a provider that is not configured.  The body and the tasks of the dropped
accountants write through `finish`, of which only the first call counts.  The predicates below
say this of the programs, with the request of the row and its code, and the lemmas about one
operation say what it does to the rows. -/

namespace FirewallLLM.Chat

open Dlp (Item StreamState StreamRestore)

variable {α β : Type} {id : String}

/-- The rows that have been written. -/
def State.rows (s : State) : List Row :=
  s.log.filterMap (fun entry => match entry with
    | .audited row => some row
    | _ => none)

/-! ### What a program may still do -/

/-- The operations that touch neither the rows nor the accountants nor the error flag. -/
def Op.calm : Op → Bool
  | .audit _ | .finish _ | .mapItem _ | .openStream _ | .dropGuard => false
  | _ => true

def Op.writes : Op → Bool
  | .audit _ | .finish _ => true
  | _ => false

def Op.isAudit : Op → Bool
  | .audit _ => true
  | _ => false

/-- Writes no row. -/
def NoWrites (p : Prog α) : Prop := p.Uses (fun e => e.writes = false)

/-- Writes no row, but through `finish`. -/
def NoAudit (p : Prog α) : Prop := p.Uses (fun e => e.isAudit = false)

/-- The handler with nothing left to write: it waits no more. -/
def Written : Prog Reply → Prop
  | .ret reply => ∃ status body, reply = .json status body
  | .op e k => (e.calm && !e.suspends) = true ∧ ∀ r, Written (k r)

/-- The handler before its row, which it skips after the answers of the router in `skip` and
may leave to a body. -/
def Unwritten (skip : Except RoutingError (String × String) → Bool) (id : String) :
    Prog Reply → Prop
  | .ret reply => ∃ a items, reply = .sse a items ∧ a.requestId = id
  | .op (.audit row) k => row.requestId = id ∧ Written (k ())
  | .op (.finish row) k => row.requestId = id ∧ Written (k ())
  | .op (.resolve _ _) k => ∀ r, (skip r = true ∧ Written (k r)) ∨
      (skip r = false ∧ Unwritten skip id (k r))
  | .op (.mapItem _) _ => False
  | .op .dropGuard _ => False
  | .op _ k => ∀ r, Unwritten skip id (k r)

/-- The code of the terminal chunk, and of a dropped accountant. -/
def terminalCode (streamError : Bool) : String := if streamError then "upstream_error" else "ok"

def dropCode (streamError : Bool) : String :=
  if streamError then "upstream_error" else "cancelled"

/-- A body that finishes the request with the code that belongs to the error flag, if the flag
is `streamError` now. -/
def Ends (id : String) : Prog Unit → Bool → Prop
  | .ret _, _ => True
  | .op .cells k, streamError => ∀ st : StreamState, st.streamError = streamError →
      Ends id (k st) streamError
  | .op (.mapItem (.error _)) k, _ => ∀ r, Ends id (k r) true
  | .op (.finish row) k, streamError =>
      row.requestId = id ∧ row.code = terminalCode streamError ∧ NoWrites (k ())
  | .op (.audit _) _, _ => False
  | .op (.openStream _) _, _ => False
  | .op .dropGuard _, _ => False
  | .op _ k, streamError => ∀ r, Ends id (k r) streamError

/-- The operations of a task that finishes the request with `code`. -/
def Op.finishesWith (id code : String) : Op → Prop
  | .finish row => row.requestId = id ∧ row.code = code
  | e => e.calm = true

/-- Every path finishes the request. -/
def MustFinish : Prog Unit → Prop
  | .ret _ => False
  | .op (.finish _) _ => True
  | .op _ k => ∀ r, MustFinish (k r)

/-! ### Sequencing -/

theorem Ends.bind {p : Prog α} {f : α → Prog Unit} {streamError : Bool}
    (hp : p.Uses (fun e => e.calm = true)) (hf : ∀ a, Ends id (f a) streamError) :
    Ends id (p >>= f) streamError := by
  induction p with
  | ret a => exact hf a
  | op e k ih =>
      obtain ⟨he, hk⟩ := hp
      cases e with
      | audit | finish | mapItem | openStream | dropGuard => cases he
      | cells => exact fun r _ => ih r (hk r)
      | _ => exact fun r => ih r (hk r)

theorem MustFinish.bind (p : Prog α) {f : α → Prog Unit} (hf : ∀ a, MustFinish (f a)) :
    MustFinish (p >>= f) := by
  induction p with
  | ret a => exact hf a
  | op e k ih =>
      cases e with
      | finish row => trivial
      | _ => exact fun r => ih r

theorem Unwritten.bind {skip : Except RoutingError (String × String) → Bool} {p : Prog α}
    {f : α → Prog Reply} (hp : p.Uses (fun e => e.calm = true ∧ ∀ m c, e ≠ .resolve m c))
    (hf : ∀ a, Unwritten skip id (f a)) : Unwritten skip id (p >>= f) := by
  induction p with
  | ret a => exact hf a
  | op e k ih =>
      obtain ⟨⟨he, hr⟩, hk⟩ := hp
      cases e with
      | audit | finish | mapItem | openStream | dropGuard => cases he
      | resolve m c => exact absurd rfl (hr m c)
      | _ => exact fun r => ih r (hk r)

/-! ### The body and the tasks -/

namespace Accountant

variable {a : Accountant}

theorem calm_settleOrRecord (prompt done : UInt64) :
    (a.settleOrRecord prompt done).Uses (fun e => e.calm = true ∧ ∀ m c, e ≠ .resolve m c) := by
  unfold settleOrRecord
  split_ifs
  · cases a.reservation with
    | some rsv => exact ⟨⟨rfl, fun _ _ => nofun⟩, fun _ => trivial⟩
    | none => exact ⟨⟨rfl, fun _ _ => nofun⟩, fun _ => trivial⟩
  · trivial

theorem calm_settleOnce (prompt done : UInt64) :
    (a.settleOnce prompt done).Uses (fun e => e.calm = true) := by
  refine ⟨rfl, fun recorded => ?_⟩
  simp only [Program.bind]
  split_ifs
  · trivial
  · exact (calm_settleOrRecord prompt done).mono fun _ h => h.1

/-- The terminal chunk takes its code from the error flag. -/
theorem ends_terminal (streamError : Bool) : Ends a.requestId a.terminal streamError := by
  intro st _
  change Ends _ (a.settleOnce (a.usage st).1 (a.usage st).2.1 >>= _) _
  refine Ends.bind (calm_settleOnce _ _) fun _ _ => ?_
  intro st hst
  refine ⟨rfl, ?_, ⟨rfl, fun _ => ⟨rfl, fun _ => ⟨rfl, fun _ => trivial⟩⟩⟩⟩
  rw [← hst]
  rfl

theorem mustFinish_terminal : MustFinish a.terminal := by
  intro st
  change MustFinish (a.settleOnce (a.usage st).1 (a.usage st).2.1 >>= _)
  exact MustFinish.bind _ fun _ _ _ => trivial

theorem ends_bodyStream (items : List Item) (streamError : Bool) :
    Ends a.requestId (a.bodyStream items) streamError := by
  induction items generalizing streamError with
  | nil =>
      intro _ flushed
      simp only [Program.bind, sendFlushed]
      split_ifs
      · exact ends_terminal streamError
      · exact fun _ => ends_terminal streamError
  | cons item items ih =>
      cases item with
      | error err => exact fun _ _ _ _ => ih true
      | ok chunk => exact fun _ _ _ => ih streamError

theorem mustFinish_bodyStream (items : List Item) : MustFinish (a.bodyStream items) := by
  induction items with
  | nil =>
      intro _ flushed
      simp only [Program.bind, sendFlushed]
      split_ifs
      · exact mustFinish_terminal
      · exact fun _ => mustFinish_terminal
  | cons item items ih =>
      cases item with
      | error err => exact fun _ _ _ _ => ih
      | ok chunk => exact fun _ _ _ => ih

/-- The task of a dropped accountant takes its code from the error flag when it is dropped. -/
theorem finishes_dropTask (st : StreamState) :
    (a.dropTask st).Uses (Op.finishesWith a.requestId (dropCode st.streamError)) := by
  refine Program.Uses.bind ((calm_settleOnce _ _).mono fun e he => ?_) fun _ => ?_
  · cases e with
    | finish row => cases he
    | _ => exact he
  · exact ⟨⟨rfl, rfl⟩, fun _ => trivial⟩

theorem mustFinish_dropTask (st : StreamState) : MustFinish (a.dropTask st) :=
  MustFinish.bind _ fun _ => trivial

end Accountant

/-! ### The handler -/

section Handler

variable {skip : Except RoutingError (String × String) → Bool} {g : Gateway} {a : Accountant}

theorem calm_settleFailed (a : Accountant) (promptEst : UInt64) :
    (settleFailed a promptEst).Uses (fun e => e.calm = true ∧ ∀ m c, e ≠ .resolve m c) := by
  unfold settleFailed
  split_ifs
  · cases a.reservation with
    | some rsv => exact ⟨⟨rfl, fun _ _ => nofun⟩, fun _ => trivial⟩
    | none => trivial
  · trivial

theorem unwritten_streamResponse (ha : a.requestId = id) (payload : Json)
    (session : StreamRestore) : Unwritten skip id (streamResponse a payload session) := by
  intro res
  cases res with
  | ok items => exact fun _ => ⟨_, items, rfl, ha⟩
  | error err =>
      change Unwritten skip id (settleFailed _ _ >>= _)
      exact Unwritten.bind (calm_settleFailed _ _) fun _ _ => ⟨ha, _, _, rfl⟩

theorem unwritten_chatResponse (ha : a.requestId = id) (requested concrete : String)
    (payload : Json) (chain : Inspectors.DlpState) (promptEst : UInt64) :
    Unwritten skip id (chatResponse g a requested concrete payload chain promptEst) := by
  intro res
  cases res with
  | ok completion =>
      simp only [Program.bind]
      cases tagRouted requested concrete completion with
      | none => exact fun r => r.elim
      | some completion =>
          intro _
          change Unwritten skip id (a.settleOrRecord _ _ >>= _)
          exact Unwritten.bind (Accountant.calm_settleOrRecord _ _) fun _ _ => ⟨ha, _, _, rfl⟩
  | error err =>
      change Unwritten skip id (settleFailed _ _ >>= _)
      exact Unwritten.bind (calm_settleFailed _ _) fun _ _ => ⟨ha, _, _, rfl⟩

theorem unwritten_serve (ha : a.requestId = id) (body : ChatCompletionRequest)
    (concrete : String) (payload : Json) (chain : Inspectors.DlpState) (promptEst : UInt64) :
    Unwritten skip id (serve g a body concrete payload chain promptEst) := by
  unfold serve
  split_ifs
  · exact unwritten_streamResponse ha _ _
  · exact unwritten_chatResponse ha _ _ _ _ _

theorem unwritten_admission (ha : a.requestId = id) (body : ChatCompletionRequest)
    (concrete : String) (payload : Json) (chain : Inspectors.DlpState) :
    Unwritten skip id (admission g a body concrete payload chain) := by
  unfold admission
  dsimp only
  by_cases hm : g.metering = true
  · rw [if_pos hm]
    intro res
    cases res with
    | ok rsv => exact unwritten_serve (a := { a with reservation := some rsv }) ha _ _ _ _ _
    | error err =>
        cases err with
        | quotaExceeded scope limit => exact fun _ => ⟨ha, _, _, rfl⟩
        | backendUnavailable msg =>
            simp only [Program.bind]
            by_cases hclosed : g.backendFailClosed = true
            · rw [if_pos hclosed]
              exact fun _ => ⟨ha, _, _, rfl⟩
            · rw [if_neg hclosed]
              exact unwritten_serve ha _ _ _ _ _
  · rw [if_neg hm]
    exact unwritten_serve ha _ _ _ _ _

/-- The answers of the router after which the handler writes no row: for a request that is
refused by the contract checks, and for a provider that is not configured. -/
def skips (g : Gateway) (body : ChatCompletionRequest) :
    Except RoutingError (String × String) → Bool
  | .ok (providerName, _) => (validate g body).isSome || decide (providerName ∉ g.providers)
  | .error _ => false

theorem unwritten_chatCompletions (g : Gateway) (requestId clientId : String)
    (body : ChatCompletionRequest) :
    Unwritten (skips g body) requestId (chatCompletions g requestId clientId body) := by
  intro res
  cases res with
  | error err =>
      cases err with
      | blocked message => exact .inr ⟨rfl, fun _ => ⟨rfl, _, _, rfl⟩⟩
      | budgetExhausted message => exact .inr ⟨rfl, fun _ => ⟨rfl, _, _, rfl⟩⟩
  | ok target =>
      obtain ⟨providerName, concrete⟩ := target
      simp only [Program.bind, skips]
      cases validate g body with
      | some err => exact .inl ⟨rfl, _, _, rfl⟩
      | none =>
          by_cases hp : providerName ∉ g.providers
          · simp only [if_pos hp]
            exact .inl ⟨by simp [hp], rfl, fun _ => ⟨_, _, rfl⟩⟩
          · simp only [if_neg hp]
            refine .inr ⟨by simpa using hp, fun out => ?_⟩
            simp only [Program.bind]
            cases out.result with
            | error err => exact fun _ => ⟨rfl, _, _, rfl⟩
            | ok chain =>
                refine unwritten_admission ?_ _ _ _ _
                rfl

end Handler

/-! ### One operation -/

/-- What the calm operations leave alone. -/
structure Calm (s s' : State) : Prop where
  handler : s'.handler = s.handler
  body : s'.body = s.body
  accountant : s'.accountant = s.accountant
  tasks : s'.tasks = s.tasks
  finalized : s'.finalized = s.finalized
  rows : s'.rows = s.rows
  streamError : s'.stream.streamError = s.stream.streamError

theorem rows_note (s : State) (entry : Entry) :
    (s.note entry).rows = s.rows ++ (match entry with
      | .audited row => [row]
      | _ => []) := by
  unfold State.rows State.note
  rw [List.filterMap_append]
  cases entry <;> rfl

theorem Calm.refl (s : State) : Calm s s := ⟨rfl, rfl, rfl, rfl, rfl, rfl, rfl⟩

theorem calm_note (s : State) {entry : Entry} (h : ∀ row, entry ≠ .audited row) :
    Calm s (s.note entry) := by
  refine ⟨rfl, rfl, rfl, rfl, rfl, ?_, rfl⟩
  rw [rows_note]
  cases entry with
  | audited row => exact absurd rfl (h row)
  | _ => exact List.append_nil _

section Steps

variable {s s' : State} {o : Oracle} {e : Op} {r : Res e}

theorem perform_calm (h : perform s o e = some (r, s')) (he : e.calm = true) : Calm s s' := by
  cases e with
  | audit | finish | mapItem | openStream | dropGuard => cases he
  | panic => simp [perform] at h
  | resolve | chat | chatStream | nextItem | inspect =>
      simp only [perform, Option.map_eq_some_iff, Prod.mk.injEq] at h
      obtain ⟨_, _, _, rfl⟩ := h
      exact Calm.refl s
  | settle | record | recordTokensToday | send =>
      simp only [perform, Option.map_eq_some_iff, Prod.mk.injEq] at h
      obtain ⟨_, _, _, rfl⟩ := h
      exact calm_note s (by simp)
  | admitReq =>
      simp only [perform, Option.map_eq_some_iff, Prod.mk.injEq] at h
      obtain ⟨answer, _, _, rfl⟩ := h
      cases answer with
      | ok rsv => exact ⟨rfl, rfl, rfl, rfl, rfl, (calm_note s (by simp)).rows, rfl⟩
      | error _ => exact Calm.refl s
  | observe =>
      simp only [perform, Option.some.injEq] at h
      obtain ⟨_, rfl⟩ := h
      exact calm_note s (by simp)
  | flush | cells | swapRecorded =>
      simp only [perform, Option.some.injEq] at h
      obtain ⟨_, rfl⟩ := h
      exact ⟨rfl, rfl, rfl, rfl, rfl, rfl, rfl⟩

end Steps

end FirewallLLM.Chat
