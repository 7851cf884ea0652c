import FirewallLLM.AuditPrograms
import FirewallLLM.SettlePrograms

/-! # What the programs of a chat request measure

The handler observes a request before it writes its row, and with the code of the row.  The
body observes every failed item and, right after it has finished the request, the request
itself; the tasks of the dropped accountants observe nothing.  The predicates below say this of
the programs, and the lemmas about one operation say what it does to the observed codes. -/

namespace FirewallLLM.Chat

open Dlp (Item StreamState StreamRestore)

variable {α : Type}

/-- The codes with which `observe_request` has been called. -/
def State.statuses (s : State) : List String :=
  s.log.filterMap (fun entry => match entry with
    | .observed m => some m.status
    | _ => none)

/-! ### What a program may still do -/

def Op.isObserve : Op → Bool
  | .observe _ => true
  | _ => false

/-- The operations between the operations that the predicates below speak of. -/
def Op.quiet : Op → Bool
  | .resolve .. | .admitReq .. | .observe _ => false
  | e => e.calm

/-- Writes no row and observes nothing. -/
def Told (p : Prog Unit) : Prop := p.Uses (fun e => e.writes = false ∧ e.isObserve = false)

/-- Neither observes anything nor writes a row, but through `finish`, nor asks for admission. -/
def Mute (p : Prog Unit) : Prop :=
  p.Uses (fun e => e.isAudit = false ∧ e.isObserve = false ∧ e.isAdmission = false)

/-- The handler before its row: it has observed the code `seen`, or nothing yet. -/
def Watching (skip : Except RoutingError (String × String) → Bool) :
    Option String → Prog Reply → Prop
  | seen, .ret reply => seen = none ∧ ∃ a items, reply = .sse a items
  | seen, .op (.observe m) k => seen = none ∧ Watching skip (some m.status) (k ())
  | seen, .op (.audit row) k =>
      seen = some row.code ∧ ∃ status body, k () = .ret (.json status body)
  | seen, .op (.finish row) k =>
      seen = some row.code ∧ ∃ status body, k () = .ret (.json status body)
  | seen, .op (.resolve _ _) k => ∀ r, skip r = true ∨ Watching skip seen (k r)
  | _, .op (.mapItem _) _ => False
  | _, .op .dropGuard _ => False
  | seen, .op _ k => ∀ r, Watching skip seen (k r)

/-- The body before it finishes the request, which owes the observation of a failed item if
`owed`. -/
def Tells : Bool → Prog Unit → Prop
  | true, .op (.observe m) k => m.status = "upstream_error" ∧ Tells false (k ())
  | true, _ => False
  | false, .ret _ => True
  | false, .op (.mapItem (.error _)) k => ∀ r, Tells true (k r)
  | false, .op (.finish row) k =>
      ∃ m k', k () = .op (.observe m) k' ∧ m.status = row.code ∧ Told (k' ())
  | false, .op (.observe _) _ => False
  | false, .op (.audit _) _ => False
  | false, .op (.openStream _) _ => False
  | false, .op .dropGuard _ => False
  | false, .op _ k => ∀ r, Tells false (k r)

/-! ### Sequencing -/

theorem Watching.bind {skip : Except RoutingError (String × String) → Bool}
    {seen : Option String} {p : Prog α} {f : α → Prog Reply}
    (hp : p.Uses (fun e => e.quiet = true)) (hf : ∀ a, Watching skip seen (f a)) :
    Watching skip seen (p >>= f) := by
  induction p with
  | ret a => exact hf a
  | op e k ih =>
      obtain ⟨he, hk⟩ := hp
      cases e with
      | resolve | admitReq | observe | audit | finish | mapItem | openStream | dropGuard =>
          cases he
      | _ => exact fun r => ih r (hk r)

theorem Tells.bind {p : Prog α} {f : α → Prog Unit} (hp : p.Uses (fun e => e.quiet = true))
    (hf : ∀ a, Tells false (f a)) : Tells false (p >>= f) := by
  induction p with
  | ret a => exact hf a
  | op e k ih =>
      obtain ⟨he, hk⟩ := hp
      cases e with
      | resolve | admitReq | observe | audit | finish | mapItem | openStream | dropGuard =>
          cases he
      | _ => exact fun r => ih r (hk r)

/-! ### The body and the tasks -/

namespace Accountant

variable {a : Accountant}

theorem quiet_settleOrRecord (prompt done : UInt64) :
    (a.settleOrRecord prompt done).Uses (fun e => e.quiet = true) := by
  unfold settleOrRecord
  split_ifs
  · cases a.reservation with
    | some rsv => exact ⟨rfl, fun _ => trivial⟩
    | none => exact ⟨rfl, fun _ => trivial⟩
  · trivial

theorem quiet_settleOnce (prompt done : UInt64) :
    (a.settleOnce prompt done).Uses (fun e => e.quiet = true) := by
  refine ⟨rfl, fun recorded => ?_⟩
  simp only [Program.bind]
  split_ifs
  · trivial
  · exact quiet_settleOrRecord prompt done

/-- The terminal chunk observes the code that it finishes the request with. -/
theorem tells_terminal : Tells false a.terminal := by
  intro st
  change Tells false (a.settleOnce (a.usage st).1 (a.usage st).2.1 >>= _)
  refine Tells.bind (quiet_settleOnce _ _) fun _ _ st => ?_
  exact ⟨_, _, rfl, rfl, ⟨rfl, rfl⟩, fun _ => ⟨⟨rfl, rfl⟩, fun _ => trivial⟩⟩

theorem tells_bodyStream (items : List Item) : Tells false (a.bodyStream items) := by
  induction items with
  | nil =>
      intro _ flushed
      simp only [Program.bind, sendFlushed]
      split_ifs
      · exact tells_terminal
      · exact fun _ => tells_terminal
  | cons item items ih =>
      cases item with
      | error err => exact fun _ _ => ⟨rfl, fun _ => ih⟩
      | ok chunk => exact fun _ _ _ => ih

theorem mute_dropTask (st : StreamState) : Mute (a.dropTask st) := by
  refine Program.Uses.bind ((quiet_settleOnce _ _).mono fun e he => ?_) fun _ => ?_
  · cases e with
    | audit | observe | admitReq => cases he
    | _ => exact ⟨rfl, rfl, rfl⟩
  · exact ⟨⟨rfl, rfl, rfl⟩, fun _ => trivial⟩

end Accountant

/-! ### The handler -/

section Handler

variable {skip : Except RoutingError (String × String) → Bool} {g : Gateway} {a : Accountant}

theorem quiet_settleFailed (a : Accountant) (promptEst : UInt64) :
    (settleFailed a promptEst).Uses (fun e => e.quiet = true) := by
  unfold settleFailed
  split_ifs
  · cases a.reservation with
    | some rsv => exact ⟨rfl, fun _ => trivial⟩
    | none => trivial
  · trivial

theorem watching_streamResponse (payload : Json) (session : StreamRestore) :
    Watching skip none (streamResponse a payload session) := by
  intro res
  cases res with
  | ok items => exact fun _ => ⟨rfl, _, items, rfl⟩
  | error err =>
      change Watching skip none (settleFailed _ _ >>= _)
      exact Watching.bind (quiet_settleFailed _ _) fun _ => ⟨rfl, rfl, _, _, rfl⟩

theorem watching_chatResponse (requested concrete : String) (payload : Json)
    (chain : Inspectors.DlpState) (promptEst : UInt64) :
    Watching skip none (chatResponse g a requested concrete payload chain promptEst) := by
  intro res
  cases res with
  | ok completion =>
      simp only [Program.bind]
      cases tagRouted requested concrete completion with
      | none => exact fun r => r.elim
      | some completion =>
          refine ⟨rfl, ?_⟩
          change Watching skip _ (a.settleOrRecord _ _ >>= _)
          exact Watching.bind (Accountant.quiet_settleOrRecord _ _) fun _ _ => ⟨rfl, _, _, rfl⟩
  | error err =>
      change Watching skip none (settleFailed _ _ >>= _)
      exact Watching.bind (quiet_settleFailed _ _) fun _ => ⟨rfl, rfl, _, _, rfl⟩

theorem watching_serve (body : ChatCompletionRequest) (concrete : String) (payload : Json)
    (chain : Inspectors.DlpState) (promptEst : UInt64) :
    Watching skip none (serve g a body concrete payload chain promptEst) := by
  unfold serve
  split_ifs
  · exact watching_streamResponse _ _
  · exact watching_chatResponse _ _ _ _ _

theorem watching_admission (body : ChatCompletionRequest) (concrete : String) (payload : Json)
    (chain : Inspectors.DlpState) :
    Watching skip none (admission g a body concrete payload chain) := by
  unfold admission
  dsimp only
  by_cases hm : g.metering = true
  · rw [if_pos hm]
    intro res
    cases res with
    | ok rsv => exact watching_serve _ _ _ _ _
    | error err =>
        cases err with
        | quotaExceeded scope limit => exact ⟨rfl, rfl, _, _, rfl⟩
        | backendUnavailable msg =>
            simp only [Program.bind]
            by_cases hclosed : g.backendFailClosed = true
            · rw [if_pos hclosed]
              exact ⟨rfl, rfl, _, _, rfl⟩
            · rw [if_neg hclosed]
              exact watching_serve _ _ _ _ _
  · rw [if_neg hm]
    exact watching_serve _ _ _ _ _

theorem watching_chatCompletions (g : Gateway) (requestId clientId : String)
    (body : ChatCompletionRequest) :
    Watching (skips g body) none (chatCompletions g requestId clientId body) := by
  intro res
  cases res with
  | error err =>
      cases err with
      | blocked message => exact .inr ⟨rfl, rfl, _, _, rfl⟩
      | budgetExhausted message => exact .inr ⟨rfl, rfl, _, _, rfl⟩
  | ok target =>
      obtain ⟨providerName, concrete⟩ := target
      simp only [Program.bind, skips]
      cases validate g body with
      | some err => exact .inl rfl
      | none =>
          by_cases hp : providerName ∉ g.providers
          · simp only [if_pos hp]
            exact .inl (by simp [hp])
          · simp only [if_neg hp]
            refine .inr fun out => ?_
            simp only [Program.bind]
            cases out.result with
            | error err => exact ⟨rfl, rfl, _, _, rfl⟩
            | ok chain => exact watching_admission _ _ _ _

end Handler

/-! ### One operation -/

theorem statuses_note (s : State) (entry : Entry) :
    (s.note entry).statuses = s.statuses ++ (match entry with
      | .observed m => [m.status]
      | _ => []) := by
  unfold State.statuses State.note
  rw [List.filterMap_append]
  cases entry <;> rfl

section Steps

variable {s s' : State} {o : Oracle} {e : Op} {r : Res e}

theorem perform_observe {m : Metric} {r : Res (.observe m)}
    (h : perform s o (.observe m) = some (r, s')) : s' = s.note (.observed m) := by
  simp only [perform, Option.some.injEq] at h
  obtain ⟨_, rfl⟩ := h
  rfl

theorem statuses_perform (h : perform s o e = some (r, s')) (he : e.isObserve = false) :
    s'.statuses = s.statuses := by
  cases e with
  | observe => cases he
  | panic => simp [perform] at h
  | resolve | chat | chatStream | nextItem | inspect =>
      simp only [perform, Option.map_eq_some_iff, Prod.mk.injEq] at h
      obtain ⟨_, _, _, rfl⟩ := h
      rfl
  | settle | record | recordTokensToday | send =>
      simp only [perform, Option.map_eq_some_iff, Prod.mk.injEq] at h
      obtain ⟨_, _, _, rfl⟩ := h
      exact (statuses_note s _).trans (List.append_nil _)
  | admitReq =>
      simp only [perform, Option.map_eq_some_iff, Prod.mk.injEq] at h
      obtain ⟨answer, _, _, rfl⟩ := h
      cases answer with
      | ok rsv => exact (statuses_note s _).trans (List.append_nil _)
      | error _ => rfl
  | audit =>
      simp only [perform, Option.some.injEq] at h
      obtain ⟨_, rfl⟩ := h
      exact (statuses_note s _).trans (List.append_nil _)
  | finish row =>
      simp only [perform, Option.some.injEq] at h
      obtain ⟨_, rfl⟩ := h
      cases s.finalized with
      | true => rfl
      | false => exact (statuses_note s (.audited row)).trans (List.append_nil _)
  | openStream | mapItem | flush | cells | swapRecorded | dropGuard =>
      simp only [perform, Option.some.injEq] at h
      obtain ⟨_, rfl⟩ := h
      rfl

end Steps

end FirewallLLM.Chat
