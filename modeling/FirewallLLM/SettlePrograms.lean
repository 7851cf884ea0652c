import FirewallLLM.ChatRuntime

/-! # What the programs of a chat request owe

The handler settles the reservation of an admitted request, or hands it over to the body of a
stream.  The body and the tasks of the dropped accountants share the flag `recorded`: each
settles only right after it has set the flag itself.  The predicates below say this of the
programs, and the lemmas about one operation say how they change with it. -/

namespace FirewallLLM.Chat

open Dlp (Item StreamState StreamRestore)

variable {α : Type} {rsv : Reservation}

/-! ### What a program may still do -/

def Op.isAdmission : Op → Bool
  | .admitReq .. => true
  | _ => false

/-- Never an admission. -/
def NoAdmission (p : Prog α) : Prop := p.Uses (fun e => e.isAdmission = false)

/-- No settle once the flag is set. -/
def Spent : Prog Unit → Prop
  | .ret _ => True
  | .op .swapRecorded k => Spent (k true)
  | .op (.settle ..) _ => False
  | .op (.admitReq ..) _ => False
  | .op _ k => ∀ r, Spent (k r)

/-- At the settle, and none after it. -/
def AtSettle (rsv : Reservation) (p : Prog Unit) : Prop :=
  ∃ a b k, p = .op (.settle rsv a b) k ∧ Spent (k ())

/-- The settle only right after the flag was set by the program itself. -/
def Guarded (rsv : Reservation) : Prog Unit → Prop
  | .ret _ => True
  | .op .swapRecorded k => AtSettle rsv (k false) ∧ Spent (k true)
  | .op (.settle ..) _ => False
  | .op (.admitReq ..) _ => False
  | .op _ k => ∀ r, Guarded rsv (k r)

/-- The flag is set on every path. -/
def Must : Prog Unit → Prop
  | .ret _ => False
  | .op .swapRecorded _ => True
  | .op _ k => ∀ r, Must (k r)

/-- The operations of the handler at which a request that is not yet settled is lost. -/
def Op.losing : Op → Bool
  | .chat _ | .chatStream _ | .settle .. | .panic => true
  | _ => false

/-- The operations of the handler that touch neither the flag nor the accountants nor the
admission. -/
def Op.plain : Op → Bool
  | .admitReq .. | .swapRecorded | .dropGuard | .settle .. => false
  | _ => true

/-- The handler after the settle. -/
def Settled : Prog Reply → Prop
  | .ret reply => ∃ status body, reply = .json status body
  | .op e k => (e.plain && !e.losing) = true ∧ ∀ r, Settled (k r)

/-- The handler between the admission and the settle, which it may leave to a body. -/
def Owes (rsv : Reservation) : Prog Reply → Prop
  | .ret reply => ∃ a items, reply = .sse a items ∧ a.metering = true ∧ a.reservation = some rsv
  | .op (.settle rsv' _ _) k => rsv' = rsv ∧ Settled (k ())
  | .op e k => (e.plain && (!e.suspends || e.losing)) = true ∧ ∀ r, Owes rsv (k r)

/-- The handler before the admission. -/
def Entering : Prog Reply → Prop
  | .ret _ => True
  | .op (.admitReq ..) k =>
      (∀ rsv, Owes rsv (k (.ok rsv))) ∧ ∀ err, NoAdmission (k (.error err))
  | .op e k => e.plain ∧ ∀ r, Entering (k r)

/-! ### The programs of a request -/

namespace Accountant

variable {a : Accountant}

theorem settleOrRecord_eq (hm : a.metering = true) (hr : a.reservation = some rsv)
    (prompt done : UInt64) :
    a.settleOrRecord prompt done = settle rsv prompt.toInt64 done.toInt64 := by
  rw [settleOrRecord, if_pos hm, hr]

/-- The terminal chunk sets the flag first and settles then. -/
theorem guarded_terminal (hm : a.metering = true) (hr : a.reservation = some rsv) :
    Guarded rsv a.terminal ∧ Must a.terminal := by
  simp only [terminal, settleOnce, settleOrRecord_eq hm hr]
  constructor
  · intro st
    exact ⟨⟨_, _, _, rfl, fun _ _ _ _ _ _ => trivial⟩, fun _ _ _ _ _ _ => trivial⟩
  · intro st
    exact trivial

theorem guarded_bodyStream (hm : a.metering = true) (hr : a.reservation = some rsv)
    (items : List Item) : Guarded rsv (a.bodyStream items) ∧ Must (a.bodyStream items) := by
  induction items with
  | nil =>
      obtain ⟨hg, hmust⟩ := guarded_terminal hm hr
      simp only [bodyStream]
      constructor
      · intro _ flushed
        simp only [Program.bind, sendFlushed]
        split_ifs
        · exact hg
        · exact fun _ => hg
      · intro _ flushed
        simp only [Program.bind, sendFlushed]
        split_ifs
        · exact hmust
        · exact fun _ => hmust
  | cons item items ih =>
      obtain ⟨hg, hmust⟩ := ih
      simp only [bodyStream]
      constructor
      · intro _ event
        cases item with
        | error err => exact fun _ _ => hg
        | ok chunk => exact fun _ => hg
      · intro _ event
        cases item with
        | error err => exact fun _ _ => hmust
        | ok chunk => exact fun _ => hmust

theorem guarded_dropTask (hm : a.metering = true) (hr : a.reservation = some rsv)
    (st : StreamState) : Guarded rsv (a.dropTask st) ∧ Must (a.dropTask st) := by
  simp only [dropTask, settleOnce, settleOrRecord_eq hm hr]
  exact ⟨⟨⟨_, _, _, rfl, fun _ => trivial⟩, fun _ => trivial⟩, trivial⟩

theorem noAdmission_settleOrRecord (prompt done : UInt64) :
    NoAdmission (a.settleOrRecord prompt done) := by
  unfold settleOrRecord
  split_ifs
  · cases a.reservation with
    | some rsv => exact ⟨rfl, fun _ => trivial⟩
    | none => exact ⟨rfl, fun _ => trivial⟩
  · trivial

theorem noAdmission_settleOnce (prompt done : UInt64) :
    NoAdmission (a.settleOnce prompt done) := by
  refine ⟨rfl, fun recorded => ?_⟩
  simp only [Program.bind]
  split_ifs
  · trivial
  · exact noAdmission_settleOrRecord prompt done

theorem noAdmission_terminal : NoAdmission a.terminal := by
  refine ⟨rfl, fun st => ?_⟩
  refine (noAdmission_settleOnce _ _).bind fun _ => ?_
  exact ⟨rfl, fun _ => ⟨rfl, fun _ => ⟨rfl, fun _ => ⟨rfl, fun _ => ⟨rfl, fun _ => ⟨rfl, fun _ =>
    trivial⟩⟩⟩⟩⟩⟩

theorem noAdmission_bodyStream (items : List Item) : NoAdmission (a.bodyStream items) := by
  induction items with
  | nil =>
      refine ⟨rfl, fun _ => ⟨rfl, fun flushed => ?_⟩⟩
      simp only [Program.bind, sendFlushed]
      split_ifs
      · exact noAdmission_terminal
      · exact ⟨rfl, fun _ => noAdmission_terminal⟩
  | cons item items ih =>
      refine ⟨rfl, fun _ => ⟨rfl, fun event => ?_⟩⟩
      cases item with
      | error err => exact ⟨rfl, fun _ => ⟨rfl, fun _ => ih⟩⟩
      | ok chunk => exact ⟨rfl, fun _ => ih⟩

theorem noAdmission_dropTask (st : StreamState) : NoAdmission (a.dropTask st) :=
  (noAdmission_settleOnce _ _).bind fun _ => ⟨rfl, fun _ => trivial⟩

end Accountant

/-! ### The handler -/

theorem owes_settleFailed {a : Accountant} (hm : a.metering = true)
    (hr : a.reservation = some rsv) (promptEst : UInt64) {f : Unit → Prog Reply}
    (hf : Settled (f ())) : Owes rsv (settleFailed a promptEst >>= f) := by
  rw [settleFailed, if_pos hm, hr]
  exact ⟨rfl, hf⟩

theorem owes_streamResponse {a : Accountant} (hm : a.metering = true)
    (hr : a.reservation = some rsv) (payload : Json) (session : StreamRestore) :
    Owes rsv (streamResponse a payload session) := by
  refine ⟨rfl, fun res => ?_⟩
  cases res with
  | ok items => exact ⟨rfl, fun _ => ⟨_, items, rfl, hm, hr⟩⟩
  | error err =>
      refine owes_settleFailed (a := { a with requestText := promptText payload }) hm hr _ ?_
      exact ⟨rfl, fun _ => ⟨rfl, fun _ => ⟨_, _, rfl⟩⟩⟩

theorem owes_chatResponse {g : Gateway} {a : Accountant} (hm : a.metering = true)
    (hr : a.reservation = some rsv) (requested concrete : String) (payload : Json)
    (chain : Inspectors.DlpState) (promptEst : UInt64) :
    Owes rsv (chatResponse g a requested concrete payload chain promptEst) := by
  refine ⟨rfl, fun res => ?_⟩
  cases res with
  | ok completion =>
      simp only [Program.bind]
      cases tagRouted requested concrete completion with
      | none => exact ⟨rfl, fun r => r.elim⟩
      | some completion =>
          simp only [Accountant.settleOrRecord_eq hm hr]
          refine ⟨rfl, fun _ => ⟨rfl, ?_⟩⟩
          exact ⟨rfl, fun _ => ⟨rfl, fun _ => ⟨_, _, rfl⟩⟩⟩
  | error err =>
      refine owes_settleFailed hm hr _ ?_
      exact ⟨rfl, fun _ => ⟨rfl, fun _ => ⟨_, _, rfl⟩⟩⟩

theorem owes_serve {g : Gateway} {a : Accountant} (hm : a.metering = true)
    (hr : a.reservation = some rsv) (body : ChatCompletionRequest) (concrete : String)
    (payload : Json) (chain : Inspectors.DlpState) (promptEst : UInt64) :
    Owes rsv (serve g a body concrete payload chain promptEst) := by
  unfold serve
  split_ifs
  · exact owes_streamResponse hm hr payload _
  · exact owes_chatResponse hm hr body.model concrete payload chain promptEst

theorem noAdmission_settleFailed (a : Accountant) (promptEst : UInt64) :
    NoAdmission (settleFailed a promptEst) := by
  unfold settleFailed
  split_ifs
  · cases a.reservation with
    | some rsv => exact ⟨rfl, fun _ => trivial⟩
    | none => trivial
  · trivial

/-- The rest of the handler asks for no further admission. -/
theorem noAdmission_serve (g : Gateway) (a : Accountant) (body : ChatCompletionRequest)
    (concrete : String) (payload : Json) (chain : Inspectors.DlpState) (promptEst : UInt64) :
    NoAdmission (serve g a body concrete payload chain promptEst) := by
  unfold serve
  split_ifs
  · refine ⟨rfl, fun res => ?_⟩
    cases res with
    | ok items => exact ⟨rfl, fun _ => trivial⟩
    | error err =>
        exact (noAdmission_settleFailed _ _).bind fun _ => ⟨rfl, fun _ => ⟨rfl, fun _ => trivial⟩⟩
  · refine ⟨rfl, fun res => ?_⟩
    cases res with
    | ok completion =>
        simp only [Program.bind]
        cases tagRouted body.model concrete completion with
        | none => exact ⟨rfl, fun r => r.elim⟩
        | some completion =>
            refine ⟨rfl, fun _ => (Accountant.noAdmission_settleOrRecord _ _).bind fun _ => ?_⟩
            exact ⟨rfl, fun _ => ⟨rfl, fun _ => trivial⟩⟩
    | error err =>
        exact (noAdmission_settleFailed _ _).bind fun _ => ⟨rfl, fun _ => ⟨rfl, fun _ => trivial⟩⟩

theorem entering_serve {g : Gateway} {a : Accountant} (hm : a.metering = false)
    (body : ChatCompletionRequest) (concrete : String) (payload : Json)
    (chain : Inspectors.DlpState) (promptEst : UInt64) :
    Entering (serve g a body concrete payload chain promptEst) := by
  have hsettle : ∀ prompt done, a.settleOrRecord prompt done = .ret () := by
    intro prompt done
    rw [Accountant.settleOrRecord, hm]
    rfl
  have hfailed : ∀ a : Accountant, a.metering = false → ∀ est, settleFailed a est = .ret () := by
    intro a hm est
    rw [settleFailed, hm]
    rfl
  unfold serve
  split_ifs
  · refine ⟨rfl, fun res => ?_⟩
    cases res with
    | ok items => exact ⟨rfl, fun _ => trivial⟩
    | error err =>
        simp only [Program.bind]
        rw [hfailed { a with requestText := promptText payload } hm]
        exact ⟨rfl, fun _ => ⟨rfl, fun _ => trivial⟩⟩
  · refine ⟨rfl, fun res => ?_⟩
    cases res with
    | ok completion =>
        simp only [Program.bind]
        cases tagRouted body.model concrete completion with
        | none => exact ⟨rfl, fun r => r.elim⟩
        | some completion =>
            simp only [hsettle]
            exact ⟨rfl, fun _ => ⟨rfl, fun _ => ⟨rfl, fun _ => trivial⟩⟩⟩
    | error err =>
        simp only [Program.bind]
        rw [hfailed a hm]
        exact ⟨rfl, fun _ => ⟨rfl, fun _ => trivial⟩⟩

theorem entering_admission {g : Gateway} {a : Accountant} (ha : a.metering = g.metering)
    (body : ChatCompletionRequest) (concrete : String) (payload : Json)
    (chain : Inspectors.DlpState) : Entering (admission g a body concrete payload chain) := by
  unfold admission
  dsimp only
  by_cases hm : g.metering = true
  · rw [if_pos hm]
    refine ⟨fun rsv => ?_, fun err => ?_⟩
    · exact owes_serve (a := { a with reservation := some rsv }) (ha.trans hm) rfl ..
    · cases err with
      | quotaExceeded scope limit => exact ⟨rfl, fun _ => ⟨rfl, fun _ => trivial⟩⟩
      | backendUnavailable msg =>
          simp only [Program.bind]
          by_cases hclosed : g.backendFailClosed = true
          · rw [if_pos hclosed]
            exact ⟨rfl, fun _ => ⟨rfl, fun _ => trivial⟩⟩
          · rw [if_neg hclosed]
            exact noAdmission_serve ..
  · rw [if_neg hm]
    exact entering_serve (ha.trans (Bool.not_eq_true _ ▸ hm)) ..

theorem entering_chatCompletions (g : Gateway) (requestId clientId : String)
    (body : ChatCompletionRequest) : Entering (chatCompletions g requestId clientId body) := by
  refine ⟨rfl, fun res => ?_⟩
  cases res with
  | error err =>
      cases err with
      | blocked message => exact ⟨rfl, fun _ => ⟨rfl, fun _ => trivial⟩⟩
      | budgetExhausted message => exact ⟨rfl, fun _ => ⟨rfl, fun _ => trivial⟩⟩
  | ok target =>
      obtain ⟨providerName, concrete⟩ := target
      simp only [Program.bind]
      cases validate g body with
      | some err => trivial
      | none =>
          by_cases hp : providerName ∉ g.providers
          · simp only [if_pos hp]
            exact ⟨rfl, fun _ => trivial⟩
          · simp only [if_neg hp]
            refine ⟨rfl, fun out => ?_⟩
            simp only [Program.bind]
            cases out.result with
            | error err => exact ⟨rfl, fun _ => ⟨rfl, fun _ => trivial⟩⟩
            | ok chain => exact entering_admission rfl ..

/-! ### One operation -/

/-- What an operation leaves alone, but for the cells of the stream, the audit flag and the
log. -/
structure Same (s s' : State) : Prop where
  handler : s'.handler = s.handler
  body : s'.body = s.body
  accountant : s'.accountant = s.accountant
  guard : s'.guard = s.guard
  tasks : s'.tasks = s.tasks
  recorded : s'.recorded = s.recorded
  reservation : s'.reservation = s.reservation
  settles : s'.settles = s.settles

theorem settles_note (s : State) (entry : Entry) :
    (s.note entry).settles = s.settles ++ (match entry with
      | .settled rsv _ _ => [rsv]
      | _ => []) := by
  unfold State.settles State.note
  rw [List.filterMap_append]
  cases entry <;> rfl

theorem Same.refl (s : State) : Same s s := ⟨rfl, rfl, rfl, rfl, rfl, rfl, rfl, rfl⟩

theorem same_note (s : State) {entry : Entry}
    (h : ∀ rsv p d, entry ≠ .settled rsv p d) : Same s (s.note entry) := by
  refine ⟨rfl, rfl, rfl, rfl, rfl, rfl, rfl, ?_⟩
  rw [settles_note]
  cases entry with
  | settled rsv p d => exact absurd rfl (h rsv p d)
  | _ => exact List.append_nil _

theorem perform_plain {s s' : State} {o : Oracle} {e : Op} {r : Res e}
    (h : perform s o e = some (r, s')) (he : e.plain = true) : Same s s' := by
  cases e with
  | admitReq => simp [Op.plain] at he
  | swapRecorded => simp [Op.plain] at he
  | dropGuard => simp [Op.plain] at he
  | settle => simp [Op.plain] at he
  | panic => simp [perform] at h
  | resolve | chat | chatStream | nextItem | inspect =>
      simp only [perform, Option.map_eq_some_iff, Prod.mk.injEq] at h
      obtain ⟨_, _, _, rfl⟩ := h
      exact Same.refl s
  | record | recordTokensToday | send =>
      simp only [perform, Option.map_eq_some_iff, Prod.mk.injEq] at h
      obtain ⟨_, _, _, rfl⟩ := h
      exact same_note s (by simp)
  | observe | audit =>
      simp only [perform, Option.some.injEq] at h
      obtain ⟨_, rfl⟩ := h
      exact same_note s (by simp)
  | finish row =>
      simp only [perform, Option.some.injEq] at h
      obtain ⟨_, rfl⟩ := h
      split_ifs
      · exact Same.refl s
      · exact ⟨rfl, rfl, rfl, rfl, rfl, rfl, rfl, (same_note s (by simp)).settles⟩
  | openStream | mapItem | flush | cells =>
      simp only [perform, Option.some.injEq] at h
      obtain ⟨_, rfl⟩ := h
      exact ⟨rfl, rfl, rfl, rfl, rfl, rfl, rfl, rfl⟩

/-- What every operation but the admission leaves alone. -/
structure Frame (s s' : State) : Prop where
  handler : s'.handler = s.handler
  body : s'.body = s.body
  accountant : s'.accountant = s.accountant
  reservation : s'.reservation = s.reservation
  tasks : s'.tasks = s.tasks ∨ s'.tasks = s.tasks ++ s.guardTasks

theorem Same.frame {s s' : State} (h : Same s s') : Frame s s' :=
  ⟨h.handler, h.body, h.accountant, h.reservation, .inl h.tasks⟩

theorem perform_settle {s s' : State} {o : Oracle} {a b : Int64}
    {r : Res (.settle rsv a b)} (h : perform s o (.settle rsv a b) = some (r, s')) :
    Frame s s' ∧ s'.recorded = s.recorded ∧ s'.settles = s.settles ++ [rsv] ∧
      s'.tasks = s.tasks := by
  simp only [perform, Option.map_eq_some_iff, Prod.mk.injEq] at h
  obtain ⟨_, _, _, rfl⟩ := h
  exact ⟨⟨rfl, rfl, rfl, rfl, .inl rfl⟩, rfl, settles_note s _, rfl⟩

theorem perform_swapRecorded {s s' : State} {o : Oracle} {r : Res .swapRecorded}
    (h : perform s o .swapRecorded = some (r, s')) :
    r = s.recorded ∧ Frame s s' ∧ s'.recorded = true ∧ s'.settles = s.settles := by
  simp only [perform, Option.some.injEq] at h
  obtain ⟨rfl, rfl⟩ := h
  exact ⟨rfl, ⟨rfl, rfl, rfl, rfl, .inl rfl⟩, rfl, rfl⟩

theorem perform_dropGuard {s s' : State} {o : Oracle} {r : Res .dropGuard}
    (h : perform s o .dropGuard = some (r, s')) :
    Frame s s' ∧ s'.recorded = s.recorded ∧ s'.settles = s.settles := by
  simp only [perform, Option.some.injEq] at h
  obtain ⟨_, rfl⟩ := h
  exact ⟨⟨rfl, rfl, rfl, rfl, .inr rfl⟩, rfl, rfl⟩

theorem perform_frame {s s' : State} {o : Oracle} {e : Op} {r : Res e}
    (h : perform s o e = some (r, s')) (he : e.isAdmission = false) : Frame s s' := by
  cases e with
  | admitReq => cases he
  | settle => exact (perform_settle h).1
  | swapRecorded => exact (perform_swapRecorded h).2.1
  | dropGuard => exact (perform_dropGuard h).1
  | _ => exact (perform_plain h rfl).frame

/-! ### One step of a program -/

section Steps

variable {s s' : State} {o : Oracle} {e : Op} {r : Res e}

theorem spent_of_guarded {p : Prog Unit} (h : Guarded rsv p) : Spent p := by
  induction p with
  | ret a => trivial
  | op e k ih =>
      cases e with
      | swapRecorded => exact h.2
      | settle => exact h
      | admitReq => exact h
      | _ => exact fun r => ih r (h r)

theorem Spent.step {k : Res e → Prog Unit} (hp : Spent (.op e k)) (hrec : s.recorded = true)
    (h : perform s o e = some (r, s')) :
    Spent (k r) ∧ Frame s s' ∧ s'.recorded = true ∧ s'.settles = s.settles := by
  cases e with
  | settle => exact hp.elim
  | admitReq => exact hp.elim
  | swapRecorded =>
      obtain ⟨hr, hframe, hset, hsettles⟩ := perform_swapRecorded h
      subst hr
      rw [hrec]
      exact ⟨hp, hframe, hset, hsettles⟩
  | dropGuard =>
      obtain ⟨hframe, hset, hsettles⟩ := perform_dropGuard h
      exact ⟨hp r, hframe, hset.trans hrec, hsettles⟩
  | _ =>
      have hsame := perform_plain h rfl
      exact ⟨hp r, hsame.frame, hsame.recorded.trans hrec, hsame.settles⟩

theorem AtSettle.step {k : Res e → Prog Unit} (hp : AtSettle rsv (.op e k))
    (h : perform s o e = some (r, s')) :
    Spent (k r) ∧ Frame s s' ∧ s'.recorded = s.recorded ∧ s'.settles = s.settles ++ [rsv] := by
  obtain ⟨a, b, k', heq, hspent⟩ := hp
  cases heq
  obtain ⟨hframe, hrec, hsettles, -⟩ := perform_settle h
  exact ⟨hspent, hframe, hrec, hsettles⟩

/-- Before the flag is set, a program sets it and is at the settle, or goes on. -/
theorem Guarded.step {k : Res e → Prog Unit} (hp : Guarded rsv (.op e k))
    (hrec : s.recorded = false) (h : perform s o e = some (r, s')) :
    Frame s s' ∧ s'.settles = s.settles ∧
      ((AtSettle rsv (k r) ∧ s'.recorded = true) ∨
        (Guarded rsv (k r) ∧ (Must (.op e k) → Must (k r)) ∧ s'.recorded = false)) := by
  cases e with
  | settle => exact hp.elim
  | admitReq => exact hp.elim
  | swapRecorded =>
      obtain ⟨hr, hframe, hset, hsettles⟩ := perform_swapRecorded h
      subst hr
      rw [hrec]
      exact ⟨hframe, hsettles, .inl ⟨hp.1, hset⟩⟩
  | dropGuard =>
      obtain ⟨hframe, hset, hsettles⟩ := perform_dropGuard h
      exact ⟨hframe, hsettles, .inr ⟨hp r, fun hmust => hmust r, hset.trans hrec⟩⟩
  | _ =>
      have hsame := perform_plain h rfl
      exact ⟨hsame.frame, hsame.settles,
        .inr ⟨hp r, fun hmust => hmust r, hsame.recorded.trans hrec⟩⟩

theorem Settled.step {k : Res e → Prog Reply} (hp : Settled (.op e k))
    (h : perform s o e = some (r, s')) : Settled (k r) ∧ Same s s' :=
  ⟨hp.2 r, perform_plain h (Bool.and_eq_true_iff.mp hp.1).1⟩

/-- The handler of an admitted request settles, or goes on. -/
theorem Owes.step {k : Res e → Prog Reply} (hp : Owes rsv (.op e k))
    (h : perform s o e = some (r, s')) :
    (Settled (k r) ∧ Frame s s' ∧ s'.tasks = s.tasks ∧ s'.settles = s.settles ++ [rsv]) ∨
      (Owes rsv (k r) ∧ Same s s') := by
  cases e with
  | settle =>
      obtain ⟨rfl, hsettled⟩ := hp
      obtain ⟨hframe, -, hsettles, htasks⟩ := perform_settle h
      exact .inl ⟨hsettled, hframe, htasks, hsettles⟩
  | _ => exact .inr ⟨hp.2 r, perform_plain h (Bool.and_eq_true_iff.mp hp.1).1⟩

end Steps

end FirewallLLM.Chat
