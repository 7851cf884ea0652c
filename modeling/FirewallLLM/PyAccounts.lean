import FirewallLLM.PyInflight
import FirewallLLM.Monitor

/-! # The accounts of the Python gateway

What is done for a request goes to three places: the reservation is settled, the metrics
observe the request, and the audit log has its final row.  `Account` is what these three have of
one request, and a monitor of the log of a request: it refuses whatever would be written twice,
or would not fit what has been written before.

The handler and the generator obey the monitor (`obeys_chatCompletions`, `obeys_sse`), whatever
their operations answer.  `accounted` is what follows for every run of the worker. -/

namespace FirewallLLM.Py

open Dlp (Text)
open Program (Obeys)

/-! ### Accounts -/

/-- A reservation with the figures that it was settled with. -/
structure Charge where
  rsv : Reservation
  prompt : ℤ
  completion : ℤ
  usageSource : String

/-- The row has the figures of the charge; or the provider failed, and the row has none while
the estimate of the prompt is charged. -/
def Row.Pays (row : Row) (charge : Charge) : Prop :=
  (row.prompt = charge.prompt ∧ row.completion = charge.completion ∧
      row.usageSource = charge.usageSource) ∨
    ((row.code = "blocked" ∨ row.code = "upstream_error") ∧ row.prompt = 0 ∧
      row.completion = 0 ∧ charge.completion = 0)

/-- The row and the metrics are about the same, with the same figures; only a source that is
blocked has a code of its own in the row. -/
def Row.Tells (row : Row) (m : Metric) : Prop :=
  row.client = m.client ∧ row.provider = m.provider ∧ row.model = m.model ∧
    row.prompt = m.prompt ∧ row.completion = m.completion ∧
    (row.code = m.code ∨ row.code = "blocked_source" ∧ m.code = "blocked")

instance (row : Row) (charge : Charge) : Decidable (row.Pays charge) :=
  inferInstanceAs (Decidable (_ ∨ _))

instance (row : Row) (m : Metric) : Decidable (row.Tells m) := inferInstanceAs (Decidable (_ ∧ _))

/-- What has been written about a request, and whether its stream was ended by `[DONE]`. -/
structure Account where
  charge : Option Charge
  metric : Option Metric
  row : Option Row
  done : Bool

namespace Account

/-- Nothing has been written. -/
def opened : Account := ⟨none, none, none, false⟩

/-- The three may follow one another in any order, but the charge comes first; the client gets
its answer before all of them, and `[DONE]` after all of them. -/
def enter (a : Account) : Entry → Option Account
  | .settled rsv prompt completion source =>
      if a.charge.isNone ∧ a.metric.isNone ∧ a.row.isNone then
        some { a with charge := some ⟨rsv, prompt, completion, source⟩ }
      else none
  | .observed m =>
      if a.metric.isNone ∧ a.row.all (fun row => row.Tells m) then some { a with metric := some m }
      else none
  | .audited row =>
      if a.row.isNone ∧ a.metric.all (fun m => row.Tells m) ∧
          a.charge.all (fun charge => row.Pays charge) then
        some { a with row := some row }
      else none
  | .sent (.data _) =>
      if a.charge.isNone ∧ a.metric.isNone ∧ a.row.isNone then some a else none
  | .sent .done =>
      if a.metric.isSome ∧ a.row.any (fun row => row.code = "ok") ∧ a.done = false then
        some { a with done := true }
      else none

end Account

/-- What an operation adds to the log of its request. -/
def tell : (e : Op) → Res e → List Entry
  | .send event, .ok _ => [.sent event]
  | .settle rsv prompt completion source, .ok _ => [.settled rsv prompt completion source]
  | .observe m, .ok _ => [.observed m]
  | .auditNow row, _ | .auditWrite row, _ => [.audited row]
  | _, _ => []

theorem perform_log {g : Gateway} {used used' : ℤ} {r r' : Request} {o : Oracle} {e : Op}
    {x : Res e} (h : perform g used r o e = some (x, used', r')) :
    r'.log = r.log ++ tell e x := by
  cases e with
  | acquire =>
      rcases perform_acquire h with ⟨rfl, -, rfl⟩ | ⟨rfl, -, -, rfl⟩
      · exact (List.append_nil _).symm
      · exact (List.append_nil _).symm
  | auditNow row =>
      obtain ⟨-, rfl⟩ := perform_auditNow h
      rfl
  | lock | resolve | inspect | admitReq | chat | chatStream | nextItem =>
      simp only [perform, Option.map_eq_some_iff, Prod.mk.injEq] at h
      obtain ⟨_, _, rfl, _, rfl⟩ := h
      exact (List.append_nil _).symm
  | send | settle | observe =>
      simp only [perform, Option.map_eq_some_iff, Prod.mk.injEq] at h
      obtain ⟨y, _, rfl, _, rfl⟩ := h
      cases y with
      | ok _ => rfl
      | error _ => exact (List.append_nil _).symm
  | auditWrite | readResult | usageNumbers =>
      simp only [perform, Option.some.injEq] at h
      obtain ⟨rfl, _, rfl⟩ := h
      first
        | rfl
        | exact (List.append_nil _).symm

/-! ### What an account says about a log -/

def Entry.charge? : Entry → Option Charge
  | .settled rsv prompt completion source => some ⟨rsv, prompt, completion, source⟩
  | _ => none

def Entry.metric? : Entry → Option Metric
  | .observed m => some m
  | _ => none

def Entry.row? : Entry → Option Row
  | .audited row => some row
  | _ => none

/-- The charges, the metrics and the rows in a log. -/
def charges (log : List Entry) : List Charge := log.filterMap Entry.charge?
def metrics (log : List Entry) : List Metric := log.filterMap Entry.metric?
def rows (log : List Entry) : List Row := log.filterMap Entry.row?

/-- A request is charged, measured and recorded at most once, and the row pays the charge and tells
the metric; the charge comes before both, the answer before all of them, and `[DONE]` after them
and only to a stream that ended well. -/
structure Accounted (log : List Entry) : Prop where
  chargedOnce : (charges log).length ≤ 1
  measuredOnce : (metrics log).length ≤ 1
  recordedOnce : (rows log).length ≤ 1
  pays : ∀ charge ∈ charges log, ∀ row ∈ rows log, row.Pays charge
  tells : ∀ m ∈ metrics log, ∀ row ∈ rows log, row.Tells m
  chargeFirst : ∀ pre post rsv prompt completion source,
    log = pre ++ .settled rsv prompt completion source :: post → metrics pre = [] ∧ rows pre = []
  answerFirst : ∀ pre post chunk, log = pre ++ .sent (.data chunk) :: post →
    charges pre = [] ∧ metrics pre = [] ∧ rows pre = []
  doneLast : ∀ pre post, log = pre ++ .sent .done :: post →
    post = [] ∧ (metrics pre).length = 1 ∧ ∃ row ∈ rows pre, row.code = "ok"

/-- The account is the one of the log. -/
structure Shows (log : List Entry) (a : Account) : Prop where
  charges_eq : charges log = a.charge.toList
  metrics_eq : metrics log = a.metric.toList
  rows_eq : rows log = a.row.toList
  pays : ∀ charge ∈ a.charge, ∀ row ∈ a.row, row.Pays charge
  tells : ∀ m ∈ a.metric, ∀ row ∈ a.row, row.Tells m
  done : a.done = true → a.metric.isSome ∧ a.row.isSome

theorem shows_opened : Shows [] Account.opened :=
  ⟨rfl, rfl, rfl, fun _ h => (Option.not_mem_none _ h).elim,
    fun _ h => (Option.not_mem_none _ h).elim, fun h => (Bool.false_ne_true h).elim⟩

section Reading

variable {log : List Entry} {a a' : Account} {e : Entry}

theorem filterMap_snoc {α β : Type} (f : α → Option β) (l : List α) (a : α) :
    (l ++ [a]).filterMap f = l.filterMap f ++ (f a).toList := by
  rw [List.filterMap_append]
  rfl

theorem enter_settled {rsv : Reservation} {prompt completion : ℤ} {source : String} :
    a.enter (.settled rsv prompt completion source) = some a' ↔
      (a.charge = none ∧ a.metric = none ∧ a.row = none) ∧
        { a with charge := some ⟨rsv, prompt, completion, source⟩ } = a' := by
  simp only [Account.enter, Option.isNone_iff_eq_none, Option.ite_none_right_eq_some,
    Option.some.injEq]

theorem enter_observed {m : Metric} :
    a.enter (.observed m) = some a' ↔
      (a.metric = none ∧ ∀ row ∈ a.row, row.Tells m) ∧ { a with metric := some m } = a' := by
  simp only [Account.enter, Option.isNone_iff_eq_none, Option.all_eq_true, decide_eq_true_eq,
    Option.ite_none_right_eq_some, Option.some.injEq, Option.mem_def]

theorem enter_audited {row : Row} :
    a.enter (.audited row) = some a' ↔
      (a.row = none ∧ (∀ m ∈ a.metric, row.Tells m) ∧ ∀ charge ∈ a.charge, row.Pays charge) ∧
        { a with row := some row } = a' := by
  simp only [Account.enter, Option.isNone_iff_eq_none, Option.all_eq_true, decide_eq_true_eq,
    Option.ite_none_right_eq_some, Option.some.injEq, Option.mem_def]

theorem enter_data {chunk : Value} :
    a.enter (.sent (.data chunk)) = some a' ↔
      (a.charge = none ∧ a.metric = none ∧ a.row = none) ∧ a = a' := by
  simp only [Account.enter, Option.isNone_iff_eq_none, Option.ite_none_right_eq_some,
    Option.some.injEq]

theorem enter_done :
    a.enter (.sent .done) = some a' ↔
      (a.metric.isSome ∧ (∃ row ∈ a.row, row.code = "ok") ∧ a.done = false) ∧
        { a with done := true } = a' := by
  simp only [Account.enter, Option.any_eq_true, decide_eq_true_eq, Option.ite_none_right_eq_some,
    Option.some.injEq, Option.mem_def]

theorem shows_eqs (hs : Shows log a) (e : Entry) :
    charges (log ++ [e]) = a.charge.toList ++ e.charge?.toList ∧
      metrics (log ++ [e]) = a.metric.toList ++ e.metric?.toList ∧
      rows (log ++ [e]) = a.row.toList ++ e.row?.toList := by
  refine ⟨?_, ?_, ?_⟩
  · rw [← hs.charges_eq]
    exact filterMap_snoc _ _ _
  · rw [← hs.metrics_eq]
    exact filterMap_snoc _ _ _
  · rw [← hs.rows_eq]
    exact filterMap_snoc _ _ _

/-- An account goes on with its log. -/
theorem Shows.enter (hs : Shows log a) (h : a.enter e = some a') : Shows (log ++ [e]) a' := by
  obtain ⟨hcharges, hmetrics, hrows⟩ := shows_eqs hs e
  cases e with
  | settled rsv prompt completion source =>
      obtain ⟨⟨hc, hm, hr⟩, rfl⟩ := enter_settled.mp h
      simp only [Entry.charge?, Entry.metric?, Entry.row?, hc, hm, hr, Option.toList_none,
        Option.toList_some, List.nil_append] at hcharges hmetrics hrows
      refine ⟨hcharges, by rw [hm]; exact hmetrics, by rw [hr]; exact hrows, ?_, ?_, hs.done⟩
      · intro _ _ row hrow
        rw [hr] at hrow
        exact (Option.not_mem_none row hrow).elim
      · intro m hmetric
        rw [hm] at hmetric
        exact (Option.not_mem_none m hmetric).elim
  | observed m =>
      obtain ⟨⟨hm, htell⟩, rfl⟩ := enter_observed.mp h
      simp only [Entry.charge?, Entry.metric?, Entry.row?, hm, Option.toList_none,
        Option.toList_some, List.nil_append, List.append_nil] at hcharges hmetrics hrows
      refine ⟨hcharges, hmetrics, hrows, hs.pays, ?_, fun hd => ⟨rfl, (hs.done hd).2⟩⟩
      intro m' hm' row hrow
      obtain rfl := Option.some.inj hm'
      exact htell row hrow
  | audited row =>
      obtain ⟨⟨hr, htell, hpay⟩, rfl⟩ := enter_audited.mp h
      simp only [Entry.charge?, Entry.metric?, Entry.row?, hr, Option.toList_none,
        Option.toList_some, List.nil_append, List.append_nil] at hcharges hmetrics hrows
      refine ⟨hcharges, hmetrics, hrows, ?_, ?_, fun hd => ⟨(hs.done hd).1, rfl⟩⟩
      · intro charge hcharge row' hrow'
        obtain rfl := Option.some.inj hrow'
        exact hpay charge hcharge
      · intro m hm row' hrow'
        obtain rfl := Option.some.inj hrow'
        exact htell m hm
  | sent event =>
      simp only [Entry.charge?, Entry.metric?, Entry.row?, Option.toList_none, List.append_nil]
        at hcharges hmetrics hrows
      cases event with
      | data chunk =>
          obtain ⟨-, rfl⟩ := enter_data.mp h
          exact ⟨hcharges, hmetrics, hrows, hs.pays, hs.tells, hs.done⟩
      | done =>
          obtain ⟨⟨hm, ⟨row, hr, -⟩, -⟩, rfl⟩ := enter_done.mp h
          refine ⟨hcharges, hmetrics, hrows, hs.pays, hs.tells, fun _ => ⟨hm, ?_⟩⟩
          exact Option.isSome_iff_exists.mpr ⟨row, hr⟩

theorem shows_of_read (h : log.foldlM Account.enter Account.opened = some a) : Shows log a :=
  Program.invariant_of_foldlM (fun _ _ _ _ hs he => hs.enter he) shows_opened h

theorem not_enter_of_done (hs : Shows log a) (hd : a.done = true) : a.enter e ≠ some a' := by
  obtain ⟨hm, hr⟩ := hs.done hd
  obtain ⟨m, hm⟩ := Option.isSome_iff_exists.mp hm
  obtain ⟨row, hr⟩ := Option.isSome_iff_exists.mp hr
  intro h
  cases e with
  | settled rsv prompt completion source =>
      obtain ⟨⟨-, hnone, -⟩, -⟩ := enter_settled.mp h
      cases hm.symm.trans hnone
  | observed m =>
      obtain ⟨⟨hnone, -⟩, -⟩ := enter_observed.mp h
      cases hm.symm.trans hnone
  | audited row =>
      obtain ⟨⟨hnone, -⟩, -⟩ := enter_audited.mp h
      cases hr.symm.trans hnone
  | sent event =>
      cases event with
      | data chunk =>
          obtain ⟨⟨-, hnone, -⟩, -⟩ := enter_data.mp h
          cases hm.symm.trans hnone
      | done =>
          obtain ⟨⟨-, -, hnot⟩, -⟩ := enter_done.mp h
          cases hd.symm.trans hnot

/-- **A log that the monitor does not refuse is accounted.** -/
theorem accounted_of_read (h : log.foldlM Account.enter Account.opened = some a) :
    Accounted log := by
  have hs := shows_of_read h
  have honce : ∀ {α : Type} (o : Option α), o.toList.length ≤ 1 := fun o => by
    cases o <;> simp
  refine ⟨?_, ?_, ?_, ?_, ?_, ?_, ?_, ?_⟩
  · rw [hs.charges_eq]
    exact honce _
  · rw [hs.metrics_eq]
    exact honce _
  · rw [hs.rows_eq]
    exact honce _
  · intro charge hc row hr
    rw [hs.charges_eq, Option.mem_toList] at hc
    rw [hs.rows_eq, Option.mem_toList] at hr
    exact hs.pays charge hc row hr
  · intro m hm row hr
    rw [hs.metrics_eq, Option.mem_toList] at hm
    rw [hs.rows_eq, Option.mem_toList] at hr
    exact hs.tells m hm row hr
  · rintro pre post rsv prompt completion source rfl
    obtain ⟨a₀, a₁, hpre, he, -⟩ := Program.accepted_of_foldlM h
    obtain ⟨⟨-, hm, hr⟩, -⟩ := enter_settled.mp he
    rw [(shows_of_read hpre).metrics_eq, (shows_of_read hpre).rows_eq, hm, hr]
    exact ⟨rfl, rfl⟩
  · rintro pre post chunk rfl
    obtain ⟨a₀, a₁, hpre, he, -⟩ := Program.accepted_of_foldlM h
    obtain ⟨⟨hc, hm, hr⟩, -⟩ := enter_data.mp he
    have hs₀ := shows_of_read hpre
    rw [hs₀.charges_eq, hs₀.metrics_eq, hs₀.rows_eq, hc, hm, hr]
    exact ⟨rfl, rfl, rfl⟩
  · rintro pre post rfl
    obtain ⟨a₀, a₁, hpre, he, hpost⟩ := Program.accepted_of_foldlM h
    have hs₀ := shows_of_read hpre
    have hs₁ := hs₀.enter he
    obtain ⟨⟨hm, ⟨row, hr, hok⟩, -⟩, rfl⟩ := enter_done.mp he
    refine ⟨?_, ?_, row, ?_, hok⟩
    · cases post with
      | nil => rfl
      | cons e post =>
          rw [List.foldlM_cons] at hpost
          obtain ⟨a₂, he₂, -⟩ := Option.bind_eq_some_iff.mp hpost
          exact absurd he₂ (not_enter_of_done hs₁ rfl)
    · obtain ⟨m, hm⟩ := Option.isSome_iff_exists.mp hm
      rw [hs₀.metrics_eq, hm]
      rfl
    · rw [hs₀.rows_eq, Option.mem_toList]
      exact hr

end Reading

/-! ### The generator -/

/-- The program adds nothing to the log that the monitor refuses. -/
abbrev Keeps {α : Type} (Q : Account → α → Prop) (p : Prog α) (a : Account) : Prop :=
  Obeys Account.enter tell Q p a

/-- The account after a settle that may be skipped or fail. -/
structure AfterSettle (prompt completion : ℤ) (source : String) (a : Account) : Prop where
  metric : a.metric = none
  row : a.row = none
  done : a.done = false
  charge : ∀ charge ∈ a.charge,
    charge.prompt = prompt ∧ charge.completion = completion ∧ charge.usageSource = source

theorem afterSettle_opened (prompt completion : ℤ) (source : String) :
    AfterSettle prompt completion source .opened :=
  ⟨rfl, rfl, rfl, fun _ h => (Option.not_mem_none _ h).elim⟩

theorem afterSettle_charged (rsv : Reservation) (prompt completion : ℤ) (source : String) :
    AfterSettle prompt completion source
      { Account.opened with charge := some ⟨rsv, prompt, completion, source⟩ } := by
  refine ⟨rfl, rfl, rfl, fun charge h => ?_⟩
  obtain rfl := Option.some.inj h
  exact ⟨rfl, rfl, rfl⟩

theorem keeps_settleQuiet (rsv : Option Reservation) (prompt completion : ℤ) (source : String) :
    Keeps (fun a _ => AfterSettle prompt completion source a)
      (settleQuiet rsv prompt completion source) .opened := by
  cases rsv with
  | none => exact afterSettle_opened _ _ _
  | some rsv =>
      intro x
      cases x with
      | ok _ => exact ⟨_, rfl, afterSettle_charged rsv _ _ _⟩
      | error e =>
          refine ⟨.opened, rfl, ?_⟩
          cases he : e.isException with
          | true =>
              simp only [Program.bind, he, if_true]
              exact afterSettle_opened _ _ _
          | false =>
              simp only [Program.bind, he, Bool.false_eq_true, if_false]
              exact afterSettle_opened _ _ _

theorem keeps_settleSafe (rsv : Option Reservation) (prompt completion : ℤ) (source : String) :
    Keeps (fun a _ => AfterSettle prompt completion source a)
      (settleSafe rsv prompt completion source) .opened := by
  cases rsv with
  | none => exact afterSettle_opened _ _ _
  | some rsv =>
      intro x
      cases x with
      | ok _ => exact ⟨_, rfl, afterSettle_charged rsv _ _ _⟩
      | error e =>
          refine ⟨.opened, rfl, ?_⟩
          cases e with
          | _ => exact afterSettle_opened _ _ _

/-- The account has its metrics and its row, with the code. -/
def AfterRow (code : String) (a : Account) (res : Except Exn Unit) : Prop :=
  res = .ok () → a.metric.isSome ∧ (∃ row ∈ a.row, row.code = code) ∧ a.done = false

theorem row_tells (c : Caller) (code : String) (messages : Value) (text : Text)
    (prompt completion : ℤ) (source : String) :
    (c.row code messages text prompt completion source).Tells
      (c.metric code prompt completion) :=
  ⟨rfl, rfl, rfl, rfl, rfl, .inl rfl⟩

namespace Sse

variable (sg : Sse) (l : Locals)

theorem keeps_finalize : Keeps (AfterRow l.code) (sg.finalize l) .opened := by
  intro x
  refine ⟨.opened, rfl, ?_⟩
  cases x with
  | error e => exact fun h => by cases h
  | ok usage =>
      obtain ⟨prompt, completion, source⟩ := usage
      refine Obeys.bind (p := settleQuiet sg.reservation prompt completion source)
        (keeps_settleQuiet sg.reservation prompt completion source) ?_
      rintro a res ⟨hmetric, hrow, hdone, hcharge⟩
      cases res with
      | error e => exact fun h => by cases h
      | ok _ =>
          intro x
          cases x with
          | error e => exact ⟨a, rfl, fun h => by cases h⟩
          | ok _ =>
              refine ⟨_, Program.foldlM_single (enter_observed.mpr ⟨⟨hmetric, ?_⟩, rfl⟩), fun _ =>
                ⟨_, Program.foldlM_single (enter_audited.mpr ⟨⟨hrow, ?_, ?_⟩, rfl⟩), fun _ =>
                  ⟨rfl, ⟨_, rfl, rfl⟩, hdone⟩⟩⟩
              · intro row h
                rw [hrow] at h
                exact (Option.not_mem_none row h).elim
              · intro m h
                obtain rfl := Option.some.inj h
                exact row_tells _ _ _ _ _ _ _
              · intro charge h
                obtain ⟨rfl, rfl, rfl⟩ := hcharge charge h
                exact .inl ⟨rfl, rfl, rfl⟩

/-- The generator ends anyhow. -/
abbrev StreamKeeps (p : Prog (Except Exn Unit)) : Prop := Keeps (fun _ _ => True) p .opened

theorem keeps_leave (outcome : Except Exn Unit) : StreamKeeps (sg.leave l outcome) := by
  refine Obeys.bind (keeps_finalize sg l) ?_
  intro a res _
  cases res with
  | error e => trivial
  | ok _ => trivial

theorem keeps_leaveWith (err : ApiError) : StreamKeeps (sg.leaveWith l err) := by
  intro sent
  refine ⟨.opened, ?_, keeps_leave sg l sent⟩
  cases sent with
  | error e => rfl
  | ok _ => rfl

theorem keeps_handleExn (e : Exn) : StreamKeeps (sg.handleExn l e) := by
  cases e with
  | blocked message reason => exact keeps_leaveWith sg _ _
  | provider message => exact keeps_leaveWith sg _ _
  | _ => exact keeps_leave sg _ _

variable {l}

/-- `[DONE]` comes after the row. -/
theorem keeps_finish (hok : l.code = "ok") : StreamKeeps (sg.finish l) := by
  refine Obeys.bind (keeps_finalize sg l) ?_
  intro a res hrow
  cases res with
  | error e => trivial
  | ok _ =>
      rw [hok] at hrow
      intro sent
      cases sent with
      | error e => exact ⟨a, rfl, trivial⟩
      | ok _ => exact ⟨_, Program.foldlM_single (enter_done.mpr ⟨hrow rfl, rfl⟩), trivial⟩

theorem keeps_flushTail (hok : l.code = "ok") : StreamKeeps (sg.flushTail l) := by
  unfold flushTail
  obtain ⟨flushed, session⟩ := l.session.flush
  cases flushed with
  | error e => exact keeps_finish sg hok
  | ok flushed =>
      by_cases h : flushed = []
      · simp only [if_pos h]
        exact keeps_finish sg hok
      · simp only [if_neg h]
        intro sent
        cases sent with
        | error e => exact ⟨.opened, rfl, keeps_handleExn sg _ e⟩
        | ok _ => exact ⟨.opened, rfl, keeps_finish sg hok⟩

end Sse

theorem code_feedChoice (choice : Value) (l : Locals) : (feedChoice choice l).2.code = l.code := by
  unfold feedChoice
  split
  · rfl
  · split <;> rfl

theorem code_feedChoices (choices : List Value) (l : Locals) :
    (feedChoices choices l).2.code = l.code := by
  induction choices generalizing l with
  | nil => rfl
  | cons choice choices ih => exact (ih _).trans (code_feedChoice choice l)

theorem code_readChunk {item chunk : Value} {l l' : Locals}
    (h : readChunk item l = some (chunk, l')) : l'.code = l.code := by
  have husage : ∀ fields, (l.seeUsage fields).code = l.code := by
    intro fields
    unfold Locals.seeUsage
    split <;> rfl
  unfold readChunk at h
  split at h
  · next fields =>
      dsimp only at h
      split at h
      · obtain ⟨-, rfl⟩ := Prod.mk.inj (Option.some.inj h)
        exact (code_feedChoices _ _).trans (husage fields)
      · obtain ⟨-, rfl⟩ := Prod.mk.inj (Option.some.inj h)
        exact husage fields
  · cases h

namespace Sse

theorem keeps_loop (sg : Sse) {l : Locals} (hok : l.code = "ok") (items : List Value) :
    StreamKeeps (sg.loop items l) := by
  induction items generalizing l with
  | nil =>
      intro x
      refine ⟨.opened, rfl, ?_⟩
      cases x with
      | error e => exact keeps_handleExn sg l e
      | ok _ => exact keeps_flushTail sg hok
  | cons item items ih =>
      intro x
      refine ⟨.opened, rfl, ?_⟩
      cases x with
      | error e => exact keeps_handleExn sg l e
      | ok _ =>
          simp only [Program.bind]
          cases hread : readChunk item l with
          | none => exact ih hok
          | some chunk =>
              obtain ⟨chunk, l'⟩ := chunk
              intro sent
              cases sent with
              | error e => exact ⟨.opened, rfl, keeps_handleExn sg l' e⟩
              | ok _ => exact ⟨.opened, rfl, ih ((code_readChunk hread).trans hok)⟩

end Sse

theorem keeps_sse (c : Caller) (payload : Fields) (ctx : Ctx) (rsv : Option Reservation) :
    Sse.StreamKeeps (sse c payload ctx rsv) :=
  fun items => ⟨.opened, rfl, Sse.keeps_loop _ rfl items⟩

/-! ### The handler -/

/-- A handler that returns a generator has written nothing. -/
def Hands (a : Account) (res : Except Exn Reply) : Prop := IsStream res → a = .opened

abbrev HandlerKeeps (p : Prog (Except Exn Reply)) : Prop := Keeps Hands p .opened

theorem hands_error (a : Account) (e : Exn) : Hands a (.error e) := by
  rintro ⟨_, _, _, _, h⟩
  cases h

theorem hands_json (a : Account) (result : Value) : Hands a (.ok (.json result)) := by
  rintro ⟨_, _, _, _, h⟩
  cases h

/-- A refusal, with nothing charged or the estimate of a provider that failed. -/
theorem keeps_refuse_of (c : Caller) {code auditCode : String} (text : String) (messages : Value)
    (err : ApiError) {a : Account} (hmetric : a.metric = none) (hrow : a.row = none)
    (hcode : auditCode = code ∨ auditCode = "blocked_source" ∧ code = "blocked")
    (hcharge : ∀ charge ∈ a.charge,
      (auditCode = "blocked" ∨ auditCode = "upstream_error") ∧ charge.completion = 0) :
    Keeps Hands (refuse c code auditCode text messages err) a := by
  intro x
  cases x with
  | error e => exact ⟨a, rfl, hands_error a e⟩
  | ok _ =>
      refine ⟨_, Program.foldlM_single (enter_observed.mpr ⟨⟨hmetric, ?_⟩, rfl⟩), fun _ =>
        ⟨_, Program.foldlM_single (enter_audited.mpr ⟨⟨hrow, ?_, ?_⟩, rfl⟩), hands_error _ _⟩⟩
      · intro row h
        rw [hrow] at h
        exact (Option.not_mem_none row h).elim
      · intro m h
        obtain rfl := Option.some.inj h
        exact ⟨rfl, rfl, rfl, rfl, rfl, hcode⟩
      · intro charge h
        obtain ⟨hfailed, hzero⟩ := hcharge charge h
        exact .inr ⟨hfailed, rfl, rfl, hzero⟩

theorem keeps_refuse (c : Caller) {code auditCode : String} (text : String) (messages : Value)
    (err : ApiError)
    (hcode : auditCode = code ∨ auditCode = "blocked_source" ∧ code = "blocked") :
    HandlerKeeps (refuse c code auditCode text messages err) :=
  keeps_refuse_of c text messages err rfl rfl hcode
    (fun _ h => (Option.not_mem_none _ h).elim)

theorem keeps_failed (c : Caller) (rsv : Option Reservation) (promptEst : ℤ) {code : String}
    (text : String) (messages : Value) (err : ApiError)
    (hcode : code = "blocked" ∨ code = "upstream_error") :
    HandlerKeeps (failed c rsv promptEst code text messages err) := by
  refine Obeys.bind (keeps_settleSafe rsv promptEst 0 "upstream") ?_
  rintro a res ⟨hmetric, hrow, -, hcharge⟩
  cases res with
  | error e => exact hands_error a e
  | ok _ =>
      exact keeps_refuse_of c text messages err hmetric hrow (.inl rfl)
        (fun charge h => ⟨hcode, (hcharge charge h).2.1⟩)

theorem keeps_complete (c : Caller) (payload : Fields) (rsv : Option Reservation)
    (done : Completion) : HandlerKeeps (complete c payload rsv done) := by
  refine Obeys.bind (keeps_settleSafe rsv done.prompt done.completion done.source) ?_
  rintro a res ⟨hmetric, hrow, -, hcharge⟩
  cases res with
  | error e => exact hands_error a e
  | ok _ =>
      intro _
      refine ⟨_, Program.foldlM_single (enter_audited.mpr ⟨⟨hrow, ?_, ?_⟩, rfl⟩), fun x => ?_⟩
      · intro m h
        rw [hmetric] at h
        exact (Option.not_mem_none m h).elim
      · intro charge h
        obtain ⟨hp, hc, hsource⟩ := hcharge charge h
        exact .inl ⟨hp.symm, hc.symm, hsource.symm⟩
      · cases x with
        | error e => exact ⟨_, rfl, hands_error _ e⟩
        | ok _ =>
            refine ⟨_, Program.foldlM_single (enter_observed.mpr ⟨⟨hmetric, ?_⟩, rfl⟩),
              hands_json _ _⟩
            intro row h
            obtain rfl := Option.some.inj h
            exact row_tells _ _ _ _ _ _ _

theorem keeps_chatResponse (c : Caller) (routedFrom : Option String) (payload : Fields)
    (ctx : Ctx) (rsv : Option Reservation) (promptEst : ℤ) :
    HandlerKeeps (chatResponse c routedFrom payload ctx rsv promptEst) := by
  intro x
  refine ⟨.opened, rfl, ?_⟩
  cases x with
  | ok result =>
      intro done
      refine ⟨.opened, rfl, ?_⟩
      cases done with
      | error e => exact hands_error _ e
      | ok done => exact keeps_complete c payload rsv done
  | error e =>
      cases e with
      | blocked message reason => exact keeps_failed c rsv promptEst _ _ _ (.inl rfl)
      | provider message => exact keeps_failed c rsv promptEst _ _ _ (.inr rfl)
      | _ => exact hands_error _ _

variable {g : Gateway}

theorem keeps_serve (c : Caller) (body : ChatCompletionRequest) (concrete : String)
    (payload : Fields) (ctx : Ctx) (rsv : Option Reservation) (promptEst : ℤ) :
    HandlerKeeps (serve c body concrete payload ctx rsv promptEst) := by
  unfold serve
  split_ifs
  · exact fun _ => rfl
  · exact keeps_chatResponse _ _ _ _ _ _
  · exact keeps_chatResponse _ _ _ _ _ _

theorem keeps_admission (c : Caller) (body : ChatCompletionRequest) (concrete : String)
    (payload : Fields) (ctx : Ctx) : HandlerKeeps (admission g c body concrete payload ctx) := by
  intro x
  refine ⟨.opened, rfl, ?_⟩
  simp only [Program.bind]
  split
  · exact keeps_serve _ _ _ _ _ _ _
  · exact keeps_refuse _ _ _ _ (.inl rfl)
  · split_ifs
    · exact keeps_refuse _ _ _ _ (.inl rfl)
    · exact hands_error _ _

theorem keeps_handle (c : Caller) (body : ChatCompletionRequest) :
    HandlerKeeps (handle g c body) := by
  intro x
  refine ⟨.opened, rfl, ?_⟩
  cases x with
  | error e =>
      cases e with
      | quotaExceeded message => exact keeps_refuse _ _ _ _ (.inl rfl)
      | blocked message reason => exact keeps_refuse _ _ _ _ (.inr ⟨rfl, rfl⟩)
      | _ => exact hands_error _ _
  | ok target =>
      obtain ⟨providerName, concrete⟩ := target
      simp only [Program.bind]
      by_cases hp : providerName ∉ g.providers
      · simp only [if_pos hp]
        exact hands_error _ _
      · simp only [if_neg hp]
        intro x
        refine ⟨.opened, rfl, ?_⟩
        cases x with
        | ok inspected => exact keeps_admission _ _ _ _ _
        | error e =>
            cases e with
            | blocked message reason => exact keeps_refuse _ _ _ _ (.inl rfl)
            | _ => exact hands_error _ _

theorem keeps_chatCompletions (requestId clientId : String) (body : ChatCompletionRequest) :
    HandlerKeeps (chatCompletions g requestId clientId body) := by
  intro x
  refine ⟨.opened, rfl, ?_⟩
  cases x with
  | error e => exact hands_error _ e
  | ok _ =>
      intro slot
      refine ⟨.opened, rfl, ?_⟩
      cases slot with
      | true => exact keeps_handle _ body
      | false =>
          intro x
          cases x with
          | error e => exact ⟨.opened, rfl, hands_error _ e⟩
          | ok _ =>
              refine ⟨_, rfl, fun _ => ⟨_, Program.foldlM_single (enter_audited.mpr
                ⟨⟨rfl, ?_, ?_⟩, rfl⟩), hands_error _ _⟩⟩
              · intro m h
                obtain rfl := Option.some.inj h
                exact ⟨rfl, rfl, rfl, rfl, rfl, .inl rfl⟩
              · exact fun _ h => (Option.not_mem_none _ h).elim

/-! ### Runs -/

/-- What a request may still do is accepted after what it has done. -/
def Thread.Keeps : Thread → Account → Prop
  | .handler p, a => Py.Keeps Hands p a
  | .stream p, a => Py.Keeps (fun _ _ => True) p a
  | .closed, _ => True

/-- The monitor does not refuse what was done for the request, nor what may still be done; and
there is a row if `_audit_now` was called. -/
def Request.Kept (r : Request) : Prop :=
  (∃ a, r.log.foldlM Account.enter .opened = some a ∧ r.thread.Keeps a) ∧
    (r.audited = true → rows r.log ≠ [])

section Runs

variable {g : Gateway} {used used' : ℤ} {r r' : Request} {o : Oracle} {e : Op} {x : Res e}

theorem rows_append (log log' : List Entry) : rows (log ++ log') = rows log ++ rows log' :=
  List.filterMap_append

theorem audited_perform (h : perform g used r o e = some (x, used', r'))
    (hr : r.audited = true → rows r.log ≠ []) (haud : r'.audited = true) : rows r'.log ≠ [] := by
  have hkeep : r.audited = true → rows r'.log ≠ [] := fun h' => by
    rw [perform_log h, rows_append]
    exact List.append_ne_nil_of_left_ne_nil (hr h') _
  cases e with
  | auditNow row =>
      rw [perform_log h, rows_append]
      exact List.append_ne_nil_of_right_ne_nil _ (List.cons_ne_nil row [])
  | acquire =>
      rcases perform_acquire h with ⟨-, -, rfl⟩ | ⟨-, -, -, rfl⟩
      · exact hr haud
      · exact hr haud
  | _ =>
      obtain ⟨-, hsame⟩ := perform_same h rfl (fun _ h => by cases h)
      exact hkeep (hsame.audited.symm.trans haud)

theorem Request.Kept.run (hr : r.Kept) (h : r.run g used o = some (used', r')) : r'.Kept := by
  obtain ⟨⟨a, hread, hkeeps⟩, haud⟩ := hr
  rcases run_cases h with ⟨e, k, x, r₁, ht, hp, rfl⟩ | ⟨e, k, x, r₁, ht, hp, rfl⟩
  · rw [ht] at hkeeps
    obtain ⟨a', htell, hk⟩ := hkeeps x
    have haud₁ := audited_perform hp haud
    refine ⟨⟨a', ?_, hk⟩, haud₁⟩
    rw [perform_log hp]
    exact Program.foldlM_tell hread htell
  · rw [ht] at hkeeps
    obtain ⟨a', htell, hk⟩ := hkeeps x
    have haud₁ := audited_perform hp haud
    refine ⟨⟨a', ?_, hk⟩, haud₁⟩
    rw [perform_log hp]
    exact Program.foldlM_tell hread htell

theorem Request.Kept.start {p : Prog (Except Exn Unit)} (hr : r.Kept)
    (h : r.generator? = some p) : ({ r with thread := .stream p } : Request).Kept := by
  obtain ⟨c, payload, ctx, rsv, ht, rfl⟩ := generator?_eq_some h
  obtain ⟨⟨a, hread, hkeeps⟩, haud⟩ := hr
  rw [ht] at hkeeps
  obtain rfl : a = .opened := hkeeps ⟨c, payload, ctx, rsv, rfl⟩
  exact ⟨⟨.opened, hread, keeps_sse c payload ctx rsv⟩, haud⟩

theorem Request.Kept.abandon (hr : r.Kept) : ({ r with thread := .closed } : Request).Kept :=
  ⟨⟨hr.1.choose, hr.1.choose_spec.1, trivial⟩, hr.2⟩

variable {s : State}

/-- **One event.** -/
theorem kept_step (hs : ∀ r ∈ s.requests, r.Kept) (ev : RunEvent) :
    ∀ r ∈ (step g s ev).requests, r.Kept := by
  have hset : ∀ {i : ℕ} {r' : Request}, r'.Kept → ∀ r ∈ s.requests.set i r', r.Kept := by
    intro i r' hr' r hr
    rcases List.mem_or_eq_of_mem_set hr with hr | rfl
    · exact hs r hr
    · exact hr'
  cases ev with
  | arrive requestId clientId body =>
      intro r hr
      rcases List.mem_append.mp hr with hr | hr
      · exact hs r hr
      · obtain rfl := List.mem_singleton.mp hr
        exact ⟨⟨.opened, rfl, keeps_chatCompletions requestId clientId body⟩, fun h => by cases h⟩
  | run i o =>
      simp only [step]
      split
      · next used r' h =>
          obtain ⟨r, hi, hrun⟩ := Option.bind_eq_some_iff.mp h
          exact hset ((hs r (List.mem_of_getElem? hi)).run hrun)
      · exact hs
  | start i =>
      simp only [step]
      split
      · next r hi =>
          split
          · next p hgen => exact hset ((hs r (List.mem_of_getElem? hi)).start hgen)
          · exact hs
      · exact hs
  | abandon i =>
      simp only [step]
      split
      · next r hi =>
          split
          · exact hset (hs r (List.mem_of_getElem? hi)).abandon
          · exact hs
      · exact hs

/-- A request that has ended without a leak has had `_audit_now` called. -/
theorem audited_of_gone (hinv : Inv g s) (hlost : s.lost = 0) (hr : r ∈ s.requests)
    (hadm : r.admitted = true) (hgone : r.thread.gone = true) : r.audited = true := by
  cases hinv.standing r hr with
  | entering _ _ hno => exact absurd (hadm.symm.trans hno) (by decide)
  | handling ht hholds =>
      rw [ht, not_gone_of_handlerHolds hholds] at hgone
      cases hgone
  | streaming ht hholds =>
      rw [ht, not_gone_of_streamHolds hholds] at hgone
      cases hgone
  | leaked _ _ hheld =>
      have hnot := List.countP_eq_zero.mp hlost r hr
      rw [Request.lost, hheld, hgone] at hnot
      exact absurd rfl hnot
  | finished _ _ _ haud => exact haud hadm

/-- **None of the settled reservation, the metric and the audit row of a request is written twice,
and the row has the figures of the charge, but for a provider that failed, and those of the metric;
a request that was admitted and has ended has its row, if no event has leaked its slot.** -/
theorem accounted (g : Gateway) (es : List RunEvent) :
    ∀ r ∈ (Runs.final (step g) init es).requests, Accounted r.log ∧
      (LeaksNothing g init es → r.admitted = true → r.thread.gone = true →
        (rows r.log).length = 1) := by
  have hkept : ∀ r ∈ (Runs.final (step g) init es).requests, r.Kept :=
    Runs.final_invariant (I := fun s : State => ∀ r ∈ s.requests, r.Kept)
      (Q := fun _ _ => True) (fun _ ev hs _ => kept_step hs ev)
      (fun _ h => (List.not_mem_nil h).elim) (Runs.along_of_forall _ fun _ _ => trivial)
  intro r hr
  obtain ⟨⟨a, hread, -⟩, hrows⟩ := hkept r hr
  have hacc := accounted_of_read hread
  refine ⟨hacc, fun hleaks hadm hgone => ?_⟩
  obtain ⟨hinv, hlost⟩ := (inv_init g).run es
  have haud := audited_of_gone hinv (hlost.mpr ⟨rfl, hleaks⟩) hr hadm hgone
  have hpos := List.length_pos_of_ne_nil (hrows haud)
  have honce := hacc.recordedOnce
  omega

/-- Everything succeeds, and the provider streams one chunk. -/
def oneChunk : Oracle
  | .lock | .nextItem | .send _ | .settle .. | .observe _ => some (.ok ())
  | .resolve m _ => some (.ok ("p", m))
  | .inspect payload _ => some (.ok (payload, ⟨fun text => .ok text, none⟩))
  | .admitReq c p m est cap => some (.ok ⟨"r", c, p, m, est, cap⟩)
  | .chatStream _ => some [.dict [("choices", .list [.dict [("index", .int 0),
      ("delta", .dict [("content", .str "hello".toList)])]])]]
  | _ => none

/-- A stream, to its end. -/
def streamedRun : List RunEvent :=
  .arrive "r" "c" { sampleRequest with stream := true } :: (List.replicate 5 (.run 0 oneChunk) ++
    .start 0 :: List.replicate 9 (.run 0 oneChunk))

theorem accounted_streamed :
    ∃ r, (Runs.final (step sampleGateway) init streamedRun).requests = [r] ∧
      r.thread.gone = true ∧ (charges r.log).length = 1 ∧ (metrics r.log).length = 1 ∧
      (rows r.log).length = 1 ∧ Accounted r.log := by
  obtain ⟨r, hr⟩ : ∃ r, (Runs.final (step sampleGateway) init streamedRun).requests = [r] :=
    ⟨_, rfl⟩
  have hmem : r ∈ (Runs.final (step sampleGateway) init streamedRun).requests := by
    rw [hr]
    exact List.mem_singleton_self r
  have hread : ∀ {α : Type} (f : Request → α) (x : α),
      (Runs.final (step sampleGateway) init streamedRun).requests.map f = [x] → f r = x := by
    intro α f x h
    rw [hr] at h
    exact List.singleton_inj.mp h
  have hgone := hread (fun r => r.thread.gone) true rfl
  have hadm := hread Request.admitted true rfl
  have hleaks : LeaksNothing sampleGateway init streamedRun :=
    ⟨rfl, rfl, rfl, rfl, rfl, rfl, rfl, rfl, rfl, rfl, rfl, rfl, rfl, rfl, rfl, rfl, trivial⟩
  obtain ⟨hacc, hrow⟩ := accounted sampleGateway streamedRun r hmem
  exact ⟨r, hr, hgone, hread (fun r => (charges r.log).length) 1 rfl,
    hread (fun r => (metrics r.log).length) 1 rfl, hrow hleaks hadm hgone, hacc⟩

end Runs

end FirewallLLM.Py
