import FirewallLLM.AuditOnce
import FirewallLLM.ChargeOnce

/-! # The row says what was settled

The usage of a request goes to two places: the settle of its reservation and its audit row.  The
terminal branches take their figures for the two on their own, and the workers of a stream may
settle and write in any order.

`Story` says of a request where its figures stand: the handler carries what it has settled to its
row, and the workers of a stream all have the figures of the stream as it ended.
`Story.step` is the step lemma, and `Story.ended` says that a request that has settled and ended
has one row, with the settled figures.  Two events are left out: the failure of a provider call
with a prompt to pay for, of which the row says nothing, and the drop of a handler between the
two. -/

namespace FirewallLLM.Chat

open Dlp (Item StreamState StreamRestore)

/-! ### Figures -/

/-- What a row says of the usage. -/
def Row.figures (row : Row) : Int64 × Int64 := (row.prompt, row.completion)

/-- The figures of the settles, in order. -/
def State.charges (s : State) : List (Int64 × Int64) :=
  s.log.filterMap (fun entry => match entry with
    | .settled _ prompt completion => some (prompt, completion)
    | _ => none)

def Op.charge? : Op → Option (Int64 × Int64)
  | .settle _ prompt completion => some (prompt, completion)
  | _ => none

/-- What the accountant charges for a stream. -/
def Accountant.figures (a : Accountant) (st : StreamState) : Int64 × Int64 :=
  ((a.usage st).1.toInt64, (a.usage st).2.1.toInt64)

/-- The answer is a failure. -/
def fails {ε α : Type} : Option (Except ε α) → Bool
  | some (.error _) => true
  | _ => false

/-- A provider call fails whose prompt is estimated at more than nothing, or the handler is
dropped between its settle and its row. -/
def strays (est : UInt64) (s : State) : RunEvent → Bool
  | .run t o => match s.next t with
      | some (.chat payload) => fails (o (.chat payload)) && est != 0
      | some (.chatStream payload) => fails (o (.chatStream payload)) &&
          (estimateUsage (promptText payload) []).1 != 0
      | _ => false
  | .dropHandler => match s.next .handler with
      | some (.recordTokensToday ..) => true
      | _ => false
  | _ => false

/-- An admission is not granted. -/
def denies (s : State) : RunEvent → Bool
  | .run t o => match s.next t with
      | some (.admitReq c provider model est cap) => fails (o (.admitReq c provider model est cap))
      | _ => false
  | _ => false

/-! ### The handler -/

/-- The accountant of an admitted request. -/
structure Accountant.Books (client : String) (a : Accountant) : Prop where
  metering : a.metering = true
  reservation : a.reservation.isSome = true
  clientId : a.clientId = client

/-- The operations of the handler that neither settle nor write. -/
def Op.silent : Op → Bool
  | .resolve .. | .inspect .. | .observe _ | .openStream _ | .panic => true
  | _ => false

/-- The handler of an admitted request, with the figures that it has settled and is still to
write. -/
def Tallies (client : String) (est : UInt64) : Prog Reply → Option (Int64 × Int64) → Prop
  | .ret reply, owed => owed = none ∧ ∀ a items, reply = .sse a items → a.Books client
  | .op (.settle _ p d) k, owed => owed = none ∧ Tallies client est (k ()) (some (p, d))
  | .op (.finish row) k, owed =>
      (owed = some row.figures ∧ row.clientId = client) ∧ Written (k ())
  | .op (.audit _) k, owed => owed = none ∧ Written (k ())
  | .op (.admitReq ..) k, owed => owed = none ∧ ∀ rsv, Tallies client est (k (.ok rsv)) none
  | .op (.chat _) k, owed => owed = none ∧ (∀ c, Tallies client est (k (.ok c)) none) ∧
      (est = 0 → ∀ err, Tallies client est (k (.error err)) none)
  | .op (.chatStream payload) k, owed => owed = none ∧
      (∀ items, Tallies client est (k (.ok items)) none) ∧
      ((estimateUsage (promptText payload) []).1 = 0 →
        ∀ err, Tallies client est (k (.error err)) none)
  | .op (.recordTokensToday ..) k, owed => ∀ r, Tallies client est (k r) owed
  | .op (.observe _) k, owed => ∀ r, Tallies client est (k r) owed
  | .op e k, owed => (e.silent = true ∧ owed = none) ∧ ∀ r, Tallies client est (k r) none

section Handler

variable {g : Gateway} {a : Accountant} {client : String} {est : UInt64}

theorem Accountant.Books.settleOrRecord_eq (h : a.Books client) (prompt done : UInt64) :
    ∃ rsv, a.settleOrRecord prompt done = settle rsv prompt.toInt64 done.toInt64 := by
  obtain ⟨rsv, hr⟩ := Option.isSome_iff_exists.mp h.reservation
  exact ⟨rsv, Accountant.settleOrRecord_eq h.metering hr prompt done⟩

theorem Accountant.Books.settleFailed_eq (h : a.Books client) :
    ∃ rsv, settleFailed a 0 = settle rsv 0 0 := by
  obtain ⟨rsv, hr⟩ := Option.isSome_iff_exists.mp h.reservation
  refine ⟨rsv, ?_⟩
  rw [settleFailed, if_pos h.metering, hr]
  rfl

theorem tallies_streamResponse (h : a.Books client) (payload : Json) (session : StreamRestore) :
    Tallies client est (streamResponse a payload session) none := by
  have h' : Accountant.Books client { a with requestText := promptText payload } :=
    ⟨h.metering, h.reservation, h.clientId⟩
  refine ⟨rfl, fun items => ⟨⟨rfl, rfl⟩, fun _ => ⟨rfl, ?_⟩⟩, fun hzero err => ?_⟩
  · rintro a' items' ⟨⟩
    exact h'
  · obtain ⟨rsv, hsettle⟩ := h'.settleFailed_eq
    change Tallies client est (settleFailed _ (estimateUsage (promptText payload) []).1 >>= _) none
    rw [hzero, hsettle]
    exact ⟨rfl, fun _ => ⟨⟨rfl, h.clientId⟩, _, _, rfl⟩⟩

theorem tallies_chatResponse (h : a.Books client) (requested concrete : String) (payload : Json)
    (chain : Inspectors.DlpState) :
    Tallies client est (chatResponse g a requested concrete payload chain est) none := by
  refine ⟨rfl, fun completion => ?_, fun hzero err => ?_⟩
  · simp only [Program.bind]
    cases tagRouted requested concrete completion with
    | none => exact ⟨⟨rfl, rfl⟩, fun r => r.elim⟩
    | some completion =>
        obtain ⟨rsv, hsettle⟩ := h.settleOrRecord_eq
          (usageNumbers ((restoreFirst g chain completion).get? "usage") (promptText .null)
            (joinLines ((completionChoices (restoreFirst g chain completion)).filterMap
              choiceContent))).1
          (usageNumbers ((restoreFirst g chain completion).get? "usage") (promptText .null)
            (joinLines ((completionChoices (restoreFirst g chain completion)).filterMap
              choiceContent))).2.1
        intro _
        change Tallies client est (a.settleOrRecord _ _ >>= _) none
        rw [hsettle]
        exact ⟨rfl, fun _ => ⟨⟨rfl, h.clientId⟩, _, _, rfl⟩⟩
  · obtain ⟨rsv, hsettle⟩ := h.settleFailed_eq
    change Tallies client est (settleFailed a est >>= _) none
    rw [hzero, hsettle]
    exact ⟨rfl, fun _ => ⟨⟨rfl, h.clientId⟩, _, _, rfl⟩⟩

theorem tallies_admission {clientId : String} (hg : g.metering = true) (hm : a.metering = true)
    (hclient : a.clientId = clientId) (body : ChatCompletionRequest) (concrete : String)
    (payload : Json) (chain : Inspectors.DlpState) :
    Tallies clientId body.promptEst (admission g a body concrete payload chain) none := by
  unfold admission
  rw [if_pos hg]
  refine ⟨rfl, fun rsv => ?_⟩
  have hbooks : Accountant.Books clientId { a with reservation := some rsv } := ⟨hm, rfl, hclient⟩
  show Tallies clientId body.promptEst (serve g { a with reservation := some rsv } body concrete
    payload chain body.promptEst) none
  unfold serve
  split_ifs
  · exact tallies_streamResponse hbooks payload _
  · exact tallies_chatResponse hbooks body.model concrete payload chain

theorem not_sse {status : ℕ} {out : Json} : ∀ a items, Reply.json status out = .sse a items →
    a.Books client := by
  rintro a items ⟨⟩

theorem tallies_chatCompletions (hg : g.metering = true) (requestId clientId : String)
    (body : ChatCompletionRequest) :
    Tallies clientId body.promptEst (chatCompletions g requestId clientId body) none := by
  refine ⟨⟨rfl, rfl⟩, fun res => ?_⟩
  cases res with
  | error err =>
      cases err with
      | blocked message => exact fun _ => ⟨rfl, _, _, rfl⟩
      | budgetExhausted message => exact fun _ => ⟨rfl, _, _, rfl⟩
  | ok target =>
      obtain ⟨providerName, concrete⟩ := target
      simp only [Program.bind]
      cases validate g body with
      | some err => exact ⟨rfl, not_sse⟩
      | none =>
          by_cases hp : providerName ∉ g.providers
          · simp only [if_pos hp]
            exact fun _ => ⟨rfl, not_sse⟩
          · simp only [if_neg hp]
            refine ⟨⟨rfl, rfl⟩, fun out => ?_⟩
            simp only [Program.bind]
            cases out.result with
            | error err => exact fun _ => ⟨rfl, _, _, rfl⟩
            | ok chain =>
                refine tallies_admission hg ?_ ?_ ..
                · exact hg
                · rfl

end Handler

/-! ### The workers of a stream -/

/-- The operations of a worker that has the figures of the stream. -/
def Op.tells (client : String) (f : Int64 × Int64) : Op → Prop
  | .settle _ prompt completion => (prompt, completion) = f
  | .finish row => row.figures = f ∧ row.clientId = client
  | .audit _ | .mapItem _ | .openStream _ | .flush => False
  | _ => True

def Op.feeds : Op → Bool
  | .nextItem | .send _ | .observe _ | .mapItem _ | .flush => true
  | _ => false

/-- The body before it reads the figures of the stream. -/
def Reads (client : String) (a : Accountant) : Prog Unit → Prop
  | .ret _ => True
  | .op .cells k => ∀ st, (k st).Uses (Op.tells client (a.figures st))
  | .op e k => e.feeds = true ∧ ∀ r, Reads client a (k r)

namespace Accountant

variable {a : Accountant} {client : String}

theorem Books.tells_settleOnce (h : a.Books client) (st : StreamState) :
    (a.settleOnce (a.usage st).1 (a.usage st).2.1).Uses (Op.tells client (a.figures st)) := by
  obtain ⟨rsv, hsettle⟩ := h.settleOrRecord_eq (a.usage st).1 (a.usage st).2.1
  refine ⟨trivial, fun recorded => ?_⟩
  simp only [Program.bind, hsettle]
  cases recorded with
  | true => trivial
  | false => exact ⟨rfl, fun _ => trivial⟩

theorem Books.reads_terminal (h : a.Books client) : Reads client a a.terminal := by
  intro st
  change Program.Uses _ (a.settleOnce (a.usage st).1 (a.usage st).2.1 >>= fun _ => _)
  refine (h.tells_settleOnce st).bind fun _ => ⟨trivial, fun _ => ⟨trivial, fun st' => ?_⟩⟩
  exact ⟨⟨rfl, h.clientId⟩, fun _ => ⟨trivial, fun _ => ⟨trivial, fun _ => ⟨trivial,
    fun _ => trivial⟩⟩⟩⟩

theorem Books.reads_bodyStream (h : a.Books client) (items : List Item) :
    Reads client a (a.bodyStream items) := by
  induction items with
  | nil =>
      refine ⟨rfl, fun _ => ⟨rfl, fun flushed => ?_⟩⟩
      show Reads client a (sendFlushed flushed >>= fun _ => a.terminal)
      unfold sendFlushed
      split_ifs
      · exact h.reads_terminal
      · exact ⟨rfl, fun _ => h.reads_terminal⟩
  | cons item items ih =>
      refine ⟨rfl, fun _ => ⟨rfl, fun event => ?_⟩⟩
      cases item with
      | error err => exact ⟨rfl, fun _ => ⟨rfl, fun _ => ih⟩⟩
      | ok chunk => exact ⟨rfl, fun _ => ih⟩

theorem Books.tells_dropTask (h : a.Books client) (st : StreamState) :
    (a.dropTask st).Uses (Op.tells client (a.figures st)) :=
  (h.tells_settleOnce st).bind fun _ => ⟨⟨rfl, h.clientId⟩, fun _ => trivial⟩

end Accountant

/-! ### One operation -/

section Operation

variable {s s' : State} {o : Oracle} {e : Op} {r : Res e}

theorem charges_note (s : State) (entry : Entry) :
    (s.note entry).charges = s.charges ++ (match entry with
      | .settled _ prompt completion => [(prompt, completion)]
      | _ => []) := by
  unfold State.charges State.note
  rw [List.filterMap_append]
  cases entry <;> rfl

theorem perform_charges (h : perform s o e = some (r, s')) :
    s'.charges = s.charges ++ e.charge?.toList := by
  have hkeep : s.charges = s.charges ++ [] := (List.append_nil _).symm
  cases e with
  | admitReq =>
      simp only [perform, Option.map_eq_some_iff, Prod.mk.injEq] at h
      obtain ⟨r', _, _, rfl⟩ := h
      cases r' with
      | ok rsv => exact charges_note s (.admitted rsv)
      | error err => exact hkeep
  | finish row =>
      rw [perform_finish h]
      split_ifs
      · exact hkeep
      · exact charges_note s (.audited row)
  | settle | record | recordTokensToday | send =>
      simp only [perform, Option.map_eq_some_iff, Prod.mk.injEq] at h
      obtain ⟨_, _, _, rfl⟩ := h
      exact charges_note s _
  | observe | audit =>
      cases h
      exact charges_note s _
  | resolve | chat | chatStream | nextItem | inspect =>
      simp only [perform, Option.map_eq_some_iff, Prod.mk.injEq] at h
      obtain ⟨_, _, _, rfl⟩ := h
      exact hkeep
  | panic => cases h
  | openStream | mapItem | flush | cells | swapRecorded | dropGuard =>
      cases h
      exact hkeep

theorem charges_of_free (h : perform s o e = some (r, s')) (he : e.charge? = none) :
    s'.charges = s.charges := by
  rw [perform_charges h, he]
  exact List.append_nil _

/-- What the operations of the handler do that neither write nor drop an accountant. -/
theorem perform_silent (h : perform s o e = some (r, s')) (he : e.silent = true) :
    Alone s → Alone s' ∧ s'.finalized = s.finalized ∧ s'.rows = s.rows := by
  intro ha
  cases e with
  | openStream session =>
      cases perform_openStream h
      exact ⟨⟨ha.body, ha.accountant, ha.tasks⟩, rfl, rfl⟩
  | resolve | inspect | observe | panic =>
      have hcalm := perform_calm h rfl
      exact ⟨hcalm.alone ha, hcalm.finalized, hcalm.rows⟩
  | _ => cases he

theorem perform_tells {client : String} {f : Int64 × Int64} (h : perform s o e = some (r, s'))
    (he : e.tells client f) : s'.handler = s.handler ∧ s'.body = s.body ∧
      s'.accountant = s.accountant ∧ s'.stream = s.stream ∧
      (s'.tasks = s.tasks ∨ s'.tasks = s.tasks ++ s.guardTasks) ∧
      (∀ row ∈ s'.rows, row ∈ s.rows ∨ (row.figures = f ∧ row.clientId = client)) ∧
      ∀ g ∈ s'.charges, g ∈ s.charges ∨ g = f := by
  have hcharges : ∀ g ∈ s'.charges, g ∈ s.charges ∨ g = f := by
    intro g hg
    rw [perform_charges h] at hg
    refine (List.mem_append.mp hg).imp_right fun hg => ?_
    cases e with
    | settle rsv p d =>
        rw [List.mem_singleton.mp hg]
        exact he
    | _ => cases hg
  cases e with
  | audit | mapItem | openStream | flush => exact he.elim
  | finish row =>
      have hs' := perform_finish h
      subst hs'
      split_ifs
      · exact ⟨rfl, rfl, rfl, rfl, .inl rfl, fun _ => .inl, fun _ => .inl⟩
      · refine ⟨rfl, rfl, rfl, rfl, .inl rfl, fun row' hrow => ?_, fun g hg => .inl ?_⟩
        · have hrow : row' ∈ (s.note (.audited row)).rows := hrow
          rw [rows_note] at hrow
          rcases List.mem_append.mp hrow with hrow | hrow
          · exact .inl hrow
          · rw [List.mem_singleton.mp hrow]
            exact .inr he
        · have hg : g ∈ (s.note (.audited row)).charges := hg
          rwa [charges_note, List.append_nil] at hg
  | dropGuard =>
      cases perform_dropGuard' h
      exact ⟨rfl, rfl, rfl, rfl, .inr rfl, fun _ => .inl, hcharges⟩
  | admitReq =>
      have hcalm := perform_calm h rfl
      refine ⟨hcalm.handler, hcalm.body, hcalm.accountant, ?_, .inl hcalm.tasks, ?_, hcharges⟩
      · simp only [perform, Option.map_eq_some_iff, Prod.mk.injEq] at h
        obtain ⟨r', _, _, rfl⟩ := h
        cases r' <;> rfl
      · rw [hcalm.rows]
        exact fun _ => .inl
  | panic => cases h
  | _ =>
      have hcalm := perform_calm h rfl
      refine ⟨hcalm.handler, hcalm.body, hcalm.accountant, ?_, .inl hcalm.tasks, ?_, hcharges⟩
      · first
          | (cases h; rfl)
          | (simp only [perform, Option.map_eq_some_iff, Prod.mk.injEq] at h
             obtain ⟨_, _, _, rfl⟩ := h
             rfl)
      · rw [hcalm.rows]
        exact fun _ => .inl

end Operation

/-! ### The invariant -/

/-- Where the figures of a request stand: with the handler, which carries them to its row; in
the row; nowhere, as it will never be charged; with a body that has not read them; or with the
workers of the stream, which all have the same. -/
inductive Story (client : String) (est : UInt64) (s : State) : Prop where
  | handling {p : Prog Reply} {owed : Option (Int64 × Int64)} (handler : s.handler = some p)
      (tallies : Tallies client est p owed) (alone : Alone s) (finalized : s.finalized = false)
      (rows : s.rows = []) (charges : s.charges = owed.toList) : Story client est s
  | answered {row : Row} (handler : ∀ p, s.handler = some p → Written p) (alone : Alone s)
      (rows : s.rows = [row]) (row_client : row.clientId = client)
      (charges : s.charges = [row.figures]) : Story client est s
  | unpaid (handler : ∀ p, s.handler = some p → Written p) (alone : Alone s)
      (charges : s.charges = []) : Story client est s
  | reading {a : Accountant} {b : Prog Unit} (handler : s.handler = none)
      (accountant : s.accountant = some a) (books : a.Books client) (body : s.body = some b)
      (reads : Reads client a b) (tasks : s.tasks = []) (rows : s.rows = [])
      (charges : s.charges = []) : Story client est s
  | telling {a : Accountant} (handler : s.handler = none) (accountant : s.accountant = some a)
      (books : a.Books client)
      (workers : ∀ p ∈ s.body.toList ++ s.tasks, p.Uses (Op.tells client (a.figures s.stream)))
      (rows : ∀ row ∈ s.rows, row.figures = a.figures s.stream ∧ row.clientId = client)
      (charges : ∀ g ∈ s.charges, g = a.figures s.stream) : Story client est s

section Events

variable {s : State} {client : String} {est : UInt64}

/-- The handler of an admitted request performs an operation. -/
theorem Story.handle {e : Op} {k : Res e → Prog Reply} {r : Res e} {s' : State} {o : Oracle}
    {owed : Option (Int64 × Int64)} (hh : s.handler = some (.op e k))
    (hp : Tallies client est (.op e k) owed) (ha : Alone s) (hfin : s.finalized = false)
    (hrows : s.rows = []) (hcharges : s.charges = owed.toList)
    (hstray : strays est s (.run .handler o) = false)
    (hdeny : denies s (.run .handler o) = false) (hperform : perform s o e = some (r, s')) :
    Story client est { s' with handler := some (k r) } := by
  have hfree := charges_of_free hperform
  simp only [strays, denies, next_handler hh, Program.next] at hstray hdeny
  -- an operation that leaves the stream and the rows alone
  have hgo : ∀ owed', e.calm = true → Tallies client est (k r) owed' →
      s'.charges = owed'.toList → Story client est { s' with handler := some (k r) } :=
    fun owed' hcalm hk hch => by
      have hc := perform_calm hperform hcalm
      exact .handling rfl hk ((hc.alone ha).withHandler _) (hc.finalized.trans hfin)
        (hc.rows.trans hrows) hch
  cases e with
  | settle rsv p d =>
      obtain ⟨rfl, hk⟩ := hp
      refine hgo _ rfl hk ?_
      rw [perform_charges hperform, hcharges]
      rfl
  | finish row =>
      obtain ⟨⟨rfl, hclient⟩, hk⟩ := hp
      have hs' := perform_finish hperform
      rw [if_neg (by simp [hfin])] at hs'
      subst hs'
      refine .answered ?_ ⟨ha.body, ha.accountant, ha.tasks⟩ ?_ hclient
        ((charges_note s (.audited row)).trans ?_)
      · rintro p ⟨⟩
        exact hk
      · show (s.note (.audited row)).rows = [row]
        rw [rows_note, hrows]
        rfl
      · rw [hcharges]
        rfl
  | audit row =>
      obtain ⟨rfl, hk⟩ := hp
      have hs' := perform_audit hperform
      subst hs'
      refine .unpaid ?_ ⟨ha.body, ha.accountant, ha.tasks⟩
        ((charges_note s (.audited row)).trans ?_)
      · rintro p ⟨⟩
        exact hk
      · rw [hcharges]
        rfl
  | admitReq c provider model promptEst cap =>
      obtain ⟨rfl, hk⟩ := hp
      have ho : o (.admitReq c provider model promptEst cap) = some r := by
        simp only [perform, Option.map_eq_some_iff, Prod.mk.injEq] at hperform
        obtain ⟨r', hr, rfl, -⟩ := hperform
        exact hr
      have hdeny : fails (some r) = false := (congrArg fails ho).symm.trans hdeny
      cases r with
      | ok rsv => exact hgo _ rfl (hk rsv) ((hfree rfl).trans hcharges)
      | error err => cases hdeny
  | chat payload =>
      obtain ⟨rfl, hok, herr⟩ := hp
      have ho : o (.chat payload) = some r := by
        simp only [perform, Option.map_eq_some_iff, Prod.mk.injEq] at hperform
        obtain ⟨r', hr, rfl, -⟩ := hperform
        exact hr
      have hstray : (fails (some r) && est != 0) = false :=
        (congrArg (fails · && est != 0) ho).symm.trans hstray
      refine hgo none rfl ?_ ((hfree rfl).trans hcharges)
      cases r with
      | ok c => exact hok c
      | error err => exact herr (by simpa [fails] using hstray) err
  | chatStream payload =>
      obtain ⟨rfl, hok, herr⟩ := hp
      have ho : o (.chatStream payload) = some r := by
        simp only [perform, Option.map_eq_some_iff, Prod.mk.injEq] at hperform
        obtain ⟨r', hr, rfl, -⟩ := hperform
        exact hr
      have hstray : (fails (some r) && (estimateUsage (promptText payload) []).1 != 0) = false :=
        (congrArg (fails · && (estimateUsage (promptText payload) []).1 != 0) ho).symm.trans hstray
      refine hgo none rfl ?_ ((hfree rfl).trans hcharges)
      cases r with
      | ok items => exact hok items
      | error err => exact herr (by simpa [fails] using hstray) err
  | recordTokensToday => exact hgo owed rfl (hp r) ((hfree rfl).trans hcharges)
  | observe => exact hgo owed rfl (hp r) ((hfree rfl).trans hcharges)
  | resolve | inspect | openStream | panic =>
      obtain ⟨⟨hsilent, rfl⟩, hk⟩ := hp
      obtain ⟨ha', hfin', hrows'⟩ := perform_silent hperform hsilent ha
      exact .handling rfl (hk r) (ha'.withHandler _) (hfin'.trans hfin) (hrows'.trans hrows)
        ((hfree rfl).trans hcharges)
  | _ => cases hp.1.1

theorem charges_step_written (hh : ∀ p, s.handler = some p → Written p) (ha : Alone s)
    (ev : RunEvent) : (step s ev).charges = s.charges := by
  rcases idle_of_no_worker ha.body ha.tasks ev with ⟨hidle, -⟩ | ⟨o, rfl⟩ | rfl | rfl
  · rw [hidle]
  · cases hp : s.handler with
    | none => rw [run_handler_none hp o]
    | some p =>
        rcases run_handler hp o with ⟨-, hstep⟩ | ⟨e, k, r, s', rfl, hperform, hstep⟩
        · rw [hstep]
        · rw [hstep]
          show s'.charges = s.charges
          refine charges_of_free hperform ?_
          have hw := (hh _ hp).1
          cases e <;> first | rfl | cases hw
  · simp only [step]
    split <;> rfl
  · simp only [step]
    split
    · split_ifs <;> rfl
    · rfl

/-- The handler that carries the figures goes on, answers or is dropped. -/
theorem Story.step_handling {p : Prog Reply} {owed : Option (Int64 × Int64)}
    (hh : s.handler = some p) (hp : Tallies client est p owed) (ha : Alone s)
    (hfin : s.finalized = false) (hrows : s.rows = []) (hcharges : s.charges = owed.toList)
    (ev : RunEvent) (hstray : strays est s ev = false) (hdeny : denies s ev = false) :
    Story client est (step s ev) := by
  have hkeep : Story client est s := .handling hh hp ha hfin hrows hcharges
  have hgone : owed = none → Story client est { s with handler := none } := by
    rintro rfl
    exact .unpaid nofun (ha.withHandler none) hcharges
  rcases idle_of_no_worker ha.body ha.tasks ev with ⟨hidle, -⟩ | ⟨o, rfl⟩ | rfl | rfl
  · rw [hidle]
    exact hkeep
  · rcases run_handler hh o with ⟨-, hstep⟩ | ⟨e, k, r, s', rfl, hperform, hstep⟩
    · rw [hstep]
      exact hkeep
    · rw [hstep]
      exact Story.handle hh hp ha hfin hrows hcharges hstray hdeny hperform
  · simp only [step, hh]
    cases p with
    | op e k => exact hkeep
    | ret reply =>
        obtain ⟨rfl, hsse⟩ := hp
        cases reply with
        | json status out => exact hgone rfl
        | sse a items =>
            have hbooks := hsse a items rfl
            exact .reading rfl rfl hbooks rfl (hbooks.reads_bodyStream items) ha.tasks hrows
              hcharges
  · simp only [step, hh]
    cases p with
    | ret reply => exact hkeep
    | op e k =>
        dsimp only
        split_ifs with hsuspends
        · simp only [strays, next_handler hh, Program.next] at hstray
          refine hgone ?_
          cases e with
          | recordTokensToday => cases hstray
          | resolve | panic => exact hp.1.2
          | admitReq | chat | chatStream | settle => exact hp.1
          | record | nextItem | send => cases hp.1.1
          | _ => cases hsuspends
        · exact hkeep

theorem tells_spawned {a : Accountant} (ha : s.accountant = some a) (hbooks : a.Books client) :
    (∀ p ∈ s.guardTasks, p.Uses (Op.tells client (a.figures s.stream))) ∧
      ∀ p ∈ s.bodyTasks, p.Uses (Op.tells client (a.figures s.stream)) := by
  have hdrop := hbooks.tells_dropTask s.stream
  constructor
  · unfold State.guardTasks
    rw [ha]
    cases s.guard with
    | true => simpa using hdrop
    | false => simp
  · unfold State.bodyTasks
    rw [ha]
    simpa using hdrop

theorem Story.run_reading {a : Accountant} {b : Prog Unit} (hh : s.handler = none)
    (ha : s.accountant = some a) (hbooks : a.Books client) (hb : s.body = some b)
    (hreads : Reads client a b) (ht : s.tasks = []) (hrows : s.rows = [])
    (hcharges : s.charges = []) (o : Oracle) : Story client est (step s (.run .body o)) := by
  rcases Chat.run_body hb o with ⟨-, hstep⟩ | ⟨e, k, r, s', rfl, hperform, hstep⟩
  · rw [hstep]
    exact .reading hh ha hbooks hb hreads ht hrows hcharges
  · rw [hstep]
    have hfree := charges_of_free hperform
    cases e with
    | cells =>
        cases hperform
        refine .telling hh ha hbooks ?_ (fun row hrow => ?_) (fun g hg => ?_)
        · show ∀ p ∈ [k s.stream] ++ s.tasks, p.Uses _
          rw [ht]
          simpa using hreads s.stream
        · have hrow : row ∈ s.rows := hrow
          rw [hrows] at hrow
          cases hrow
        · have hg : g ∈ s.charges := hg
          rw [hcharges] at hg
          cases hg
    | mapItem item =>
        cases perform_mapItem hperform
        exact .reading hh ha hbooks rfl (hreads.2 r) ht hrows hcharges
    | flush | nextItem | send | observe =>
        have hcalm := perform_calm hperform rfl
        exact .reading (hcalm.handler.trans hh) (hcalm.accountant.trans ha) hbooks rfl
          (hreads.2 r) (hcalm.tasks.trans ht) (hcalm.rows.trans hrows)
          ((hfree rfl).trans hcharges)
    | _ => cases hreads.1

theorem Story.run_telling {a : Accountant} {t : Thread} (hh : s.handler = none)
    (ha : s.accountant = some a) (hbooks : a.Books client)
    (hworkers : ∀ p ∈ s.body.toList ++ s.tasks, p.Uses (Op.tells client (a.figures s.stream)))
    (hrows : ∀ row ∈ s.rows, row.figures = a.figures s.stream ∧ row.clientId = client)
    (hcharges : ∀ g ∈ s.charges, g = a.figures s.stream) (o : Oracle) :
    Story client est (step s (.run t o)) := by
  have hkeep : Story client est s := .telling hh ha hbooks hworkers hrows hcharges
  obtain ⟨hbody, htasks⟩ := List.forall_mem_append.mp hworkers
  obtain ⟨hguard, -⟩ := tells_spawned ha hbooks
  have htasks' : ∀ {s' : State}, s'.tasks = s.tasks ∨ s'.tasks = s.tasks ++ s.guardTasks →
      ∀ p ∈ s'.tasks, p.Uses (Op.tells client (a.figures s.stream)) := by
    rintro s' (hs' | hs')
    · rw [hs']
      exact htasks
    · rw [hs']
      exact List.forall_mem_append.mpr ⟨htasks, hguard⟩
  cases t with
  | handler =>
      rw [run_handler_none hh o]
      exact hkeep
  | body =>
      cases hb : s.body with
      | none =>
          rw [run_body_none hb o]
          exact hkeep
      | some b =>
          rcases Chat.run_body hb o with ⟨-, hstep⟩ | ⟨e, k, r, s', rfl, hperform, hstep⟩
          · rw [hstep]
            exact hkeep
          · obtain ⟨he, hk⟩ := hbody (.op e k) (by simp [hb])
            obtain ⟨hh', -, ha', hst, hts, hrows', hcharges'⟩ := perform_tells hperform he
            rw [hstep]
            refine .telling (hh'.trans hh) (ha'.trans ha) hbooks ?_ ?_ ?_
            · show ∀ p ∈ [k r] ++ s'.tasks, p.Uses (Op.tells client (a.figures s'.stream))
              rw [hst]
              exact List.forall_mem_append.mpr ⟨by simpa using hk r, htasks' hts⟩
            · show ∀ row ∈ s'.rows, row.figures = a.figures s'.stream ∧ _
              rw [hst]
              exact fun row hrow => (hrows' row hrow).elim (hrows row) id
            · show ∀ g ∈ s'.charges, g = a.figures s'.stream
              rw [hst]
              exact fun g hg => (hcharges' g hg).elim (hcharges g) id
  | task i =>
      rcases run_task s i o with hstep | ⟨l, e, k, ps, r, s', hl, rfl, hperform, hstep⟩
      · rw [hstep]
        exact hkeep
      · obtain ⟨he, hk⟩ := htasks (.op e k) (by simp [hl])
        obtain ⟨hh', hb', ha', hst, hts, hrows', hcharges'⟩ := perform_tells hperform he
        rw [hstep]
        refine .telling (hh'.trans hh) (ha'.trans ha) hbooks ?_ ?_ ?_
        · show ∀ p ∈ s'.body.toList ++ s'.tasks.set l.length (k r),
            p.Uses (Op.tells client (a.figures s'.stream))
          rw [hst, hb']
          refine List.forall_mem_append.mpr ⟨hbody, fun p hp => ?_⟩
          rcases List.mem_or_eq_of_mem_set hp with hp | rfl
          · exact htasks' hts p hp
          · exact hk r
        · show ∀ row ∈ s'.rows, row.figures = a.figures s'.stream ∧ _
          rw [hst]
          exact fun row hrow => (hrows' row hrow).elim (hrows row) id
        · show ∀ g ∈ s'.charges, g = a.figures s'.stream
          rw [hst]
          exact fun g hg => (hcharges' g hg).elim (hcharges g) id

/-- **One event of a request** that is not refused, and does not stray. -/
theorem Story.step (h : Story client est s) (ev : RunEvent) (hstray : strays est s ev = false)
    (hdeny : denies s ev = false) : Story client est (Chat.step s ev) := by
  cases h with
  | handling hh hp ha hfin hrows hcharges =>
      exact Story.step_handling hh hp ha hfin hrows hcharges ev hstray hdeny
  | answered hh ha hrows hclient hcharges =>
      obtain ⟨hh', ha', hrows', -⟩ := step_written hh ha ev
      exact .answered hh' ha' (hrows'.trans hrows) hclient
        ((charges_step_written hh ha ev).trans hcharges)
  | unpaid hh ha hcharges =>
      obtain ⟨hh', ha', -⟩ := step_written hh ha ev
      exact .unpaid hh' ha' ((charges_step_written hh ha ev).trans hcharges)
  | @reading a b hh ha hbooks hb hreads ht hrows hcharges =>
      have hkeep : Story client est s := .reading hh ha hbooks hb hreads ht hrows hcharges
      rcases idle_of_no_handler hh ev with ⟨hidle, -⟩ | ⟨t, o, rfl⟩ | rfl
      · rw [hidle]
        exact hkeep
      · cases t with
        | handler =>
            rw [run_handler_none hh o]
            exact hkeep
        | body => exact Story.run_reading hh ha hbooks hb hreads ht hrows hcharges o
        | task i =>
            have hidle : Chat.step s (.run (.task i) o) = s := by
              simp only [Chat.step, ht, List.getElem?_nil, Option.bind_none]
            rw [hidle]
            exact hkeep
      · simp only [Chat.step, hb]
        split_ifs
        · obtain ⟨hguard, hbody⟩ := tells_spawned ha hbooks
          refine .telling hh ha hbooks ?_ (fun row hrow => ?_) (fun g hg => ?_)
          · show ∀ p ∈ s.tasks ++ s.guardTasks ++ s.bodyTasks,
              p.Uses (Op.tells client (a.figures s.stream))
            rw [ht]
            exact List.forall_mem_append.mpr ⟨hguard, hbody⟩
          · have hrow : row ∈ s.rows := hrow
            rw [hrows] at hrow
            cases hrow
          · have hg : g ∈ s.charges := hg
            rw [hcharges] at hg
            cases hg
        · exact hkeep
  | @telling a hh ha hbooks hworkers hrows hcharges =>
      have hkeep : Story client est s := .telling hh ha hbooks hworkers hrows hcharges
      rcases idle_of_no_handler hh ev with ⟨hidle, -⟩ | ⟨t, o, rfl⟩ | rfl
      · rw [hidle]
        exact hkeep
      · exact Story.run_telling hh ha hbooks hworkers hrows hcharges o
      · cases hb : s.body with
        | none =>
            rw [(dropBody_none hb).1]
            exact hkeep
        | some b =>
            simp only [Chat.step, hb]
            split_ifs
            · obtain ⟨hguard, hbody⟩ := tells_spawned ha hbooks
              refine .telling hh ha hbooks ?_ hrows hcharges
              show ∀ p ∈ s.tasks ++ s.guardTasks ++ s.bodyTasks,
                p.Uses (Op.tells client (a.figures s.stream))
              have htasks := (List.forall_mem_append.mp hworkers).2
              exact List.forall_mem_append.mpr
                ⟨List.forall_mem_append.mpr ⟨htasks, hguard⟩, hbody⟩
            · exact hkeep

theorem story_init {g : Gateway} (hg : g.metering = true) (requestId clientId : String)
    (body : ChatCompletionRequest) :
    Story clientId body.promptEst (init g requestId clientId body) :=
  .handling rfl (tallies_chatCompletions hg requestId clientId body) ⟨rfl, rfl, rfl⟩ rfl rfl rfl

/-- **A request that has been charged once and has ended** has one row, with what it was
charged for. -/
theorem Story.ended {skip : Except RoutingError (String × String) → Bool} {id : String}
    {lost polled reached : Bool} (h : Story client est s)
    (haudit : Audit skip id s lost polled reached) (hend : s.Ended) {f : Int64 × Int64}
    (hcharges : s.charges = [f]) :
    ∃ row, s.rows = [row] ∧ row.clientId = client ∧ row.figures = f := by
  cases h with
  | handling hh => cases hend.1.symm.trans hh
  | answered _ _ hrows hclient hcharges' =>
      rw [hcharges', List.singleton_inj] at hcharges
      exact ⟨_, hrows, hclient, hcharges⟩
  | unpaid _ _ hcharges' => cases hcharges'.symm.trans hcharges
  | reading _ _ _ hb => cases hend.2.1.symm.trans hb
  | telling _ ha _ _ hrows hcharges' =>
      obtain ⟨row, hrow, -⟩ := haudit.code hend (by rw [ha]; rfl)
      obtain ⟨hfigures, hclient⟩ := hrows row (by simp [hrow])
      exact ⟨row, hrow, hclient, hfigures.trans (hcharges' f (by simp [hcharges])).symm⟩

end Events

end FirewallLLM.Chat
