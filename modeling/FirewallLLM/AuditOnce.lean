import FirewallLLM.AuditPrograms
import FirewallLLM.SettleOnce

/-! # One audit row

The invariant `Audit` says of a request who still owes its row: the handler, the body of the
stream or one of the tasks of the dropped accountants, or that it has been written, or that
nobody will write it any more.  It carries the history that the code of the row depends on:
whether an error item has been polled, and whether the terminal chunk has finished the request.

`one_row_iff`: a request that has ended has exactly one row if and only if its handler was not
dropped and its provider was configured.  `final_code`: an opened stream always has exactly one
row, with the code that belongs to its history. -/

namespace FirewallLLM.Chat

variable {id : String}

/-- The handler is dropped where it waits, or the router names a provider that is not
configured. -/
def unaudited (skip : Except RoutingError (String × String) → Bool) (s : State) :
    RunEvent → Bool
  | .dropHandler => match s.handler with
      | some (.op e _) => e.suspends
      | _ => false
  | .run .handler o => match s.handler with
      | some (.op (.resolve m c) _) => (o (.resolve m c)).any skip
      | _ => false
  | _ => false

/-- The body polls an error item, and the request is not finished yet. -/
def pollsError (s : State) : RunEvent → Bool
  | .run .body _ => match s.body with
      | some (.op (.mapItem (.error _)) _) => !s.finalized
      | _ => false
  | _ => false

/-- The terminal chunk finishes the request. -/
def reachesFinish (s : State) : RunEvent → Bool
  | .run .body _ => match s.body with
      | some (.op (.finish _) _) => true
      | _ => false
  | _ => false

/-- The code that belongs to a history. -/
def codeOf (polled reached : Bool) : String :=
  if reached then terminalCode polled else dropCode polled

/-! ### The operations that are not calm -/

section Steps

variable {s s' : State} {o : Oracle}

theorem perform_audit {row : Row} {r : Res (.audit row)}
    (h : perform s o (.audit row) = some (r, s')) :
    s' = s.note (.audited row) := by
  simp only [perform, Option.some.injEq] at h
  obtain ⟨_, rfl⟩ := h
  rfl

theorem perform_finish {row : Row} {r : Res (.finish row)}
    (h : perform s o (.finish row) = some (r, s')) :
    s' = if s.finalized then s else { s.note (.audited row) with finalized := true } := by
  simp only [perform, Option.some.injEq] at h
  obtain ⟨_, rfl⟩ := h
  rfl

theorem perform_dropGuard' {r : Res .dropGuard} (h : perform s o .dropGuard = some (r, s')) :
    s' = { s with guard := false, tasks := s.tasks ++ s.guardTasks } := by
  simp only [perform, Option.some.injEq] at h
  obtain ⟨_, rfl⟩ := h
  rfl

theorem perform_openStream {session : Dlp.StreamRestore} {r : Res (.openStream session)}
    (h : perform s o (.openStream session) = some (r, s')) :
    s' = { s with stream := Dlp.StreamState.new session } := by
  simp only [perform, Option.some.injEq] at h
  obtain ⟨_, rfl⟩ := h
  rfl

theorem perform_mapItem {item : Dlp.Item} {r : Res (.mapItem item)}
    (h : perform s o (.mapItem item) = some (r, s')) :
    s' = { s with stream := (Dlp.mapItem s.stream item).2 } := by
  simp only [perform, Option.some.injEq] at h
  obtain ⟨_, rfl⟩ := h
  rfl

theorem streamError_restoreChoices (st : Dlp.StreamState) (choices : List Json) :
    (Dlp.restoreChoices st choices).2.streamError = st.streamError := by
  induction choices generalizing st with
  | nil => rfl
  | cons choice choices ih =>
      refine (ih _).trans ?_
      cases Dlp.deltaContent choice with
      | some delta => rfl
      | none => rfl

theorem streamError_mapItem_ok (st : Dlp.StreamState) (chunk : Json) :
    (Dlp.mapItem st (.ok chunk)).2.streamError = st.streamError := by
  have hnote : (Dlp.noteUsage st chunk).streamError = st.streamError := by
    unfold Dlp.noteUsage
    split <;> rfl
  cases hc : Dlp.choicesOf chunk with
  | some choices =>
      simp only [Dlp.mapItem, hc]
      exact (streamError_restoreChoices _ choices).trans hnote
  | none =>
      simp only [Dlp.mapItem, hc]
      exact hnote

end Steps

/-! ### The invariant -/

/-- The handler is the only thread, and no stream has been opened. -/
structure Alone (s : State) : Prop where
  body : s.body = none
  accountant : s.accountant = none
  tasks : s.tasks = []

/-- Who owes the row of a request, with whether it is lost, whether an error item was polled
before the request was finished, and whether the terminal chunk finished it. -/
inductive Audit (skip : Except RoutingError (String × String) → Bool) (id : String) (s : State) :
    Bool → Bool → Bool → Prop where
  | pending {p : Prog Reply} (handler : s.handler = some p) (unwritten : Unwritten skip id p)
      (alone : Alone s) (finalized : s.finalized = false) (rows : s.rows = [])
      (flag : s.stream.streamError = false) : Audit skip id s false false false
  | answered {row : Row} (handler : ∀ p, s.handler = some p → Written p) (alone : Alone s)
      (rows : s.rows = [row]) (row_id : row.requestId = id) : Audit skip id s false false false
  | silent (handler : ∀ p, s.handler = some p → Written p) (alone : Alone s)
      (rows : s.rows = []) : Audit skip id s true false false
  | running {a : Accountant} {b : Prog Unit} {polled : Bool} (handler : s.handler = none)
      (accountant : s.accountant = some a) (accountant_id : a.requestId = id)
      (body : s.body = some b) (tasks : s.tasks = []) (finalized : s.finalized = false)
      (rows : s.rows = []) (flag : s.stream.streamError = polled) (ends : Ends id b polled)
      (must : MustFinish b) : Audit skip id s false polled false
  | dropped {a : Accountant} {polled : Bool} (handler : s.handler = none)
      (accountant : s.accountant = some a) (body : s.body = none)
      (tasks : ∀ t ∈ s.tasks, t.Uses (Op.finishesWith id (dropCode polled)))
      (must : ∃ t ∈ s.tasks, MustFinish t) (finalized : s.finalized = false)
      (rows : s.rows = []) : Audit skip id s false polled false
  | final {a : Accountant} {row : Row} {polled reached : Bool} (handler : s.handler = none)
      (accountant : s.accountant = some a) (body : ∀ b, s.body = some b → NoWrites b)
      (tasks : ∀ t ∈ s.tasks, NoAudit t) (finalized : s.finalized = true) (rows : s.rows = [row])
      (row_id : row.requestId = id) (code : row.code = codeOf polled reached) :
      Audit skip id s false polled reached

/-- The event changes nothing, and adds nothing to the history. -/
structure Idle (skip : Except RoutingError (String × String) → Bool) (s : State)
    (ev : RunEvent) : Prop where
  step : step s ev = s
  audited : unaudited skip s ev = false
  quiet : pollsError s ev = false
  open_ : reachesFinish s ev = false

section Events

variable {s : State} {skip : Except RoutingError (String × String) → Bool}
  {lost polled reached : Bool}

theorem Audit.idle {ev : RunEvent} (h : Audit skip id s lost polled reached)
    (hi : Idle skip s ev) : Audit skip id (Chat.step s ev) (lost || unaudited skip s ev)
      (polled || pollsError s ev) (reached || reachesFinish s ev) := by
  rwa [hi.step, hi.audited, hi.quiet, hi.open_, Bool.or_false, Bool.or_false, Bool.or_false]

theorem idle_of_alone (h : Alone s) (ev : RunEvent) :
    Idle skip s ev ∨ (∃ o, ev = .run .handler o) ∨ ev = .returned ∨ ev = .dropHandler := by
  cases ev with
  | run t o =>
      cases t with
      | handler => exact .inr (.inl ⟨o, rfl⟩)
      | body =>
          refine .inl ⟨run_body_none h.body o, rfl, ?_, ?_⟩
          · simp only [pollsError, h.body]
          · simp only [reachesFinish, h.body]
      | task i =>
          refine .inl ⟨?_, rfl, rfl, rfl⟩
          simp only [Chat.step, h.tasks, List.getElem?_nil, Option.bind_none]
  | returned => exact .inr (.inr (.inl rfl))
  | dropHandler => exact .inr (.inr (.inr rfl))
  | dropBody =>
      refine .inl ⟨?_, rfl, rfl, rfl⟩
      simp only [Chat.step, h.body]

theorem idle_of_handler_none (h : s.handler = none) (ev : RunEvent) :
    Idle skip s ev ∨ (∃ o, ev = .run .body o) ∨ (∃ i o, ev = .run (.task i) o) ∨
      ev = .dropBody := by
  cases ev with
  | run t o =>
      cases t with
      | handler =>
          refine .inl ⟨run_handler_none h o, ?_, rfl, rfl⟩
          simp only [unaudited, h]
      | body => exact .inr (.inl ⟨o, rfl⟩)
      | task i => exact .inr (.inr (.inl ⟨i, o, rfl⟩))
  | returned =>
      refine .inl ⟨?_, rfl, rfl, rfl⟩
      simp only [Chat.step, h]
  | dropHandler =>
      refine .inl ⟨?_, ?_, rfl, rfl⟩
      · simp only [Chat.step, h]
      · simp only [unaudited, h]
  | dropBody => exact .inr (.inr (.inr rfl))

theorem Alone.withHandler (h : Alone s) (p : Option (Prog Reply)) :
    Alone { s with handler := p } := ⟨h.body, h.accountant, h.tasks⟩

theorem Calm.alone {s' : State} (h : Calm s s') (ha : Alone s) : Alone s' :=
  ⟨h.body.trans ha.body, h.accountant.trans ha.accountant, h.tasks.trans ha.tasks⟩

theorem Audit.run_pending {p : Prog Reply} (hh : s.handler = some p)
    (hp : Unwritten skip id p) (ha : Alone s) (hfin : s.finalized = false) (hrows : s.rows = [])
    (hflag : s.stream.streamError = false) (o : Oracle) :
    Audit skip id (Chat.step s (.run .handler o)) (unaudited skip s (.run .handler o)) false
      false ∨ Idle skip s (.run .handler o) := by
  rcases run_handler hh o with ⟨hnone, hstep⟩ | ⟨e, k, r, s', rfl, hperform, hstep⟩
  · refine .inr ⟨hstep, ?_, rfl, rfl⟩
    cases p with
    | ret a => simp only [unaudited, hh]
    | op e k =>
        have hperform := Option.map_eq_none_iff.mp hnone
        cases e with
        | resolve m c =>
            have ho : o (.resolve m c) = none := Option.map_eq_none_iff.mp hperform
            simp only [unaudited, hh, ho]
            rfl
        | _ => simp only [unaudited, hh]
  · refine .inl ?_
    rw [hstep]
    cases e with
    | resolve m c =>
        obtain ⟨answer, ho, hr⟩ := Option.map_eq_some_iff.mp hperform
        obtain ⟨rfl, rfl⟩ := Prod.mk.inj hr
        have hskips : unaudited skip s (.run .handler o) = skip answer := by
          simp only [unaudited, hh, ho]
          rfl
        rw [hskips]
        rcases hp answer with ⟨hskip, hw⟩ | ⟨hskip, hu⟩
        · rw [hskip]
          refine .silent ?_ (ha.withHandler _) hrows
          rintro q ⟨⟩
          exact hw
        · rw [hskip]
          exact .pending rfl hu (ha.withHandler _) hfin hrows hflag
    | audit row =>
        obtain ⟨hid, hw⟩ := hp
        cases perform_audit hperform
        simp only [unaudited, hh]
        refine @Audit.answered _ _ _ row ?_ ⟨ha.body, ha.accountant, ha.tasks⟩ ?_ hid
        · rintro q ⟨⟩
          exact hw
        · exact (rows_note s _).trans (by rw [hrows]; rfl)
    | finish row =>
        obtain ⟨hid, hw⟩ := hp
        have hs' := perform_finish hperform
        rw [hfin, if_neg (by decide)] at hs'
        subst hs'
        simp only [unaudited, hh]
        refine @Audit.answered _ _ _ row ?_ ⟨ha.body, ha.accountant, ha.tasks⟩ ?_ hid
        · rintro q ⟨⟩
          exact hw
        · exact (rows_note s _).trans (by rw [hrows]; rfl)
    | mapItem item => exact hp.elim
    | dropGuard => exact hp.elim
    | openStream session =>
        cases perform_openStream hperform
        simp only [unaudited, hh]
        exact .pending rfl (hp r) ⟨ha.body, ha.accountant, ha.tasks⟩ hfin hrows rfl
    | _ =>
        have hcalm := perform_calm hperform rfl
        simp only [unaudited, hh]
        exact .pending rfl (hp r) ((hcalm.alone ha).withHandler _)
          (hcalm.finalized.trans hfin) (hcalm.rows.trans hrows) (hcalm.streamError.trans hflag)

/-- The handler that owes the row ends, hands it over to a body, or is dropped. -/
theorem Audit.step_pending {p : Prog Reply} (hh : s.handler = some p)
    (hp : Unwritten skip id p) (ha : Alone s) (hfin : s.finalized = false) (hrows : s.rows = [])
    (hflag : s.stream.streamError = false) (ev : RunEvent) :
    Audit skip id (Chat.step s ev) (unaudited skip s ev) (pollsError s ev)
      (reachesFinish s ev) := by
  have hkeep : Audit skip id s false false false := .pending hh hp ha hfin hrows hflag
  rcases idle_of_alone ha ev with hi | ⟨o, rfl⟩ | rfl | rfl
  · exact hkeep.idle hi
  · rcases Audit.run_pending hh hp ha hfin hrows hflag o with h | hi
    · exact h
    · exact hkeep.idle hi
  · cases p with
    | op e k => simpa only [Chat.step, unaudited, pollsError, reachesFinish, hh] using hkeep
    | ret reply =>
        obtain ⟨a, items, rfl, hid⟩ := hp
        simp only [Chat.step, unaudited, pollsError, reachesFinish, hh]
        refine .running (b := a.bodyStream items) rfl rfl hid rfl ha.tasks hfin hrows hflag ?_
          (a.mustFinish_bodyStream items)
        rw [← hid]
        exact a.ends_bodyStream items false
  · cases p with
    | ret reply => simpa only [Chat.step, unaudited, pollsError, reachesFinish, hh] using hkeep
    | op e k =>
        simp only [Chat.step, unaudited, pollsError, reachesFinish, hh]
        cases e.suspends with
        | false => exact hkeep
        | true => exact .silent (by simp) (ha.withHandler none) hrows

theorem Written.step {e : Op} {k : Res e → Prog Reply} {r : Res e} {s' : State} {o : Oracle}
    (hp : Written (.op e k)) (h : perform s o e = some (r, s')) :
    Written (k r) ∧ Calm s s' ∧ e.suspends = false := by
  obtain ⟨he, hk⟩ := hp
  obtain ⟨hcalm, hsusp⟩ := Bool.and_eq_true_iff.mp he
  exact ⟨hk r, perform_calm h hcalm, by simpa using hsusp⟩

theorem unaudited_written (hh : ∀ p, s.handler = some p → Written p) (ev : RunEvent) :
    unaudited skip s ev = false := by
  cases ev with
  | returned => rfl
  | dropBody => rfl
  | dropHandler =>
      cases hp : s.handler with
      | none => simp only [unaudited, hp]
      | some p =>
          have hw := hh p hp
          cases p with
          | ret reply => simp only [unaudited, hp]
          | op e k =>
              simp only [unaudited, hp]
              simpa using (Bool.and_eq_true_iff.mp hw.1).2
  | run t o =>
      cases t with
      | body => rfl
      | task i => rfl
      | handler =>
          cases hp : s.handler with
          | none => simp only [unaudited, hp]
          | some p =>
              have hw := hh p hp
              cases p with
              | ret reply => simp only [unaudited, hp]
              | op e k =>
                  cases e with
                  | resolve m c => cases hw.1
                  | _ => simp only [unaudited, hp]

theorem step_written (hh : ∀ p, s.handler = some p → Written p) (ha : Alone s) (ev : RunEvent) :
    (∀ p, (Chat.step s ev).handler = some p → Written p) ∧ Alone (Chat.step s ev) ∧
      (Chat.step s ev).rows = s.rows ∧ pollsError s ev = false ∧ reachesFinish s ev = false := by
  have hkeep : ∀ ev, Chat.step s ev = s → pollsError s ev = false → reachesFinish s ev = false →
      (∀ p, (Chat.step s ev).handler = some p → Written p) ∧ Alone (Chat.step s ev) ∧
        (Chat.step s ev).rows = s.rows ∧ pollsError s ev = false ∧
        reachesFinish s ev = false := by
    intro ev hs hpoll hreach
    rw [hs]
    exact ⟨hh, ha, rfl, hpoll, hreach⟩
  rcases @idle_of_alone s (fun _ => false) ha ev with hi | ⟨o, rfl⟩ | rfl | rfl
  · exact hkeep ev hi.step hi.quiet hi.open_
  · cases hp : s.handler with
    | none => exact hkeep _ (run_handler_none hp o) rfl rfl
    | some p =>
        rcases run_handler hp o with ⟨-, hstep⟩ | ⟨e, k, r, s', rfl, hperform, hstep⟩
        · exact hkeep _ hstep rfl rfl
        · obtain ⟨hw, hcalm, -⟩ := (hh _ hp).step hperform
          rw [hstep]
          refine ⟨?_, (hcalm.alone ha).withHandler _, hcalm.rows, rfl, rfl⟩
          rintro q ⟨⟩
          exact hw
  · cases hp : s.handler with
    | none => exact hkeep _ (by simp only [Chat.step, hp]) rfl rfl
    | some p =>
        have hw := hh p hp
        cases p with
        | op e k => exact hkeep _ (by simp only [Chat.step, hp]) rfl rfl
        | ret reply =>
            obtain ⟨status, body, rfl⟩ := hw
            simp only [Chat.step, hp]
            exact ⟨by simp, ha.withHandler none, rfl, rfl, rfl⟩
  · cases hp : s.handler with
    | none => exact hkeep _ (by simp only [Chat.step, hp]) rfl rfl
    | some p =>
        cases p with
        | ret reply => exact hkeep _ (by simp only [Chat.step, hp]) rfl rfl
        | op e k =>
            cases hsusp : e.suspends with
            | false => exact hkeep _ (by simp [Chat.step, hp, hsusp]) rfl rfl
            | true =>
                have hs : Chat.step s .dropHandler = { s with handler := none } := by
                  simp [Chat.step, hp, hsusp]
                rw [hs]
                exact ⟨by simp, ha.withHandler none, rfl, rfl, rfl⟩

/-! ### The stream -/

theorem finishes_guardTasks {a : Accountant} (ha : s.accountant = some a)
    (hid : a.requestId = id) :
    ∀ t ∈ s.guardTasks, t.Uses (Op.finishesWith id (dropCode s.stream.streamError)) := by
  have ht := a.finishes_dropTask s.stream
  rw [hid] at ht
  unfold State.guardTasks
  rw [ha]
  cases s.guard with
  | true => simpa using ht
  | false => simp

theorem finishes_bodyTasks {a : Accountant} (ha : s.accountant = some a)
    (hid : a.requestId = id) :
    (∀ t ∈ s.bodyTasks, t.Uses (Op.finishesWith id (dropCode s.stream.streamError))) ∧
      ∃ t ∈ s.bodyTasks, MustFinish t := by
  have ht := a.finishes_dropTask s.stream
  rw [hid] at ht
  unfold State.bodyTasks
  rw [ha]
  exact ⟨by simpa using ht, _, List.mem_singleton_self _, a.mustFinish_dropTask s.stream⟩

theorem noAudit_of_finishes {code : String} {t : Prog Unit}
    (h : t.Uses (Op.finishesWith id code)) : NoAudit t := by
  refine h.mono fun e he => ?_
  cases e with
  | audit row => cases he
  | _ => rfl

theorem noAudit_spawned (s : State) :
    (∀ t ∈ s.guardTasks, NoAudit t) ∧ ∀ t ∈ s.bodyTasks, NoAudit t := by
  cases ha : s.accountant with
  | none =>
      unfold State.guardTasks State.bodyTasks
      rw [ha]
      cases s.guard <;> simp
  | some a =>
      exact ⟨fun t ht => noAudit_of_finishes (finishes_guardTasks ha rfl t ht),
        fun t ht => noAudit_of_finishes ((finishes_bodyTasks ha rfl).1 t ht)⟩

/-- The body goes on, and finishes the request at the terminal chunk. -/
theorem Audit.run_body {a : Accountant} {b : Prog Unit} (hh : s.handler = none)
    (ha : s.accountant = some a) (hid : a.requestId = id) (hb : s.body = some b)
    (ht : s.tasks = []) (hfin : s.finalized = false) (hrows : s.rows = [])
    (hflag : s.stream.streamError = polled) (hends : Ends id b polled) (hmust : MustFinish b)
    (o : Oracle) :
    Audit skip id (Chat.step s (.run .body o)) false (polled || pollsError s (.run .body o))
      (reachesFinish s (.run .body o)) := by
  rcases Chat.run_body hb o with ⟨hnone, hstep⟩ | ⟨e, k, r, s', rfl, hperform, hstep⟩
  · have hkeep : Audit skip id s false polled false :=
      .running hh ha hid hb ht hfin hrows hflag hends hmust
    refine hkeep.idle ⟨hstep, rfl, ?_, ?_⟩
    · unfold pollsError
      rw [hb]
      cases b with
      | ret u => rfl
      | op e k =>
          cases e with
          | mapItem item => cases hnone
          | _ => rfl
    · unfold reachesFinish
      rw [hb]
      cases b with
      | ret u => rfl
      | op e k =>
          cases e with
          | finish row => cases hnone
          | _ => rfl
  · rw [hstep]
    cases e with
    | finish row =>
        obtain ⟨hrow, hcode, hno⟩ := hends
        have hs' := perform_finish hperform
        rw [hfin, if_neg (by decide)] at hs'
        subst hs'
        simp only [pollsError, reachesFinish, hb, Bool.or_false]
        refine @Audit.final _ _ _ _ row _ _ hh ha ?_ ?_ rfl ?_ hrow hcode
        · rintro q ⟨⟩
          exact hno
        · intro t hmem
          rw [show ({ s.note (.audited row) with finalized := true } : State).tasks = [] from ht]
            at hmem
          cases hmem
        · exact (rows_note s _).trans (by rw [hrows]; rfl)
    | audit row => exact hends.elim
    | dropGuard => exact hends.elim
    | openStream session => exact hends.elim
    | cells =>
        cases hperform
        simp only [pollsError, reachesFinish, hb, Bool.or_false]
        exact .running hh ha hid rfl ht hfin hrows hflag (hends s.stream hflag) (hmust s.stream)
    | mapItem item =>
        cases perform_mapItem hperform
        cases item with
        | error err =>
            simp only [pollsError, reachesFinish, hb, hfin, Bool.not_false, Bool.or_true]
            exact .running hh ha hid rfl ht rfl hrows rfl (hends r) (hmust r)
        | ok chunk =>
            simp only [pollsError, reachesFinish, hb, Bool.or_false]
            exact .running hh ha hid rfl ht hfin hrows
              ((streamError_mapItem_ok s.stream chunk).trans hflag) (hends r) (hmust r)
    | _ =>
        have hcalm := perform_calm hperform rfl
        simp only [pollsError, reachesFinish, hb, Bool.or_false]
        exact .running (hcalm.handler.trans hh) (hcalm.accountant.trans ha) hid rfl
          (hcalm.tasks.trans ht) (hcalm.finalized.trans hfin) (hcalm.rows.trans hrows)
          (hcalm.streamError.trans hflag) (hends r) (hmust r)

/-- The body is dropped before the request is finished: a task will finish it. -/
theorem Audit.drop_running {a : Accountant} {b : Prog Unit} (hh : s.handler = none)
    (ha : s.accountant = some a) (hid : a.requestId = id) (hb : s.body = some b)
    (ht : s.tasks = []) (hfin : s.finalized = false) (hrows : s.rows = [])
    (hflag : s.stream.streamError = polled) (hends : Ends id b polled) (hmust : MustFinish b) :
    Audit skip id (Chat.step s .dropBody) false polled false := by
  have hkeep : Audit skip id s false polled false :=
    .running hh ha hid hb ht hfin hrows hflag hends hmust
  obtain ⟨hbody, t, htask, htmust⟩ := finishes_bodyTasks ha hid
  have hguard := finishes_guardTasks ha hid
  rw [hflag] at hbody hguard
  simp only [Chat.step, hb]
  split_ifs
  · refine .dropped hh ha rfl ?_ ⟨t, ?_, htmust⟩ hfin hrows
    · simp only [ht, List.nil_append]
      exact List.forall_mem_append.mpr ⟨hguard, hbody⟩
    · exact List.mem_append_right _ htask
  · exact hkeep

theorem Audit.run_dropped {a : Accountant} (hh : s.handler = none) (ha : s.accountant = some a)
    (hb : s.body = none) (ht : ∀ t ∈ s.tasks, t.Uses (Op.finishesWith id (dropCode polled)))
    (hmust : ∃ t ∈ s.tasks, MustFinish t) (hfin : s.finalized = false) (hrows : s.rows = [])
    (i : ℕ) (o : Oracle) :
    Audit skip id (Chat.step s (.run (.task i) o)) false polled false := by
  rcases run_task s i o with hstep | ⟨l, e, k, ps, r, s', hl, rfl, hperform, hstep⟩
  · rw [hstep]
    exact .dropped hh ha hb ht hmust hfin hrows
  · rw [hstep]
    rw [hl] at ht hmust
    obtain ⟨hl₁, hps⟩ := List.forall_mem_append.mp ht
    obtain ⟨⟨he, hk⟩, hps⟩ := List.forall_mem_cons.mp hps
    have hset : (l ++ .op e k :: ps).set l.length (k r) = l ++ k r :: ps := by
      rw [List.set_append_right _ _ le_rfl, Nat.sub_self, List.set_cons_zero]
    have hall : ∀ t ∈ l ++ k r :: ps, t.Uses (Op.finishesWith id (dropCode polled)) :=
      List.forall_mem_append.mpr ⟨hl₁, List.forall_mem_cons.mpr ⟨hk r, hps⟩⟩
    cases e with
    | finish row =>
        obtain ⟨hrow, hcode⟩ := he
        have hs' := perform_finish hperform
        rw [hfin, if_neg (by decide)] at hs'
        subst hs'
        refine @Audit.final _ _ _ _ row _ _ hh ha ?_ ?_ rfl ?_ hrow hcode
        · intro q hq
          cases hb.symm.trans hq
        · change ∀ t ∈ s.tasks.set l.length (k r), NoAudit t
          rw [hl, hset]
          exact fun t ht => noAudit_of_finishes (hall t ht)
        · exact (rows_note s _).trans (by rw [hrows]; rfl)
    | audit | mapItem | openStream | dropGuard => cases he
    | _ =>
        have hcalm := perform_calm hperform rfl
        refine .dropped (hcalm.handler.trans hh) (hcalm.accountant.trans ha)
          (hcalm.body.trans hb) ?_ ?_ (hcalm.finalized.trans hfin) (hcalm.rows.trans hrows)
        · change ∀ t ∈ s'.tasks.set l.length (k r), _
          rw [hcalm.tasks, hl, hset]
          exact hall
        · change ∃ t ∈ s'.tasks.set l.length (k r), MustFinish t
          rw [hcalm.tasks, hl, hset]
          obtain ⟨t, hmem, hmt⟩ := hmust
          rcases List.mem_cons.mp (List.perm_middle.mem_iff.mp hmem) with rfl | hmem
          · exact ⟨k r, by simp, hmt r⟩
          · exact ⟨t, List.perm_middle.mem_iff.mpr (List.mem_cons_of_mem _ hmem), hmt⟩

/-- What an operation does to the rows of a finished request. -/
structure Finished (s s' : State) : Prop where
  handler : s'.handler = s.handler
  body : s'.body = s.body
  accountant : s'.accountant = s.accountant
  finalized : s'.finalized = true
  rows : s'.rows = s.rows
  tasks : s'.tasks = s.tasks ∨ s'.tasks = s.tasks ++ s.guardTasks

/-- A finished request gets no other row, but by an audit or an admission. -/
theorem perform_finished {e : Op} {r : Res e} {s' : State} {o : Oracle}
    (h : perform s o e = some (r, s')) (he : e.isAudit = false) (hfin : s.finalized = true) :
    Finished s s' := by
  cases e with
  | audit row => cases he
  | finish row =>
      have hs' := perform_finish h
      rw [if_pos hfin] at hs'
      subst hs'
      exact ⟨rfl, rfl, rfl, hfin, rfl, .inl rfl⟩
  | mapItem item =>
      cases perform_mapItem h
      exact ⟨rfl, rfl, rfl, hfin, rfl, .inl rfl⟩
  | openStream session =>
      cases perform_openStream h
      exact ⟨rfl, rfl, rfl, hfin, rfl, .inl rfl⟩
  | dropGuard =>
      cases perform_dropGuard' h
      exact ⟨rfl, rfl, rfl, hfin, rfl, .inr rfl⟩
  | _ =>
      have hcalm := perform_calm h rfl
      exact ⟨hcalm.handler, hcalm.body, hcalm.accountant, hcalm.finalized.trans hfin, hcalm.rows,
        .inl hcalm.tasks⟩

theorem Finished.noAudit {s' : State} (h : Finished s s') (ht : ∀ t ∈ s.tasks, NoAudit t) :
    ∀ t ∈ s'.tasks, NoAudit t := by
  rcases h.tasks with htasks | htasks
  · rw [htasks]
    exact ht
  · rw [htasks]
    exact List.forall_mem_append.mpr ⟨ht, (noAudit_spawned s).1⟩

theorem isAudit_of_writes {e : Op} (h : e.writes = false) : e.isAudit = false := by
  cases e with
  | audit row => cases h
  | _ => rfl

theorem Audit.step_final {a : Accountant} {row : Row} (hh : s.handler = none)
    (ha : s.accountant = some a) (hbody : ∀ b, s.body = some b → NoWrites b)
    (ht : ∀ t ∈ s.tasks, NoAudit t) (hfin : s.finalized = true) (hrows : s.rows = [row])
    (hid : row.requestId = id) (hcode : row.code = codeOf polled reached) (ev : RunEvent) :
    Audit skip id (Chat.step s ev) false (polled || pollsError s ev)
      (reached || reachesFinish s ev) := by
  have hkeep : Audit skip id s false polled reached :=
    .final hh ha hbody ht hfin hrows hid hcode
  have hpoll : pollsError s ev = false := by
    unfold pollsError
    split
    · split
      · simp [hfin]
      · rfl
    · rfl
  have hreach : reachesFinish s ev = false := by
    unfold reachesFinish
    split
    · split
      · next hb => cases (hbody _ hb).1
      · rfl
    · rfl
  rw [hpoll, hreach, Bool.or_false, Bool.or_false]
  rcases @idle_of_handler_none s skip hh ev with hi | ⟨o, rfl⟩ | ⟨i, o, rfl⟩ | rfl
  · rw [hi.step]
    exact hkeep
  · cases hb : s.body with
    | none =>
        rw [run_body_none hb o]
        exact hkeep
    | some b =>
        rcases Chat.run_body hb o with ⟨-, hstep⟩ | ⟨e, k, r, s', rfl, hperform, hstep⟩
        · rw [hstep]
          exact hkeep
        · obtain ⟨hw, hk⟩ := hbody _ hb
          have hf := perform_finished hperform (isAudit_of_writes hw) hfin
          rw [hstep]
          refine .final (hf.handler.trans hh) (hf.accountant.trans ha) ?_ (hf.noAudit ht)
            hf.finalized (hf.rows.trans hrows) hid hcode
          rintro q ⟨⟩
          exact hk r
  · rcases run_task s i o with hstep | ⟨l, e, k, ps, r, s', hl, rfl, hperform, hstep⟩
    · rw [hstep]
      exact hkeep
    · obtain ⟨he, hk⟩ := ht (.op e k) (by simp [hl])
      have hf := perform_finished hperform he hfin
      rw [hstep]
      refine .final (hf.handler.trans hh) (hf.accountant.trans ha) ?_ ?_ hf.finalized
        (hf.rows.trans hrows) hid hcode
      · intro q hq
        exact hbody q (hf.body.symm.trans hq)
      · intro t hmem
        rcases List.mem_or_eq_of_mem_set hmem with hmem | rfl
        · exact hf.noAudit ht t hmem
        · exact hk r
  · cases hb : s.body with
    | none =>
        have hs : Chat.step s .dropBody = s := by simp only [Chat.step, hb]
        rw [hs]
        exact hkeep
    | some b =>
        simp only [Chat.step, hb]
        split_ifs
        · obtain ⟨hguard, hspawned⟩ := noAudit_spawned s
          exact .final hh ha (by simp) (List.forall_mem_append.mpr
            ⟨List.forall_mem_append.mpr ⟨ht, hguard⟩, hspawned⟩) hfin hrows hid hcode
        · exact hkeep

/-- **One event of a request.** -/
theorem Audit.step (h : Audit skip id s lost polled reached) (ev : RunEvent) :
    Audit skip id (Chat.step s ev) (lost || unaudited skip s ev) (polled || pollsError s ev)
      (reached || reachesFinish s ev) := by
  cases h with
  | pending hh hp ha hfin hrows hflag =>
      simpa only [Bool.false_or] using Audit.step_pending hh hp ha hfin hrows hflag ev
  | answered hh ha hrows hid =>
      obtain ⟨hh', ha', hrows', hpoll, hreach⟩ := step_written hh ha ev
      rw [unaudited_written hh, hpoll, hreach]
      exact .answered hh' ha' (hrows'.trans hrows) hid
  | silent hh ha hrows =>
      obtain ⟨hh', ha', hrows', hpoll, hreach⟩ := step_written hh ha ev
      rw [unaudited_written hh, hpoll, hreach]
      exact .silent hh' ha' (hrows'.trans hrows)
  | running hh ha hid hb ht hfin hrows hflag hends hmust =>
      rcases @idle_of_handler_none s skip hh ev with hi | ⟨o, rfl⟩ | ⟨i, o, rfl⟩ | rfl
      · exact Audit.idle (.running hh ha hid hb ht hfin hrows hflag hends hmust) hi
      · simpa only [unaudited, Bool.false_or] using
          Audit.run_body hh ha hid hb ht hfin hrows hflag hends hmust o
      · refine Audit.idle (.running hh ha hid hb ht hfin hrows hflag hends hmust)
          ⟨?_, rfl, rfl, rfl⟩
        simp only [Chat.step, ht, List.getElem?_nil, Option.bind_none]
      · simpa only [unaudited, pollsError, reachesFinish, Bool.or_false] using
          Audit.drop_running hh ha hid hb ht hfin hrows hflag hends hmust
  | dropped hh ha hb ht hmust hfin hrows =>
      have hkeep : Audit skip id s false polled false := .dropped hh ha hb ht hmust hfin hrows
      rcases @idle_of_handler_none s skip hh ev with hi | ⟨o, rfl⟩ | ⟨i, o, rfl⟩ | rfl
      · exact hkeep.idle hi
      · refine hkeep.idle ⟨run_body_none hb o, rfl, ?_, ?_⟩
        · simp only [pollsError, hb]
        · simp only [reachesFinish, hb]
      · simpa only [unaudited, pollsError, reachesFinish, Bool.or_false] using
          Audit.run_dropped hh ha hb ht hmust hfin hrows i o
      · refine hkeep.idle ⟨?_, rfl, rfl, rfl⟩
        simp only [Chat.step, hb]
  | final hh ha hbody ht hfin hrows hid hcode =>
      have haud : unaudited skip s ev = false :=
        unaudited_written (fun p hp => by cases hh.symm.trans hp) ev
      rw [haud]
      exact Audit.step_final hh ha hbody ht hfin hrows hid hcode ev

end Events

/-! ### Runs -/

section Runs

open Runs (final final_cons Along Sometime)

variable {s : State} {skip : Except RoutingError (String × String) → Bool}
  {lost polled reached : Bool}

/-- A run keeps the invariant, with its history. -/
theorem Audit.run (h : Audit skip id s lost polled reached) (es : List RunEvent) :
    ∃ lost' polled' reached', Audit skip id (Runs.final Chat.step s es) lost' polled' reached' ∧
      (lost' = false ↔ lost = false ∧
        Along Chat.step (fun s ev => unaudited skip s ev = false) s es) ∧
      (polled' = true ↔ polled = true ∨
        Sometime Chat.step (fun s ev => pollsError s ev = true) s es) ∧
      (reached' = true ↔ reached = true ∨
        Sometime Chat.step (fun s ev => reachesFinish s ev = true) s es) := by
  induction es generalizing s lost polled reached with
  | nil => exact ⟨lost, polled, reached, h, by simp, by simp [Sometime], by simp [Sometime]⟩
  | cons ev es ih =>
      obtain ⟨lost', polled', reached', hfinal, hl, hp, hr⟩ := ih (h.step ev)
      refine ⟨lost', polled', reached', hfinal, ?_, ?_, ?_⟩
      · rw [hl, Bool.or_eq_false_iff, Runs.along_cons, and_assoc]
      · rw [hp, Bool.or_eq_true, or_assoc, Sometime]
      · rw [hr, Bool.or_eq_true, or_assoc, Sometime]

theorem audit_init (g : Gateway) (requestId clientId : String) (body : ChatCompletionRequest) :
    Audit (skips g body) requestId (init g requestId clientId body) false false false :=
  .pending rfl (unwritten_chatCompletions g requestId clientId body) ⟨rfl, rfl, rfl⟩ rfl rfl rfl

theorem Audit.rows (h : Audit skip id s lost polled reached) :
    s.rows = [] ∨ ∃ row, s.rows = [row] ∧ row.requestId = id := by
  cases h with
  | pending _ _ _ _ hrows => exact .inl hrows
  | answered _ _ hrows hid => exact .inr ⟨_, hrows, hid⟩
  | silent _ _ hrows => exact .inl hrows
  | running _ _ _ _ _ _ hrows => exact .inl hrows
  | dropped _ _ _ _ _ _ hrows => exact .inl hrows
  | final _ _ _ _ _ hrows hid => exact .inr ⟨_, hrows, hid⟩

theorem Audit.ended (h : Audit skip id s lost polled reached) (hend : s.Ended) :
    (∃ row, s.rows = [row] ∧ row.requestId = id) ↔ lost = false := by
  obtain ⟨hh, hb, ht⟩ := hend
  cases h with
  | pending hh' => cases hh.symm.trans hh'
  | answered _ _ hrows hid => exact iff_of_true ⟨_, hrows, hid⟩ rfl
  | silent _ _ hrows =>
      refine iff_of_false ?_ (by simp)
      rintro ⟨row, hrow, -⟩
      cases hrows.symm.trans hrow
  | running _ _ _ hb' => cases hb.symm.trans hb'
  | dropped _ _ _ _ hmust =>
      obtain ⟨t, hmem, hm⟩ := hmust
      rw [ht t hmem] at hm
      exact hm.elim
  | final _ _ _ _ _ hrows hid => exact iff_of_true ⟨_, hrows, hid⟩ rfl

theorem Audit.code (h : Audit skip id s lost polled reached) (hend : s.Ended)
    (hopen : s.accountant.isSome = true) :
    ∃ row, s.rows = [row] ∧ row.requestId = id ∧ row.code = codeOf polled reached := by
  obtain ⟨hh, hb, ht⟩ := hend
  have hclosed : ¬ Alone s := fun ha => by simp [ha.accountant] at hopen
  cases h with
  | pending _ _ ha => exact absurd ha hclosed
  | answered _ ha => exact absurd ha hclosed
  | silent _ ha => exact absurd ha hclosed
  | running _ _ _ hb' => cases hb.symm.trans hb'
  | dropped _ _ _ _ hmust =>
      obtain ⟨t, hmem, hm⟩ := hmust
      rw [ht t hmem] at hm
      exact hm.elim
  | final _ _ _ _ _ hrows hid hcode => exact ⟨_, hrows, hid, hcode⟩

/-- The router names a provider that is not configured. -/
def unconfigured (g : Gateway) : Except RoutingError (String × String) → Bool
  | .ok (providerName, _) => decide (providerName ∉ g.providers)
  | .error _ => false

theorem skips_of_valid {g : Gateway} {body : ChatCompletionRequest}
    (hv : validate g body = none) : skips g body = unconfigured g := by
  funext answer
  cases answer with
  | ok target => simp [skips, unconfigured, hv]
  | error err => rfl

/-- The sample gateway without its provider. -/
def strayGateway : Gateway := { sampleGateway with providers := [] }

/-- The answer to a request that the router sends to a provider that is not configured. -/
def strayRun : State :=
  final step (init strayGateway "r" "c" (sampleRequest false)) (goOn .handler 2 ++ [.returned])

/-- **An opened stream has exactly one row at the end: it says `ok` if the terminal chunk
finished the request and no failed item had been polled, `upstream_error` if one had been, and
`cancelled` otherwise.** -/
theorem final_code (g : Gateway) (requestId clientId : String) (body : ChatCompletionRequest)
    (es : List RunEvent)
    (hopen : (final step (init g requestId clientId body) es).accountant.isSome = true)
    (hend : (final step (init g requestId clientId body) es).Ended) :
    ∃ row, (final step (init g requestId clientId body) es).rows = [row] ∧
      row.requestId = requestId ∧
      (row.code = "ok" ↔
        Sometime step (fun s ev => reachesFinish s ev = true) (init g requestId clientId body) es ∧
        ¬ Sometime step (fun s ev => pollsError s ev = true) (init g requestId clientId body) es) ∧
      (row.code = "upstream_error" ↔
        Sometime step (fun s ev => pollsError s ev = true) (init g requestId clientId body) es) ∧
      (row.code = "cancelled" ↔
        ¬ Sometime step (fun s ev => reachesFinish s ev = true) (init g requestId clientId body)
          es ∧
        ¬ Sometime step (fun s ev => pollsError s ev = true) (init g requestId clientId body)
          es) := by
  obtain ⟨lost, polled, reached, haudit, -, hpolled, hreached⟩ :=
    (audit_init g requestId clientId body).run es
  obtain ⟨row, hrows, hid, hcode⟩ := haudit.code hend hopen
  rw [Bool.false_eq_true, false_or] at hpolled hreached
  refine ⟨row, hrows, hid, ?_⟩
  rw [hcode, ← hpolled, ← hreached]
  cases polled <;> cases reached <;> decide

/-- The client drops the body while the terminal chunk waits for the store. -/
theorem final_code_dropped :
    ∃ row, (sampleRun true droppedBody).rows = [row] ∧ row.code = "cancelled" := by
  have htasks : (sampleRun true droppedBody).tasks = [.ret (), .ret ()] := rfl
  obtain ⟨row, hrows, -, -, -, hcode⟩ := final_code sampleGateway "r" "c" (sampleRequest true)
    droppedBody rfl ⟨rfl, rfl, fun t ht => by
      rw [← sampleRun, htasks] at ht
      simpa using ht⟩
  refine ⟨row, hrows, hcode.mpr ⟨?_, ?_⟩⟩
  · decide
  · decide

end Runs

end FirewallLLM.Chat
