import FirewallLLM.MeasurePrograms
import FirewallLLM.AuditOnce

/-! # Requests that are measured once

The invariant `Watch` compares the codes that a request has been observed with and its row.  The
handler observes the code of the row before it writes it.  A stream is observed once for every
failed item and, if the terminal chunk finishes it, once more with the code of the row; the
tasks of the dropped accountants observe nothing.

`measured_once_iff`: a valid request that has ended is observed exactly once, with the code of
its one row, if and only if its handler was not dropped, its provider was configured and, if a
stream was opened, either no item failed and the terminal chunk finished the request, or exactly
one item failed and it did not. -/

namespace FirewallLLM.Chat

/-- The handler returns the body of a stream. -/
def opensStream (s : State) : RunEvent → Bool
  | .returned => match s.handler with
      | some (.ret (.sse _ _)) => true
      | _ => false
  | _ => false

/-- The observations of `n` failed items. -/
def failures (n : ℕ) : List String := List.replicate n "upstream_error"

theorem failures_succ (n : ℕ) : failures (n + 1) = failures n ++ ["upstream_error"] :=
  List.replicate_succ'

/-! ### The invariant -/

/-- What has been observed of a request, with whether a stream was opened, how many items have
failed and whether the terminal chunk finished the request. -/
inductive Watch (skip : Except RoutingError (String × String) → Bool) (s : State) :
    Bool → ℕ → Bool → Prop where
  | handling {p : Prog Reply} {seen : Option String} (handler : s.handler = some p)
      (watching : Watching skip seen p) (alone : Alone s) (finalized : s.finalized = false)
      (rows : s.rows = []) (statuses : s.statuses = seen.toList) : Watch skip s false 0 false
  | answered {row : Row}
      (handler : ∀ p, s.handler = some p → ∃ status body, p = .ret (.json status body))
      (alone : Alone s) (rows : s.rows = [row]) (statuses : s.statuses = [row.code]) :
      Watch skip s false 0 false
  | streaming {b : Prog Unit} {n : ℕ} (handler : s.handler = none)
      (accountant : s.accountant.isSome = true) (body : s.body = some b) (tells : Tells false b)
      (tasks : s.tasks = []) (finalized : s.finalized = false) (rows : s.rows = [])
      (statuses : s.statuses = failures n) : Watch skip s true n false
  | failed {b : Prog Unit} {n : ℕ} (handler : s.handler = none)
      (accountant : s.accountant.isSome = true) (body : s.body = some b) (tells : Tells true b)
      (tasks : s.tasks = []) (finalized : s.finalized = false) (rows : s.rows = [])
      (statuses : s.statuses = failures n) : Watch skip s true (n + 1) false
  | finishing {m : Metric} {k : Unit → Prog Unit} {row : Row} {n : ℕ} (handler : s.handler = none)
      (body : s.body = some (.op (.observe m) k)) (status : m.status = row.code)
      (told : Told (k ())) (tasks : s.tasks = []) (finalized : s.finalized = true)
      (rows : s.rows = [row]) (statuses : s.statuses = failures n) : Watch skip s true n true
  | told {row : Row} {n : ℕ} (handler : s.handler = none) (body : ∀ b, s.body = some b → Told b)
      (tasks : ∀ t ∈ s.tasks, Mute t) (finalized : s.finalized = true) (rows : s.rows = [row])
      (statuses : s.statuses = failures n ++ [row.code]) : Watch skip s true n true
  | dropped {n : ℕ} (handler : s.handler = none) (accountant : s.accountant.isSome = true)
      (body : s.body = none)
      (tasks : ∀ t ∈ s.tasks, Mute t) (statuses : s.statuses = failures n) :
      Watch skip s true n false

section Events

variable {s : State} {skip : Except RoutingError (String × String) → Bool}
  {opened reached : Bool} {n : ℕ}

theorem opensStream_of_idle {ev : RunEvent} (h : Chat.step s ev = s) :
    opensStream s ev = false := by
  cases ev with
  | returned =>
      have hhandler := congrArg State.handler h
      cases hh : s.handler with
      | none => simp only [opensStream, hh]
      | some p =>
          cases p with
          | op e k => simp only [opensStream, hh]
          | ret reply =>
              cases reply with
              | json status body => simp only [opensStream, hh]
              | sse a items =>
                  simp only [Chat.step, hh] at hhandler
                  cases hhandler
  | _ => rfl

theorem Watch.idle {ev : RunEvent} (h : Watch skip s opened n reached) (hi : Idle skip s ev) :
    Watch skip (Chat.step s ev) (opened || opensStream s ev) (n + (pollsError s ev).toNat)
      (reached || reachesFinish s ev) := by
  rwa [opensStream_of_idle hi.step, hi.step, hi.quiet, hi.open_, Bool.or_false, Bool.or_false,
    Bool.toNat_false, Nat.add_zero]

theorem mute_spawned (s : State) : (∀ t ∈ s.guardTasks, Mute t) ∧ ∀ t ∈ s.bodyTasks, Mute t := by
  unfold State.guardTasks State.bodyTasks
  cases s.accountant with
  | none => cases s.guard <;> simp
  | some a =>
      have ht := a.mute_dropTask s.stream
      cases s.guard with
      | true => simpa using ht
      | false => simpa using ht

/-! ### The handler -/

theorem Watch.run_handling {p : Prog Reply} {seen : Option String} (hh : s.handler = some p)
    (hw : Watching skip seen p) (ha : Alone s) (hfin : s.finalized = false) (hrows : s.rows = [])
    (hstat : s.statuses = seen.toList) (o : Oracle)
    (haud : unaudited skip s (.run .handler o) = false) :
    Watch skip (Chat.step s (.run .handler o)) false 0 false := by
  rcases run_handler hh o with ⟨-, hstep⟩ | ⟨e, k, r, s', rfl, hperform, hstep⟩
  · rw [hstep]
    exact .handling hh hw ha hfin hrows hstat
  · rw [hstep]
    cases e with
    | resolve m c =>
        obtain ⟨answer, ho, hr⟩ := Option.map_eq_some_iff.mp hperform
        obtain ⟨rfl, rfl⟩ := Prod.mk.inj hr
        have hskip : skip answer = false := by
          simp only [unaudited, hh, ho] at haud
          exact haud
        rcases hw answer with hs | hw
        · rw [hskip] at hs
          cases hs
        · exact .handling rfl hw (ha.withHandler _) hfin hrows hstat
    | observe m =>
        obtain ⟨rfl, hw⟩ := hw
        cases perform_observe hperform
        refine .handling rfl hw ⟨ha.body, ha.accountant, ha.tasks⟩ hfin ?_ ?_
        · exact (rows_note s _).trans (by rw [hrows]; rfl)
        · exact (statuses_note s _).trans (by rw [hstat]; rfl)
    | audit row =>
        obtain ⟨rfl, hk⟩ := hw
        have hstat' := statuses_perform hperform rfl
        cases perform_audit hperform
        refine @Watch.answered _ _ row ?_ ⟨ha.body, ha.accountant, ha.tasks⟩ ?_
          (hstat'.trans hstat)
        · rintro q ⟨⟩
          exact hk
        · exact (rows_note s _).trans (by rw [hrows]; rfl)
    | finish row =>
        obtain ⟨rfl, hk⟩ := hw
        have hstat' := statuses_perform hperform rfl
        have hs' := perform_finish hperform
        rw [hfin, if_neg (by decide)] at hs'
        subst hs'
        refine @Watch.answered _ _ row ?_ ⟨ha.body, ha.accountant, ha.tasks⟩ ?_
          (hstat'.trans hstat)
        · rintro q ⟨⟩
          exact hk
        · exact (rows_note s _).trans (by rw [hrows]; rfl)
    | mapItem item => exact hw.elim
    | dropGuard => exact hw.elim
    | openStream session =>
        cases perform_openStream hperform
        exact .handling rfl (hw r) ⟨ha.body, ha.accountant, ha.tasks⟩ hfin hrows hstat
    | _ =>
        have hcalm := perform_calm hperform rfl
        exact .handling rfl (hw r) ((hcalm.alone ha).withHandler _)
          (hcalm.finalized.trans hfin) (hcalm.rows.trans hrows)
          ((statuses_perform hperform rfl).trans hstat)

theorem Watch.step_handling {p : Prog Reply} {seen : Option String} (hh : s.handler = some p)
    (hw : Watching skip seen p) (ha : Alone s) (hfin : s.finalized = false) (hrows : s.rows = [])
    (hstat : s.statuses = seen.toList) (ev : RunEvent) (haud : unaudited skip s ev = false) :
    Watch skip (Chat.step s ev) (false || opensStream s ev) (0 + (pollsError s ev).toNat)
      (false || reachesFinish s ev) := by
  have hkeep : Watch skip s false 0 false := .handling hh hw ha hfin hrows hstat
  rcases @idle_of_alone s skip ha ev with hi | ⟨o, rfl⟩ | rfl | rfl
  · exact hkeep.idle hi
  · exact Watch.run_handling hh hw ha hfin hrows hstat o haud
  · cases p with
    | op e k =>
        simp only [Chat.step, opensStream, hh]
        exact hkeep
    | ret reply =>
        obtain ⟨rfl, a, items, rfl⟩ := hw
        simp only [Chat.step, opensStream, hh]
        exact .streaming rfl rfl rfl (a.tells_bodyStream items) ha.tasks hfin hrows hstat
  · cases p with
    | ret reply =>
        simp only [Chat.step, hh]
        exact hkeep
    | op e k =>
        simp only [unaudited, hh] at haud
        simp only [Chat.step, hh, haud]
        exact hkeep

theorem Watch.step_answered {row : Row}
    (hh : ∀ p, s.handler = some p → ∃ status body, p = .ret (.json status body)) (ha : Alone s)
    (hrows : s.rows = [row]) (hstat : s.statuses = [row.code]) (ev : RunEvent) :
    Watch skip (Chat.step s ev) (false || opensStream s ev) (0 + (pollsError s ev).toNat)
      (false || reachesFinish s ev) := by
  have hkeep : Watch skip s false 0 false := .answered hh ha hrows hstat
  cases hp : s.handler with
  | none =>
      rcases @idle_of_alone s skip ha ev with hi | ⟨o, rfl⟩ | rfl | rfl
      · exact hkeep.idle hi
      · rw [run_handler_none hp o]
        exact hkeep
      · simp only [Chat.step, opensStream, hp]
        exact hkeep
      · simp only [Chat.step, hp]
        exact hkeep
  | some p =>
      obtain ⟨status, body, rfl⟩ := hh p hp
      rcases @idle_of_alone s skip ha ev with hi | ⟨o, rfl⟩ | rfl | rfl
      · exact hkeep.idle hi
      · simp only [Chat.step, hp]
        exact hkeep
      · simp only [Chat.step, opensStream, hp]
        exact .answered (by simp) (ha.withHandler none) hrows hstat
      · simp only [Chat.step, hp]
        exact hkeep

/-! ### The stream -/

theorem Watch.run_streaming {b : Prog Unit} (hh : s.handler = none)
    (ha : s.accountant.isSome = true) (hb : s.body = some b) (htells : Tells false b)
    (ht : s.tasks = []) (hfin : s.finalized = false) (hrows : s.rows = [])
    (hstat : s.statuses = failures n) (o : Oracle) :
    Watch skip (Chat.step s (.run .body o)) true (n + (pollsError s (.run .body o)).toNat)
      (reachesFinish s (.run .body o)) := by
  have hkeep : Watch skip s true n false := .streaming hh ha hb htells ht hfin hrows hstat
  rcases Chat.run_body hb o with ⟨hnone, hstep⟩ | ⟨e, k, r, s', rfl, hperform, hstep⟩
  · cases b with
    | ret u =>
        simp only [hstep, pollsError, reachesFinish, hb]
        exact hkeep
    | op e k =>
        cases e with
        | mapItem item => cases hnone
        | finish row => cases hnone
        | _ =>
            simp only [hstep, pollsError, reachesFinish, hb]
            exact hkeep
  · rw [hstep]
    cases e with
    | mapItem item =>
        have hstat' := statuses_perform hperform rfl
        cases perform_mapItem hperform
        cases item with
        | error err =>
            simp only [pollsError, reachesFinish, hb, hfin]
            exact .failed hh ha rfl (htells r) ht rfl hrows (hstat'.trans hstat)
        | ok chunk =>
            simp only [pollsError, reachesFinish, hb]
            exact .streaming hh ha rfl (htells r) ht hfin hrows (hstat'.trans hstat)
    | finish row =>
        obtain ⟨m, k', hk, hstatus, htold⟩ := htells
        have hstat' := statuses_perform hperform rfl
        have hs' := perform_finish hperform
        rw [hfin, if_neg (by decide)] at hs'
        subst hs'
        simp only [pollsError, reachesFinish, hb]
        refine @Watch.finishing _ _ m k' row n hh (congrArg some hk) hstatus htold ht rfl ?_
          (hstat'.trans hstat)
        exact (rows_note s _).trans (by rw [hrows]; rfl)
    | observe | audit | openStream | dropGuard => exact htells.elim
    | _ =>
        have hcalm := perform_calm hperform rfl
        simp only [pollsError, reachesFinish, hb]
        exact .streaming (hcalm.handler.trans hh) (hcalm.accountant ▸ ha) rfl (htells r)
          (hcalm.tasks.trans ht) (hcalm.finalized.trans hfin) (hcalm.rows.trans hrows)
          ((statuses_perform hperform rfl).trans hstat)

/-- An observation is next: the body cannot be dropped before it. -/
theorem step_observing {m : Metric} {k : Unit → Prog Unit} (hh : s.handler = none)
    (hb : s.body = some (.op (.observe m) k)) (ht : s.tasks = []) (ev : RunEvent) :
    Idle skip s ev ∨ (∃ o, ev = .run .body o) ∧ pollsError s ev = false ∧
      reachesFinish s ev = false ∧
      Chat.step s ev = { s.note (.observed m) with body := some (k ()) } := by
  rcases @idle_of_handler_none s skip hh ev with hi | ⟨o, rfl⟩ | ⟨i, o, rfl⟩ | rfl
  · exact .inl hi
  · refine .inr ⟨⟨o, rfl⟩, ?_, ?_, ?_⟩
    · simp only [pollsError, hb]
    · simp only [reachesFinish, hb]
    · simp only [Chat.step, hb]
      rfl
  · refine .inl ⟨?_, rfl, rfl, rfl⟩
    simp only [Chat.step, ht, List.getElem?_nil, Option.bind_none]
  · refine .inl ⟨?_, rfl, rfl, rfl⟩
    simp only [Chat.step, hb, droppable, Op.suspends]
    rfl

theorem Watch.step_failed {b : Prog Unit} (hh : s.handler = none)
    (ha : s.accountant.isSome = true) (hb : s.body = some b) (htells : Tells true b)
    (ht : s.tasks = []) (hfin : s.finalized = false) (hrows : s.rows = [])
    (hstat : s.statuses = failures n) (ev : RunEvent) :
    Watch skip (Chat.step s ev) true (n + 1 + (pollsError s ev).toNat)
      (false || reachesFinish s ev) := by
  have hkeep : Watch skip s true (n + 1) false := .failed hh ha hb htells ht hfin hrows hstat
  cases b with
  | ret u => exact htells.elim
  | op e k =>
      cases e with
      | observe m =>
          obtain ⟨hstatus, htells⟩ := htells
          rcases @step_observing s skip m k hh hb ht ev with hi | ⟨⟨o, rfl⟩, hpoll, hreach, hstep⟩
          · exact hkeep.idle hi
          · rw [hstep, hpoll, hreach]
            refine .streaming hh ha rfl htells ht hfin ?_ ?_
            · exact (rows_note s _).trans (by rw [hrows]; rfl)
            · refine (statuses_note s _).trans ?_
              simp only [hstat, hstatus, Bool.toNat_false, Nat.add_zero, failures_succ]
      | _ => exact htells.elim

theorem Watch.step_finishing {m : Metric} {k : Unit → Prog Unit} {row : Row}
    (hh : s.handler = none) (hb : s.body = some (.op (.observe m) k))
    (hstatus : m.status = row.code) (htold : Told (k ())) (ht : s.tasks = [])
    (hfin : s.finalized = true) (hrows : s.rows = [row])
    (hstat : s.statuses = failures n) (ev : RunEvent) :
    Watch skip (Chat.step s ev) true (n + (pollsError s ev).toNat) true := by
  have hkeep : Watch skip s true n true := .finishing hh hb hstatus htold ht hfin hrows hstat
  rcases @step_observing s skip m k hh hb ht ev with hi | ⟨⟨o, rfl⟩, hpoll, -, hstep⟩
  · exact hkeep.idle hi
  · rw [hstep, hpoll]
    refine @Watch.told _ _ row n hh ?_ ?_ hfin ?_ ?_
    · rintro q ⟨⟩
      exact htold
    · intro t hmem
      rw [show ({ s.note (.observed m) with body := some (k ()) } : State).tasks = [] from ht]
        at hmem
      cases hmem
    · exact (rows_note s _).trans (by rw [hrows]; rfl)
    · exact (statuses_note s _).trans (by rw [hstat, ← hstatus])

theorem Watch.step_streaming {b : Prog Unit} (hh : s.handler = none)
    (ha : s.accountant.isSome = true) (hb : s.body = some b) (htells : Tells false b)
    (ht : s.tasks = []) (hfin : s.finalized = false) (hrows : s.rows = [])
    (hstat : s.statuses = failures n) (ev : RunEvent) :
    Watch skip (Chat.step s ev) true (n + (pollsError s ev).toNat)
      (false || reachesFinish s ev) := by
  have hkeep : Watch skip s true n false := .streaming hh ha hb htells ht hfin hrows hstat
  rcases @idle_of_handler_none s skip hh ev with hi | ⟨o, rfl⟩ | ⟨i, o, rfl⟩ | rfl
  · exact hkeep.idle hi
  · rw [Bool.false_or]
    exact Watch.run_streaming hh ha hb htells ht hfin hrows hstat o
  · refine hkeep.idle ⟨?_, rfl, rfl, rfl⟩
    simp only [Chat.step, ht, List.getElem?_nil, Option.bind_none]
  · simp only [Chat.step, hb]
    split_ifs
    · refine .dropped hh ha rfl ?_ hstat
      simp only [ht, List.nil_append]
      exact List.forall_mem_append.mpr (mute_spawned s)
    · exact hkeep

theorem mute_spawn {ps : List (Prog Unit)} (hps : ps = s.tasks ∨ ps = s.tasks ++ s.guardTasks)
    (ht : ∀ t ∈ s.tasks, Mute t) : ∀ t ∈ ps, Mute t := by
  rcases hps with rfl | rfl
  · exact ht
  · exact List.forall_mem_append.mpr ⟨ht, (mute_spawned s).1⟩

/-- A task goes on, and may drop an accountant. -/
theorem mute_set {ps : List (Prog Unit)} {p : Prog Unit} (i : ℕ)
    (hps : ps = s.tasks ∨ ps = s.tasks ++ s.guardTasks) (ht : ∀ t ∈ s.tasks, Mute t)
    (hp : Mute p) : ∀ t ∈ ps.set i p, Mute t := by
  intro t hmem
  rcases List.mem_or_eq_of_mem_set hmem with hmem | rfl
  · exact mute_spawn hps ht t hmem
  · exact hp

theorem Watch.step_told {row : Row} (hh : s.handler = none)
    (hbody : ∀ b, s.body = some b → Told b) (ht : ∀ t ∈ s.tasks, Mute t)
    (hfin : s.finalized = true) (hrows : s.rows = [row])
    (hstat : s.statuses = failures n ++ [row.code]) (ev : RunEvent) :
    Watch skip (Chat.step s ev) true (n + (pollsError s ev).toNat) true := by
  have hkeep : Watch skip s true n true := .told hh hbody ht hfin hrows hstat
  have hpoll : pollsError s ev = false := by
    unfold pollsError
    split
    · split
      · simp [hfin]
      · rfl
    · rfl
  rw [hpoll]
  rcases @idle_of_handler_none s skip hh ev with hi | ⟨o, rfl⟩ | ⟨i, o, rfl⟩ | rfl
  · rw [hi.step]
    exact hkeep
  · cases hb : s.body with
    | none => rwa [run_body_none hb o]
    | some b =>
        rcases Chat.run_body hb o with ⟨-, hstep⟩ | ⟨e, k, r, s', rfl, hperform, hstep⟩
        · rwa [hstep]
        · obtain ⟨⟨hwrites, hobserve⟩, hk⟩ := hbody _ hb
          have hdone := perform_finished hperform (isAudit_of_writes hwrites) hfin
          rw [hstep]
          refine .told (hdone.handler.trans hh) ?_ (mute_spawn hdone.tasks ht) hdone.finalized
            (hdone.rows.trans hrows) ((statuses_perform hperform hobserve).trans hstat)
          rintro q ⟨⟩
          exact hk r
  · rcases run_task s i o with hstep | ⟨l, e, k, ps, r, s', hl, rfl, hperform, hstep⟩
    · rwa [hstep]
    · obtain ⟨⟨haudit, hobserve, -⟩, hk⟩ := ht (.op e k) (by simp [hl])
      have hdone := perform_finished hperform haudit hfin
      rw [hstep]
      exact .told (hdone.handler.trans hh) (fun q hq => hbody q (hdone.body.symm.trans hq))
        (mute_set l.length hdone.tasks ht (hk r)) hdone.finalized (hdone.rows.trans hrows)
        ((statuses_perform hperform hobserve).trans hstat)
  · cases hb : s.body with
    | none =>
        simp only [Chat.step, hb]
        exact hkeep
    | some b =>
        simp only [Chat.step, hb]
        split_ifs
        · exact .told hh (by simp) (List.forall_mem_append.mpr
            ⟨List.forall_mem_append.mpr ⟨ht, (mute_spawned s).1⟩, (mute_spawned s).2⟩) hfin hrows
            hstat
        · exact hkeep

theorem Watch.step_dropped (hh : s.handler = none) (ha : s.accountant.isSome = true)
    (hb : s.body = none)
    (ht : ∀ t ∈ s.tasks, Mute t) (hstat : s.statuses = failures n) (ev : RunEvent) :
    Watch skip (Chat.step s ev) true (n + (pollsError s ev).toNat)
      (false || reachesFinish s ev) := by
  have hkeep : Watch skip s true n false := .dropped hh ha hb ht hstat
  rcases @idle_of_handler_none s skip hh ev with hi | ⟨o, rfl⟩ | ⟨i, o, rfl⟩ | rfl
  · exact hkeep.idle hi
  · refine hkeep.idle ⟨run_body_none hb o, rfl, ?_, ?_⟩
    · simp only [pollsError, hb]
    · simp only [reachesFinish, hb]
  · rcases run_task s i o with hstep | ⟨l, e, k, ps, r, s', hl, rfl, hperform, hstep⟩
    · rw [hstep]
      exact hkeep
    · obtain ⟨⟨-, hobserve, hadmission⟩, hk⟩ := ht (.op e k) (by simp [hl])
      have hframe := perform_frame hperform hadmission
      rw [hstep]
      exact .dropped (hframe.handler.trans hh) (hframe.accountant ▸ ha) (hframe.body.trans hb)
        (mute_set l.length hframe.tasks ht (hk r))
        ((statuses_perform hperform hobserve).trans hstat)
  · simp only [Chat.step, hb]
    exact hkeep

/-- **One event of a request that keeps its row.** -/
theorem Watch.step (h : Watch skip s opened n reached) (ev : RunEvent)
    (haud : unaudited skip s ev = false) :
    Watch skip (Chat.step s ev) (opened || opensStream s ev) (n + (pollsError s ev).toNat)
      (reached || reachesFinish s ev) := by
  cases h with
  | handling hh hw ha hfin hrows hstat =>
      exact Watch.step_handling hh hw ha hfin hrows hstat ev haud
  | answered hh ha hrows hstat => exact Watch.step_answered hh ha hrows hstat ev
  | streaming hh ha hb htells ht hfin hrows hstat =>
      exact Watch.step_streaming hh ha hb htells ht hfin hrows hstat ev
  | failed hh ha hb htells ht hfin hrows hstat =>
      exact Watch.step_failed hh ha hb htells ht hfin hrows hstat ev
  | finishing hh hb hstatus htold ht hfin hrows hstat =>
      exact Watch.step_finishing hh hb hstatus htold ht hfin hrows hstat ev
  | told hh hbody ht hfin hrows hstat => exact Watch.step_told hh hbody ht hfin hrows hstat ev
  | dropped hh ha hb ht hstat => exact Watch.step_dropped hh ha hb ht hstat ev

end Events

/-! ### Runs -/

section Runs

open Runs (final Along Sometime tally tally_pos)

variable {s : State} {skip : Except RoutingError (String × String) → Bool}
  {opened reached : Bool} {n : ℕ}

theorem watch_init (g : Gateway) (requestId clientId : String) (body : ChatCompletionRequest) :
    Watch (skips g body) (init g requestId clientId body) false 0 false :=
  .handling rfl (watching_chatCompletions g requestId clientId body) ⟨rfl, rfl, rfl⟩ rfl rfl rfl

/-- A run of a request that keeps its row. -/
theorem Watch.run {es : List RunEvent} (h : Watch skip s opened n reached)
    (hkeep : Along Chat.step (fun s ev => unaudited skip s ev = false) s es) :
    ∃ opened' reached', Watch skip (Runs.final Chat.step s es) opened'
        (n + tally Chat.step pollsError s es) reached' ∧
      (opened' = true ↔ opened = true ∨
        Sometime Chat.step (fun s ev => opensStream s ev = true) s es) ∧
      (reached' = true ↔ reached = true ∨
        Sometime Chat.step (fun s ev => reachesFinish s ev = true) s es) := by
  induction es generalizing s opened n reached with
  | nil => exact ⟨opened, reached, h, by simp [Sometime], by simp [Sometime]⟩
  | cons ev es ih =>
      obtain ⟨haud, hrest⟩ := hkeep
      obtain ⟨opened', reached', hfinal, ho, hr⟩ := ih (h.step ev haud) hrest
      refine ⟨opened', reached', ?_, ?_, ?_⟩
      · rw [Nat.add_assoc] at hfinal
        exact hfinal
      · rw [ho, Bool.or_eq_true, or_assoc, Sometime]
      · rw [hr, Bool.or_eq_true, or_assoc, Sometime]

/-- When a request that kept its row has ended, it was observed once if it was not streamed, and
once for every failed item and for the terminal chunk if it was. -/
theorem Watch.ended (h : Watch skip s opened n reached) (hend : s.Ended) :
    (opened = false ∧ ∃ row, s.rows = [row] ∧ s.statuses = [row.code]) ∨
      (opened = true ∧ reached = false ∧ s.accountant.isSome = true ∧
        s.statuses = failures n) ∨
      (opened = true ∧ reached = true ∧ ∃ row, s.rows = [row] ∧
        s.statuses = failures n ++ [row.code]) := by
  obtain ⟨hh, hb, -⟩ := hend
  cases h with
  | handling hh' => cases hh.symm.trans hh'
  | answered _ _ hrows hstat => exact .inl ⟨rfl, _, hrows, hstat⟩
  | streaming _ _ hb' => cases hb.symm.trans hb'
  | failed _ _ hb' => cases hb.symm.trans hb'
  | finishing _ hb' => cases hb.symm.trans hb'
  | told _ _ _ _ hrows hstat => exact .inr (.inr ⟨rfl, rfl, _, hrows, hstat⟩)
  | dropped _ ha _ _ hstat => exact .inr (.inl ⟨rfl, rfl, ha, hstat⟩)

theorem failures_append_eq_singleton {code : String} :
    failures n ++ [code] = [code] ↔ n = 0 := by
  rw [List.append_left_eq_self]
  exact List.replicate_eq_nil_iff "upstream_error"

theorem failures_eq_singleton {code : String} :
    failures n = [code] ↔ n = 1 ∧ code = "upstream_error" := by
  cases n with
  | zero => simp [failures]
  | succ n => cases n with
    | zero => simp [failures, eq_comm]
    | succ n => simp [failures, List.replicate_succ]

/-- The stream has one item, which has failed. -/
def failingOracle : Oracle
  | .chatStream _ => some (.ok [.error []])
  | e => sampleOracle e

/-- The whole stream with its failed item, and the tasks of both accountants. -/
def failedStream : List RunEvent :=
  List.replicate 5 (.run .handler failingOracle) ++ [.returned] ++
    List.replicate 15 (.run .body failingOracle) ++ [.dropBody] ++ goOn (.task 0) 2 ++
    goOn (.task 1) 2

end Runs

end FirewallLLM.Chat
