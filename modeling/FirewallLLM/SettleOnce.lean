import FirewallLLM.SettlePrograms

/-! # A reservation is settled once

The invariant `Stage` says of an admitted request who still owes the settle: the handler, one
of the workers of the stream, or nobody any more.  The flag `recorded` is set before the settle
it guards, so that a body that is dropped in between settles nothing and lets nobody else;
likewise nobody settles for a handler that is dropped before it has settled.

`settled_once_iff`: a request that has ended has settled its reservation exactly once if and
only if neither happened; it never settles twice. -/

namespace FirewallLLM.Chat

variable {rsv : Reservation}

/-- The handler of an admitted request is dropped before it has settled, or the body while it
settles. -/
def lossy (s : State) : RunEvent → Bool
  | .dropHandler => match s.handler with
      | some (.op e _) => s.reservation.isSome && e.losing
      | _ => false
  | .dropBody => match s.body with
      | some (.op (.settle ..) _) => true
      | _ => false
  | _ => false

/-! ### The workers of a stream -/

theorem forall_mem_middle {P : Prog Unit → Prop} {l ps : List (Prog Unit)} {p : Prog Unit} :
    (∀ q ∈ l ++ p :: ps, P q) ↔ P p ∧ ∀ q ∈ l ++ ps, P q := by
  simp only [List.perm_middle.mem_iff, List.forall_mem_cons]

/-- One program is at the settle, and the others settle nothing. -/
def OneAtSettle (rsv : Reservation) : List (Prog Unit) → Prop
  | [] => False
  | p :: ps => (AtSettle rsv p ∧ ∀ q ∈ ps, Spent q) ∨ (Spent p ∧ OneAtSettle rsv ps)

theorem oneAtSettle_append_cons {l ps : List (Prog Unit)} {p : Prog Unit} :
    OneAtSettle rsv (l ++ p :: ps) ↔
      (AtSettle rsv p ∧ ∀ q ∈ l ++ ps, Spent q) ∨ (Spent p ∧ OneAtSettle rsv (l ++ ps)) := by
  induction l with
  | nil => exact Iff.rfl
  | cons p' l ih =>
      simp only [List.cons_append, OneAtSettle, ih, List.mem_append, List.mem_cons]
      grind

theorem OneAtSettle.append {ps new : List (Prog Unit)} (h : OneAtSettle rsv ps)
    (hnew : ∀ q ∈ new, Spent q) : OneAtSettle rsv (ps ++ new) := by
  induction ps with
  | nil => exact h.elim
  | cons p ps ih =>
      rcases h with ⟨hp, hps⟩ | ⟨hp, hps⟩
      · exact .inl ⟨hp, List.forall_mem_append.mpr ⟨hps, hnew⟩⟩
      · exact .inr ⟨hp, ih hps⟩

theorem OneAtSettle.exists {ps : List (Prog Unit)} (h : OneAtSettle rsv ps) :
    ∃ p ∈ ps, AtSettle rsv p := by
  induction ps with
  | nil => exact h.elim
  | cons p ps ih =>
      rcases h with ⟨hp, -⟩ | ⟨-, hps⟩
      · exact ⟨p, List.mem_cons_self, hp⟩
      · obtain ⟨q, hq, hat⟩ := ih hps
        exact ⟨q, List.mem_cons_of_mem _ hq, hat⟩

/-- Where the settle of a stream stands, for its workers `ps`: nobody has set the flag and
somebody will; one is about to settle; it is settled; or the settle was dropped. -/
inductive Phase (rsv : Reservation) (s : State) (ps : List (Prog Unit)) : Bool → Prop where
  | opened (recorded : s.recorded = false) (settles : s.settles = [])
      (guarded : ∀ p ∈ ps, Guarded rsv p) (must : ∃ p ∈ ps, Must p) : Phase rsv s ps false
  | settling (recorded : s.recorded = true) (settles : s.settles = [])
      (one : OneAtSettle rsv ps) : Phase rsv s ps false
  | done (recorded : s.recorded = true) (settles : s.settles = [rsv])
      (spent : ∀ p ∈ ps, Spent p) : Phase rsv s ps false
  | dropped (recorded : s.recorded = true) (settles : s.settles = [])
      (spent : ∀ p ∈ ps, Spent p) : Phase rsv s ps true

theorem Phase.step {s s' : State} {o : Oracle} {e : Op} {r : Res e} {k : Res e → Prog Unit}
    {l ps : List (Prog Unit)} {lost : Bool} (h : Phase rsv s (l ++ .op e k :: ps) lost)
    (hp : perform s o e = some (r, s')) :
    Frame s s' ∧ ∀ new, (∀ q ∈ new, Guarded rsv q) →
      Phase rsv s' (l ++ k r :: ps ++ new) lost := by
  -- the spent programs stay so when one of them goes on
  have hall : (∀ q ∈ l ++ ps, Spent q) → Spent (k r) → ∀ new, (∀ q ∈ new, Guarded rsv q) →
      ∀ q ∈ l ++ k r :: ps ++ new, Spent q := fun hrest hk new hnew =>
    List.forall_mem_append.mpr
      ⟨forall_mem_middle.mpr ⟨hk, hrest⟩, fun q hq => spent_of_guarded (hnew q hq)⟩
  cases h with
  | opened hrec hsettles hguarded hmust =>
      obtain ⟨hg, hrest⟩ := forall_mem_middle.mp hguarded
      obtain ⟨hframe, hset, hgo⟩ := hg.step hrec hp
      refine ⟨hframe, fun new hnew => ?_⟩
      rcases hgo with ⟨hat, hrec'⟩ | ⟨hk, hm, hrec'⟩
      · have hone := oneAtSettle_append_cons.mpr
          (.inl ⟨hat, fun q hq => spent_of_guarded (hrest q hq)⟩)
        exact .settling hrec' (hset.trans hsettles)
          (hone.append fun q hq => spent_of_guarded (hnew q hq))
      · refine .opened hrec' (hset.trans hsettles)
          (List.forall_mem_append.mpr ⟨forall_mem_middle.mpr ⟨hk, hrest⟩, hnew⟩) ?_
        obtain ⟨q, hq, hmq⟩ := hmust
        rcases List.mem_cons.mp (List.perm_middle.mem_iff.mp hq) with rfl | hq
        · exact ⟨k r, by simp, hm hmq⟩
        · exact ⟨q, List.mem_append_left _
            (List.perm_middle.mem_iff.mpr (List.mem_cons_of_mem _ hq)), hmq⟩
  | settling hrec hsettles hone =>
      rcases oneAtSettle_append_cons.mp hone with ⟨hat, hrest⟩ | ⟨hsp, hrest⟩
      · obtain ⟨hk, hframe, hrec', hset⟩ := hat.step hp
        rw [hsettles] at hset
        exact ⟨hframe, fun new hnew => .done (hrec'.trans hrec) hset (hall hrest hk new hnew)⟩
      · obtain ⟨hk, hframe, hrec', hset⟩ := hsp.step hrec hp
        have hone := oneAtSettle_append_cons.mpr (.inr ⟨hk, hrest⟩)
        exact ⟨hframe, fun new hnew => .settling hrec' (hset.trans hsettles)
          (hone.append fun q hq => spent_of_guarded (hnew q hq))⟩
  | done hrec hsettles hsp =>
      obtain ⟨hsp, hrest⟩ := forall_mem_middle.mp hsp
      obtain ⟨hk, hframe, hrec', hset⟩ := hsp.step hrec hp
      exact ⟨hframe, fun new hnew =>
        .done hrec' (hset.trans hsettles) (hall hrest hk new hnew)⟩
  | dropped hrec hsettles hsp =>
      obtain ⟨hsp, hrest⟩ := forall_mem_middle.mp hsp
      obtain ⟨hk, hframe, hrec', hset⟩ := hsp.step hrec hp
      exact ⟨hframe, fun new hnew =>
        .dropped hrec' (hset.trans hsettles) (hall hrest hk new hnew)⟩

theorem Phase.congr {s s' : State} {ps ps' : List (Prog Unit)} {lost : Bool}
    (h : Phase rsv s ps lost) (hrec : s'.recorded = s.recorded) (hset : s'.settles = s.settles)
    (hps : ps' = ps) : Phase rsv s' ps' lost := by
  subst hps
  cases h with
  | opened h₁ h₂ hg hm => exact .opened (hrec.trans h₁) (hset.trans h₂) hg hm
  | settling h₁ h₂ hone => exact .settling (hrec.trans h₁) (hset.trans h₂) hone
  | done h₁ h₂ hsp => exact .done (hrec.trans h₁) (hset.trans h₂) hsp
  | dropped h₁ h₂ hsp => exact .dropped (hrec.trans h₁) (hset.trans h₂) hsp

theorem Phase.drop {s s' : State} {b : Prog Unit} {ps new : List (Prog Unit)} {lost : Bool}
    (h : Phase rsv s (b :: ps) lost) (hnew : ∀ q ∈ new, Guarded rsv q)
    (hmust : ∃ q ∈ new, Must q) (hrec : s'.recorded = s.recorded)
    (hset : s'.settles = s.settles) :
    (AtSettle rsv b ∧ Phase rsv s' (ps ++ new) true) ∨
      (Spent b ∧ Phase rsv s' (ps ++ new) lost) := by
  have hspent : ∀ q ∈ new, Spent q := fun q hq => spent_of_guarded (hnew q hq)
  cases h with
  | opened hrec' hsettles hguarded _ =>
      obtain ⟨hb, hps⟩ := List.forall_mem_cons.mp hguarded
      obtain ⟨q, hq, hmq⟩ := hmust
      exact .inr ⟨spent_of_guarded hb, .opened (hrec.trans hrec') (hset.trans hsettles)
        (List.forall_mem_append.mpr ⟨hps, hnew⟩) ⟨q, List.mem_append_right _ hq, hmq⟩⟩
  | settling hrec' hsettles hone =>
      rcases hone with ⟨hb, hps⟩ | ⟨hb, hps⟩
      · exact .inl ⟨hb, .dropped (hrec.trans hrec') (hset.trans hsettles)
          (List.forall_mem_append.mpr ⟨hps, hspent⟩)⟩
      · exact .inr ⟨hb, .settling (hrec.trans hrec') (hset.trans hsettles) (hps.append hspent)⟩
  | done hrec' hsettles hsp =>
      obtain ⟨hb, hps⟩ := List.forall_mem_cons.mp hsp
      exact .inr ⟨hb, .done (hrec.trans hrec') (hset.trans hsettles)
        (List.forall_mem_append.mpr ⟨hps, hspent⟩)⟩
  | dropped hrec' hsettles hsp =>
      obtain ⟨hb, hps⟩ := List.forall_mem_cons.mp hsp
      exact .inr ⟨hb, .dropped (hrec.trans hrec') (hset.trans hsettles)
        (List.forall_mem_append.mpr ⟨hps, hspent⟩)⟩

/-! ### The stages of an admitted request -/

/-- Where an admitted request stands, and whether its settle was lost. -/
inductive Stage (rsv : Reservation) (s : State) : Bool → Prop where
  | owing {p : Prog Reply} (handler : s.handler = some p) (owes : Owes rsv p)
      (body : s.body = none) (tasks : s.tasks = []) (recorded : s.recorded = false)
      (settles : s.settles = []) : Stage rsv s false
  | answered (handler : ∀ p, s.handler = some p → Settled p) (body : s.body = none)
      (tasks : s.tasks = []) (settles : s.settles = [rsv]) : Stage rsv s false
  | dropped (handler : s.handler = none) (body : s.body = none) (tasks : s.tasks = [])
      (settles : s.settles = []) : Stage rsv s true
  | streaming {a : Accountant} {lost : Bool} (handler : s.handler = none)
      (accountant : s.accountant = some a) (metering : a.metering = true)
      (reservation : a.reservation = some rsv)
      (phase : Phase rsv s (s.body.toList ++ s.tasks) lost) : Stage rsv s lost

/-! ### One event -/

section Events

variable {s : State} {lost : Bool}

theorem dropBody_none (h : s.body = none) :
    step s .dropBody = s ∧ lossy s .dropBody = false := by
  simp only [step, lossy, h]
  exact ⟨trivial, trivial⟩

theorem idle_of_no_worker (hb : s.body = none) (ht : s.tasks = []) (ev : RunEvent) :
    (step s ev = s ∧ lossy s ev = false) ∨ (∃ o, ev = .run .handler o) ∨ ev = .returned ∨
      ev = .dropHandler := by
  cases ev with
  | run t o =>
      cases t with
      | handler => exact .inr (.inl ⟨o, rfl⟩)
      | body => exact .inl ⟨run_body_none hb o, rfl⟩
      | task i =>
          refine .inl ⟨?_, rfl⟩
          simp only [step, ht, List.getElem?_nil, Option.bind_none]
  | returned => exact .inr (.inr (.inl rfl))
  | dropHandler => exact .inr (.inr (.inr rfl))
  | dropBody => exact .inl (dropBody_none hb)

theorem idle_of_no_handler (hh : s.handler = none) (ev : RunEvent) :
    (step s ev = s ∧ lossy s ev = false) ∨ (∃ t o, ev = .run t o) ∨ ev = .dropBody := by
  cases ev with
  | run t o => exact .inr (.inl ⟨t, o, rfl⟩)
  | returned =>
      refine .inl ⟨?_, rfl⟩
      simp only [step, hh]
  | dropHandler =>
      simp only [step, lossy, hh]
      exact .inl ⟨trivial, trivial⟩
  | dropBody => exact .inr (.inr rfl)

theorem idle_of_nothing (hh : s.handler = none) (hb : s.body = none) (ht : s.tasks = [])
    (ev : RunEvent) : step s ev = s ∧ lossy s ev = false := by
  rcases idle_of_no_handler hh ev with hidle | ⟨t, o, rfl⟩ | rfl
  · exact hidle
  · rcases idle_of_no_worker hb ht (.run t o) with hidle | ⟨o', ho⟩ | hr | hd
    · exact hidle
    · cases ho
      exact ⟨run_handler_none hh o, rfl⟩
    · cases hr
    · cases hd
  · exact dropBody_none hb

theorem guarded_tasks {a : Accountant} (ha : s.accountant = some a) (hm : a.metering = true)
    (hr : a.reservation = some rsv) :
    (∀ q ∈ s.guardTasks, Guarded rsv q) ∧ (∀ q ∈ s.bodyTasks, Guarded rsv q) ∧
      ∃ q ∈ s.bodyTasks, Must q := by
  obtain ⟨hg, hmust⟩ := a.guarded_dropTask hm hr s.stream
  refine ⟨?_, ?_, ?_⟩
  · unfold State.guardTasks
    rw [ha]
    cases s.guard with
    | true => simpa using hg
    | false => simp
  · unfold State.bodyTasks
    rw [ha]
    simpa using hg
  · unfold State.bodyTasks
    rw [ha]
    exact ⟨_, List.mem_singleton_self _, hmust⟩

/-- Dropping a handler that has not settled loses the settle. -/
theorem lossy_owes {e : Op} {k : Res e → Prog Reply} (ho : Owes rsv (.op e k)) :
    e.suspends = e.losing := by
  cases e with
  | settle => rfl
  | _ =>
      have := (Bool.and_eq_true_iff.mp ho.1).2
      simp_all [Op.suspends, Op.losing]

theorem not_lossy_settled {e : Op} {k : Res e → Prog Reply} (hs : Settled (.op e k)) :
    e.losing = false := by
  have := (Bool.and_eq_true_iff.mp hs.1).2
  simpa using this

theorem Frame.spawned {s' : State} (h : Frame s s') (hg : ∀ q ∈ s.guardTasks, Guarded rsv q) :
    ∃ new, s'.tasks = s.tasks ++ new ∧ ∀ q ∈ new, Guarded rsv q := by
  rcases h.tasks with htasks | htasks
  · exact ⟨[], by rw [htasks, List.append_nil], by simp⟩
  · exact ⟨s.guardTasks, htasks, hg⟩

theorem Stage.run_worker {a : Accountant} (hh : s.handler = none) (ha : s.accountant = some a)
    (hm : a.metering = true) (hr : a.reservation = some rsv)
    (hphase : Phase rsv s (s.body.toList ++ s.tasks) lost) (t : Thread) (o : Oracle) :
    Stage rsv (Chat.step s (.run t o)) lost := by
  have hkeep : Stage rsv s lost := .streaming hh ha hm hr hphase
  have hguard := (guarded_tasks ha hm hr).1
  cases t with
  | handler => rwa [run_handler_none hh o]
  | body =>
      cases hb : s.body with
      | none => rwa [run_body_none hb o]
      | some p =>
          rcases run_body hb o with ⟨-, hstep⟩ | ⟨e, k, r, s', rfl, hperform, hstep⟩
          · rwa [hstep]
          · rw [hb] at hphase
            obtain ⟨hframe, hgo⟩ := Phase.step (l := []) hphase hperform
            obtain ⟨new, htasks, hnew⟩ := hframe.spawned hguard
            rw [hstep]
            refine .streaming (hframe.handler.trans hh) (hframe.accountant.trans ha) hm hr ?_
            exact (hgo new hnew).congr rfl rfl (congrArg (k r :: ·) htasks)
  | task i =>
      rcases run_task s i o with hstep | ⟨l, e, k, ps, r, s', hl, rfl, hperform, hstep⟩
      · rwa [hstep]
      · rw [hl, ← List.append_assoc] at hphase
        obtain ⟨hframe, hgo⟩ := hphase.step hperform
        obtain ⟨new, htasks, hnew⟩ := hframe.spawned hguard
        rw [hstep]
        refine .streaming (hframe.handler.trans hh) (hframe.accountant.trans ha) hm hr ?_
        refine (hgo new hnew).congr rfl rfl ?_
        simp only [htasks, hl, hframe.body, List.append_assoc, List.cons_append,
          List.set_append_right _ _ (Nat.le_refl _), Nat.sub_self, List.set_cons_zero]

theorem Stage.drop_body {a : Accountant} (hh : s.handler = none) (ha : s.accountant = some a)
    (hm : a.metering = true) (hr : a.reservation = some rsv)
    (hphase : Phase rsv s (s.body.toList ++ s.tasks) lost) :
    Stage rsv (Chat.step s .dropBody) (lost || lossy s .dropBody) := by
  obtain ⟨hguard, hbody, hmust⟩ := guarded_tasks ha hm hr
  have hkeep : Stage rsv s lost := .streaming hh ha hm hr hphase
  cases hb : s.body with
  | none => rwa [(dropBody_none hb).1, (dropBody_none hb).2, Bool.or_false]
  | some b =>
      rw [hb] at hphase
      have hnew : ∀ q ∈ s.guardTasks ++ s.bodyTasks, Guarded rsv q :=
        List.forall_mem_append.mpr ⟨hguard, hbody⟩
      have hmust : ∃ q ∈ s.guardTasks ++ s.bodyTasks, Must q :=
        hmust.imp fun q hq => ⟨List.mem_append_right _ hq.1, hq.2⟩
      let s' : State := { s with
        body := none
        guard := false
        tasks := s.tasks ++ s.guardTasks ++ s.bodyTasks }
      have hdrop := @Phase.drop _ s s' _ _ _ _ hphase hnew hmust rfl rfl
      rw [← List.append_assoc] at hdrop
      rcases hdrop with ⟨⟨x, y, k, rfl, _⟩, hdrop⟩ | ⟨hspent, hdrop⟩
      · simp only [step, lossy, hb, droppable, Op.suspends, if_pos, Bool.or_true]
        exact .streaming hh ha hm hr hdrop
      · have hl : lossy s .dropBody = false := by
          simp only [lossy, hb]
          split
          · next heq =>
              cases heq
              exact hspent.elim
          · rfl
        rw [hl, Bool.or_false]
        simp only [step, hb]
        split_ifs
        · exact .streaming hh ha hm hr hdrop
        · exact hkeep

theorem Stage.idle {ev : RunEvent} (h : Stage rsv s lost) (hs : Chat.step s ev = s)
    (hl : lossy s ev = false) : Stage rsv (Chat.step s ev) (lost || lossy s ev) := by
  rwa [hs, hl, Bool.or_false]

/-- The handler that owes a settle settles it, hands it over to a body, or loses it. -/
theorem Stage.step_owing {p : Prog Reply} (hres : s.reservation.isSome = true)
    (hh : s.handler = some p) (ho : Owes rsv p) (hb : s.body = none) (ht : s.tasks = [])
    (hrec : s.recorded = false) (hset : s.settles = []) (ev : RunEvent) :
    Stage rsv (Chat.step s ev) (lossy s ev) := by
  have hkeep : Stage rsv s false := .owing hh ho hb ht hrec hset
  rcases idle_of_no_worker hb ht ev with ⟨hs, hl⟩ | ⟨o, rfl⟩ | rfl | rfl
  · rwa [hs, hl]
  · rcases run_handler hh o with ⟨-, hstep⟩ | ⟨e, k, r, s', rfl, hperform, hstep⟩
    · rwa [hstep]
    · rw [hstep]
      rcases ho.step hperform with ⟨hs, hframe, htasks, hset'⟩ | ⟨ho, hsame⟩
      · rw [hset] at hset'
        refine .answered ?_ (hframe.body.trans hb) (htasks.trans ht) hset'
        rintro p ⟨⟩
        exact hs
      · exact .owing rfl ho (hsame.body.trans hb) (hsame.tasks.trans ht)
          (hsame.recorded.trans hrec) (hsame.settles.trans hset)
  · cases p with
    | op e k => simpa only [Chat.step, lossy, hh] using hkeep
    | ret reply =>
        obtain ⟨a, items, rfl, hm, hr⟩ := ho
        obtain ⟨hg, hmust⟩ := a.guarded_bodyStream hm hr items
        simp only [Chat.step, hh]
        refine .streaming rfl rfl hm hr (.opened hrec hset ?_ ?_)
        · simpa [ht] using hg
        · simpa [ht] using hmust
  · cases p with
    | ret reply => simpa only [Chat.step, lossy, hh] using hkeep
    | op e k =>
        have hsusp := lossy_owes ho
        simp only [Chat.step, lossy, hh, hres, ← hsusp, Bool.true_and]
        cases e.suspends with
        | true => exact .dropped rfl hb ht hset
        | false => exact hkeep

theorem Stage.step_answered (hh : ∀ p, s.handler = some p → Settled p) (hb : s.body = none)
    (ht : s.tasks = []) (hset : s.settles = [rsv]) (ev : RunEvent) :
    Stage rsv (Chat.step s ev) (lossy s ev) := by
  have hkeep : Stage rsv s false := .answered hh hb ht hset
  have hgone : Stage rsv { s with handler := none } false :=
    .answered (fun _ hp => nomatch hp) hb ht hset
  cases hp : s.handler with
  | none =>
      obtain ⟨hs, hl⟩ := idle_of_nothing hp hb ht ev
      rwa [hs, hl]
  | some p =>
      have hs := hh p hp
      rcases idle_of_no_worker hb ht ev with ⟨hidle, hl⟩ | ⟨o, rfl⟩ | rfl | rfl
      · rwa [hidle, hl]
      · rcases run_handler hp o with ⟨-, hstep⟩ | ⟨e, k, r, s', rfl, hperform, hstep⟩
        · rwa [hstep]
        · obtain ⟨hs, hsame⟩ := hs.step hperform
          rw [hstep]
          refine .answered ?_ (hsame.body.trans hb) (hsame.tasks.trans ht)
            (hsame.settles.trans hset)
          rintro p ⟨⟩
          exact hs
      · cases p with
        | op e k => simpa only [Chat.step, lossy, hp] using hkeep
        | ret reply =>
            obtain ⟨status, body, rfl⟩ := hs
            simpa only [Chat.step, lossy, hp] using hgone
      · cases p with
        | ret reply => simpa only [Chat.step, lossy, hp] using hkeep
        | op e k =>
            simp only [Chat.step, lossy, hp, not_lossy_settled hs, Bool.and_false]
            split_ifs
            · exact hgone
            · exact hkeep

/-- **One event of an admitted request.** -/
theorem Stage.step (h : Stage rsv s lost) (hres : s.reservation.isSome = true) (ev : RunEvent) :
    Stage rsv (Chat.step s ev) (lost || lossy s ev) := by
  cases h with
  | owing hh ho hb ht hrec hset => exact Stage.step_owing hres hh ho hb ht hrec hset ev
  | answered hh hb ht hset => exact Stage.step_answered hh hb ht hset ev
  | dropped hh hb ht hset =>
      obtain ⟨hs, hl⟩ := idle_of_nothing hh hb ht ev
      exact Stage.idle (.dropped hh hb ht hset) hs hl
  | streaming hh ha hm hr hphase =>
      rcases idle_of_no_handler hh ev with ⟨hs, hl⟩ | ⟨t, o, rfl⟩ | rfl
      · exact Stage.idle (.streaming hh ha hm hr hphase) hs hl
      · simpa only [lossy, Bool.or_false] using Stage.run_worker hh ha hm hr hphase t o
      · exact Stage.drop_body hh ha hm hr hphase

end Events

/-! ### One admission -/

theorem noAdmission_settled {p : Prog Reply} (h : Settled p) : NoAdmission p := by
  induction p with
  | ret a => trivial
  | op e k ih =>
      refine ⟨?_, fun r => ih r (h.2 r)⟩
      cases e with
      | admitReq => exact absurd h.1 (by simp [Op.plain])
      | _ => rfl

theorem noAdmission_owes {p : Prog Reply} (h : Owes rsv p) : NoAdmission p := by
  induction p with
  | ret a => trivial
  | op e k ih =>
      cases e with
      | admitReq => exact absurd h.1 (by simp [Op.plain])
      | settle => exact ⟨rfl, fun _ => noAdmission_settled h.2⟩
      | _ => exact ⟨rfl, fun r => ih r (h.2 r)⟩

/-- Nothing that is left of the request asks for an admission. -/
structure Closed (s : State) : Prop where
  handler : ∀ p, s.handler = some p → NoAdmission p
  body : ∀ p, s.body = some p → NoAdmission p
  tasks : ∀ p ∈ s.tasks, NoAdmission p

section Admission

variable {s : State}

theorem noAdmission_tasks (s : State) :
    (∀ p ∈ s.guardTasks, NoAdmission p) ∧ ∀ p ∈ s.bodyTasks, NoAdmission p := by
  unfold State.guardTasks State.bodyTasks
  cases s.accountant with
  | none => cases s.guard <;> simp
  | some a =>
      have ha := a.noAdmission_dropTask s.stream
      cases s.guard <;> simpa using ha

theorem Closed.perform {s' : State} {o : Oracle} {e : Op} {r : Res e} (h : Closed s)
    (he : e.isAdmission = false) (hp : perform s o e = some (r, s')) :
    Closed s' ∧ s'.reservation = s.reservation := by
  have hframe := perform_frame hp he
  refine ⟨⟨?_, ?_, ?_⟩, hframe.reservation⟩
  · rw [hframe.handler]
    exact h.handler
  · rw [hframe.body]
    exact h.body
  · rcases hframe.tasks with ht | ht
    · rw [ht]
      exact h.tasks
    · rw [ht]
      exact List.forall_mem_append.mpr ⟨h.tasks, (noAdmission_tasks s).1⟩

theorem Closed.step (h : Closed s) (ev : RunEvent) :
    Closed (Chat.step s ev) ∧ (Chat.step s ev).reservation = s.reservation := by
  cases ev with
  | run t o =>
      cases t with
      | handler =>
          cases hh : s.handler with
          | none =>
              rw [run_handler_none hh o]
              exact ⟨h, rfl⟩
          | some p =>
              rcases run_handler hh o with ⟨-, hstep⟩ | ⟨e, k, r, s', rfl, hp, hstep⟩
              · rw [hstep]
                exact ⟨h, rfl⟩
              · have hno := h.handler _ hh
                obtain ⟨hc, hres⟩ := h.perform hno.1 hp
                rw [hstep]
                refine ⟨⟨?_, hc.body, hc.tasks⟩, hres⟩
                rintro p ⟨⟩
                exact hno.2 r
      | body =>
          cases hb : s.body with
          | none =>
              rw [run_body_none hb o]
              exact ⟨h, rfl⟩
          | some p =>
              rcases run_body hb o with ⟨-, hstep⟩ | ⟨e, k, r, s', rfl, hp, hstep⟩
              · rw [hstep]
                exact ⟨h, rfl⟩
              · have hno := h.body _ hb
                obtain ⟨hc, hres⟩ := h.perform hno.1 hp
                rw [hstep]
                refine ⟨⟨hc.handler, ?_, hc.tasks⟩, hres⟩
                rintro p ⟨⟩
                exact hno.2 r
      | task i =>
          rcases run_task s i o with hstep | ⟨l, e, k, ps, r, s', hl, rfl, hp, hstep⟩
          · rw [hstep]
            exact ⟨h, rfl⟩
          · have hno := h.tasks (.op e k) (by simp [hl])
            obtain ⟨hc, hres⟩ := h.perform hno.1 hp
            rw [hstep]
            refine ⟨⟨hc.handler, hc.body, fun p hmem => ?_⟩, hres⟩
            rcases List.mem_or_eq_of_mem_set hmem with hmem | rfl
            · exact hc.tasks p hmem
            · exact hno.2 r
  | returned =>
      simp only [Chat.step]
      split
      · refine ⟨⟨by simp, ?_, h.tasks⟩, rfl⟩
        rintro p ⟨⟩
        exact Accountant.noAdmission_bodyStream _
      · exact ⟨⟨by simp, h.body, h.tasks⟩, rfl⟩
      · exact ⟨h, rfl⟩
  | dropHandler =>
      simp only [Chat.step]
      split
      · split_ifs
        · exact ⟨⟨by simp, h.body, h.tasks⟩, rfl⟩
        · exact ⟨h, rfl⟩
      · exact ⟨h, rfl⟩
  | dropBody =>
      simp only [Chat.step]
      split
      · split_ifs
        · obtain ⟨hguard, hbody⟩ := noAdmission_tasks s
          exact ⟨⟨h.handler, by simp, List.forall_mem_append.mpr
            ⟨List.forall_mem_append.mpr ⟨h.tasks, hguard⟩, hbody⟩⟩, rfl⟩
        · exact ⟨h, rfl⟩
      · exact ⟨h, rfl⟩

/-- A request before its admission. -/
structure Fresh (s : State) : Prop where
  handler : ∃ p, s.handler = some p ∧ Entering p
  body : s.body = none
  tasks : s.tasks = []
  recorded : s.recorded = false
  settles : s.settles = []
  reservation : s.reservation = none

theorem fresh_init (g : Gateway) (requestId clientId : String) (body : ChatCompletionRequest) :
    Fresh (init g requestId clientId body) :=
  ⟨⟨_, rfl, entering_chatCompletions g requestId clientId body⟩, rfl, rfl, rfl, rfl, rfl⟩

theorem closed_of_handler {p : Prog Reply} (hh : s.handler = some p) (hb : s.body = none)
    (ht : s.tasks = []) (hp : NoAdmission p) : Closed s := by
  refine ⟨?_, ?_, ?_⟩
  · rintro q hq
    cases hh.symm.trans hq
    exact hp
  · simp [hb]
  · simp [ht]

theorem perform_admitReq {s' : State} {o : Oracle} {c p m : String} {est : Int64}
    {cap : Option Int64} {r : Res (.admitReq c p m est cap)}
    (h : perform s o (.admitReq c p m est cap) = some (r, s')) :
    (∃ rsv, r = .ok rsv ∧ s' = { s.note (.admitted rsv) with reservation := some rsv }) ∨
      (∃ err, r = .error err ∧ s' = s) := by
  obtain ⟨r', -, heq⟩ := Option.map_eq_some_iff.mp h
  cases r' with
  | ok rsv =>
      cases heq
      exact .inl ⟨rsv, rfl, rfl⟩
  | error err =>
      cases heq
      exact .inr ⟨err, rfl, rfl⟩

/-- A request is admitted, or ends without an admission, or is still on its way. -/
theorem Fresh.step (h : Fresh s) (ev : RunEvent) : lossy s ev = false ∧
    (Fresh (Chat.step s ev) ∨
      (Closed (Chat.step s ev) ∧ (Chat.step s ev).reservation = none) ∨
      ∃ rsv, (Chat.step s ev).reservation = some rsv ∧ Closed (Chat.step s ev) ∧
        Stage rsv (Chat.step s ev) false) := by
  obtain ⟨⟨p, hh, hp⟩, hb, ht, hrec, hset, hres⟩ := id h
  rcases idle_of_no_worker hb ht ev with ⟨hs, hl⟩ | ⟨o, rfl⟩ | rfl | rfl
  · rw [hs]
    exact ⟨hl, .inl h⟩
  · refine ⟨rfl, ?_⟩
    rcases run_handler hh o with ⟨-, hstep⟩ | ⟨e, k, r, s', rfl, hperform, hstep⟩
    · rw [hstep]
      exact .inl h
    · rw [hstep]
      cases e with
      | admitReq c p m est cap =>
          rcases perform_admitReq hperform with ⟨rsv, rfl, rfl⟩ | ⟨err, rfl, rfl⟩
          · have ho := hp.1 rsv
            have hset' : (s.note (.admitted rsv)).settles = [] := by
              rw [settles_note, hset]
              rfl
            exact .inr (.inr ⟨rsv, rfl, closed_of_handler rfl hb ht (noAdmission_owes ho),
              .owing rfl ho hb ht hrec hset'⟩)
          · exact .inr (.inl ⟨closed_of_handler rfl hb ht (hp.2 err), hres⟩)
      | _ =>
          have hsame := perform_plain hperform hp.1
          exact .inl ⟨⟨_, rfl, hp.2 r⟩, hsame.body.trans hb, hsame.tasks.trans ht,
            hsame.recorded.trans hrec, hsame.settles.trans hset, hsame.reservation.trans hres⟩
  · refine ⟨rfl, ?_⟩
    simp only [Chat.step, hh]
    cases p with
    | op e k => exact .inl h
    | ret reply =>
        have hb' : ∀ p, s.body = some p → NoAdmission p := by simp [hb]
        have ht' : ∀ p ∈ s.tasks, NoAdmission p := by simp [ht]
        cases reply with
        | json status body => exact .inr (.inl ⟨⟨by simp, hb', ht'⟩, hres⟩)
        | sse a items =>
            refine .inr (.inl ⟨⟨by simp, ?_, ht'⟩, hres⟩)
            rintro p ⟨⟩
            exact a.noAdmission_bodyStream items
  · have hb' : ∀ p, s.body = some p → NoAdmission p := by simp [hb]
    have ht' : ∀ p ∈ s.tasks, NoAdmission p := by simp [ht]
    cases p with
    | ret reply =>
        simp only [Chat.step, lossy, hh]
        exact ⟨trivial, .inl h⟩
    | op e k =>
        simp only [Chat.step, lossy, hh, hres, Option.isSome_none, Bool.false_and]
        refine ⟨trivial, ?_⟩
        split_ifs
        · exact .inr (.inl ⟨⟨by simp, hb', ht'⟩, rfl⟩)
        · exact .inl h

end Admission

/-! ### Runs -/

/-- No event of a run loses the settle. -/
def KeepsSettle (s : State) (es : List RunEvent) : Prop :=
  Runs.Along step (fun s ev => lossy s ev = false) s es

instance (s : State) (es : List RunEvent) : Decidable (KeepsSettle s es) :=
  inferInstanceAs (Decidable (Runs.Along step (fun s ev => lossy s ev = false) s es))

theorem keepsSettle_cons (s : State) (ev : RunEvent) (es : List RunEvent) :
    KeepsSettle s (ev :: es) ↔ lossy s ev = false ∧ KeepsSettle (step s ev) es := Iff.rfl

section Runs

open Runs (final final_cons)

variable {s : State} {lost : Bool} {es : List RunEvent}

theorem Closed.run (h : Closed s) (es : List RunEvent) :
    (final Chat.step s es).reservation = s.reservation := by
  induction es generalizing s with
  | nil => rfl
  | cons ev es ih =>
      obtain ⟨hc, hres⟩ := h.step ev
      rw [final_cons, ih hc, hres]

theorem Stage.run (h : Stage rsv s lost) (hc : Closed s) (hres : s.reservation = some rsv)
    (es : List RunEvent) : ∃ lost', Stage rsv (final Chat.step s es) lost' ∧
      (lost' = false ↔ lost = false ∧ KeepsSettle s es) := by
  induction es generalizing s lost with
  | nil => exact ⟨lost, h, by simp [KeepsSettle]⟩
  | cons ev es ih =>
      obtain ⟨hc', hres'⟩ := hc.step ev
      obtain ⟨lost', hfinal, hiff⟩ := ih (h.step (by simp [hres]) ev) hc' (hres'.trans hres)
      refine ⟨lost', hfinal, hiff.trans ?_⟩
      rw [Bool.or_eq_false_iff, keepsSettle_cons, and_assoc]

theorem Fresh.run (h : Fresh s) (hres : (final Chat.step s es).reservation = some rsv) :
    ∃ lost, Stage rsv (final Chat.step s es) lost ∧ (lost = false ↔ KeepsSettle s es) := by
  induction es generalizing s with
  | nil =>
      rw [Runs.final_nil, h.reservation] at hres
      cases hres
  | cons ev es ih =>
      rw [final_cons] at hres ⊢
      rw [keepsSettle_cons]
      obtain ⟨hl, hfresh | ⟨hc, hnone⟩ | ⟨rsv', hres', hc, hstage⟩⟩ := h.step ev
      · obtain ⟨lost, hstage, hiff⟩ := ih hfresh hres
        exact ⟨lost, hstage, by simp only [hiff, hl, true_and]⟩
      · rw [hc.run, hnone] at hres
        cases hres
      · rw [hc.run, hres'] at hres
        cases hres
        obtain ⟨lost, hstage, hiff⟩ := hstage.run hc hres' es
        exact ⟨lost, hstage, by simp only [hiff, hl, true_and]⟩

/-- What has been settled at any time: at most this reservation, and at most once. -/
theorem Stage.settles (h : Stage rsv s lost) : s.settles = [] ∨ s.settles = [rsv] := by
  cases h with
  | owing _ _ _ _ _ hset => exact .inl hset
  | answered _ _ _ hset => exact .inr hset
  | dropped _ _ _ hset => exact .inl hset
  | streaming _ _ _ _ hphase =>
      cases hphase with
      | opened _ hset => exact .inl hset
      | settling _ hset => exact .inl hset
      | done _ hset => exact .inr hset
      | dropped _ hset => exact .inl hset

theorem Stage.ended (h : Stage rsv s lost) (hend : s.Ended) :
    s.settles = [rsv] ↔ lost = false := by
  obtain ⟨hh, hb, ht⟩ := hend
  have hne : s.settles = [] → ¬ s.settles = [rsv] := fun hnil heq => by
    rw [hnil] at heq
    cases heq
  cases h with
  | owing hh' => cases hh.symm.trans hh'
  | answered _ _ _ hset => exact iff_of_true hset rfl
  | dropped _ _ _ hset => exact iff_of_false (hne hset) (by simp)
  | streaming _ _ _ _ hphase =>
      rw [hb] at hphase
      cases hphase with
      | opened _ _ _ hmust =>
          obtain ⟨p, hp, hmust⟩ := hmust
          rw [ht p hp] at hmust
          exact hmust.elim
      | settling _ _ hone =>
          obtain ⟨p, hp, hat⟩ := hone.exists
          rw [ht p hp] at hat
          obtain ⟨_, _, _, heq, -⟩ := hat
          cases heq
      | done _ hset => exact iff_of_true hset rfl
      | dropped _ hset => exact iff_of_false (hne hset) (by simp)

/-- **A reservation is never settled twice; when the request has ended, it has been settled
exactly once if and only if the handler was not dropped before it settled or handed over, nor
the body while it settled.** -/
theorem settled_once_iff (g : Gateway) (requestId clientId : String)
    (body : ChatCompletionRequest) (es : List RunEvent)
    (hres : (final step (init g requestId clientId body) es).reservation = some rsv) :
    ((final step (init g requestId clientId body) es).settles = [] ∨
        (final step (init g requestId clientId body) es).settles = [rsv]) ∧
      ((final step (init g requestId clientId body) es).Ended →
        ((final step (init g requestId clientId body) es).settles = [rsv] ↔
          KeepsSettle (init g requestId clientId body) es)) := by
  obtain ⟨lost, hstage, hiff⟩ := (fresh_init g requestId clientId body).run hres
  exact ⟨hstage.settles, fun hend => (hstage.ended hend).trans hiff⟩

def sampleReservation : Reservation := ⟨"r", "c", "p", "m", 0, 1⟩

/-- The router picks the provider, the request is admitted, and the stream has no items. -/
def sampleOracle : Oracle
  | .resolve m _ => some (.ok ("p", m))
  | .inspect payload _ => some ⟨payload, [], .ok ⟨[], [], []⟩⟩
  | .admitReq .. => some (.ok sampleReservation)
  | .chatStream _ => some (.ok [])
  | .chat _ => some (.ok (.obj []))
  | .settle .. | .record .. | .recordTokensToday .. | .nextItem | .send _ => some ()
  | _ => none

/-- A thread goes on by `n` operations. -/
def goOn (t : Thread) (n : ℕ) : List RunEvent := List.replicate n (.run t sampleOracle)

def sampleRun (stream : Bool) (es : List RunEvent) : State :=
  final step (init sampleGateway "r" "c" (sampleRequest stream)) es

/-- The whole stream, and the tasks of both accountants. -/
def streamed : List RunEvent :=
  goOn .handler 5 ++ [.returned] ++ goOn .body 11 ++ [.dropBody] ++ goOn (.task 0) 2 ++
    goOn (.task 1) 2

theorem settled_once_streamed : (sampleRun true streamed).settles = [sampleReservation] := by
  have h := @settled_once_iff sampleReservation sampleGateway "r" "c" (sampleRequest true)
    streamed rfl
  have htasks : (sampleRun true streamed).tasks = [.ret (), .ret ()] := rfl
  refine (h.2 ⟨rfl, rfl, fun t ht => ?_⟩).mpr (by decide)
  rw [← sampleRun, htasks] at ht
  simpa using ht

/-- The client disconnects while the handler waits for the completion. -/
def droppedHandler : List RunEvent := goOn .handler 3 ++ [.dropHandler]

/-- The client disconnects while the terminal chunk waits for the store. -/
def droppedBody : List RunEvent :=
  goOn .handler 5 ++ [.returned] ++ goOn .body 4 ++ [.dropBody] ++ goOn (.task 0) 2 ++
    goOn (.task 1) 2

theorem never_settled :
    ((sampleRun true droppedBody).reservation = some sampleReservation ∧
      (sampleRun true droppedBody).Ended ∧ (sampleRun true droppedBody).settles = []) ∧
    (sampleRun false droppedHandler).reservation = some sampleReservation ∧
      (sampleRun false droppedHandler).Ended ∧ (sampleRun false droppedHandler).settles = [] := by
  have htasks : (sampleRun true droppedBody).tasks = [.ret (), .ret ()] := rfl
  have hnone : (sampleRun false droppedHandler).tasks = [] := rfl
  refine ⟨⟨rfl, ⟨rfl, rfl, fun t ht => ?_⟩, rfl⟩, rfl, ⟨rfl, rfl, fun t ht => ?_⟩, rfl⟩
  · rw [htasks] at ht
    simpa using ht
  · rw [hnone] at ht
    cases ht

end Runs

end FirewallLLM.Chat
