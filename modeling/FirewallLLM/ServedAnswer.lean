import FirewallLLM.ServedRequest

/-! # What a served request accounts for

The handler answers with a completion or opens a stream, the body of a stream comes to its
terminal chunk, and the dropped accountants find the request accounted for.

`served_run`: a request that is served to its end is a run of the machine. -/

namespace FirewallLLM

namespace Chat

open Dlp (StreamState StreamRestore Item)

/-! ### Completions -/

/-- The usage of a completion, as the handler reads it from the restored body. -/
def completionUsage (out : Json) : UInt64 × UInt64 × String :=
  usageNumbers (out.get? "usage") (promptText .null)
    (joinLines ((completionChoices out).filterMap choiceContent))

/-- What a request with this usage accounts for. -/
def Accountant.accounts (a : Accountant) (usage : UInt64 × UInt64 × String) : List Figures :=
  a.charges usage.1 usage.2.1 ++ [⟨usage.1.toInt64, usage.2.1.toInt64, some usage.2.2⟩]

/-- The answer to a completion is the completion with its first choice restored. -/
theorem solo_chatResponse {o : Oracle} {g : Gateway} {a : Accountant} {requested concrete : String}
    {payload completion : Json} {chain : Inspectors.DlpState} {promptEst : UInt64} {u t : State}
    {reply : Reply} (hc : o (.chat payload) = some (.ok completion))
    (h : solo o (chatResponse g a requested concrete payload chain promptEst) u = some (reply, t)) :
    ∃ tagged, tagRouted requested concrete completion = some tagged ∧
      reply = .json 200 (restoreFirst g chain tagged) ∧ t.body = u.body ∧
      (u.finalized = false → t.figures = u.figures ++
        a.accounts (completionUsage (restoreFirst g chain tagged))) := by
  unfold chatResponse at h
  rw [solo_chat hc] at h
  dsimp only at h
  cases htag : tagRouted requested concrete completion with
  | none =>
      rw [htag] at h
      cases h
  | some tagged =>
      rw [htag] at h
      refine ⟨tagged, rfl, ?_⟩
      dsimp only at h
      rw [solo_observe, solo_bind] at h
      obtain ⟨⟨_, v⟩, hsettle, h⟩ := Option.bind_eq_some_iff.mp h
      obtain ⟨htouch, hfig⟩ := solo_settleOrRecord hsettle
      have h := solo_recordTokensToday h
      obtain ⟨w, heq, hw, -, hbody, -⟩ := solo_finish (o := o) (a.row "ok"
        (completionUsage (restoreFirst g chain tagged)).1.toInt64
        (completionUsage (restoreFirst g chain tagged)).2.1.toInt64
        ((firstContent (restoreFirst g chain tagged)).getD [])
        (completionUsage (restoreFirst g chain tagged)).2.2)
        (fun _ => pure (Reply.json 200 (restoreFirst g chain tagged)))
        (v.note (.routed a.providerName _))
      have h := heq.symm.trans h
      cases h
      refine ⟨rfl, hbody.trans htouch.body, fun hfin => ?_⟩
      have hvf : v.finalized = false := htouch.finalized.trans hfin
      have hnote : ∀ entry, (v.note entry).finalized = false := fun _ => hvf
      rw [hw, State.written, hnote, if_neg Bool.false_ne_true, figures_note, hfig, figures_note]
      simp [Entry.figures, Accountant.accounts, Accountant.row, completionUsage]

/-! ### Streams -/

theorem solo_streamResponse {o : Oracle} {a : Accountant} {payload : Json}
    {session : StreamRestore} {u t : State} {reply : Reply}
    (h : solo o (streamResponse a payload session) u = some (reply, t)) :
    (∃ items, o (.chatStream payload) = some (.ok items) ∧
        reply = .sse { a with requestText := promptText payload } items ∧
        t = { u with stream := StreamState.new session }) ∨
      ∃ (failure : ProviderError) (err : ApiError), o (.chatStream payload) = some (.error failure) ∧
        reply = Reply.error err ∧ err.status ≠ 200 := by
  unfold streamResponse at h
  cases hc : o (.chatStream payload) with
  | none =>
      change Option.bind (Option.map _ (o (.chatStream payload))) _ = _ at h
      rw [hc] at h
      cases h
  | some r =>
      rw [solo_chatStream hc] at h
      cases r with
      | ok items =>
          cases h
          exact .inl ⟨items, rfl, rfl, rfl⟩
      | error err =>
          dsimp only at h
          rw [solo_bind] at h
          obtain ⟨⟨_, v⟩, -, h⟩ := Option.bind_eq_some_iff.mp h
          cases h
          exact .inr ⟨err, _, rfl, rfl, nofun⟩

theorem solo_bodyStream_cons {o : Oracle} {a : Accountant} {item : Item} {items : List Item}
    {s : State} {x : Unit × State} (h : solo o (a.bodyStream (item :: items)) s = some x) :
    ∃ s', solo o (a.bodyStream items) s' = some x ∧
      Untouched { s with stream := (Dlp.mapItem s.stream item).2 } s' ∧ s'.figures = s.figures := by
  obtain ⟨_, h⟩ := solo_ask_some (e := .nextItem) rfl h
  change solo o (a.observeItem item >>= fun _ => send _ >>= fun _ => a.bodyStream items)
    { s with stream := (Dlp.mapItem s.stream item).2 } = some x at h
  rw [solo_bind] at h
  obtain ⟨⟨_, v⟩, hobserve, h⟩ := Option.bind_eq_some_iff.mp h
  have hv : Untouched { s with stream := (Dlp.mapItem s.stream item).2 } v ∧
      v.figures = s.figures := by
    cases item with
    | ok chunk =>
        cases hobserve
        exact ⟨Untouched.refl _, rfl⟩
    | error err =>
        cases hobserve
        exact ⟨untouched_note _ _, (figures_note _ _).trans (List.append_nil _)⟩
  obtain ⟨_, h⟩ := solo_ask_some (e := .send _) rfl h
  refine ⟨_, h, hv.1.trans (untouched_note _ _), ?_⟩
  exact ((figures_note _ _).trans (List.append_nil _)).trans hv.2

/-- The cells after the last item and the flush. -/
def drained (st : StreamState) : List Item → StreamState
  | [] => { st with
      session := st.session.flush.2
      completionText := st.completionText ++ st.session.flush.1 }
  | item :: items => drained (Dlp.mapItem st item).2 items

theorem solo_bodyStream {o : Oracle} {a : Accountant} {items : List Item} {s : State}
    {x : Unit × State} (h : solo o (a.bodyStream items) s = some x) :
    ∃ s', solo o a.terminal s' = some x ∧
      Untouched { s with stream := drained s.stream items } s' ∧ s'.figures = s.figures := by
  induction items generalizing s with
  | nil =>
      obtain ⟨_, h⟩ := solo_ask_some (e := .nextItem) rfl h
      change solo o (Accountant.sendFlushed _ >>= fun _ => a.terminal)
        { s with stream := drained s.stream [] } = some x at h
      rw [solo_bind] at h
      obtain ⟨⟨_, v⟩, hsend, h⟩ := Option.bind_eq_some_iff.mp h
      refine ⟨v, h, ?_⟩
      unfold Accountant.sendFlushed at hsend
      split_ifs at hsend
      · cases hsend
        exact ⟨Untouched.refl _, rfl⟩
      · obtain ⟨_, hsend⟩ := solo_ask_some (e := .send _) rfl hsend
        cases hsend
        exact ⟨untouched_note _ _, (figures_note _ _).trans (List.append_nil _)⟩
  | cons item items ih =>
      obtain ⟨s', h, htouch, hfig⟩ := solo_bodyStream_cons h
      obtain ⟨t, h, htouch', hfig'⟩ := ih h
      refine ⟨t, h, ?_, hfig'.trans hfig⟩
      rw [htouch.stream] at htouch'
      exact ⟨htouch'.body.trans htouch.body, htouch'.accountant.trans htouch.accountant,
        htouch'.guard.trans htouch.guard, htouch'.tasks.trans htouch.tasks,
        htouch'.recorded.trans htouch.recorded, htouch'.finalized.trans htouch.finalized,
        htouch'.stream⟩

theorem solo_terminal {o : Oracle} {a : Accountant} {s t : State} {r : Unit}
    (h : solo o a.terminal s = some (r, t)) (hrec : s.recorded = false)
    (hfin : s.finalized = false) :
    t.figures = s.figures ++ a.accounts (a.usage s.stream) ∧ t.recorded = true ∧
      t.finalized = true := by
  change solo o (a.settleOnce (a.usage s.stream).1 (a.usage s.stream).2.1 >>= fun _ => _) s =
    some (r, t) at h
  rw [solo_bind] at h
  obtain ⟨⟨_, v⟩, hsettle, h⟩ := Option.bind_eq_some_iff.mp h
  -- the flag is not set yet, so that the body settles
  change solo o (if s.recorded = true then pure () else a.settleOrRecord _ _)
    { s with recorded := true } = _ at hsettle
  rw [hrec, if_neg Bool.false_ne_true] at hsettle
  obtain ⟨htouch, hfig⟩ := solo_settleOrRecord hsettle
  have h := solo_recordTokensToday h
  obtain ⟨w, heq, hw, hwfin, -, -, -, -, hwrec, -⟩ := solo_finish (o := o)
    (a.row (if v.stream.streamError then "upstream_error" else "ok") (a.usage s.stream).1.toInt64
      (a.usage s.stream).2.1.toInt64 v.stream.completionText (a.usage s.stream).2.2)
    (fun _ => observe _ >>= fun _ => dropGuard >>= fun _ => send .done)
    (v.note (.routed a.providerName _))
  have h := heq.symm.trans h
  obtain ⟨_, h⟩ := solo_ask_some (e := .send _) rfl h
  cases h
  have hvf : ∀ entry, (v.note entry).finalized = false := fun _ => htouch.finalized.trans hfin
  rw [State.written, hvf, if_neg Bool.false_ne_true, figures_note, hfig] at hw
  refine ⟨?_, hwrec.trans htouch.recorded, hwfin⟩
  refine (figures_note _ _).trans ((List.append_nil _).trans ?_)
  refine (figures_note w _).trans ((List.append_nil _).trans ?_)
  rw [hw]
  simp [Entry.figures, Accountant.accounts, Accountant.row, State.figures]

/-! ### What no operation changes -/

section Frame

variable {o : Oracle}

/-- No operation looks at the handler or at the body. -/
theorem perform_threads (s : State) (h : Option (Prog Reply)) (b : Option (Prog Unit)) (e : Op) :
    perform { s with handler := h, body := b } o e =
      (perform s o e).map (fun x => (x.1, { x.2 with handler := h, body := b })) := by
  cases e with
  | admitReq =>
      simp only [perform, Option.map_map]
      congr 1
      funext r
      cases r <;> rfl
  | finish row =>
      simp only [perform, Option.map_some]
      split_ifs <;> rfl
  | resolve | chat | chatStream | settle | record | recordTokensToday | nextItem | send
  | inspect =>
      simp only [perform, Option.map_map]
      rfl
  | _ => rfl

theorem solo_threads {α : Type} {p : Prog α} {s t : State} {a : α}
    (h : solo o p s = some (a, t)) : t.handler = s.handler ∧ t.body = s.body := by
  induction p generalizing s with
  | ret b =>
      cases h
      exact ⟨rfl, rfl⟩
  | op e k ih =>
      obtain ⟨⟨r, s'⟩, hperform, h⟩ := Option.bind_eq_some_iff.mp h
      change perform s o e = _ at hperform
      have hsame := perform_threads (o := o) s s.handler s.body e
      change perform s o e = _ at hsame
      rw [hperform] at hsame
      have hs' := congrArg Prod.snd (Option.some.inj hsame)
      have hhandler := congrArg State.handler hs'
      have hbody := congrArg State.body hs'
      obtain ⟨hh, hb⟩ := ih r h
      exact ⟨hh.trans hhandler, hb.trans hbody⟩

/-- Only the guard looks at the tasks. -/
theorem perform_tasks (s : State) (ts : List (Prog Unit)) {e : Op} (he : e ≠ .dropGuard) :
    perform { s with tasks := ts } o e =
      (perform s o e).map (fun x => (x.1, { x.2 with tasks := ts })) := by
  cases e with
  | admitReq =>
      simp only [perform, Option.map_map]
      congr 1
      funext r
      cases r <;> rfl
  | finish row =>
      simp only [perform, Option.map_some]
      split_ifs <;> rfl
  | resolve | chat | chatStream | settle | record | recordTokensToday | nextItem | send
  | inspect =>
      simp only [perform, Option.map_map]
      rfl
  | dropGuard => exact absurd rfl he
  | _ => rfl

/-- The tasks that dropped accountants spawn. -/
def DropTasks (tasks : List (Prog Unit)) : Prop :=
  ∀ task ∈ tasks, ∃ (a : Accountant) (st : StreamState), task = a.dropTask st

theorem dropTasks_append {tasks tasks' : List (Prog Unit)} (h : DropTasks tasks)
    (h' : DropTasks tasks') : DropTasks (tasks ++ tasks') := by
  intro task htask
  rcases List.mem_append.mp htask with htask | htask
  · exact h task htask
  · exact h' task htask

theorem dropTasks_guardTasks (s : State) : DropTasks s.guardTasks := by
  intro task htask
  unfold State.guardTasks at htask
  split at htask
  · exact ⟨_, _, List.mem_singleton.mp htask⟩
  · cases htask

theorem dropTasks_bodyTasks (s : State) : DropTasks s.bodyTasks := by
  intro task htask
  unfold State.bodyTasks at htask
  split at htask
  · exact ⟨_, _, List.mem_singleton.mp htask⟩
  · cases htask

theorem solo_dropTasks {p : Prog Unit} {s t : State} {r : Unit} (h : solo o p s = some (r, t))
    (hs : DropTasks s.tasks) : DropTasks t.tasks := by
  induction p generalizing s with
  | ret a =>
      cases h
      exact hs
  | op e k ih =>
      obtain ⟨⟨r, s'⟩, hperform, h⟩ := Option.bind_eq_some_iff.mp h
      change perform s o e = _ at hperform
      refine ih r h ?_
      by_cases he : e = .dropGuard
      · subst he
        cases hperform
        exact dropTasks_append hs (dropTasks_guardTasks s)
      · have hsame := perform_tasks (o := o) s s.tasks he
        change perform s o e = _ at hsame
        rw [hperform] at hsame
        have htasks := congrArg (fun x => x.2.tasks) (Option.some.inj hsame)
        change s'.tasks = s.tasks at htasks
        rw [htasks]
        exact hs

end Frame

/-! ### To the end -/

/-- Once the request is accounted for, a dropped accountant adds nothing. -/
theorem solo_dropTask {o : Oracle} {a : Accountant} {st : StreamState} {s t : State} {r : Unit}
    (h : solo o (a.dropTask st) s = some (r, t)) (hrec : s.recorded = true)
    (hfin : s.finalized = true) :
    t.figures = s.figures ∧ t.recorded = true ∧ t.finalized = true := by
  change solo o (a.settleOnce (a.usage st).1 (a.usage st).2.1 >>= fun _ => _) s = some (r, t) at h
  rw [solo_bind] at h
  obtain ⟨⟨_, v⟩, hsettle, h⟩ := Option.bind_eq_some_iff.mp h
  change solo o (if s.recorded = true then pure () else a.settleOrRecord _ _)
    { s with recorded := true } = _ at hsettle
  rw [if_pos hrec] at hsettle
  cases hsettle
  change some ((), if s.finalized = true then _ else _) = some (r, t) at h
  rw [if_pos hfin] at h
  cases h
  exact ⟨rfl, rfl, hfin⟩

theorem soloTasks_figures {o : Oracle} {tasks : List (Prog Unit)} (htasks : DropTasks tasks)
    {s t : State} (h : soloTasks o tasks s = some t) (hrec : s.recorded = true)
    (hfin : s.finalized = true) : t.figures = s.figures := by
  induction tasks generalizing s with
  | nil =>
      cases h
      rfl
  | cons task tasks ih =>
      obtain ⟨⟨a, st, rfl⟩, hrest⟩ := List.forall_mem_cons.mp htasks
      obtain ⟨⟨_, v⟩, htask, h⟩ := Option.bind_eq_some_iff.mp h
      obtain ⟨hfig, hrec', hfin'⟩ := solo_dropTask htask hrec hfin
      exact (ih hrest h hrec' hfin').trans hfig

theorem soloBody_json {o : Oracle} {u t : State} {status : ℕ} {out : Json} (hbody : u.body = none)
    (h : soloBody o (step { u with handler := some (.ret (.json status out)) } .returned) = some t) :
    t.figures = u.figures := by
  change Option.elim u.body _ _ = some t at h
  rw [hbody] at h
  cases h
  rfl

/-- A stream that is read to its end is accounted for once. -/
theorem soloBody_sse {o : Oracle} {u t : State} {a : Accountant} {items : List Item}
    (h : soloBody o (step { u with handler := some (.ret (.sse a items)) } .returned) = some t)
    (hrec : u.recorded = false) (hfin : u.finalized = false) (htasks : u.tasks = []) :
    t.figures = u.figures ++ a.accounts (a.usage (drained u.stream items)) := by
  obtain ⟨⟨_, v⟩, hrun, h⟩ := Option.bind_eq_some_iff.mp h
  obtain ⟨w, hterminal, htouch, hfig⟩ := solo_bodyStream hrun
  have hnil : DropTasks u.tasks := by
    rw [htasks]
    exact nofun
  obtain ⟨hfig', hrec', hfin'⟩ := solo_terminal hterminal (htouch.recorded.trans hrec)
    (htouch.finalized.trans hfin)
  have hdrop := soloTasks_figures (dropTasks_append (dropTasks_append
    (solo_dropTasks hrun hnil) (dropTasks_guardTasks _)) (dropTasks_bodyTasks _)) h hrec' hfin'
  refine hdrop.trans (hfig'.trans ?_)
  rw [hfig, htouch.stream]
  rfl

/-! ### A run of the machine -/

section Machine

open Runs (final final_append)

variable {o : Oracle}

theorem run_solo_handler {p : Prog Reply} {s t : State} {reply : Reply}
    (h : solo o p s = some (reply, t)) (b : Option (Prog Unit)) :
    ∃ n, final step { s with handler := some p, body := b } (List.replicate n (.run .handler o)) =
      { t with handler := some (.ret reply), body := b } := by
  induction p generalizing s with
  | ret a =>
      cases h
      exact ⟨0, rfl⟩
  | op e k ih =>
      obtain ⟨⟨r, s'⟩, hperform, h⟩ := Option.bind_eq_some_iff.mp h
      obtain ⟨n, hn⟩ := ih r h
      refine ⟨n + 1, ?_⟩
      have hstep : step { s with handler := some (.op e k), body := b } (.run .handler o) =
          { s' with handler := some (k r), body := b } := by
        simp only [step, Option.bind_some, advance, perform_threads, hperform, Option.map_some]
      rw [List.replicate_succ, Runs.final_cons, hstep]
      exact hn

theorem run_solo_body {p : Prog Unit} {s t : State} {r : Unit} (h : solo o p s = some (r, t))
    (hd : Option (Prog Reply)) :
    ∃ n, final step { s with handler := hd, body := some p } (List.replicate n (.run .body o)) =
      { t with handler := hd, body := some (.ret ()) } := by
  induction p generalizing s with
  | ret a =>
      cases h
      exact ⟨0, rfl⟩
  | op e k ih =>
      obtain ⟨⟨r, s'⟩, hperform, h⟩ := Option.bind_eq_some_iff.mp h
      obtain ⟨n, hn⟩ := ih r h
      refine ⟨n + 1, ?_⟩
      have hstep : step { s with handler := hd, body := some (.op e k) } (.run .body o) =
          { s' with handler := hd, body := some (k r) } := by
        simp only [step, Option.bind_some, advance, perform_threads, hperform, Option.map_some]
      rw [List.replicate_succ, Runs.final_cons, hstep]
      exact hn

theorem run_solo_task {p : Prog Unit} (hp : p.Uses (fun e => e ≠ .dropGuard)) {s t : State}
    {r : Unit} (h : solo o p s = some (r, t)) (l ts : List (Prog Unit)) :
    ∃ n, final step { s with tasks := l ++ p :: ts } (List.replicate n (.run (.task l.length) o)) =
      { t with tasks := l ++ .ret () :: ts } := by
  induction p generalizing s with
  | ret a =>
      cases h
      exact ⟨0, rfl⟩
  | op e k ih =>
      obtain ⟨⟨r, s'⟩, hperform, h⟩ := Option.bind_eq_some_iff.mp h
      obtain ⟨n, hn⟩ := ih r (hp.2 r) h
      change perform s o e = _ at hperform
      refine ⟨n + 1, ?_⟩
      have hstep : step { s with tasks := l ++ .op e k :: ts } (.run (.task l.length) o) =
          { s' with tasks := l ++ k r :: ts } := by
        have hadvance : advance { s with tasks := l ++ .op e k :: ts } o (.op e k) =
            some (k r, { s' with tasks := l ++ .op e k :: ts }) := by
          rw [advance, perform_tasks _ _ hp.1, hperform]
          rfl
        simp only [step, List.getElem?_append_right (le_refl _), Nat.sub_self,
          List.getElem?_cons_zero, Option.bind_some, hadvance, List.set_append_right _ _ (le_refl _),
          List.set_cons_zero]
      rw [List.replicate_succ, Runs.final_cons, hstep]
      exact hn

theorem uses_dropTask (a : Accountant) (st : StreamState) :
    (a.dropTask st).Uses (fun e => e ≠ .dropGuard) := by
  refine ⟨nofun, fun recorded => ?_⟩
  cases recorded with
  | true => exact ⟨nofun, fun _ => trivial⟩
  | false =>
      refine Program.Uses.bind ?_ fun _ => ⟨nofun, fun _ => trivial⟩
      unfold Accountant.settleOrRecord
      split_ifs
      · cases a.reservation with
        | some rsv => exact ⟨nofun, fun _ => trivial⟩
        | none => exact ⟨nofun, fun _ => trivial⟩
      · trivial

theorem run_soloTasks {ts : List (Prog Unit)} (hts : DropTasks ts) {s t : State}
    (h : soloTasks o ts s = some t) (l : List (Prog Unit)) (hl : ∀ p ∈ l, p = .ret ()) :
    ∃ es ps, final step { s with tasks := l ++ ts } es = { t with tasks := ps } ∧
      (∀ p ∈ ps, p = .ret ()) ∧ t.handler = s.handler ∧ t.body = s.body := by
  induction ts generalizing s l with
  | nil =>
      cases h
      exact ⟨[], l, by rw [List.append_nil]; rfl, hl, rfl, rfl⟩
  | cons p ts ih =>
      obtain ⟨⟨a, st, rfl⟩, hrest⟩ := List.forall_mem_cons.mp hts
      obtain ⟨⟨r, v⟩, htask, h⟩ := Option.bind_eq_some_iff.mp h
      obtain ⟨n, hn⟩ := run_solo_task (uses_dropTask a st) htask l ts
      obtain ⟨hh, hb⟩ := solo_threads htask
      obtain ⟨es, ps, hes, hps, hh', hb'⟩ := ih hrest h (l ++ [.ret ()]) (by
        intro p hp
        rcases List.mem_append.mp hp with hp | hp
        · exact hl p hp
        · exact List.mem_singleton.mp hp)
      refine ⟨List.replicate n (.run (.task l.length) o) ++ es, ps, ?_, hps, hh'.trans hh,
        hb'.trans hb⟩
      rw [final_append, hn]
      rw [List.append_assoc] at hes
      exact hes

theorem perform_unguarded {s s' : State} {e : Op} {r : Res e}
    (h : perform s o e = some (r, s')) (hg : s.guard = false) :
    s'.guard = false ∧ s'.tasks = s.tasks := by
  cases e with
  | admitReq =>
      obtain ⟨res, -, heq⟩ := Option.map_eq_some_iff.mp ((perform_admitReq_eq ..).symm.trans h)
      cases heq
      exact ⟨(untouched_noteAdmission s r).guard.trans hg, (untouched_noteAdmission s r).tasks⟩
  | finish row =>
      cases h
      split_ifs
      · exact ⟨hg, rfl⟩
      · exact ⟨hg, rfl⟩
  | dropGuard =>
      cases h
      refine ⟨rfl, ?_⟩
      change s.tasks ++ s.guardTasks = s.tasks
      rw [State.guardTasks, hg, List.append_nil]
  | panic => cases h
  | resolve | chat | chatStream | settle | record | recordTokensToday | nextItem | send
  | inspect =>
      obtain ⟨_, -, heq⟩ := Option.map_eq_some_iff.mp h
      cases heq
      exact ⟨hg, rfl⟩
  | _ =>
      cases h
      exact ⟨hg, rfl⟩

theorem solo_unguarded {α : Type} {p : Prog α} {s t : State} {a : α}
    (h : solo o p s = some (a, t)) (hg : s.guard = false) : t.tasks = s.tasks := by
  induction p generalizing s with
  | ret b =>
      cases h
      rfl
  | op e k ih =>
      obtain ⟨⟨r, s'⟩, hperform, h⟩ := Option.bind_eq_some_iff.mp h
      obtain ⟨hg', htasks⟩ := perform_unguarded hperform hg
      exact (ih r h hg').trans htasks

/-- A request that is served to its end is a run of the machine, up to the end of all threads. -/
theorem served_run {g : Gateway} {requestId clientId : String} {body : ChatCompletionRequest}
    {reply : Reply} {t : State} (h : served g requestId clientId body o = some (reply, t)) :
    ∃ es, (final step (init g requestId clientId body) es).log = t.log ∧
      (final step (init g requestId clientId body) es).Ended := by
  obtain ⟨⟨answer, u⟩, hsolo, hrest⟩ := Option.bind_eq_some_iff.mp h
  obtain ⟨v, hv, heq⟩ := Option.map_eq_some_iff.mp hrest
  cases heq
  obtain ⟨n, hn⟩ := run_solo_handler hsolo none
  have htasks : u.tasks = [] := solo_unguarded hsolo rfl
  have hbody : u.body = none := (solo_threads hsolo).2
  -- the handler and its answer
  have hreturned : final step (init g requestId clientId body)
      (List.replicate n (.run .handler o) ++ [.returned]) =
        step { u with handler := some (.ret answer) } .returned := by
    rw [final_append]
    refine (congrArg (fun s => step s .returned) hn).trans ?_
    rw [← hbody]
  cases answer with
  | json status out =>
      change Option.elim u.body _ _ = some t at hv
      rw [hbody] at hv
      cases hv
      refine ⟨_, congrArg State.log hreturned, ?_⟩
      rw [hreturned]
      refine ⟨rfl, hbody, ?_⟩
      change ∀ p ∈ u.tasks, p = .ret ()
      rw [htasks]
      exact nofun
  | sse a items =>
      obtain ⟨⟨r, w⟩, hrun, hv⟩ := Option.bind_eq_some_iff.mp hv
      have hw : w.handler = none := (solo_threads hrun).1
      have hwtasks : DropTasks w.tasks := by
        refine solo_dropTasks hrun ?_
        change DropTasks u.tasks
        rw [htasks]
        exact nofun
      obtain ⟨m, hm⟩ := run_solo_body hrun none
      obtain ⟨es, ps, hes, hps, hh, hb⟩ := run_soloTasks
        (dropTasks_append (dropTasks_append hwtasks (dropTasks_guardTasks _))
          (dropTasks_bodyTasks _)) hv [] nofun
      -- the body is polled to its end and dropped
      have hdropped : final step (init g requestId clientId body)
          (List.replicate n (.run .handler o) ++ [.returned] ++
            (List.replicate m (.run .body o) ++ [.dropBody])) =
          step { w with body := some (.ret ()) } .dropBody := by
        rw [final_append, hreturned, final_append]
        refine (congrArg (fun s => step s .dropBody) hm).trans ?_
        rw [← hw]
      have hend : final step (step { w with body := some (.ret ()) } .dropBody) es =
          { t with tasks := ps } := hes
      refine ⟨List.replicate n (.run .handler o) ++ [.returned] ++
        (List.replicate m (.run .body o) ++ [.dropBody]) ++ es, ?_⟩
      rw [final_append, hdropped, hend]
      exact ⟨rfl, hh.trans hw, hb, hps⟩

end Machine

end Chat

end FirewallLLM
