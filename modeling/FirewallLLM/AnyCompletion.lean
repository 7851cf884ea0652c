import FirewallLLM.AuditPrograms
import FirewallLLM.SettleOnce
import FirewallLLM.ServedAnswer

/-! # Whatever a provider answers

A provider may answer a completion with any JSON value.  The handler reads it by accessors that
are never out of place; but where the router has mapped the model, it writes `routed_from` into
the value by its index, and that panics where the value is neither an object nor null.

`completion_survived_iff`: with any other completion the handler answers, settles the
reservation and writes its row, whatever the value is. -/

namespace FirewallLLM.Chat

variable {o : Oracle}

/-! ### What should hold -/

/-- The store and the router answer what the handler asks of them after the completion. -/
structure Responsive (o : Oracle) : Prop where
  settle : ∀ rsv prompt done, (o (.settle rsv prompt done)).isSome
  record : ∀ clientId provider model prompt done,
    (o (.record clientId provider model prompt done)).isSome
  recordTokensToday : ∀ provider tokens, (o (.recordTokensToday provider tokens)).isSome

/-- A request is answered with success, its reservation is settled, if it has one, and its row
is written. -/
def Survives (o : Oracle) (g : Gateway) (requestId clientId : String)
    (body : ChatCompletionRequest) : Prop :=
  ∃ out t, solo o (chatCompletions g requestId clientId body) (init g requestId clientId body) =
      some (.json 200 out, t) ∧
    t.settles = t.reservation.toList ∧
    ∃ row, t.rows = [row] ∧ row.requestId = requestId ∧ row.code = "ok"

/-- An index can be assigned. -/
def Assignable : Json → Prop
  | .obj _ | .null => True
  | _ => False

/-! ### After the completion -/

/-- What has been settled and written so far, and what is reserved. -/
structure Books (s : State) (settles : List Reservation) (rows : List Row)
    (reservation : Option Reservation) : Prop where
  settles : s.settles = settles
  rows : s.rows = rows
  reservation : s.reservation = reservation

theorem Books.note {s : State} {settles : List Reservation} {rows : List Row}
    {reservation : Option Reservation} (h : Books s settles rows reservation) {entry : Entry}
    (hsettle : ∀ rsv p d, entry ≠ .settled rsv p d) (hrow : ∀ row, entry ≠ .audited row) :
    Books (s.note entry) settles rows reservation :=
  ⟨(same_note s hsettle).settles.trans h.settles, (calm_note s hrow).rows.trans h.rows,
    h.reservation⟩

theorem solo_settleOrRecord_books (ho : Responsive o) {a : Accountant} {rows : List Row} {s : State}
    (hs : Books s [] rows (if a.metering then a.reservation else none)) (prompt done : UInt64) :
    ∃ t, solo o (a.settleOrRecord prompt done) s = some ((), t) ∧
      Books t (if a.metering then a.reservation else none).toList rows
        (if a.metering then a.reservation else none) ∧ t.finalized = s.finalized := by
  unfold Accountant.settleOrRecord
  by_cases hm : a.metering = true
  · simp only [if_pos hm] at hs ⊢
    cases hr : a.reservation with
    | some rsv =>
        rw [hr] at hs
        obtain ⟨r, hanswer⟩ := Option.isSome_iff_exists.mp
          (ho.settle rsv prompt.toInt64 done.toInt64)
        refine ⟨s.note (.settled rsv prompt.toInt64 done.toInt64), ?_,
          ⟨?_, ?_, hs.reservation⟩, rfl⟩
        · refine (solo_ask (e := .settle rsv prompt.toInt64 done.toInt64) rfl _).trans ?_
          rw [hanswer]
          rfl
        · rw [settles_note, hs.settles]
          rfl
        · exact (calm_note s (by simp)).rows.trans hs.rows
    | none =>
        rw [hr] at hs
        obtain ⟨r, hanswer⟩ := Option.isSome_iff_exists.mp
          (ho.record a.clientId a.providerName a.model prompt.toInt64 done.toInt64)
        refine ⟨s.note (.recorded a.clientId a.providerName a.model prompt.toInt64 done.toInt64), ?_,
          hs.note (by simp) (by simp), rfl⟩
        refine (solo_ask (e := .record a.clientId a.providerName a.model prompt.toInt64
          done.toInt64) rfl _).trans ?_
        rw [hanswer]
        rfl
  · simp only [if_neg hm] at hs ⊢
    exact ⟨s, rfl, hs, rfl⟩

theorem solo_answer (ho : Responsive o) (provider : String) (tokens : Int64) (row : Row)
    (reply : Reply) {s : State} (hfin : s.finalized = false) :
    solo o (recordTokensToday provider tokens >>= fun _ => finish row >>= fun _ => pure reply) s =
      some (reply,
        { (s.note (.routed provider tokens)).note (.audited row) with finalized := true }) := by
  obtain ⟨r, hanswer⟩ := Option.isSome_iff_exists.mp (ho.recordTokensToday provider tokens)
  refine (solo_ask (e := .recordTokensToday provider tokens) rfl _).trans ?_
  have hopen : (s.note (.routed provider tokens)).finalized = false := hfin
  rw [hanswer, Option.bind_some]
  change (perform (s.note (.routed provider tokens)) o (.finish row)).bind _ = _
  simp only [perform, hopen, Bool.false_eq_true, if_false]
  rfl

theorem solo_chatResponse_tagged (ho : Responsive o) {g : Gateway} {a : Accountant}
    {requested concrete : String} {payload completion tagged : Json}
    (hchat : o (.chat payload) = some (.ok completion))
    (htag : tagRouted requested concrete completion = some tagged)
    (chain : Inspectors.DlpState) (promptEst : UInt64) {s : State}
    (hs : Books s [] [] (if a.metering then a.reservation else none))
    (hfin : s.finalized = false) :
    ∃ out t row, solo o (chatResponse g a requested concrete payload chain promptEst) s =
        some (.json 200 out, t) ∧
      Books t (if a.metering then a.reservation else none).toList [row]
        (if a.metering then a.reservation else none) ∧
      row.requestId = a.requestId ∧ row.code = "ok" := by
  let out := restoreFirst g chain tagged
  let usage := completionUsage out
  let row := a.row "ok" usage.1.toInt64 usage.2.1.toInt64 ((firstContent out).getD []) usage.2.2
  obtain ⟨v, hsettle, hv, hvfin⟩ := solo_settleOrRecord_books ho
    (s := s.note (.observed (a.metric "ok" usage.1 usage.2.1)))
    (hs.note (by simp) (by simp)) usage.1 usage.2.1
  have hrouted : Books (v.note (.routed a.providerName
      (usage.1.toInt64 + usage.2.1.toInt64))) _ _ _ := hv.note (by simp) (by simp)
  refine ⟨out, { (v.note (.routed a.providerName
    (usage.1.toInt64 + usage.2.1.toInt64))).note (.audited row) with finalized := true }, row, ?_,
    ⟨?_, ?_, hrouted.reservation⟩, rfl, rfl⟩
  · unfold chatResponse
    rw [solo_chat hchat]
    dsimp only
    rw [htag]
    dsimp only
    rw [solo_observe, solo_bind]
    refine (congrArg (fun x => Option.bind x _) hsettle).trans ?_
    exact solo_answer ho _ _ row _ (hvfin.trans hfin)
  · exact (same_note _ (by simp)).settles.trans hrouted.settles
  · exact (rows_note _ _).trans (by rw [hrouted.rows]; rfl)

theorem solo_chatResponse_untagged {g : Gateway} {a : Accountant} {requested concrete : String}
    {payload completion : Json} (hchat : o (.chat payload) = some (.ok completion))
    (htag : tagRouted requested concrete completion = none) (chain : Inspectors.DlpState)
    (promptEst : UInt64) (s : State) :
    solo o (chatResponse g a requested concrete payload chain promptEst) s = none := by
  unfold chatResponse
  rw [solo_chat hchat]
  dsimp only
  rw [htag]
  rfl

theorem tagRouted_isSome_iff (requested concrete : String) (completion : Json) :
    (tagRouted requested concrete completion).isSome ↔
      concrete = requested ∨ Assignable completion := by
  unfold tagRouted
  split_ifs with hne
  · cases completion <;> simp [assign?, Assignable, hne]
  · exact ⟨fun _ => Or.inl (not_not.mp hne), fun _ => rfl⟩

/-! ### Before it -/

/-- The handler calls its provider from where it serves, with nothing settled or written. -/
def Serves (o : Oracle) (g : Gateway) (requestId : String) (body : ChatCompletionRequest)
    (concrete : String) (payload : Json) (p : Prog Reply) (s : State) : Prop :=
  ∃ a chain promptEst u, solo o p s = solo o (serve g a body concrete payload chain promptEst) u ∧
    a.requestId = requestId ∧ Books u [] [] (if a.metering then a.reservation else none) ∧
    u.finalized = false

variable {g : Gateway} {requestId : String} {body : ChatCompletionRequest} {concrete : String}
  {payload : Json} {s : State}

theorem serves_serve {a : Accountant} {q : Json} {chain : Inspectors.DlpState}
    {promptEst : UInt64} (ha : a.requestId = requestId)
    (hs : Books s [] [] (if a.metering then a.reservation else none)) (hfin : s.finalized = false)
    (h : forwarded o (serve g a body concrete q chain promptEst) s = some payload) :
    Serves o g requestId body concrete payload (serve g a body concrete q chain promptEst) s := by
  rw [forwarded_serve] at h
  obtain rfl := Option.some.inj h
  exact ⟨a, chain, promptEst, s, rfl, ha, hs, hfin⟩

theorem serves_admission {a : Accountant} {q : Json} {chain : Inspectors.DlpState}
    (ha : a.requestId = requestId) (hm : a.metering = g.metering) (hr : a.reservation = none)
    (hs : Books s [] [] none) (hfin : s.finalized = false)
    (h : forwarded o (admission g a body concrete q chain) s = some payload) :
    Serves o g requestId body concrete payload (admission g a body concrete q chain) s := by
  have hnone : Books s [] [] (if a.metering then a.reservation else none) := by
    rw [hr, ite_self]
    exact hs
  unfold admission at h ⊢
  dsimp only at h ⊢
  by_cases hg : g.metering = true
  · simp only [if_pos hg] at h ⊢
    rw [forwarded_admitReq] at h
    obtain ⟨r, hanswer, h⟩ := Option.bind_eq_some_iff.mp h
    have hsolo : ∀ f : Except MeteringError Reservation → Prog Reply,
        solo o (admitReq a.clientId a.providerName body.model
          (estimateUsage (joinLines (body.messages.filterMap Inspectors.ChatMessage.content))
            []).1.toInt64 body.maxTokens >>= f) s = solo o (f r) (s.noteAdmission r) := by
      intro f
      rw [solo_admitReq, hanswer, Option.bind_some]
    cases r with
    | ok rsv =>
        have hadmitted : Books (s.noteAdmission (.ok rsv)) [] []
            (if a.metering then some rsv else none) := by
          rw [hm, if_pos hg]
          exact ⟨(same_note s (by simp)).settles.trans hs.settles,
            (calm_note s (by simp)).rows.trans hs.rows, rfl⟩
        obtain ⟨a', chain', est, u, hrun, hrest⟩ := serves_serve (a := { a with
          reservation := some rsv }) ha hadmitted hfin h
        exact ⟨a', chain', est, u, (hsolo _).trans hrun, hrest⟩
    | error err =>
        cases err with
        | quotaExceeded scope limit => cases h
        | backendUnavailable msg =>
            dsimp only at h
            by_cases hclosed : g.backendFailClosed = true
            · rw [if_pos hclosed] at h
              cases h
            · rw [if_neg hclosed] at h
              obtain ⟨a', chain', est, u, hrun, hrest⟩ := serves_serve ha hnone hfin h
              refine ⟨a', chain', est, u, (hsolo _).trans ?_, hrest⟩
              dsimp only
              rw [if_neg hclosed]
              exact hrun
  · rw [if_neg hg] at h ⊢
    exact serves_serve ha hnone hfin h

/-- A request whose provider is called has come through the gates. -/
theorem serves_chatCompletions {clientId providerName : String}
    (hresolve : o (.resolve body.model clientId) = some (.ok (providerName, concrete)))
    (hs : Books s [] [] none) (hfin : s.finalized = false)
    (h : forwarded o (chatCompletions g requestId clientId body) s = some payload) :
    Serves o g requestId body concrete payload (chatCompletions g requestId clientId body) s := by
  unfold chatCompletions at h ⊢
  rw [forwarded_resolve] at h
  obtain ⟨r, hr, h⟩ := Option.bind_eq_some_iff.mp h
  obtain rfl := Option.some.inj (hr.symm.trans hresolve)
  have hsolo : ∀ f : Except RoutingError (String × String) → Prog Reply,
      solo o (resolve body.model clientId >>= f) s = solo o (f (.ok (providerName, concrete))) s := by
    intro f
    rw [solo_resolve, hresolve]
    rfl
  dsimp only at h
  cases hv : validate g body with
  | some err =>
      rw [hv] at h
      cases h
  | none =>
      rw [hv] at h
      dsimp only at h
      by_cases hp : providerName ∉ g.providers
      · rw [if_pos hp] at h
        cases h
      · rw [if_neg hp, forwarded_inspect] at h
        obtain ⟨out, hinspect, h⟩ := Option.bind_eq_some_iff.mp h
        cases hres : out.result with
        | error err =>
            rw [hres] at h
            cases h
        | ok chain =>
            rw [hres] at h
            dsimp only at h
            obtain ⟨a, chain', est, u, hrun, hrest⟩ := serves_admission rfl rfl rfl hs hfin h
            refine ⟨a, chain', est, u, (hsolo _).trans ?_, hrest⟩
            have hafter : ∀ f : Inspectors.Outcome → Prog Reply,
                solo o (inspect (buildPayload concrete body) clientId >>= f) s =
                  solo o (f out) s := by
              intro f
              rw [solo_inspect, hinspect]
              rfl
            dsimp only
            rw [if_neg hp]
            refine (hafter _).trans ?_
            rw [hres]
            exact hrun

/-- **A completion is survived if and only if `routed_from` is not written into it, or can
be.** -/
theorem completion_survived_iff (g : Gateway) (requestId clientId : String)
    {body : ChatCompletionRequest} (hstream : body.stream = false) (ho : Responsive o)
    {providerName concrete : String} {payload completion : Json}
    (hresolve : o (.resolve body.model clientId) = some (.ok (providerName, concrete)))
    (hforward : forwarded o (chatCompletions g requestId clientId body)
      (init g requestId clientId body) = some payload)
    (hchat : o (.chat payload) = some (.ok completion)) :
    Survives o g requestId clientId body ↔
      concrete = body.model ∨ Assignable completion := by
  obtain ⟨a, chain, promptEst, u, hrun, ha, hu, hfin⟩ :=
    serves_chatCompletions hresolve ⟨rfl, rfl, rfl⟩ rfl hforward
  have hserve : serve g a body concrete payload chain promptEst =
      chatResponse g a body.model concrete payload chain promptEst := by
    rw [serve, hstream]
    rfl
  rw [hserve] at hrun
  rw [← tagRouted_isSome_iff]
  cases htag : tagRouted body.model concrete completion with
  | none =>
      refine iff_of_false ?_ Bool.false_ne_true
      rintro ⟨out, t, hsome, -⟩
      rw [hrun, solo_chatResponse_untagged hchat htag] at hsome
      cases hsome
  | some tagged =>
      refine iff_of_true ?_ rfl
      obtain ⟨out, t, row, hsome, ht, hid, hcode⟩ :=
        solo_chatResponse_tagged ho hchat htag chain promptEst hu hfin
      refine ⟨out, t, hrun.trans hsome, ?_, row, ht.rows, hid.trans ha, hcode⟩
      rw [ht.settles, ht.reservation]

/-- A router that serves the model `concrete` whatever is asked for, and a provider that answers
with `completion`. -/
def mappedOracle (concrete : String) (completion : Json) : Oracle
  | .resolve _ _ => some (.ok ("p", concrete))
  | .inspect payload _ => some ⟨payload, [], .ok ⟨[], [], []⟩⟩
  | .admitReq .. => some (.ok sampleReservation)
  | .chat _ => some (.ok completion)
  | .settle .. | .record .. | .recordTokensToday .. => some ()
  | _ => none

/-- A null is survived, although the model was mapped. -/
theorem null_survived :
    Survives (mappedOracle "big" .null) sampleGateway "r" "c" (sampleRequest false) :=
  (@completion_survived_iff (mappedOracle "big" .null) sampleGateway "r" "c" (sampleRequest false)
    rfl ⟨fun _ _ _ => rfl, fun _ _ _ _ _ => rfl, fun _ _ => rfl⟩ _ _ _ _ rfl rfl rfl).mpr
    (Or.inr trivial)

/-- An array is not: the handler stands at its panic, with its reservation and no row. -/
theorem array_not_survived :
    ¬ Survives (mappedOracle "big" (.arr [])) sampleGateway "r" "c" (sampleRequest false) ∧
      ((Runs.final step (init sampleGateway "r" "c" (sampleRequest false))
        (List.replicate 4 (.run .handler (mappedOracle "big" (.arr []))))).handler.bind
          Program.next = some .panic) ∧
      (Runs.final step (init sampleGateway "r" "c" (sampleRequest false))
        (List.replicate 4 (.run .handler (mappedOracle "big" (.arr []))))).reservation =
          some sampleReservation ∧
      (Runs.final step (init sampleGateway "r" "c" (sampleRequest false))
        (List.replicate 4 (.run .handler (mappedOracle "big" (.arr []))))).log =
          [.admitted sampleReservation] := by
  refine ⟨?_, rfl, rfl, rfl⟩
  rintro ⟨out, t, hrun, -⟩
  have hstuck : solo (mappedOracle "big" (.arr []))
      (chatCompletions sampleGateway "r" "c" (sampleRequest false))
      (init sampleGateway "r" "c" (sampleRequest false)) = none := rfl
  rw [hstuck] at hrun
  cases hrun

end FirewallLLM.Chat
