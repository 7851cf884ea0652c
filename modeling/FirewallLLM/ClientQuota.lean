import FirewallLLM.CappedPrograms
import FirewallLLM.SettlePrograms

/-! # The daily token quota

The requests of one client and the store that counts its tokens, as one machine: requests
arrive, and the threads of all requests interleave at every operation.  What a request asks of
its metering is answered by the store at once; everything else is answered by the environment.

`client_quota`: in the runs of one day where every call keeps to what was reserved for it, the
counter of the client never exceeds the limit.  `quota_exceeded` is a run of a request without
`max_tokens`, for which nothing but the gateway knows the cap. -/

namespace FirewallLLM

namespace Chat

open Dlp (Text Item StreamState StreamRestore)
open Inspectors (processRequestWithClient)
open Quota (TokenStore cTokensKey dayString)

/-! ### The requests of a client -/

/-- A gateway with a token quota, and its inspectors. -/
structure Deployment where
  gateway : Gateway
  quota : Quota.Metering Int64
  limit : Int64
  inspectors : Inspectors.Config
  engine : Inspectors.Engine
  order : Dlp.VaultOrder
  metered : gateway.metering = true
  limited : quota.clientTokensPerDay = some limit

/-- A request, the random source of its inspection, and how far it has come. -/
structure Call where
  body : ChatCompletionRequest
  draws : List (UInt64 × UInt64)
  state : State

/-- The store and the requests of a client. -/
structure Fleet (S : TokenStore) where
  store : S.State
  calls : List Call

/-- A request arrives, or one goes on at a time of day; `id` is what an admission would draw.  Or
the record of a reservation expires. -/
inductive FleetEvent where
  | arrive (requestId : String) (body : ChatCompletionRequest) (draws : List (UInt64 × UInt64))
  | go (i : ℕ) (now : ℤ) (id : String) (event : RunEvent)
  | lapse (reservationKey : String)

/-- The operation that a thread asks for. -/
def State.next (s : State) : Thread → Option Op
  | .handler => s.handler.bind Program.next
  | .body => s.body.bind Program.next
  | .task i => (s.tasks[i]?).bind Program.next

section Machine

variable (S : TokenStore) (D : Deployment) (client : String)

/-- What an operation is answered, and the store after it. -/
def answer (now : ℤ) (id : String) (o : Oracle) (store : S.State) :
    (e : Op) → Option (Res e) × S.State
  | .admitReq c provider model promptEst cap =>
      let r := D.quota.admitReq S.reserve now id c provider model promptEst cap store
      (some r.1, r.2)
  | .settle rsv prompt completion =>
      (some (), Quota.Metering.settle S.settle now rsv prompt completion store)
  | .record c provider model prompt completion =>
      (some (), Quota.Metering.record S.incr now c provider model prompt completion store)
  | e => (o e, store)

/-- One event of one request. -/
def Call.go (call : Call) (now : ℤ) (id : String) (store : S.State) : RunEvent → Call × S.State
  | .run t o =>
      ({ call with state := step call.state (.run t (fun e => (answer S D now id o store e).1)) },
        (call.state.next t).elim store (fun e => (answer S D now id o store e).2))
  | event => ({ call with state := step call.state event }, store)

/-- One event. -/
def Fleet.step (x : Fleet S) : FleetEvent → Fleet S
  | .arrive requestId body draws =>
      { x with calls := x.calls ++ [⟨body, draws, init D.gateway requestId client body⟩] }
  | .go i now id event => match x.calls[i]? with
      | none => x
      | some call => ⟨(call.go S D now id x.store event).2,
          x.calls.set i (call.go S D now id x.store event).1⟩
  | .lapse key => { x with store := (S.lapse key x.store).getD x.store }

/-! ### What a run must meet -/

/-- What the environment answers in this event is as `A` says. -/
def Call.Answered (call : Call) (A : (e : Op) → Res e → Prop) : RunEvent → Prop
  | .run t o => ∀ e r, call.state.next t = some e → o e = some r → A e r
  | _ => True

/-- The inspectors answer as the chain does. -/
def Inspected (draws : List (UInt64 × UInt64)) : (e : Op) → Res e → Prop
  | .inspect payload c, out => processRequestWithClient D.inspectors D.engine D.order payload
      (some c) draws = some out
  | _, _ => True

/-- The events happen on one day, and the inspectors answer as the chain does. -/
def Fleet.Legal (day : String) (x : Fleet S) : FleetEvent → Prop
  | .arrive .. | .lapse _ => True
  | .go i now _ event => dayString now = day ∧ ∀ call, x.calls[i]? = some call →
      call.Answered (Inspected D call.draws) event

/-- A usage report of a call with this payload: at most the estimate of the prompt, and at most
the `max_tokens` of the payload. -/
def Modest (body : ChatCompletionRequest) (payload : Json) (usage : Option Json) : Prop :=
  ∀ p d, upstreamUsage usage = some (p, d) → p ≤ body.promptEst ∧
    ∀ n, payload.get? "max_tokens" = some (jsonInt n) → (d.toNat : ℤ) ≤ n.toInt

/-- Provider calls report modestly. -/
def ReportsModestly (body : ChatCompletionRequest) : (e : Op) → Res e → Prop
  | .chat payload, r => match r with
      | .ok completion => Modest body payload (completion.get? "usage")
      | .error _ => True
  | .chatStream payload, r => match r with
      | .ok items => ∀ chunk, .ok chunk ∈ items → Modest body payload (chunk.get? "usage")
      | .error _ => True
  | _, _ => True

/-- Each provider call of the event reports modestly. -/
def Fleet.Modest (x : Fleet S) : FleetEvent → Prop
  | .arrive .. | .lapse _ => True
  | .go i _ _ event => ∀ call, x.calls[i]? = some call →
      call.Answered (ReportsModestly call.body) event

/-- What is not bounded by a `max_tokens` in the payload keeps to the allowance all the same: the
reports of a call without one, and the estimates of the gateway where there is no report. -/
def Unbounded (body : ChatCompletionRequest) (draws : List (UInt64 × UInt64)) (al : Allowance) :
    (e : Op) → Res e → Prop
  | .chat payload, r => match r with
      | .ok completion =>
          (payload.get? "max_tokens" = none → al.Reports (completion.get? "usage")) ∧
          (upstreamUsage (completion.get? "usage") = none → ∀ chain,
            chainOf D.inspectors D.engine D.order draws client body = some chain →
              al.Holds (completionUsage (restoreFirst D.gateway chain completion)).1
                (completionUsage (restoreFirst D.gateway chain completion)).2.1)
      | .error _ => True
  | .chatStream payload, r => match r with
      | .ok items => payload.get? "max_tokens" = none → ∀ item ∈ items, al.Keeps item
      | .error _ => al.Holds (estimateUsage (promptText payload) []).1 0
  | _, _ => True

/-- The event reads the usage of a stream. -/
def State.ReadsUsage (s : State) : RunEvent → Prop
  | .run t _ => s.next t = some .cells ∨ s.next t = some .dropGuard
  | .dropBody => True
  | _ => False

/-- The reserve of an admission for a body, read in the integers. -/
def Deployment.reserveOp (body : ChatCompletionRequest) (now : ℤ) (id provider model : String) :
    Quota.AdmitOp ℤ :=
  D.quota.exact.admitOp (D.quota.newReservation id client provider model
    (allowance D.quota body).prompt.toInt64 body.maxTokens).exact (dayString now)

/-- An event of a request keeps to what was reserved for it. -/
structure Call.Covered (call : Call) (now : ℤ) (id : String) (store : S.State)
    (event : RunEvent) : Prop where
  /-- the store has room for the sums of an admission -/
  room : ∀ t o c provider model est cap, event = .run t o →
    call.state.next t = some (.admitReq c provider model est cap) →
    S.room store (D.reserveOp client call.body now id provider model)
  /-- answers that no `max_tokens` bounds -/
  answers : call.Answered
    (Unbounded D client call.body call.draws (allowance D.quota call.body)) event
  /-- what is estimated of a stream that has reported nothing -/
  estimate : call.state.ReadsUsage event → ∀ a, call.state.accountant = some a →
    upstreamUsage call.state.stream.lastUsage = none →
      (allowance D.quota call.body).Holds
        (estimateUsage a.requestText call.state.stream.completionText).1
        (estimateUsage a.requestText call.state.stream.completionText).2

def Fleet.Covered (x : Fleet S) : FleetEvent → Prop
  | .arrive .. | .lapse _ => True
  | .go i now id event => ∀ call, x.calls[i]? = some call →
      call.Covered S D client now id x.store event

end Machine

/-! ### The usage that a stream has seen -/

theorem mapItem_lastUsage (st : StreamState) (item : Item) :
    (Dlp.mapItem st item).2.lastUsage = st.lastUsage ∨
      ∃ chunk, item = .ok chunk ∧ (Dlp.mapItem st item).2.lastUsage = chunk.get? "usage" := by
  cases item with
  | error err => exact .inl rfl
  | ok chunk =>
      have hlast : (Dlp.mapItem st (.ok chunk)).2.lastUsage = (Dlp.noteUsage st chunk).lastUsage := by
        simp only [Dlp.mapItem]
        cases Dlp.choicesOf chunk with
        | none => rfl
        | some choices => exact Dlp.restoreChoices_lastUsage _ _
      rw [hlast]
      unfold Dlp.noteUsage
      split
      · exact .inr ⟨chunk, rfl, rfl⟩
      · exact .inl rfl

section Operation

variable {s s' : State} {o : Oracle} {e : Op} {r : Res e} {al : Allowance} {client : String}
  {body : ChatCompletionRequest}

theorem perform_reports (h : perform s o e = some (r, s')) (he : Asked client body al e)
    (hu : al.Reports s.stream.lastUsage) : al.Reports s'.stream.lastUsage := by
  cases e with
  | openStream session =>
      cases h
      exact nofun
  | mapItem item =>
      cases h
      obtain hsame | ⟨chunk, rfl, hchunk⟩ := mapItem_lastUsage s.stream item
      · dsimp only
        rw [hsame]
        exact hu
      · dsimp only
        rw [hchunk]
        exact he
  | admitReq =>
      simp only [perform, Option.map_eq_some_iff, Prod.mk.injEq] at h
      obtain ⟨r', _, _, rfl⟩ := h
      cases r' <;> exact hu
  | finish row =>
      simp only [perform, Option.some.injEq] at h
      obtain ⟨_, rfl⟩ := h
      split_ifs <;> exact hu
  | panic => cases h
  | observe | audit | flush | cells | swapRecorded | dropGuard =>
      cases h
      exact hu
  | _ =>
      simp only [perform, Option.map_eq_some_iff, Prod.mk.injEq] at h
      obtain ⟨_, _, _, rfl⟩ := h
      exact hu

theorem perform_calls (h : perform s o e = some (r, s')) : s'.handler = s.handler ∧
    s'.body = s.body ∧ s'.accountant = s.accountant ∧
    (s'.tasks = s.tasks ∨ e = .dropGuard ∧ s'.tasks = s.tasks ++ s.guardTasks) := by
  cases e with
  | admitReq =>
      simp only [perform, Option.map_eq_some_iff, Prod.mk.injEq] at h
      obtain ⟨r', _, _, rfl⟩ := h
      cases r' <;> exact ⟨rfl, rfl, rfl, .inl rfl⟩
  | dropGuard =>
      cases h
      exact ⟨rfl, rfl, rfl, .inr ⟨rfl, rfl⟩⟩
  | settle rsv p d =>
      obtain ⟨hframe, -, -, htasks⟩ := perform_settle h
      exact ⟨hframe.handler, hframe.body, hframe.accountant, .inl htasks⟩
  | swapRecorded =>
      cases h
      exact ⟨rfl, rfl, rfl, .inl rfl⟩
  | _ =>
      have hsame := perform_plain h rfl
      exact ⟨hsame.handler, hsame.body, hsame.accountant, .inl hsame.tasks⟩

end Operation

/-! ### One operation of a request -/

section Answers

variable {S : TokenStore} {D : Deployment} {client : String} {body : ChatCompletionRequest}

/-- Modest reports are within the allowance, if those are that no `max_tokens` bounds. -/
theorem reports_of_modest {payload : Json} {usage : Option Json} (h : Modest body payload usage)
    (hcap : payload.get? "max_tokens" = body.maxTokens.map jsonInt)
    (hnone : payload.get? "max_tokens" = none → (allowance D.quota body).Reports usage) :
    (allowance D.quota body).Reports usage := by
  cases hmax : body.maxTokens with
  | none => exact hnone (by rw [hcap, hmax]; rfl)
  | some n =>
      intro p d hpd
      obtain ⟨hp, hd⟩ := h p d hpd
      have hdn : (d.toNat : ℤ) ≤ n.toInt := hd n (by rw [hcap, hmax]; rfl)
      have hcompletion : n.toInt ≤ (allowance D.quota body).completion.toInt := by
        show n.toInt ≤ (max (body.maxTokens.getD D.quota.completionReserveTokens) 0).toInt
        rw [hmax, Wrapping.toInt_max]
        exact le_max_left _ _
      have hprompt : p.toNat ≤ (allowance D.quota body).prompt.toNat :=
        UInt64.le_iff_toNat_le.mp hp
      unfold Allowance.Holds
      omega

/-- What is read off a stream is within the allowance, reported or estimated. -/
theorem holds_usage {al : Allowance} {st : StreamState} {a : Accountant}
    (hu : al.Reports st.lastUsage)
    (hest : upstreamUsage st.lastUsage = none →
      al.Holds (estimateUsage a.requestText st.completionText).1
        (estimateUsage a.requestText st.completionText).2) :
    al.Holds (a.usage st).1 (a.usage st).2.1 := by
  unfold Accountant.usage usageNumbers
  cases husage : upstreamUsage st.lastUsage with
  | none => exact hest husage
  | some pd => exact hu pd.1 pd.2 husage

theorem holds_completionUsage {al : Allowance} {completion : Json} {chain : Inspectors.DlpState}
    (hu : al.Reports (completion.get? "usage"))
    (hest : upstreamUsage (completion.get? "usage") = none →
      al.Holds (completionUsage (restoreFirst D.gateway chain completion)).1
        (completionUsage (restoreFirst D.gateway chain completion)).2.1) :
    al.Holds (completionUsage (restoreFirst D.gateway chain completion)).1
      (completionUsage (restoreFirst D.gateway chain completion)).2.1 := by
  cases husage : upstreamUsage (completion.get? "usage") with
  | none => exact hest husage
  | some pd =>
      unfold completionUsage usageNumbers
      rw [usage_restoreFirst, husage]
      exact hu pd.1 pd.2 husage

variable {day id : String} {now : ℤ} {o : Oracle} {store : S.State}

/-- The counter of the client is within its limit. -/
def Within (S : TokenStore) (D : Deployment) (client day : String) (store : S.State) : Prop :=
  0 ≤ S.tokens store (cTokensKey client day) ∧
    S.tokens store (cTokensKey client day) ≤ D.limit.toInt

theorem newReservation_allowance (id provider model : String) :
    let rsv := D.quota.newReservation id client provider model
      (allowance D.quota body).prompt.toInt64 body.maxTokens
    rsv.promptEst = (allowance D.quota body).prompt.toInt64 ∧
      rsv.completionCap = (allowance D.quota body).completion := by
  refine ⟨?_, rfl⟩
  have h0 : (0 : Int64).toInt = 0 := by decide
  have hprompt := toInt_toInt64_of_lt (allowance D.quota body).prompt_lt
  apply Int64.toInt_inj.mp
  show (max (allowance D.quota body).prompt.toInt64 0).toInt = _
  rw [Wrapping.toInt_max, h0, hprompt]
  omega

/-- An admission keeps the counter within its limit, and reserves the allowance. -/
theorem admit_within (hlimit : 0 ≤ D.limit.toInt) (hday : dayString now = day)
    (hstore : Within S D client day store) (provider model : String)
    (hroom : S.room store (D.reserveOp client body now id provider model)) :
    let r := D.quota.admitReq S.reserve now id client provider model
      (allowance D.quota body).prompt.toInt64 body.maxTokens store
    Within S D client day r.2 ∧ (∀ rsv, r.1 = .ok rsv → (allowance D.quota body).Reserves rsv) ∧
      ∀ msg, r.1 ≠ .error (.backendUnavailable msg) := by
  subst hday
  obtain ⟨hprompt, hcap⟩ := @newReservation_allowance D client body id provider model
  obtain ⟨hafter, hok, herr⟩ := @TokenStore.admitReq_bounded S D.quota store now client
    D.limit D.limited hlimit id provider model _ _ _ rfl hstore.1 hstore.2 hroom
  refine ⟨hafter, fun rsv hrsv => ?_, herr⟩
  obtain ⟨rfl, hsound⟩ := hok rsv hrsv
  exact ⟨hsound, hprompt, hcap⟩

/-- The answers that a request relies on. -/
theorem relied_of_perform {s s' : State} {e : Op} {r : Res e} {call : Call}
    {acc : Option Accountant}
    (h : perform s (fun e => (answer S D now id o store e).1) e = some (r, s'))
    (hasked : Asked client call.body (allowance D.quota call.body) e)
    (hinspect : o e = some r → Inspected D call.draws e r)
    (hmodest : o e = some r → ReportsModestly call.body e r)
    (hrest : o e = some r →
      Unbounded D client call.body call.draws (allowance D.quota call.body) e r)
    (hadm : ∀ c provider model est cap, e = .admitReq c provider model est cap →
      let r := D.quota.admitReq S.reserve now id client provider model
        (allowance D.quota call.body).prompt.toInt64 call.body.maxTokens store
      (∀ rsv, r.1 = .ok rsv → (allowance D.quota call.body).Reserves rsv) ∧
        ∀ msg, r.1 ≠ .error (.backendUnavailable msg))
    (hcells : e = .cells → ∀ a, acc = some a →
      (allowance D.quota call.body).Holds (a.usage s.stream).1 (a.usage s.stream).2.1) :
    Relied D.gateway D.inspectors D.engine D.order call.draws client call.body
      (allowance D.quota call.body) acc e r := by
  cases e with
  | inspect payload c =>
      obtain ⟨r', ho, heq⟩ := Option.map_eq_some_iff.mp h
      cases heq
      exact hinspect ho
  | admitReq c provider model est cap =>
      rw [perform_admitReq_eq] at h
      obtain ⟨r', ho, heq⟩ := Option.map_eq_some_iff.mp h
      obtain ⟨rfl, -⟩ := Prod.mk.inj heq
      obtain ⟨rfl, rfl, rfl⟩ := hasked
      obtain ⟨hok, herr⟩ := hadm _ _ _ _ _ rfl
      have hr := Option.some.inj ho
      cases r' with
      | ok rsv => exact hok rsv hr
      | error err =>
          cases err with
          | quotaExceeded scope limit => trivial
          | backendUnavailable msg => exact herr msg hr
  | chat payload =>
      obtain ⟨r', ho, heq⟩ := Option.map_eq_some_iff.mp h
      cases heq
      cases r with
      | error err => trivial
      | ok completion =>
          obtain ⟨hnone, hest⟩ := hrest ho
          have hreports := reports_of_modest (D := D) (hmodest ho) hasked hnone
          exact fun chain hchain => holds_completionUsage hreports (fun hu => hest hu chain hchain)
  | chatStream payload =>
      obtain ⟨r', ho, heq⟩ := Option.map_eq_some_iff.mp h
      cases heq
      cases r with
      | error err => exact hrest ho
      | ok items =>
          intro item hitem
          cases item with
          | error err => trivial
          | ok chunk =>
              exact reports_of_modest (D := D) (hmodest ho chunk hitem) hasked
                (fun hnone => hrest ho hnone (.ok chunk) hitem)
  | cells =>
      cases h
      exact hcells rfl
  | _ => trivial

theorem answer_within {e : Op} (hlimit : 0 ≤ D.limit.toInt) (hday : dayString now = day)
    (hstore : Within S D client day store) (hasked : Asked client body (allowance D.quota body) e)
    (hroom : ∀ c provider model est cap, e = .admitReq c provider model est cap →
      S.room store (D.reserveOp client body now id provider model)) :
    Within S D client day (answer S D now id o store e).2 := by
  cases e with
  | admitReq c provider model est cap =>
      obtain ⟨rfl, rfl, rfl⟩ := hasked
      exact (admit_within hlimit hday hstore provider model (hroom _ _ _ _ _ rfl)).1
  | settle rsv p d =>
      obtain ⟨h0, hle⟩ := @TokenStore.settle_bounded S store now _ hasked.1 _ _ hasked.2 _
        hstore.1
      exact ⟨h0, hle.trans hstore.2⟩
  | record => exact hasked.elim
  | _ => exact hstore

end Answers

/-! ### The invariant -/

section Invariant

variable {S : TokenStore} {D : Deployment} {client : String}

/-- The programs of a request keep to its allowance. -/
structure Call.Inv (D : Deployment) (client : String) (call : Call) : Prop where
  handler : ∀ p, call.state.handler = some p →
    KeepsTo D.gateway D.inspectors D.engine D.order call.draws client call.body
      (allowance D.quota call.body) none (Answers (allowance D.quota call.body)) p
  body : ∀ p, call.state.body = some p →
    KeepsTo D.gateway D.inspectors D.engine D.order call.draws client call.body
      (allowance D.quota call.body) call.state.accountant (fun _ => True) p
  tasks : ∀ p ∈ call.state.tasks,
    KeepsTo D.gateway D.inspectors D.engine D.order call.draws client call.body
      (allowance D.quota call.body) none (fun _ => True) p
  accountant : ∀ a, call.state.accountant = some a → (allowance D.quota call.body).Backs a
  usage : (allowance D.quota call.body).Reports call.state.stream.lastUsage

theorem Call.Inv.init (D : Deployment) (client requestId : String) (body : ChatCompletionRequest)
    (draws : List (UInt64 × UInt64)) :
    Call.Inv D client ⟨body, draws, Chat.init D.gateway requestId client body⟩ where
  handler p h := by
    cases h
    exact keepsTo_chatCompletions D.metered rfl requestId
  body p h := by cases h
  tasks p h := by cases h
  accountant a h := by cases h
  usage p d h := by cases h

end Invariant

/-! ### One event -/

section Steps

variable {S : TokenStore} {D : Deployment} {client : String} {call : Call}

/-- What a thread asks for keeps to the allowance. -/
theorem Call.Inv.asked (h : call.Inv D client) {t : Thread} {e : Op}
    (hn : call.state.next t = some e) : Asked client call.body (allowance D.quota call.body) e := by
  cases t with
  | handler =>
      obtain ⟨p, hp, hpn⟩ := Option.bind_eq_some_iff.mp hn
      cases p with
      | ret reply => cases hpn
      | op e' k =>
          cases hpn
          exact (h.handler _ hp).1
  | body =>
      obtain ⟨p, hp, hpn⟩ := Option.bind_eq_some_iff.mp hn
      cases p with
      | ret u => cases hpn
      | op e' k =>
          cases hpn
          exact (h.body _ hp).1
  | task i =>
      obtain ⟨p, hp, hpn⟩ := Option.bind_eq_some_iff.mp hn
      cases p with
      | ret u => cases hpn
      | op e' k =>
          cases hpn
          exact (h.tasks _ (List.mem_of_getElem? hp)).1

theorem Call.Inv.dropTask (h : call.Inv D client) {a : Accountant}
    (ha : call.state.accountant = some a)
    (huse : (allowance D.quota call.body).Holds (a.usage call.state.stream).1
      (a.usage call.state.stream).2.1) :
    KeepsTo D.gateway D.inspectors D.engine D.order call.draws client call.body
      (allowance D.quota call.body) none (fun _ => True) (a.dropTask call.state.stream) :=
  keepsTo_dropTask (h.accountant a ha) huse

theorem Call.Inv.guardTasks (h : call.Inv D client)
    (huse : ∀ a, call.state.accountant = some a → (allowance D.quota call.body).Holds
      (a.usage call.state.stream).1 (a.usage call.state.stream).2.1) :
    ∀ p ∈ call.state.guardTasks ++ call.state.bodyTasks,
      KeepsTo D.gateway D.inspectors D.engine D.order call.draws client call.body
        (allowance D.quota call.body) none (fun _ => True) p := by
  intro p hp
  unfold State.guardTasks State.bodyTasks at hp
  cases ha : call.state.accountant with
  | none =>
      rw [ha] at hp
      cases hguard : call.state.guard <;> simp [hguard] at hp
  | some a =>
      rw [ha] at hp
      have hmem : p = a.dropTask call.state.stream := by
        cases hguard : call.state.guard <;> simpa [hguard] using hp
      rw [hmem]
      exact h.dropTask ha (huse a ha)

theorem Call.Inv.perform (h : call.Inv D client) {o : Oracle} {e : Op} {r : Res e} {s' : State}
    (hperform : Chat.perform call.state o e = some (r, s'))
    (hasked : Asked client call.body (allowance D.quota call.body) e)
    (hguard : e = .dropGuard → ∀ a, call.state.accountant = some a →
      (allowance D.quota call.body).Holds (a.usage call.state.stream).1
        (a.usage call.state.stream).2.1) :
    Call.Inv D client { call with state := s' } := by
  obtain ⟨hhandler, hbody, hacc, htasks⟩ := perform_calls hperform
  refine ⟨?_, ?_, ?_, ?_, perform_reports hperform hasked h.usage⟩
  · intro p hp
    exact h.handler p (hhandler ▸ hp)
  · intro p hp
    show KeepsTo _ _ _ _ _ _ _ _ s'.accountant _ p
    rw [hacc]
    exact h.body p (hbody ▸ hp)
  · intro p hp
    obtain hsame | ⟨hdrop, hmore⟩ := htasks
    · exact h.tasks p (hsame ▸ hp)
    · change p ∈ s'.tasks at hp
      rw [hmore] at hp
      rcases List.mem_append.mp hp with hp | hp
      · exact h.tasks p hp
      · exact h.guardTasks (hguard hdrop) p (List.mem_append_left _ hp)
  · intro a ha
    exact h.accountant a (hacc ▸ ha)

theorem Call.Inv.run (h : call.Inv D client) {t : Thread} {o : Oracle}
    (hrelied : ∀ e r s', call.state.next t = some e → Chat.perform call.state o e = some (r, s') →
      ∀ acc, acc = none ∨ acc = call.state.accountant →
        Relied D.gateway D.inspectors D.engine D.order call.draws client call.body
          (allowance D.quota call.body) acc e r)
    (hguard : call.state.next t = some .dropGuard → ∀ a, call.state.accountant = some a →
      (allowance D.quota call.body).Holds (a.usage call.state.stream).1
        (a.usage call.state.stream).2.1) :
    Call.Inv D client { call with state := step call.state (.run t o) } := by
  cases t with
  | handler =>
      cases hh : call.state.handler with
      | none =>
          rw [run_handler_none hh]
          exact h
      | some p =>
          obtain ⟨-, hsame⟩ | ⟨e, k, r, s', rfl, hperform, hstep⟩ := run_handler hh o
          · rw [hsame]
            exact h
          · have hn : call.state.next .handler = some e := by
              unfold State.next
              rw [hh]
              rfl
            have h' := h.perform hperform (h.asked hn) (fun hdrop => hguard (hdrop ▸ hn))
            rw [hstep]
            refine ⟨?_, h'.body, h'.tasks, h'.accountant, h'.usage⟩
            intro p hp
            cases hp
            exact (h.handler _ hh).2 r (hrelied e r s' hn hperform none (.inl rfl))
  | body =>
      cases hb : call.state.body with
      | none =>
          rw [run_body_none hb]
          exact h
      | some p =>
          obtain ⟨-, hsame⟩ | ⟨e, k, r, s', rfl, hperform, hstep⟩ := run_body hb o
          · rw [hsame]
            exact h
          · have hn : call.state.next .body = some e := by
              unfold State.next
              rw [hb]
              rfl
            have h' := h.perform hperform (h.asked hn) (fun hdrop => hguard (hdrop ▸ hn))
            have hacc := (perform_calls hperform).2.2.1
            rw [hstep]
            refine ⟨h'.handler, ?_, h'.tasks, h'.accountant, h'.usage⟩
            intro p hp
            cases hp
            show KeepsTo _ _ _ _ _ _ _ _ s'.accountant _ _
            rw [hacc]
            exact (h.body _ hb).2 r (hrelied e r s' hn hperform _ (.inr rfl))
  | task i =>
      obtain hsame | ⟨l, e, k, ps, r, s', htasks, rfl, hperform, hstep⟩ := run_task call.state i o
      · rw [hsame]
        exact h
      · have hmem : Program.op e k ∈ call.state.tasks := by
          rw [htasks]
          simp
        have hn : call.state.next (.task l.length) = some e := by
          simp only [State.next]
          rw [htasks, List.getElem?_append_right le_rfl, Nat.sub_self]
          rfl
        have h' := h.perform hperform (h.asked hn) (fun hdrop => hguard (hdrop ▸ hn))
        rw [hstep]
        refine ⟨h'.handler, h'.body, ?_, h'.accountant, h'.usage⟩
        intro p hp
        rcases List.mem_or_eq_of_mem_set hp with hp | rfl
        · exact h'.tasks p hp
        · exact (h.tasks _ hmem).2 r (hrelied e r s' hn hperform none (.inl rfl))

theorem Call.Inv.returned (h : call.Inv D client) :
    Call.Inv D client { call with state := step call.state .returned } := by
  simp only [step]
  split
  · rename_i a items hh
    have hanswer : Answers (allowance D.quota call.body) (.sse a items) := h.handler _ hh
    refine ⟨by simp, ?_, h.tasks, ?_, h.usage⟩
    · intro p hp
      cases hp
      exact keepsTo_bodyStream hanswer.1 rfl hanswer.2
    · intro a' ha
      cases ha
      exact hanswer.1
  · exact ⟨by simp, h.body, h.tasks, h.accountant, h.usage⟩
  · exact h

theorem Call.Inv.dropHandler (h : call.Inv D client) :
    Call.Inv D client { call with state := step call.state .dropHandler } := by
  simp only [step]
  split
  · split_ifs
    · exact ⟨by simp, h.body, h.tasks, h.accountant, h.usage⟩
    · exact h
  · exact h

theorem Call.Inv.dropBody (h : call.Inv D client)
    (huse : ∀ a, call.state.accountant = some a → (allowance D.quota call.body).Holds
      (a.usage call.state.stream).1 (a.usage call.state.stream).2.1) :
    Call.Inv D client { call with state := step call.state .dropBody } := by
  simp only [step]
  split
  · split_ifs
    · refine ⟨h.handler, by simp, ?_, h.accountant, h.usage⟩
      intro p hp
      rw [List.append_assoc] at hp
      rcases List.mem_append.mp hp with hp | hp
      · exact h.tasks p hp
      · exact h.guardTasks huse p hp
    · exact h
  · exact h

end Steps

/-! ### Runs -/

section Runs

variable {S : TokenStore} {D : Deployment} {client day : String}

/-- The counter is within its limit, and every request keeps to its allowance. -/
structure Fleet.Inv (D : Deployment) (client day : String) (x : Fleet S) : Prop where
  within : Within S D client day x.store
  calls : ∀ call ∈ x.calls, call.Inv D client

theorem Call.Inv.go {call : Call} (h : call.Inv D client) (hlimit : 0 ≤ D.limit.toInt)
    {store : S.State} (hstore : Within S D client day store) {now : ℤ} (hday : dayString now = day)
    (id : String) {event : RunEvent} (hinspect : call.Answered (Inspected D call.draws) event)
    (hmodest : call.Answered (ReportsModestly call.body) event)
    (hcovered : call.Covered S D client now id store event) :
    Call.Inv D client (call.go S D now id store event).1 ∧
      Within S D client day (call.go S D now id store event).2 := by
  have huse : call.state.ReadsUsage event → ∀ a, call.state.accountant = some a →
      (allowance D.quota call.body).Holds (a.usage call.state.stream).1
        (a.usage call.state.stream).2.1 :=
    fun hreads a ha => holds_usage h.usage (hcovered.estimate hreads a ha)
  cases event with
  | returned => exact ⟨h.returned, hstore⟩
  | dropHandler => exact ⟨h.dropHandler, hstore⟩
  | dropBody => exact ⟨h.dropBody (huse trivial), hstore⟩
  | run t o =>
      constructor
      · refine h.run ?_ (fun hn => huse (.inr hn))
        intro e r s' hn hperform acc hacc
        refine relied_of_perform hperform (h.asked hn) (hinspect e r hn) (hmodest e r hn)
          (hcovered.answers e r hn) ?_ ?_
        · rintro c provider model est cap rfl
          have hroom := hcovered.room t o c provider model est cap rfl hn
          exact (admit_within hlimit hday hstore provider model hroom).2
        · rintro rfl a ha
          rcases hacc with hacc | hacc
          · rw [hacc] at ha
            cases ha
          · exact huse (.inl hn) a (hacc ▸ ha)
      · simp only [Call.go]
        cases hn : call.state.next t with
        | none => exact hstore
        | some e =>
            refine answer_within hlimit hday hstore (h.asked hn) ?_
            rintro c provider model est cap rfl
            exact hcovered.room t o c provider model est cap rfl hn

theorem Fleet.Inv.step {x : Fleet S} (h : x.Inv D client day) (hlimit : 0 ≤ D.limit.toInt)
    {event : FleetEvent} (hlegal : x.Legal S D day event) (hmodest : x.Modest S event)
    (hcovered : x.Covered S D client event) :
    (x.step S D client event).Inv D client day := by
  cases event with
  | arrive requestId body draws =>
      refine ⟨h.within, fun call hcall => ?_⟩
      rcases List.mem_append.mp hcall with hcall | hcall
      · exact h.calls call hcall
      · rw [List.mem_singleton.mp hcall]
        exact Call.Inv.init D client requestId body draws
  | go i now id event =>
      simp only [Fleet.step]
      cases hcall : x.calls[i]? with
      | none => exact h
      | some call =>
          obtain ⟨hinv, hwithin⟩ := (h.calls call (List.mem_of_getElem? hcall)).go hlimit h.within
            hlegal.1 id (hlegal.2 call hcall) (hmodest call hcall) (hcovered call hcall)
          refine ⟨hwithin, fun call' hcall' => ?_⟩
          rcases List.mem_or_eq_of_mem_set hcall' with hcall' | rfl
          · exact h.calls call' hcall'
          · exact hinv
  | lapse key =>
      refine ⟨?_, h.calls⟩
      simp only [Fleet.step]
      cases hlapse : S.lapse key x.store with
      | none => exact h.within
      | some store =>
          show Within S D client day store
          unfold Within
          rw [S.tokens_lapse hlapse]
          exact h.within

theorem Fleet.Inv.empty (hlimit : 0 ≤ D.limit.toInt) :
    Fleet.Inv (S := S) D client day ⟨S.empty, []⟩ := by
  refine ⟨?_, fun call hcall => absurd hcall List.not_mem_nil⟩
  unfold Within
  rw [S.tokens_empty]
  exact ⟨le_rfl, hlimit⟩

/-- **The daily token quota**: in every run of one day whose events keep to what was reserved,
with modest providers, the counter of the client exceeds its limit in no state. -/
theorem client_quota (S : TokenStore) (D : Deployment) (client day : String)
    (events : List FleetEvent) (hlimit : 0 ≤ D.limit.toInt)
    (hlegal : Runs.Along (Fleet.step S D client) (Fleet.Legal S D day) ⟨S.empty, []⟩ events)
    (hmodest : Runs.Along (Fleet.step S D client) (Fleet.Modest S) ⟨S.empty, []⟩ events)
    (hcovered : Runs.Along (Fleet.step S D client) (Fleet.Covered S D client)
      ⟨S.empty, []⟩ events) :
    ∀ pre, pre <+: events →
      S.tokens (Runs.final (Fleet.step S D client) ⟨S.empty, []⟩ pre).store
        (cTokensKey client day) ≤ D.limit.toInt := by
  rintro pre ⟨rest, rfl⟩
  have hinv : (Runs.final (Fleet.step S D client) ⟨S.empty, []⟩ pre).Inv D client day := by
    refine Runs.final_invariant (Q := fun x e => Fleet.Legal S D day x e ∧ Fleet.Modest S x e ∧
      Fleet.Covered S D client x e) ?_ (Fleet.Inv.empty hlimit) ?_
    · rintro x event hx ⟨hl, hm, hc⟩
      exact hx.step hlimit hl hm hc
    · rw [Runs.along_and, Runs.along_and]
      exact ⟨((Runs.along_append ..).mp hlegal).1, ((Runs.along_append ..).mp hmodest).1,
        ((Runs.along_append ..).mp hcovered).1⟩
  exact hinv.within.2

/-! ### A client with 1100 tokens a day -/

/-- A quota of 1100 tokens; a completion without `max_tokens` reserves 1024. -/
def quotaDeployment : Deployment where
  gateway := sampleGateway
  quota := ⟨some 1100, none, none, true, 1024⟩
  limit := 1100
  inspectors := ⟨"off", "high", "off"⟩
  engine := Inspectors.sampleEngine
  order := Dlp.insertionOrder
  metered := rfl
  limited := rfl

/-- A completion of so many tokens. -/
def longCompletion (tokens : UInt64) : Json :=
  .obj [("usage", .obj [("prompt_tokens", .num (.posInt 0)),
    ("completion_tokens", .num (.posInt tokens))])]

/-- A provider that goes on up to the cap, if there is one. -/
def stoppingProvider (free : Except ProviderError Json) (payload : Json) :
    Option (Except ProviderError Json) :=
  match payload.get? "max_tokens" with
  | none => some free
  | some cap => cap.asU64?.map (fun n => .ok (longCompletion n))

/-- An environment with this provider. -/
def stoppingOracle (free : Except ProviderError Json) : Oracle
  | .resolve m _ => some (.ok ("p", m))
  | .inspect payload clientId => processRequestWithClient ⟨"off", "high", "off"⟩
      Inspectors.sampleEngine Dlp.insertionOrder payload (some clientId) []
  | .chat payload => stoppingProvider free payload
  | .recordTokensToday .. => some ()
  | _ => none

/-- One request goes on by so many operations. -/
def goOnFleet (i n : ℕ) (id : String) (free : Except ProviderError Json) : List FleetEvent :=
  List.replicate n (.go i 0 id (.run .handler (stoppingOracle free)))

/-- Two requests at once, each up to its settlement. -/
def cappedRun : List FleetEvent :=
  [.arrive "r" { sampleRequest false with maxTokens := some 60 } [],
    .arrive "s" { sampleRequest false with maxTokens := some 60 } []] ++
  goOnFleet 0 3 "1" (.error (.connection "")) ++ goOnFleet 1 6 "2" (.error (.connection "")) ++
  goOnFleet 0 3 "1" (.error (.connection ""))

/-- One request without `max_tokens`. -/
def uncappedRun : List FleetEvent :=
  .arrive "r" (sampleRequest false) [] :: goOnFleet 0 6 "1" (.ok (longCompletion 5000))

/-- The events of a sample run. -/
def SampleEvent (free : Except ProviderError Json) : FleetEvent → Prop
  | .arrive _ _ draws => draws = []
  | .go _ now _ event => now = 0 ∧ event = .run .handler (stoppingOracle free)
  | .lapse _ => True

theorem sampleEvent_goOnFleet {i n : ℕ} {id : String} {free : Except ProviderError Json} :
    ∀ e ∈ goOnFleet i n id free, SampleEvent free e := by
  intro e he
  rw [List.eq_of_mem_replicate he]
  exact ⟨rfl, rfl⟩

theorem sampleEvent_cappedRun : ∀ e ∈ cappedRun, SampleEvent (.error (.connection "")) e := by
  intro e he
  simp only [cappedRun, List.mem_append, List.mem_cons, List.not_mem_nil, or_false] at he
  rcases he with (((rfl | rfl) | he) | he) | he
  · rfl
  · rfl
  · exact sampleEvent_goOnFleet e he
  · exact sampleEvent_goOnFleet e he
  · exact sampleEvent_goOnFleet e he

theorem sampleEvent_uncappedRun : ∀ e ∈ uncappedRun, SampleEvent (.ok (longCompletion 5000)) e := by
  intro e he
  rcases List.mem_cons.mp he with rfl | he
  · rfl
  · exact sampleEvent_goOnFleet e he

theorem legal_of_sample {free : Except ProviderError Json} {events : List FleetEvent}
    (h : ∀ e ∈ events, SampleEvent free e) :
    Runs.Along (Fleet.step S quotaDeployment client)
      (Fleet.Legal S quotaDeployment (dayString 0)) ⟨S.empty, []⟩ events := by
  refine Runs.Along.of_invariant (I := fun x => ∀ call ∈ x.calls, call.draws = [])
    (Q := fun _ e => SampleEvent free e) ?_ (fun call hcall => absurd hcall List.not_mem_nil)
    (Runs.along_of_forall _ h)
  intro x event hx hevent
  cases event with
  | arrive requestId body draws =>
      refine ⟨trivial, fun call hcall => ?_⟩
      rcases List.mem_append.mp hcall with hcall | hcall
      · exact hx call hcall
      · rw [List.mem_singleton.mp hcall]
        exact hevent
  | go i now id event =>
      obtain ⟨rfl, rfl⟩ := hevent
      refine ⟨⟨rfl, fun call hcall e r _ he => ?_⟩, ?_⟩
      · rw [hx call (List.mem_of_getElem? hcall)]
        cases e with
        | inspect payload c => exact he
        | _ => trivial
      · simp only [Fleet.step]
        cases hcall : x.calls[i]? with
        | none => exact hx
        | some call =>
            intro call' hcall'
            rcases List.mem_or_eq_of_mem_set hcall' with hcall' | rfl
            · exact hx call' hcall'
            · exact hx call (List.mem_of_getElem? hcall)
  | lapse key => exact ⟨trivial, hx⟩

theorem stoppingProvider_ok {free : Except ProviderError Json} {payload completion : Json}
    (h : stoppingProvider free payload = some (.ok completion)) :
    (payload.get? "max_tokens" = none ∧ free = .ok completion) ∨
      ∃ cap n, payload.get? "max_tokens" = some cap ∧ cap.asU64? = some n ∧
        completion = longCompletion n := by
  unfold stoppingProvider at h
  cases hmax : payload.get? "max_tokens" with
  | none =>
      rw [hmax] at h
      exact .inl ⟨rfl, Option.some.inj h⟩
  | some cap =>
      rw [hmax] at h
      obtain ⟨n, hn, heq⟩ := Option.map_eq_some_iff.mp h
      exact .inr ⟨cap, n, rfl, hn, (Except.ok.inj heq).symm⟩

theorem asU64?_jsonInt {n : Int64} {u : UInt64} (h : (jsonInt n).asU64? = some u) :
    (u.toNat : ℤ) = n.toInt := by
  unfold jsonInt at h
  by_cases h0 : 0 ≤ n
  · rw [if_pos h0] at h
    obtain rfl := Option.some.inj h
    have hn : 0 ≤ n.toInt := Int64.le_iff_toInt_le.mp h0
    rw [show (n.toUInt64.toNat : ℤ) = n.toBitVec.toNat from rfl]
    have := BitVec.toInt_eq_toNat_of_msb (x := n.toBitVec) (by
      rw [BitVec.msb_eq_toInt]
      exact decide_eq_false (not_lt.mpr hn))
    exact this.symm
  · rw [if_neg h0] at h
    cases h

theorem modest_of_sample {tokens : UInt64} {free : Except ProviderError Json}
    (hfree : ∀ completion, free = .ok completion → completion = longCompletion tokens)
    {events : List FleetEvent} (h : ∀ e ∈ events, SampleEvent free e) :
    Runs.Along (Fleet.step S quotaDeployment client) (Fleet.Modest S) ⟨S.empty, []⟩ events := by
  refine (Runs.along_of_forall _ h).mono fun x event hevent => ?_
  cases event with
  | arrive requestId body draws => trivial
  | lapse key => trivial
  | go i now id event =>
      obtain ⟨rfl, rfl⟩ := hevent
      intro call hcall e r _ he
      cases e with
      | chat payload =>
          cases r with
          | error err => trivial
          | ok completion =>
              intro p d hpd
              obtain ⟨hnone, hok⟩ | ⟨cap, u, hsome, hcap, rfl⟩ := stoppingProvider_ok he
              · rw [hfree completion hok] at hpd
                cases hpd
                refine ⟨UInt64.zero_le, fun n hn => ?_⟩
                rw [hnone] at hn
                cases hn
              · cases hpd
                refine ⟨UInt64.zero_le, fun n hn => ?_⟩
                obtain rfl := Option.some.inj (hsome.symm.trans hn)
                exact (asU64?_jsonInt hcap).le
      | chatStream payload => cases he
      | _ => trivial

theorem covered_cappedRun : Runs.Along (Fleet.step TokenStore.inMemory quotaDeployment "c")
    (Fleet.Covered TokenStore.inMemory quotaDeployment "c")
    ⟨TokenStore.inMemory.empty, []⟩ cappedRun := by
  have hstates : Runs.Along (Fleet.step TokenStore.inMemory quotaDeployment "c")
      (fun x _ => ∀ call ∈ x.calls, call.state.accountant.isNone ∧
        TokenStore.inMemory.tokens x.store (cTokensKey "c" (dayString 0)) +
          (quotaDeployment.reserveOp "c" call.body 0 "" "" "").reserve < 2 ^ 63)
      ⟨TokenStore.inMemory.empty, []⟩ cappedRun := by decide
  refine ((Runs.along_and _ _).mpr ⟨hstates, Runs.along_of_forall _ sampleEvent_cappedRun⟩).mono
    fun x event hevent => ?_
  cases event with
  | arrive requestId body draws => trivial
  | lapse key => trivial
  | go i now id event =>
      obtain ⟨hcalls, rfl, rfl⟩ := hevent
      intro call hcall
      obtain ⟨hacc, hfit⟩ := hcalls call (List.mem_of_getElem? hcall)
      refine ⟨fun _ _ _ _ _ _ _ _ _ => hfit, ?_, fun _ a ha => ?_⟩
      · intro e r _ he
        cases e with
        | chat payload =>
            cases r with
            | error err => trivial
            | ok completion =>
                obtain ⟨_, hok⟩ | ⟨cap, u, hsome, -, rfl⟩ := stoppingProvider_ok he
                · cases hok
                · refine ⟨fun hnone => ?_, fun hnone => ?_⟩
                  · rw [hsome] at hnone
                    cases hnone
                  · cases hnone
        | chatStream payload => cases he
        | _ => trivial
      · rw [ha] at hacc
        cases hacc

/-- Two requests at once that are charged 60 tokens each. -/
theorem client_quota_capped :
    TokenStore.inMemory.tokens (Runs.final (Fleet.step TokenStore.inMemory quotaDeployment "c")
      ⟨TokenStore.inMemory.empty, []⟩ cappedRun).store (cTokensKey "c" (dayString 0)) ≤ 1100 :=
  client_quota TokenStore.inMemory quotaDeployment "c" (dayString 0) cappedRun (by decide)
    (legal_of_sample sampleEvent_cappedRun)
    (@modest_of_sample _ _ 0 _ (fun _ hok => by cases hok) _ sampleEvent_cappedRun)
    covered_cappedRun cappedRun List.prefix_rfl

/-- Without `max_tokens` the provider knows no cap, and the settlement takes what it reports. -/
theorem quota_exceeded :
    ¬ ∀ (S : TokenStore) (D : Deployment) (client day : String) (events : List FleetEvent),
      0 ≤ D.limit.toInt →
      Runs.Along (Fleet.step S D client) (Fleet.Legal S D day) ⟨S.empty, []⟩ events →
      Runs.Along (Fleet.step S D client) (Fleet.Modest S) ⟨S.empty, []⟩ events →
      ∀ pre, pre <+: events →
        S.tokens (Runs.final (Fleet.step S D client) ⟨S.empty, []⟩ pre).store
          (cTokensKey client day) ≤ D.limit.toInt := by
  intro h
  have hall := h TokenStore.inMemory quotaDeployment "c" (dayString 0) uncappedRun (by decide)
    (legal_of_sample sampleEvent_uncappedRun)
    (@modest_of_sample _ _ 5000 _ (fun _ hok => (Except.ok.inj hok).symm) _
      sampleEvent_uncappedRun) uncappedRun List.prefix_rfl
  exact absurd hall (by decide)

end Runs

end Chat

end FirewallLLM
