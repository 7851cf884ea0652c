import FirewallLLM.AuditOnce
import FirewallLLM.ChargeOnce

/-! # What a request feeds to the router

The usage of a request is charged, then fed to the router, and then told by its row, each at its
own place of the handler or of the terminal chunk.  A disconnect and a failed call are charged and
never fed.

`Mirrored` says of a request that it is fed at most once, with what was charged before, and that a
row with the code `ok` says what was fed.  `Feeding` is the invariant: the handler or the body
carries the usage from one place to the next, and nobody else feeds.  It holds whatever the
environment answers, as long as the reservations are for the providers that they were asked
for. -/

namespace FirewallLLM.Chat

open Dlp (Item StreamState StreamRestore Text)

variable {α β : Type}

/-! ### What the log says -/

/-- The provider and the tokens of a charge. -/
def Op.bill? : Op → Option (String × Int64)
  | .settle rsv prompt completion => some (rsv.provider, prompt + completion)
  | .record _ provider _ prompt completion => some (provider, prompt + completion)
  | _ => none

/-- What is fed to the router. -/
def Op.fed? : Op → Option (String × Int64)
  | .recordTokensToday provider tokens => some (provider, tokens)
  | _ => none

/-- What a row says was served. -/
def Row.served? (row : Row) : Option (String × Int64) :=
  if row.code = "ok" then some (row.provider, row.prompt + row.completion) else none

def Op.served? : Op → Option (String × Int64)
  | .audit row | .finish row => row.served?
  | _ => none

def Entry.bill? : Entry → Option (String × Int64)
  | .settled rsv prompt completion => some (rsv.provider, prompt + completion)
  | .recorded _ provider _ prompt completion => some (provider, prompt + completion)
  | _ => none

def Entry.fed? : Entry → Option (String × Int64)
  | .routed provider tokens => some (provider, tokens)
  | _ => none

def Entry.served? : Entry → Option (String × Int64)
  | .audited row => row.served?
  | _ => none

/-- The charges of a request, in order. -/
def State.bills (s : State) : List (String × Int64) := s.log.filterMap Entry.bill?

/-- What a request has fed to the router. -/
def State.fed (s : State) : List (String × Int64) := s.log.filterMap Entry.fed?

/-- What its rows say was served. -/
def State.served (s : State) : List (String × Int64) := s.log.filterMap Entry.served?

/-- The router has been fed at most once, with what was charged, and a row that says that the
request was served says what was fed. -/
inductive Mirrored (s : State) : Prop where
  | unfed (fed : s.fed = []) (served : s.served = []) : Mirrored s
  | unserved {x : String × Int64} (billed : x ∈ s.bills) (fed : s.fed = [x])
      (served : s.served = []) : Mirrored s
  | served {x : String × Int64} (billed : x ∈ s.bills) (fed : s.fed = [x])
      (served : s.served = [x]) : Mirrored s

/-! ### Programs that feed -/

/-- How far the usage of a request has come with the program that carries it: the flag `recorded`
has been set, it has been charged, it has been fed, its row has been written. -/
inductive Leg where
  | fresh
  | claimed
  | billed (x : String × Int64)
  | fed (x : String × Int64)
  | told

/-- Neither feeds nor tells that the request was served. -/
def Op.mute (e : Op) : Prop := e.fed? = none ∧ e.served? = none

/-- The program feeds no more, and ends with a value with `Q`. -/
def Quits (Q : α → Prop) (p : Prog α) : Prop := p.Meets (fun _ _ => True) Op.mute Q

/-- The program carries the usage from one leg to the next, on its own until it has written its
row, and ends with a value as `Q` allows. -/
def Feeds (Q : Leg → α → Prop) : Prog α → Leg → Prop
  | .ret a, leg => Q leg a
  | .op .swapRecorded k, leg => leg = .fresh ∧ Feeds Q (k false) .claimed
  | .op (.settle rsv p d) k, leg => (leg = .fresh ∨ leg = .claimed) ∧
      Feeds Q (k ()) (.billed (rsv.provider, p + d))
  | .op (.record _ provider _ p d) k, leg => (leg = .fresh ∨ leg = .claimed) ∧
      Feeds Q (k ()) (.billed (provider, p + d))
  | .op (.recordTokensToday provider n) k, leg =>
      leg = .billed (provider, n) ∧ Feeds Q (k ()) (.fed (provider, n))
  | .op (.finish row) k, leg => (∀ x ∈ row.served?, leg = .fed x) ∧ Quits (Q .told) (k ())
  | .op (.audit row) k, _ => row.served? = none ∧ Quits (Q .told) (k ())
  | .op (.admitReq _ provider ..) k, leg =>
      ∀ r, (∀ rsv, r = .ok rsv → rsv.provider = provider) → Feeds Q (k r) leg
  | .op .dropGuard _, _ => False
  | .op _ k, leg => ∀ r, Feeds Q (k r) leg

/-- The accountant of a metered request, with a reservation for its own provider, if any. -/
structure Accountant.Names (a : Accountant) : Prop where
  metering : a.metering = true
  provider : ∀ rsv ∈ a.reservation, rsv.provider = a.providerName

/-- What the handler may end with: a stream is opened before anything is charged. -/
def Hands (leg : Leg) (reply : Reply) : Prop :=
  ∀ a items, reply = .sse a items → leg = .fresh ∧ a.Names

/-- The body may end anyhow. -/
def Anyhow (_ : Leg) (_ : Unit) : Prop := True

theorem hands_json (leg : Leg) (status : ℕ) (out : Json) : Hands leg (.json status out) := by
  rintro a items ⟨⟩

/-! ### The workers of a stream -/

namespace Accountant

variable {a : Accountant} {Q : Leg → α → Prop} {leg : Leg}

theorem Names.feeds_settleOrRecord (h : a.Names) (hleg : leg = .fresh ∨ leg = .claimed)
    (prompt done : UInt64) {f : Unit → Prog α}
    (hf : Feeds Q (f ()) (.billed (a.providerName, prompt.toInt64 + done.toInt64))) :
    Feeds Q (a.settleOrRecord prompt done >>= f) leg := by
  unfold settleOrRecord
  rw [if_pos h.metering]
  cases hrsv : a.reservation with
  | none => exact ⟨hleg, hf⟩
  | some rsv =>
      rw [← h.provider rsv hrsv] at hf
      exact ⟨hleg, hf⟩

/-- The row of an accountant says what was fed. -/
theorem served?_row (a : Accountant) (code : String) (prompt done : Int64) (text : Text)
    (source : String) {x : String × Int64}
    (hx : x ∈ (a.row code prompt done text source).served?) :
    x = (a.providerName, prompt + done) := by
  unfold Row.served? row at hx
  split_ifs at hx
  · exact (Option.some.inj hx).symm
  · cases hx

theorem Names.feeds_terminal (h : a.Names) : Feeds Anyhow a.terminal .fresh := by
  intro st
  refine ⟨rfl, ?_⟩
  refine h.feeds_settleOrRecord (.inr rfl) _ _ ⟨rfl, fun st' => ⟨fun x hx => ?_, ?_⟩⟩
  · exact congrArg Leg.fed (served?_row a _ _ _ _ _ hx).symm
  · -- the metric, the guard and the last event
    exact ⟨⟨rfl, rfl⟩, fun _ _ => ⟨⟨rfl, rfl⟩, fun _ _ => ⟨⟨rfl, rfl⟩, fun _ _ => trivial⟩⟩⟩

theorem Names.feeds_bodyStream (h : a.Names) (items : List Item) :
    Feeds Anyhow (a.bodyStream items) .fresh := by
  induction items with
  | nil =>
      intro _ flushed
      show Feeds Anyhow (sendFlushed flushed >>= fun _ => a.terminal) .fresh
      unfold sendFlushed
      split_ifs
      · exact h.feeds_terminal
      · exact fun _ => h.feeds_terminal
  | cons item items ih =>
      intro _ event
      cases item with
      | error err => exact fun _ _ => ih
      | ok chunk => exact fun _ => ih

theorem quits_dropTask (a : Accountant) (st : StreamState) :
    Quits (fun _ => True) (a.dropTask st) := by
  have hcode : (if st.streamError then "upstream_error" else "cancelled") ≠ "ok" := by
    cases st.streamError <;> decide
  have hrest : ∀ text source, Quits (fun _ => True) (finish (a.row
      (if st.streamError then "upstream_error" else "cancelled") (a.usage st).1.toInt64
      (a.usage st).2.1.toInt64 text source)) :=
    fun text source => ⟨⟨rfl, if_neg hcode⟩, fun _ _ => trivial⟩
  refine ⟨⟨rfl, rfl⟩, fun recorded _ => ?_⟩
  cases recorded with
  | true => exact hrest _ _
  | false =>
      refine Program.Meets.bind (Q := fun _ => True) ?_ fun _ _ => hrest _ _
      unfold settleOrRecord
      split_ifs
      · cases a.reservation with
        | none => exact ⟨⟨rfl, rfl⟩, fun _ _ => trivial⟩
        | some rsv => exact ⟨⟨rfl, rfl⟩, fun _ _ => trivial⟩
      · trivial

end Accountant

/-! ### The handler -/

section Handler

variable {g : Gateway} {a : Accountant}

theorem feeds_refused (row : Row) (err : ApiError) (hrow : row.served? = none) (leg : Leg) :
    Feeds Hands (finish row >>= fun _ => .ret (Reply.error err)) leg := by
  refine ⟨fun x hx => ?_, hands_json _ _ _⟩
  rw [hrow] at hx
  cases hx

theorem served?_row_of_ne {code : String} (hcode : code ≠ "ok") (prompt done : Int64) (text : Text)
    (source : String) : (a.row code prompt done text source).served? = none := if_neg hcode

theorem feeds_settleFailed {α : Type} {Q : Leg → α → Prop} (promptEst : UInt64)
    {f : Unit → Prog α} (hf : ∀ leg, Feeds Q (f ()) leg) :
    Feeds Q (settleFailed a promptEst >>= f) .fresh := by
  unfold settleFailed
  split_ifs
  · cases a.reservation with
    | none => exact hf _
    | some rsv => exact ⟨.inl rfl, hf _⟩
  · exact hf _

theorem feeds_streamResponse (h : a.Names) (payload : Json) (session : StreamRestore) :
    Feeds Hands (streamResponse a payload session) .fresh := by
  intro res
  cases res with
  | ok items =>
      intro _ a' items' heq
      cases heq
      exact ⟨rfl, h.metering, h.provider⟩
  | error err =>
      refine feeds_settleFailed _ fun leg => ?_
      exact fun _ => feeds_refused _ _ (served?_row_of_ne (by decide) _ _ _ _) leg

theorem feeds_chatResponse (h : a.Names) (requested concrete : String) (payload : Json)
    (chain : Inspectors.DlpState) (promptEst : UInt64) :
    Feeds Hands (chatResponse g a requested concrete payload chain promptEst) .fresh := by
  intro res
  cases res with
  | ok completion =>
      simp only [Program.bind]
      cases tagRouted requested concrete completion with
      | none => exact fun r => r.elim
      | some completion =>
          intro _
          refine h.feeds_settleOrRecord (.inl rfl) _ _ ⟨rfl, fun x hx => ?_, hands_json _ _ _⟩
          exact congrArg Leg.fed (Accountant.served?_row a _ _ _ _ _ hx).symm
  | error err =>
      refine feeds_settleFailed _ fun leg => ?_
      exact fun _ => feeds_refused _ _ (served?_row_of_ne (by decide) _ _ _ _) leg

theorem feeds_serve (h : a.Names) (body : ChatCompletionRequest) (concrete : String)
    (payload : Json) (chain : Inspectors.DlpState) (promptEst : UInt64) :
    Feeds Hands (serve g a body concrete payload chain promptEst) .fresh := by
  unfold serve
  split_ifs
  · exact feeds_streamResponse h payload _
  · exact feeds_chatResponse h body.model concrete payload chain promptEst

theorem feeds_audited {row : Row} (hrow : row.served? = none) (err : ApiError) :
    Feeds Hands (audit row >>= fun _ => .ret (Reply.error err)) .fresh :=
  ⟨hrow, hands_json _ _ _⟩

theorem feeds_admission (hg : g.metering = true) (hm : a.metering = true)
    (hrsv : a.reservation = none) (body : ChatCompletionRequest) (concrete : String)
    (payload : Json) (chain : Inspectors.DlpState) :
    Feeds Hands (admission g a body concrete payload chain) .fresh := by
  unfold admission
  rw [if_pos hg]
  intro res hres
  cases res with
  | ok rsv =>
      refine feeds_serve (a := { a with reservation := some rsv }) ⟨hm, fun rsv' heq => ?_⟩ ..
      rw [← Option.some.inj heq]
      exact hres rsv rfl
  | error err =>
      cases err with
      | quotaExceeded scope limit =>
          exact fun _ => feeds_audited (served?_row_of_ne (by decide) _ _ _ _) _
      | backendUnavailable msg =>
          simp only [Program.bind]
          by_cases hclosed : g.backendFailClosed = true
          · rw [if_pos hclosed]
            exact fun _ => feeds_audited (served?_row_of_ne (by decide) _ _ _ _) _
          · rw [if_neg hclosed]
            refine feeds_serve ⟨hm, fun rsv heq => ?_⟩ ..
            rw [hrsv] at heq
            cases heq

theorem feeds_chatCompletions (hg : g.metering = true) (requestId clientId : String)
    (body : ChatCompletionRequest) :
    Feeds Hands (chatCompletions g requestId clientId body) .fresh := by
  intro res
  cases res with
  | error err =>
      cases err with
      | blocked message => exact fun _ => feeds_audited (served?_row_of_ne (by decide) _ _ _ _) _
      | budgetExhausted message =>
          exact fun _ => feeds_audited (served?_row_of_ne (by decide) _ _ _ _) _
  | ok target =>
      obtain ⟨providerName, concrete⟩ := target
      simp only [Program.bind]
      cases validate g body with
      | some err => exact hands_json _ _ _
      | none =>
          by_cases hp : providerName ∉ g.providers
          · simp only [if_pos hp]
            exact fun _ => hands_json _ _ _
          · simp only [if_neg hp]
            intro out
            simp only [Program.bind]
            cases out.result with
            | error err =>
                exact fun _ => feeds_audited (served?_row_of_ne (by decide) _ _ _ _) _
            | ok chain => exact feeds_admission hg hg rfl ..

end Handler

/-! ### One operation -/

section Operation

variable {s s' : State} {o : Oracle} {e : Op} {r : Res e}

theorem perform_log (h : perform s o e = some (r, s')) :
    (s'.log = s.log ∧ e.bill? = none ∧ e.fed? = none) ∨
      ∃ entry, s'.log = s.log ++ [entry] ∧ entry.bill? = e.bill? ∧ entry.fed? = e.fed? ∧
        entry.served? = e.served? := by
  cases e with
  | admitReq =>
      simp only [perform, Option.map_eq_some_iff, Prod.mk.injEq] at h
      obtain ⟨r', _, _, rfl⟩ := h
      cases r' with
      | ok rsv => exact .inr ⟨.admitted rsv, rfl, rfl, rfl, rfl⟩
      | error err => exact .inl ⟨rfl, rfl, rfl⟩
  | finish row =>
      rw [perform_finish h]
      split_ifs
      · exact .inl ⟨rfl, rfl, rfl⟩
      · exact .inr ⟨.audited row, rfl, rfl, rfl, rfl⟩
  | settle | record | recordTokensToday | send =>
      simp only [perform, Option.map_eq_some_iff, Prod.mk.injEq] at h
      obtain ⟨_, _, _, rfl⟩ := h
      exact .inr ⟨_, rfl, rfl, rfl, rfl⟩
  | observe | audit =>
      cases h
      exact .inr ⟨_, rfl, rfl, rfl, rfl⟩
  | resolve | chat | chatStream | nextItem | inspect =>
      simp only [perform, Option.map_eq_some_iff, Prod.mk.injEq] at h
      obtain ⟨_, _, _, rfl⟩ := h
      exact .inl ⟨rfl, rfl, rfl⟩
  | panic => cases h
  | openStream | mapItem | flush | cells | swapRecorded | dropGuard =>
      cases h
      exact .inl ⟨rfl, rfl, rfl⟩

theorem filterMap_snoc {ε γ : Type} (f : ε → Option γ) (log : List ε) (entry : ε) :
    (log ++ [entry]).filterMap f = log.filterMap f ++ (f entry).toList := by
  rw [List.filterMap_append]
  cases h : f entry <;> simp [h]

theorem perform_lists (h : perform s o e = some (r, s')) :
    s'.bills = s.bills ++ e.bill?.toList ∧ s'.fed = s.fed ++ e.fed?.toList ∧
      (s'.served = s.served ∨ s'.served = s.served ++ e.served?.toList) := by
  unfold State.bills State.fed State.served
  rcases perform_log h with ⟨hlog, hbill, hfed⟩ | ⟨entry, hlog, hbill, hfed, hserved⟩
  · rw [hlog, hbill, hfed]
    simp
  · simp only [hlog, filterMap_snoc, hbill, hfed, hserved]
    simp

end Operation

/-! ### The invariant -/

/-- What the log says of a request whose usage has come this far. -/
def Leg.Shows (s : State) : Leg → Prop
  | .fresh => s.fed = [] ∧ s.served = [] ∧ s.recorded = false
  | .claimed => s.fed = [] ∧ s.served = []
  | .billed x => x ∈ s.bills ∧ s.fed = [] ∧ s.served = []
  | .fed x => x ∈ s.bills ∧ s.fed = [x] ∧ s.served = []
  | .told => Mirrored s

/-- Who carries the usage of a request: the handler, the body that it has opened, or nobody any
more. -/
inductive Feeding (s : State) : Prop where
  | handling {p : Prog Reply} {leg : Leg} (handler : s.handler = some p)
      (feeds : Feeds Hands p leg) (shows_ : leg.Shows s) (body : s.body = none)
      (tasks : s.tasks = []) : Feeding s
  | streaming {b : Prog Unit} {leg : Leg} (handler : s.handler = none) (body : s.body = some b)
      (feeds : Feeds Anyhow b leg) (shows_ : leg.Shows s) (tasks : s.tasks = []) : Feeding s
  | passed (handler : ∀ p, s.handler = some p → Quits (Hands .told) p)
      (workers : ∀ p ∈ s.body.toList ++ s.tasks, Quits (fun _ => True) p)
      (mirrored : Mirrored s) : Feeding s

section Events

variable {s s' : State} {o : Oracle} {e : Op} {r : Res e} {leg : Leg}

theorem Leg.Shows.mirrored (h : leg.Shows s) : Mirrored s := by
  cases leg with
  | fresh => exact .unfed h.1 h.2.1
  | claimed => exact .unfed h.1 h.2
  | billed x => exact .unfed h.2.1 h.2.2
  | fed x => exact .unserved h.1 h.2.1 h.2.2
  | told => exact h

theorem Feeding.mirrored (h : Feeding s) : Mirrored s := by
  cases h with
  | handling _ _ hshows => exact hshows.mirrored
  | streaming _ _ _ hshows => exact hshows.mirrored
  | passed _ _ hmirrored => exact hmirrored

theorem Mirrored.mono (h : Mirrored s) (hbills : ∀ x ∈ s.bills, x ∈ s'.bills)
    (hfed : s'.fed = s.fed) (hserved : s'.served = s.served) : Mirrored s' := by
  cases h with
  | unfed hf hs => exact .unfed (hfed.trans hf) (hserved.trans hs)
  | unserved hx hf hs => exact .unserved (hbills _ hx) (hfed.trans hf) (hserved.trans hs)
  | served hx hf hs => exact .served (hbills _ hx) (hfed.trans hf) (hserved.trans hs)

theorem Leg.Shows.mono (h : leg.Shows s) (hbills : ∀ x ∈ s.bills, x ∈ s'.bills)
    (hfed : s'.fed = s.fed) (hserved : s'.served = s.served) (hrec : s'.recorded = s.recorded) :
    leg.Shows s' := by
  cases leg with
  | fresh => exact ⟨hfed.trans h.1, hserved.trans h.2.1, hrec.trans h.2.2⟩
  | claimed => exact ⟨hfed.trans h.1, hserved.trans h.2⟩
  | billed x => exact ⟨hbills x h.1, hfed.trans h.2.1, hserved.trans h.2.2⟩
  | fed x => exact ⟨hbills x h.1, hfed.trans h.2.1, hserved.trans h.2.2⟩
  | told => exact Mirrored.mono h hbills hfed hserved

theorem perform_mute (h : perform s o e = some (r, s')) (he : e.mute) :
    (∀ x ∈ s.bills, x ∈ s'.bills) ∧ s'.fed = s.fed ∧ s'.served = s.served := by
  obtain ⟨hbills, hfed, hserved⟩ := perform_lists h
  rw [he.1, Option.toList_none, List.append_nil] at hfed
  rw [he.2, Option.toList_none, List.append_nil, or_self] at hserved
  exact ⟨fun x hx => hbills ▸ List.mem_append_left _ hx, hfed, hserved⟩

/-- Reservations are for the provider that they are asked for. -/
def Honest (o : Oracle) : Prop :=
  ∀ c provider model est cap rsv, o (.admitReq c provider model est cap) = some (.ok rsv) →
    rsv.provider = provider

theorem Leg.Shows.charge {x : String × Int64} (hleg : leg = .fresh ∨ leg = .claimed)
    (h : leg.Shows s) (hperform : perform s o e = some (r, s')) (hmute : e.mute)
    (hx : e.bill? = some x) : (Leg.billed x).Shows s' := by
  obtain ⟨-, hfed, hserved⟩ := perform_mute hperform hmute
  have hbills := (perform_lists hperform).1
  have hunfed : s.fed = [] ∧ s.served = [] := by
    rcases hleg with rfl | rfl
    · exact ⟨h.1, h.2.1⟩
    · exact h
  refine ⟨?_, hfed.trans hunfed.1, hserved.trans hunfed.2⟩
  rw [hbills, hx]
  exact List.mem_append_right _ (List.mem_singleton_self x)

theorem Leg.Shows.still (h : leg.Shows s) (hperform : perform s o e = some (r, s'))
    (hmute : e.mute) (hswap : e ≠ .swapRecorded) (hguard : e ≠ .dropGuard) : leg.Shows s' := by
  obtain ⟨hbills, hfed, hserved⟩ := perform_mute hperform hmute
  exact h.mono hbills hfed hserved (perform_still hperform hswap hguard).recorded

/-- **One operation of the program that carries the usage**: it carries it on, or has written its
row. -/
theorem Feeds.perform {Q : Leg → α → Prop} {k : Res e → Prog α} (h : Feeds Q (.op e k) leg)
    (hshows : leg.Shows s) (hhonest : Honest o) (hperform : perform s o e = some (r, s')) :
    e ≠ .dropGuard ∧ ((∃ leg', Feeds Q (k r) leg' ∧ leg'.Shows s') ∨
      Quits (Q .told) (k r) ∧ Mirrored s') := by
  obtain ⟨hbills, hfed, hserved⟩ := perform_lists hperform
  cases e with
  | dropGuard => exact h.elim
  | swapRecorded =>
      obtain ⟨rfl, hk⟩ := h
      obtain ⟨hnone, hnothing, hrec⟩ := hshows
      cases hperform
      rw [hrec]
      exact ⟨by simp, .inl ⟨_, hk, hnone, hnothing⟩⟩
  | settle rsv p d =>
      obtain ⟨hleg, hk⟩ := h
      exact ⟨by simp, .inl ⟨_, hk, hshows.charge hleg hperform ⟨rfl, rfl⟩ rfl⟩⟩
  | record c provider m p d =>
      obtain ⟨hleg, hk⟩ := h
      exact ⟨by simp, .inl ⟨_, hk, hshows.charge hleg hperform ⟨rfl, rfl⟩ rfl⟩⟩
  | recordTokensToday provider n =>
      obtain ⟨rfl, hk⟩ := h
      obtain ⟨hbill, hnone, hnothing⟩ := hshows
      refine ⟨by simp, .inl ⟨_, hk, ?_, ?_, ?_⟩⟩
      · rw [hbills]
        exact List.mem_append_left _ hbill
      · rw [hfed, hnone]
        rfl
      · rw [hnothing] at hserved
        exact hserved.elim id id
  | finish row =>
      obtain ⟨hrow, hk⟩ := h
      refine ⟨by simp, .inr ⟨hk, ?_⟩⟩
      cases hx : row.served? with
      | none =>
          refine hshows.mirrored.mono (fun y hy => ?_) (hfed.trans (List.append_nil _)) ?_
          · rw [hbills]
            exact List.mem_append_left _ hy
          · simpa [Op.served?, hx] using hserved
      | some x =>
          obtain rfl := hrow x hx
          obtain ⟨hbill, hone, hnothing⟩ := hshows
          have hbill' : x ∈ s'.bills := hbills ▸ List.mem_append_left _ hbill
          have hone' : s'.fed = [x] := hfed.trans ((List.append_nil _).trans hone)
          rcases hserved with hsame | hplus
          · exact .unserved hbill' hone' (hsame.trans hnothing)
          · refine .served hbill' hone' ?_
            rw [hplus, hnothing, Op.served?, hx]
            rfl
  | audit row =>
      obtain ⟨hrow, hk⟩ := h
      obtain ⟨hmono, hsame, hnothing⟩ := perform_mute hperform ⟨rfl, hrow⟩
      exact ⟨by simp, .inr ⟨hk, hshows.mirrored.mono hmono hsame hnothing⟩⟩
  | admitReq c provider m est cap =>
      refine ⟨by simp, .inl ⟨leg, h r ?_, hshows.still hperform ⟨rfl, rfl⟩ (by simp) (by simp)⟩⟩
      rintro rsv rfl
      obtain ⟨r', hr, heq⟩ := Option.map_eq_some_iff.mp hperform
      cases heq
      exact hhonest _ _ _ _ _ _ hr
  | _ =>
      exact ⟨by simp, .inl ⟨leg, h r, hshows.still hperform ⟨rfl, rfl⟩ (by simp) (by simp)⟩⟩

theorem Quits.perform {Q : α → Prop} {k : Res e → Prog α} (h : Quits Q (.op e k))
    (hmirrored : Mirrored s) (hperform : perform s o e = some (r, s')) :
    Quits Q (k r) ∧ Mirrored s' := by
  obtain ⟨hmono, hfed, hserved⟩ := perform_mute hperform h.1
  exact ⟨h.2 r trivial, hmirrored.mono hmono hfed hserved⟩

theorem quits_spawned (s : State) :
    (∀ p ∈ s.guardTasks, Quits (fun _ => True) p) ∧ ∀ p ∈ s.bodyTasks, Quits (fun _ => True) p := by
  constructor
  · unfold State.guardTasks
    split
    · rename_i a _ _
      simpa using a.quits_dropTask s.stream
    · simp
  · unfold State.bodyTasks
    split
    · rename_i a _
      simpa using a.quits_dropTask s.stream
    · simp

theorem tasks_of_perform (h : perform s o e = some (r, s'))
    (ht : ∀ p ∈ s.tasks, Quits (fun _ => True) p) : ∀ p ∈ s'.tasks, Quits (fun _ => True) p := by
  rcases (perform_calls h).2.2.2 with hsame | ⟨-, hplus⟩
  · rw [hsame]
    exact ht
  · rw [hplus]
    exact List.forall_mem_append.mpr ⟨ht, (quits_spawned s).1⟩

theorem Mirrored.congr (h : Mirrored s) (hlog : s'.log = s.log) : Mirrored s' := by
  refine h.mono (fun x hx => ?_) ?_ ?_
  · unfold State.bills
    rwa [hlog]
  · unfold State.fed
    rw [hlog]
  · unfold State.served
    rw [hlog]

theorem Leg.Shows.congr (h : leg.Shows s) (hlog : s'.log = s.log)
    (hrec : s'.recorded = s.recorded) : leg.Shows s' := by
  refine h.mono (fun x hx => ?_) ?_ ?_ hrec
  · unfold State.bills
    rwa [hlog]
  · unfold State.fed
    rw [hlog]
  · unfold State.served
    rw [hlog]

/-- The handler that carries the usage goes on, answers or is dropped. -/
theorem Feeding.step_handling {p : Prog Reply} (hh : s.handler = some p)
    (hfeeds : Feeds Hands p leg) (hshows : leg.Shows s) (hb : s.body = none) (ht : s.tasks = [])
    (ev : RunEvent) (hhonest : ∀ t o, ev = .run t o → Honest o) : Feeding (step s ev) := by
  have hgone : Feeding { s with handler := none } := by
    refine .passed (by simp) ?_ (hshows.mirrored.congr rfl)
    simp [hb, ht]
  rcases idle_of_no_worker hb ht ev with ⟨hidle, -⟩ | ⟨o, rfl⟩ | rfl | rfl
  · rw [hidle]
    exact .handling hh hfeeds hshows hb ht
  · rcases run_handler hh o with ⟨-, hstep⟩ | ⟨e, k, r, s', rfl, hperform, hstep⟩
    · rw [hstep]
      exact .handling hh hfeeds hshows hb ht
    · obtain ⟨hguard, hgo⟩ := hfeeds.perform hshows (hhonest _ _ rfl) hperform
      obtain ⟨-, hbody, -, htasks⟩ := perform_calls hperform
      have htasks : s'.tasks = [] := by
        rcases htasks with hsame | ⟨heq, -⟩
        · exact hsame.trans ht
        · exact absurd heq hguard
      rw [hstep]
      rcases hgo with ⟨leg', hk, hshows'⟩ | ⟨hk, hmirrored⟩
      · exact .handling rfl hk (hshows'.congr rfl rfl) (hbody.trans hb) htasks
      · refine .passed ?_ ?_ (hmirrored.congr rfl)
        · rintro p ⟨⟩
          exact hk
        · simp [hbody, hb, htasks]
  · simp only [step, hh]
    cases p with
    | op e k => exact .handling hh hfeeds hshows hb ht
    | ret reply =>
        cases reply with
        | json status out => exact hgone
        | sse a items =>
            obtain ⟨rfl, hnames⟩ := hfeeds a items rfl
            exact .streaming rfl rfl (hnames.feeds_bodyStream items) (hshows.congr rfl rfl) ht
  · simp only [step, hh]
    cases p with
    | ret reply => exact .handling hh hfeeds hshows hb ht
    | op e k =>
        dsimp only
        split_ifs
        · exact hgone
        · exact .handling hh hfeeds hshows hb ht

/-- The body that carries the usage goes on, or is dropped. -/
theorem Feeding.step_streaming {b : Prog Unit} (hh : s.handler = none) (hb : s.body = some b)
    (hfeeds : Feeds Anyhow b leg) (hshows : leg.Shows s) (ht : s.tasks = [])
    (ev : RunEvent) (hhonest : ∀ t o, ev = .run t o → Honest o) : Feeding (step s ev) := by
  have hkeep : Feeding s := .streaming hh hb hfeeds hshows ht
  rcases idle_of_no_handler hh ev with ⟨hidle, -⟩ | ⟨t, o, rfl⟩ | rfl
  · rw [hidle]
    exact hkeep
  · cases t with
    | handler =>
        rw [run_handler_none hh o]
        exact hkeep
    | task i =>
        have hidle : step s (.run (.task i) o) = s := by
          simp only [step, ht, List.getElem?_nil, Option.bind_none]
        rw [hidle]
        exact hkeep
    | body =>
        rcases Chat.run_body hb o with ⟨-, hstep⟩ | ⟨e, k, r, s', rfl, hperform, hstep⟩
        · rw [hstep]
          exact hkeep
        · obtain ⟨hguard, hgo⟩ := hfeeds.perform hshows (hhonest _ _ rfl) hperform
          obtain ⟨hhandler, -, -, htasks⟩ := perform_calls hperform
          have htasks : s'.tasks = [] := by
            rcases htasks with hsame | ⟨heq, -⟩
            · exact hsame.trans ht
            · exact absurd heq hguard
          rw [hstep]
          rcases hgo with ⟨leg', hk, hshows'⟩ | ⟨hk, hmirrored⟩
          · exact .streaming (hhandler.trans hh) rfl hk (hshows'.congr rfl rfl) htasks
          · refine .passed (by simp [hhandler, hh]) ?_ (hmirrored.congr rfl)
            have hk' : Quits (fun _ => True) (k r) := hk
            simpa [htasks] using hk'
  · simp only [step, hb]
    split_ifs
    · refine .passed (by simp [hh]) ?_ (hshows.mirrored.congr rfl)
      obtain ⟨hguard, hbody⟩ := quits_spawned s
      simpa [ht, or_imp, forall_and] using And.intro hguard hbody
    · exact hkeep

/-- Nobody carries the usage any more. -/
theorem Feeding.step_passed (hh : ∀ p, s.handler = some p → Quits (Hands .told) p)
    (hw : ∀ p ∈ s.body.toList ++ s.tasks, Quits (fun _ => True) p) (hm : Mirrored s)
    (ev : RunEvent) : Feeding (step s ev) := by
  have hkeep : Feeding s := .passed hh hw hm
  obtain ⟨hbody, htasks⟩ := List.forall_mem_append.mp hw
  have hgone : ∀ s' : State, s'.handler = none → s'.body = s.body → s'.tasks = s.tasks →
      s'.log = s.log → Feeding s' := by
    intro s' hh' hb' ht' hlog
    refine .passed (by simp [hh']) ?_ (hm.congr hlog)
    rwa [hb', ht']
  cases ev with
  | run t o =>
      cases t with
      | handler =>
          cases hp : s.handler with
          | none =>
              rw [run_handler_none hp o]
              exact hkeep
          | some p =>
              rcases run_handler hp o with ⟨-, hstep⟩ | ⟨e, k, r, s', rfl, hperform, hstep⟩
              · rw [hstep]
                exact hkeep
              · obtain ⟨hk, hm'⟩ := (hh _ hp).perform hm hperform
                have htasks' := tasks_of_perform hperform htasks
                rw [hstep]
                refine .passed ?_ (List.forall_mem_append.mpr ⟨?_, ?_⟩) (hm'.congr rfl)
                · rintro p ⟨⟩
                  exact hk
                · rw [show State.body _ = s'.body from rfl, (perform_calls hperform).2.1]
                  exact hbody
                · exact htasks'
      | body =>
          cases hb : s.body with
          | none =>
              rw [run_body_none hb o]
              exact hkeep
          | some b =>
              rcases Chat.run_body hb o with ⟨-, hstep⟩ | ⟨e, k, r, s', rfl, hperform, hstep⟩
              · rw [hstep]
                exact hkeep
              · obtain ⟨hk, hm'⟩ := (hbody (.op e k) (by simp [hb])).perform hm hperform
                have htasks' := tasks_of_perform hperform htasks
                rw [hstep]
                refine .passed ?_ (List.forall_mem_append.mpr ⟨?_, ?_⟩) (hm'.congr rfl)
                · rw [show State.handler _ = s'.handler from rfl, (perform_calls hperform).1]
                  exact hh
                · simpa using hk
                · exact htasks'
      | task i =>
          rcases run_task s i o with hstep | ⟨l, e, k, ps, r, s', hl, rfl, hperform, hstep⟩
          · rw [hstep]
            exact hkeep
          · obtain ⟨hk, hm'⟩ := (htasks (.op e k) (by simp [hl])).perform hm hperform
            rw [hstep]
            refine .passed ?_ (List.forall_mem_append.mpr ⟨?_, fun p hp => ?_⟩) (hm'.congr rfl)
            · rw [show State.handler _ = s'.handler from rfl, (perform_calls hperform).1]
              exact hh
            · rw [show State.body _ = s'.body from rfl, (perform_calls hperform).2.1]
              exact hbody
            · rcases List.mem_or_eq_of_mem_set hp with hp | rfl
              · exact tasks_of_perform hperform htasks p hp
              · exact hk
  | returned =>
      simp only [step]
      split
      · rename_i a items hp
        have hsse : Hands .told (.sse a items) := hh _ hp
        cases (hsse a items rfl).1
      · exact hgone _ rfl rfl rfl rfl
      · exact hkeep
  | dropHandler =>
      simp only [step]
      split
      · split_ifs
        · exact hgone _ rfl rfl rfl rfl
        · exact hkeep
      · exact hkeep
  | dropBody =>
      simp only [step]
      split
      · split_ifs
        · obtain ⟨hguard, hspawned⟩ := quits_spawned s
          refine .passed hh ?_ (hm.congr rfl)
          exact List.forall_mem_append.mpr ⟨by simp, List.forall_mem_append.mpr
            ⟨List.forall_mem_append.mpr ⟨htasks, hguard⟩, hspawned⟩⟩
        · exact hkeep
      · exact hkeep

/-- **One event** of a request. -/
theorem Feeding.step (h : Feeding s) (ev : RunEvent)
    (hhonest : ∀ t o, ev = .run t o → Honest o) : Feeding (Chat.step s ev) := by
  cases h with
  | handling hh hfeeds hshows hb ht =>
      exact Feeding.step_handling hh hfeeds hshows hb ht ev hhonest
  | streaming hh hb hfeeds hshows ht =>
      exact Feeding.step_streaming hh hb hfeeds hshows ht ev hhonest
  | passed hh hw hm => exact Feeding.step_passed hh hw hm ev

theorem feeding_init {g : Gateway} (hg : g.metering = true) (requestId clientId : String)
    (body : ChatCompletionRequest) : Feeding (init g requestId clientId body) :=
  .handling rfl (feeds_chatCompletions hg requestId clientId body) ⟨rfl, rfl, rfl⟩ rfl rfl

end Events

end FirewallLLM.Chat
