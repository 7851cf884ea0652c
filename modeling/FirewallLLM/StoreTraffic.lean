import FirewallLLM.ChargeOnce

/-! # Requests over a store that may fail

The requests of all clients and one store, as one machine.  Requests arrive, and the threads of
all requests interleave at every operation.  What a request asks of its metering goes to the
store: an operation succeeds, fails without an effect, or takes effect while its reply is lost,
each independently of the others.  Everything else is answered by the environment.

Between the operations the record of a reservation may expire.

The machine keeps what each request has added to each counter, and whether a reserve of it took
effect unheard.  The counters are read in the integers; `Op.Room` says that the sums of an
operation are counted exactly. -/

namespace FirewallLLM

namespace Quota

/-! ### The store -/

/-- A lawful store with increments. -/
structure CountingStore extends LawfulStore where
  incr : String → Int64 → State → Int64 × State
  incr_counter : ∀ {key amount s}, 0 ≤ counter s key → 0 ≤ amount.toInt →
    counter s key + amount.toInt < bound →
    counter (incr key amount s).2 = (counter s).bump key amount.toInt
  incr_frame : ∀ key amount s r, (isOpen (incr key amount s).2 r ↔ isOpen s r) ∧
    (isSettled (incr key amount s).2 r ↔ isSettled s r)

def CountingStore.inMemory : CountingStore where
  toLawfulStore := InMemoryStore.lawful
  incr := InMemoryStore.incr
  incr_counter {key amount s} hc ha hlt := by
    funext k
    rw [Counters.bump_apply]
    show ((s.counters.bump key amount) k).toInt = _
    rw [Counters.bump_apply]
    split_ifs
    · exact Wrapping.toInt_add_of_lt hc ha hlt
    · rfl
  incr_frame _ _ _ _ := ⟨Iff.rfl, Iff.rfl⟩

def CountingStore.redis : CountingStore where
  toLawfulStore := RedisStore.lawful
  incr key amount s := ((s.incr key amount.toInt).1.toInt64, (s.incr key amount.toInt).2)
  incr_counter _ _ _ := rfl
  incr_frame _ _ _ _ := ⟨Iff.rfl, Iff.rfl⟩

/-- How an operation of the store comes out: it succeeds, it fails without an effect, or it
takes effect and its reply is lost. -/
inductive Outcome where
  | done
  | failed (msg : String)
  | lost (msg : String)
deriving DecidableEq

/-- The operation takes effect. -/
def Outcome.carried : Outcome → Bool
  | .failed _ => false
  | _ => true

namespace CountingStore

variable (S : CountingStore)

/-- `reserve` with this outcome. -/
def reserveVia (o : Outcome) (op : AdmitOp Int64) (s : S.State) :
    Except ReserveError Unit × S.State :=
  match o with
  | .done => S.reserve op s
  | .failed msg => (.error (.backend msg), s)
  | .lost msg => (.error (.backend msg), (S.reserve op s).2)

/-- `settle` with this outcome. -/
def settleVia (o : Outcome) (req : SettleReq Int64) (s : S.State) : Bool × S.State :=
  match o with
  | .done => S.settle req s
  | .failed _ => (false, s)
  | .lost _ => (false, (S.settle req s).2)

/-- `incr` with this outcome. -/
def incrVia (o : Outcome) (key : String) (amount : Int64) (s : S.State) : Int64 × S.State :=
  match o with
  | .done => S.incr key amount s
  | .failed _ => (0, s)
  | .lost _ => (0, (S.incr key amount s).2)

end CountingStore

end Quota

namespace Chat

open Quota (CountingStore Outcome cTokensKey cReqKey rsvKey dayString)

/-! ### The machine -/

/-- A gateway with a metering. -/
structure MeteredGateway where
  gateway : Gateway
  quota : Quota.Metering Int64
  metered : gateway.metering = true

/-- A request of a client, and how far it has come.  `raised` is what its operations have added
to each counter, and `unheard` says that its reserve took effect though the reply was lost. -/
structure Exchange where
  client : String
  body : ChatCompletionRequest
  state : State
  raised : String → ℤ
  unheard : Bool

/-- The store and the requests. -/
structure Wire (S : CountingStore) where
  store : S.State
  exchanges : List Exchange

/-- A request arrives, or one goes on at a time of day.  `id` is what an admission would draw,
and `net` says how the operations of the event on each key of the store come out.  Or the record
of a reservation expires. -/
inductive WireEvent where
  | arrive (client requestId : String) (body : ChatCompletionRequest)
  | go (i : ℕ) (now : ℤ) (id : String) (net : String → Outcome) (event : RunEvent)
  | lapse (reservationKey : String)

section Machine

variable (S : CountingStore) (D : MeteredGateway)

/-- What an operation is answered, and the store after it. -/
def wireAnswer (now : ℤ) (id : String) (net : String → Outcome) (o : Oracle) (store : S.State) :
    (e : Op) → Option (Res e) × S.State
  | .admitReq c provider model promptEst cap =>
      let r := D.quota.admitReq (S.reserveVia (net (rsvKey id))) now id c provider model
        promptEst cap store
      (some r.1, r.2)
  | .settle rsv prompt completion =>
      (some (), Quota.Metering.settle (S.settleVia (net (rsvKey rsv.id))) now rsv prompt completion
        store)
  | .record c provider model prompt completion =>
      (some (), Quota.Metering.record (fun key => S.incrVia (net key) key) now c provider model
        prompt completion store)
  | e => (o e, store)

/-- The reserve of an admission. -/
def MeteredGateway.reserveOp (now : ℤ) (id c provider model : String) (promptEst : Int64)
    (cap : Option Int64) : Quota.AdmitOp Int64 :=
  D.quota.admitOp (D.quota.newReservation id c provider model promptEst cap) (dayString now)

/-- The operation is a reserve that takes effect, and its reply is lost. -/
def unheardReserve (now : ℤ) (id : String) (net : String → Outcome) (store : S.State) : Op → Bool
  | .admitReq c provider model promptEst cap => match net (rsvKey id) with
      | .lost _ =>
          (S.reserve (D.reserveOp now id c provider model promptEst cap) store).1.isOk
      | _ => false
  | _ => false

/-- One event of one request. -/
def Exchange.go (x : Exchange) (now : ℤ) (id : String) (net : String → Outcome)
    (store : S.State) : RunEvent → Exchange × S.State
  | .run t o => match x.state.next t with
      | none => (x, store)
      | some e =>
          let store' := (wireAnswer S D now id net o store e).2
          ({ x with
              state := step x.state (.run t (fun e => (wireAnswer S D now id net o store e).1))
              raised := fun k => x.raised k + (S.counter store' k - S.counter store k)
              unheard := x.unheard || unheardReserve S D now id net store e }, store')
  | event => ({ x with state := step x.state event }, store)

/-- A request that has added nothing yet. -/
def Exchange.init (client requestId : String) (body : ChatCompletionRequest) : Exchange :=
  ⟨client, body, Chat.init D.gateway requestId client body, fun _ => 0, false⟩

/-- One event. -/
def Wire.step (w : Wire S) : WireEvent → Wire S
  | .arrive client requestId body => { w with
      exchanges := w.exchanges ++ [Exchange.init D client requestId body] }
  | .go i now id net event => match w.exchanges[i]? with
      | none => w
      | some x => ⟨(x.go S D now id net w.store event).2,
          w.exchanges.set i (x.go S D now id net w.store event).1⟩
  | .lapse key => { w with store := (S.lapse key w.store).getD w.store }

/-- Before the first request. -/
def Wire.empty : Wire S := ⟨S.empty, []⟩

end Machine

/-! ### Usage and reserves -/

/-- What an operation charges. -/
def Op.usage : Op → ℤ
  | .settle _ prompt completion => (prompt + completion).toInt
  | .record _ _ _ prompt completion => (prompt + completion).toInt
  | _ => 0

def Entry.usage : Entry → ℤ
  | .settled _ prompt completion => (prompt + completion).toInt
  | .recorded _ _ _ prompt completion => (prompt + completion).toInt
  | _ => 0

/-- The usage that a request has been charged for. -/
def State.usage (s : State) : ℤ := (s.log.map Entry.usage).sum

@[simp] theorem usage_note (s : State) (entry : Entry) :
    (s.note entry).usage = s.usage + entry.usage := by
  simp [State.usage, State.note]

/-- What an admission reserves for a request. -/
def Exchange.reserve (D : MeteredGateway) (x : Exchange) : ℤ :=
  (allowance D.quota x.body).prompt.toNat + (allowance D.quota x.body).completion.toInt

theorem perform_usage {s s' : State} {o : Oracle} {e : Op} {r : Res e}
    (h : perform s o e = some (r, s')) : s'.usage = s.usage + e.usage := by
  cases e with
  | admitReq =>
      simp only [perform, Option.map_eq_some_iff, Prod.mk.injEq] at h
      obtain ⟨r', _, _, rfl⟩ := h
      cases r' with
      | ok rsv => exact usage_note s (.admitted rsv)
      | error err => exact (add_zero _).symm
  | finish row =>
      simp only [perform, Option.some.injEq] at h
      obtain ⟨_, rfl⟩ := h
      split_ifs
      · exact (add_zero _).symm
      · exact usage_note s (.audited row)
  | settle | record | recordTokensToday | send =>
      simp only [perform, Option.map_eq_some_iff, Prod.mk.injEq] at h
      obtain ⟨_, _, _, rfl⟩ := h
      exact usage_note s _
  | observe | audit =>
      cases h
      exact usage_note s _
  | resolve | chat | chatStream | nextItem | inspect =>
      simp only [perform, Option.map_eq_some_iff, Prod.mk.injEq] at h
      obtain ⟨_, _, _, rfl⟩ := h
      exact (add_zero _).symm
  | panic => cases h
  | openStream | mapItem | flush | cells | swapRecorded | dropGuard =>
      cases h
      exact (add_zero _).symm

theorem usage_of_not_meters {e : Op} (he : e.meters = false) : e.usage = 0 := by
  cases e <;> first | rfl | cases he

end Chat

namespace Quota

/-! ### What the operations add -/

theorem bucketKey_day {family name day day' : String} :
    bucketKey family name day = bucketKey family name day' ↔ day = day' := by
  constructor
  · intro h
    have hlist := congrArg String.toList h
    simp only [bucketKey, String.toList_append] at hlist
    exact String.toList_inj.mp (List.append_cancel_left hlist)
  · rintro rfl
    rfl

theorem ne_of_keyFamily {k k' : String} (h : keyFamily k ≠ keyFamily k') : k ≠ k' :=
  fun heq => h (congrArg keyFamily heq)

theorem ownTokensKey_mem_tokenKeys {α : Type} {rsv : Reservation α} {day today : String} :
    cTokensKey rsv.client day ∈ Metering.tokenKeys rsv today ↔ day = today := by
  have hp : cTokensKey rsv.client day ≠ pTokensKey rsv.provider today :=
    ne_of_keyFamily (by rw [keyFamily_cTokensKey, keyFamily_pTokensKey]; decide)
  have hm : cTokensKey rsv.client day ≠ mTokensKey rsv.model today :=
    ne_of_keyFamily (by rw [keyFamily_cTokensKey, keyFamily_mTokensKey]; decide)
  simp only [Metering.tokenKeys, List.mem_cons, List.not_mem_nil, or_false, hp, hm]
  exact bucketKey_day

theorem cReqKey_not_mem_tokenKeys {α : Type} {rsv : Reservation α} {client day today : String} :
    cReqKey client day ∉ Metering.tokenKeys rsv today := by
  have hc : cReqKey client day ≠ cTokensKey rsv.client today :=
    ne_of_keyFamily (by rw [keyFamily_cReqKey, keyFamily_cTokensKey]; decide)
  have hp : cReqKey client day ≠ pTokensKey rsv.provider today :=
    ne_of_keyFamily (by rw [keyFamily_cReqKey, keyFamily_pTokensKey]; decide)
  have hm : cReqKey client day ≠ mTokensKey rsv.model today :=
    ne_of_keyFamily (by rw [keyFamily_cReqKey, keyFamily_mTokensKey]; decide)
  simp only [Metering.tokenKeys, List.mem_cons, List.not_mem_nil, hc, hp, hm, or_self,
    not_false_eq_true]

namespace CountingStore

variable {S : CountingStore} {s : S.State} {m : Metering Int64} {rsv : Reservation Int64}
  {day today client : String}

/-- A reserve with room takes effect, or changes nothing. -/
theorem reserveVia_counter (o : Outcome) {op : AdmitOp Int64}
    (hnd : (op.tokenKeys ++ op.requestKeys).Nodup) (hc : ∀ k, 0 ≤ S.counter s k)
    (hr : 0 ≤ op.reserve.toInt) (hroom : op.exact.Below S.bound (S.counter s)) :
    S.counter (S.reserveVia o op s).2 =
      if (o.carried && (S.reserve op s).1.isOk) = true then op.exact.place (S.counter s)
      else S.counter s := by
  have hreserve : S.counter (S.reserve op s).2 =
      if (S.reserve op s).1.isOk = true then op.exact.place (S.counter s)
      else S.counter s := by
    cases hres : S.reserve op s with
    | mk result s' =>
        cases result with
        | ok u => exact (S.reserve_ok hres hnd hc hr hroom).2
        | error e =>
            obtain rfl := S.reserve_error hres
            rfl
  cases o with
  | done => simpa only [reserveVia, Outcome.carried, Bool.true_and] using hreserve
  | failed msg => rfl
  | lost msg => simpa only [reserveVia, Outcome.carried, Bool.true_and] using hreserve

theorem settle_counter {req : SettleReq Int64} (hlen : req.tokenKeys.length = 3)
    (hnd : req.tokenKeys.Nodup) (hc : ∀ k, 0 ≤ S.counter s k)
    (hroom : req.exact.Below S.bound (S.counter s)) :
    S.counter (S.settle req s).2 = S.counter s ∨
      S.counter (S.settle req s).2 =
        settleCounters req.delta.toInt req.tokenKeys (S.counter s) := by
  by_cases hopen : S.isOpen s req.reservationKey
  · exact .inr (S.settle_open hopen hlen hnd hc hroom)
  · rw [S.settle_closed hopen]
    exact .inl rfl

theorem place_client (c : Counters ℤ) (day : String) :
    (m.admitOp rsv today).exact.place c (cReqKey rsv.client day) =
        c (cReqKey rsv.client day) + (Pi.single today 1 : String → ℤ) day ∧
      (m.admitOp rsv today).exact.place c (cTokensKey rsv.client day) =
        c (cTokensKey rsv.client day) +
          (Pi.single today rsv.reservedTotal.toInt : String → ℤ) day := by
  have hnd : ((m.admitOp rsv today).exact.tokenKeys ++
      (m.admitOp rsv today).exact.requestKeys).Nodup := admitOp_keys_nodup m rsv today
  have hreq : cReqKey rsv.client day ∉ (m.admitOp rsv today).exact.tokenKeys :=
    (cReqKey_not_mem_tokenKeys : _ ∉ Metering.tokenKeys rsv today)
  have hreq' : cReqKey rsv.client day ∈ (m.admitOp rsv today).exact.requestKeys ↔ day = today := by
    have hp : cReqKey rsv.client day ≠ pReqKey rsv.provider today :=
      ne_of_keyFamily (by rw [keyFamily_cReqKey, keyFamily_pReqKey]; decide)
    show cReqKey rsv.client day ∈ [cReqKey rsv.client today, pReqKey rsv.provider today] ↔ _
    simp only [List.mem_cons, List.not_mem_nil, or_false, hp]
    exact bucketKey_day
  have htok : cTokensKey rsv.client day ∈ (m.admitOp rsv today).exact.tokenKeys ↔ day = today :=
    ownTokensKey_mem_tokenKeys
  have htok' : cTokensKey rsv.client day ∉ (m.admitOp rsv today).exact.requestKeys := by
    have hc : cTokensKey rsv.client day ≠ cReqKey rsv.client today :=
      ne_of_keyFamily (by rw [keyFamily_cTokensKey, keyFamily_cReqKey]; decide)
    have hp : cTokensKey rsv.client day ≠ pReqKey rsv.provider today :=
      ne_of_keyFamily (by rw [keyFamily_cTokensKey, keyFamily_pReqKey]; decide)
    show cTokensKey rsv.client day ∉ [cReqKey rsv.client today, pReqKey rsv.provider today]
    simp only [List.mem_cons, List.not_mem_nil, hc, hp, or_self, not_false_eq_true]
  rw [AdmitOp.place_apply hnd, AdmitOp.place_apply hnd, if_neg hreq, if_neg htok',
    Pi.single_apply, Pi.single_apply]
  simp only [hreq', htok]
  constructor
  · split_ifs <;> simp
  · split_ifs
    · rfl
    · simp

/-- A settle counts no request, and moves the tokens of one day, if it moves any. -/
theorem settleVia_client (o : Outcome) {prompt completion : Int64}
    (hc : ∀ k, 0 ≤ S.counter s k)
    (hroom : (Metering.settleReq rsv prompt completion today).exact.Below S.bound (S.counter s)) :
    ∃ t : ℤ, (t = 0 ∨ t = max (S.counter s (cTokensKey rsv.client today) +
          (prompt + completion - rsv.reservedTotal).toInt) 0 -
        S.counter s (cTokensKey rsv.client today)) ∧ ∀ day,
      S.counter (S.settleVia o (Metering.settleReq rsv prompt completion today) s).2
          (cReqKey rsv.client day) = S.counter s (cReqKey rsv.client day) ∧
        S.counter (S.settleVia o (Metering.settleReq rsv prompt completion today) s).2
            (cTokensKey rsv.client day) =
          S.counter s (cTokensKey rsv.client day) + (Pi.single today t : String → ℤ) day := by
  set req := Metering.settleReq rsv prompt completion today with hreq
  have hnd : req.tokenKeys.Nodup := tokenKeys_nodup rsv today
  have hnone : S.counter (S.settleVia o req s).2 = S.counter s ∨
      S.counter (S.settleVia o req s).2 =
        settleCounters req.delta.toInt req.tokenKeys (S.counter s) := by
    cases o with
    | failed msg => exact .inl rfl
    | done => exact settle_counter rfl hnd hc hroom
    | lost msg => exact settle_counter rfl hnd hc hroom
  rcases hnone with hsame | hmoved
  · refine ⟨0, .inl rfl, fun day => ?_⟩
    rw [hsame]
    simp
  · refine ⟨_, .inr rfl, fun day => ?_⟩
    rw [hmoved, settleCounters_apply _ hnd, settleCounters_apply _ hnd, Pi.single_apply]
    have hr : cReqKey rsv.client day ∉ req.tokenKeys :=
      (cReqKey_not_mem_tokenKeys : _ ∉ Metering.tokenKeys rsv today)
    have ht : cTokensKey rsv.client day ∈ req.tokenKeys ↔ day = today :=
      ownTokensKey_mem_tokenKeys
    rw [if_neg hr]
    refine ⟨rfl, ?_⟩
    by_cases hday : day = today
    · rw [if_pos (ht.mpr hday), if_pos hday, hday]
      show max (S.counter s (cTokensKey rsv.client today) +
        (prompt + completion - rsv.reservedTotal).toInt) 0 = _
      omega
    · rw [if_neg (mt ht.mp hday), if_neg hday, add_zero]

theorem incrVia_counter (o : Outcome) {key : String} {amount : Int64}
    (hc : 0 ≤ S.counter s key) (ha : 0 ≤ amount.toInt)
    (hroom : S.counter s key + amount.toInt < S.bound) (k : String) :
    S.counter (S.incrVia o key amount s).2 k =
      S.counter s k + if o.carried = true ∧ k = key then amount.toInt else 0 := by
  have hincr : S.counter (S.incr key amount s).2 k =
      S.counter s k + if k = key then amount.toInt else 0 := by
    rw [S.incr_counter hc ha hroom, Counters.bump_apply]
    split_ifs with hk
    · rw [hk]
    · exact (add_zero _).symm
  cases o with
  | failed msg => simp [incrVia, Outcome.carried]
  | done => simpa only [incrVia, Outcome.carried, true_and] using hincr
  | lost msg => simpa only [incrVia, Outcome.carried, true_and] using hincr

/-! ### A record -/

/-- The five increments of a record, and what each adds if it takes effect. -/
def recordSteps (client provider model day : String) (total : Int64) : List (String × Int64) :=
  [(cTokensKey client day, total), (cReqKey client day, 1), (pTokensKey provider day, total),
    (pReqKey provider day, 1), (mTokensKey model day, total)]

/-- Increments of different counters. -/
def incrAll (net : String → Outcome) (steps : List (String × Int64)) (s : S.State) : S.State :=
  steps.foldl (fun s step => (S.incrVia (net step.1) step.1 step.2 s).2) s

theorem record_eq_incrAll (net : String → Outcome) (now : ℤ) (provider model : String)
    (prompt completion : Int64) :
    Metering.record (fun key => S.incrVia (net key) key) now client provider model prompt
      completion s =
    incrAll net (recordSteps client provider model (dayString now) (prompt + completion)) s := rfl

theorem incrAll_counter {net : String → Outcome} {steps : List (String × Int64)}
    (hnd : (steps.map Prod.fst).Nodup) (hc : ∀ k, 0 ≤ S.counter s k)
    (hroom : ∀ p ∈ steps, 0 ≤ p.2.toInt ∧ S.counter s p.1 + p.2.toInt < S.bound) (k : String) :
    S.counter (incrAll net steps s) k = S.counter s k +
      (steps.map (fun p => if (net p.1).carried = true ∧ k = p.1 then p.2.toInt else 0)).sum := by
  induction steps generalizing s with
  | nil => simp [incrAll]
  | cons p steps ih =>
      obtain ⟨hp, hnd'⟩ := List.nodup_cons.mp hnd
      obtain ⟨ha, hlt⟩ := hroom p List.mem_cons_self
      have hhead : ∀ k', S.counter (S.incrVia (net p.1) p.1 p.2 s).2 k' = S.counter s k' +
          if (net p.1).carried = true ∧ k' = p.1 then p.2.toInt else 0 :=
        incrVia_counter (net p.1) (hc p.1) ha hlt
      have htail := @ih (S.incrVia (net p.1) p.1 p.2 s).2 hnd' (fun k' => by
        have := hc k'
        rw [hhead]
        split_ifs <;> omega) (fun q hq => by
        have hne : q.1 ≠ p.1 := fun heq => hp (heq ▸ List.mem_map_of_mem hq)
        rw [hhead, if_neg (fun hand => hne hand.2), add_zero]
        exact hroom q (List.mem_cons_of_mem _ hq))
      rw [List.map_cons, List.sum_cons, ← add_assoc, ← hhead]
      exact htail

theorem recordSteps_nodup (client provider model day : String) (total : Int64) :
    ((recordSteps client provider model day total).map Prod.fst).Nodup := by
  apply List.Nodup.of_map keyFamily
  simp only [recordSteps, List.map_cons, List.map_nil, keyFamily_cTokensKey, keyFamily_cReqKey,
    keyFamily_pTokensKey, keyFamily_pReqKey, keyFamily_mTokensKey]
  decide

theorem recordSteps_room {provider model day : String} {total : Int64} {c : Counters ℤ} {b : ℤ}
    (htotal : 0 ≤ total.toInt)
    (hroom : (recordOp client provider model day total).exact.Below b c) :
    ∀ p ∈ recordSteps client provider model day total, 0 ≤ p.2.toInt ∧ c p.1 + p.2.toInt < b := by
  have h1 : (1 : Int64).toInt = 1 := by decide
  have htok : ∀ k ∈ (recordOp client provider model day total).tokenKeys, c k + total.toInt < b :=
    fun k hk => hroom _ (List.mem_append_left _ (List.mem_map.mpr ⟨k, hk, rfl⟩))
  have hreq : ∀ k ∈ (recordOp client provider model day total).requestKeys, c k + 1 < b :=
    fun k hk => hroom _ (List.mem_append_right _ (List.mem_map.mpr ⟨k, hk, rfl⟩))
  simp only [recordSteps, List.forall_mem_cons, h1]
  refine ⟨⟨htotal, htok _ (by simp [AdmitOp.tokenKeys, recordOp])⟩,
    ⟨by decide, hreq _ (by simp [AdmitOp.requestKeys, recordOp])⟩,
    ⟨htotal, htok _ (by simp [AdmitOp.tokenKeys, recordOp])⟩,
    ⟨by decide, hreq _ (by simp [AdmitOp.requestKeys, recordOp])⟩,
    ⟨htotal, htok _ (by simp [AdmitOp.tokenKeys, recordOp])⟩, fun _ h => absurd h List.not_mem_nil⟩

/-- A record counts the request and its tokens, each if the increment takes effect. -/
theorem record_client (net : String → Outcome) (now : ℤ) {provider model : String}
    {prompt completion : Int64} (hc : ∀ k, 0 ≤ S.counter s k)
    (htotal : 0 ≤ (prompt + completion).toInt)
    (hroom : (recordOp client provider model (dayString now) (prompt + completion)).exact.Below
      S.bound (S.counter s)) (day : String) :
    S.counter (Metering.record (fun key => S.incrVia (net key) key) now client provider model
          prompt completion s) (cReqKey client day) =
        S.counter s (cReqKey client day) + (Pi.single (dayString now)
          (if (net (cReqKey client (dayString now))).carried then 1 else 0) : String → ℤ) day ∧
      S.counter (Metering.record (fun key => S.incrVia (net key) key) now client provider model
          prompt completion s) (cTokensKey client day) =
        S.counter s (cTokensKey client day) + (Pi.single (dayString now)
          (if (net (cTokensKey client (dayString now))).carried then (prompt + completion).toInt
            else 0) : String → ℤ) day := by
  have h1 : (1 : Int64).toInt = 1 := by decide
  have hreq : cReqKey client day = cReqKey client (dayString now) ↔ day = dayString now :=
    bucketKey_day
  have htok : cTokensKey client day = cTokensKey client (dayString now) ↔ day = dayString now :=
    bucketKey_day
  -- the other increments are on keys of other families
  have hne : ∀ k k' : String, keyFamily k ≠ keyFamily k' → ∀ (b : Prop) (v : ℤ) [Decidable b],
      (if b ∧ k = k' then v else 0) = 0 := fun k k' hk b v _ =>
    if_neg fun h => ne_of_keyFamily hk h.2
  rw [record_eq_incrAll]
  simp only [incrAll_counter (recordSteps_nodup ..) hc (recordSteps_room htotal hroom),
    Pi.single_apply]
  simp only [recordSteps, List.map_cons, List.map_nil, List.sum_cons, List.sum_nil]
  constructor
  · rw [hne _ (cTokensKey client _) (by rw [keyFamily_cReqKey, keyFamily_cTokensKey]; decide),
      hne _ (pTokensKey provider _) (by rw [keyFamily_cReqKey, keyFamily_pTokensKey]; decide),
      hne _ (pReqKey provider _) (by rw [keyFamily_cReqKey, keyFamily_pReqKey]; decide),
      hne _ (mTokensKey model _) (by rw [keyFamily_cReqKey, keyFamily_mTokensKey]; decide), h1]
    simp only [hreq, add_zero, zero_add]
    by_cases hday : day = dayString now <;> simp [hday]
  · rw [hne _ (cReqKey client _) (by rw [keyFamily_cTokensKey, keyFamily_cReqKey]; decide),
      hne _ (pTokensKey provider _) (by rw [keyFamily_cTokensKey, keyFamily_pTokensKey]; decide),
      hne _ (pReqKey provider _) (by rw [keyFamily_cTokensKey, keyFamily_pReqKey]; decide),
      hne _ (mTokensKey model _) (by rw [keyFamily_cTokensKey, keyFamily_mTokensKey]; decide)]
    simp only [htok, add_zero]
    by_cases hday : day = dayString now <;> simp [hday]

/-! ### Counters stay above zero -/

/-- No counter is below zero. -/
def Solvent (S : CountingStore) (s : S.State) : Prop := ∀ k, 0 ≤ S.counter s k

theorem Solvent.reserveVia (h : Solvent S s) (o : Outcome) (hr : 0 ≤ rsv.reservedTotal.toInt)
    (hroom : (m.admitOp rsv today).exact.Below S.bound (S.counter s)) :
    Solvent S (S.reserveVia o (m.admitOp rsv today) s).2 := by
  intro k
  have hnd : ((m.admitOp rsv today).tokenKeys ++ (m.admitOp rsv today).requestKeys).Nodup :=
    admitOp_keys_nodup m rsv today
  rw [reserveVia_counter o hnd h hr hroom]
  split_ifs
  · exact AdmitOp.place_nonneg hnd h hr k
  · exact h k

theorem Solvent.settleVia (h : Solvent S s) (o : Outcome) {prompt completion : Int64}
    (hroom : (Metering.settleReq rsv prompt completion today).exact.Below S.bound (S.counter s)) :
    Solvent S (S.settleVia o (Metering.settleReq rsv prompt completion today) s).2 := by
  intro k
  set req := Metering.settleReq rsv prompt completion today with hreq
  have hnd : req.tokenKeys.Nodup := tokenKeys_nodup rsv today
  have hsettle : 0 ≤ S.counter (S.settle req s).2 k := by
    rcases settle_counter rfl hnd h hroom with hsame | hmoved
    · rw [hsame]
      exact h k
    · rw [hmoved]
      exact settleCounters_nonneg hnd h k
  cases o with
  | failed msg => exact h k
  | done => exact hsettle
  | lost msg => exact hsettle

theorem Solvent.record (h : Solvent S s) (net : String → Outcome) (now : ℤ)
    {provider model : String} {prompt completion : Int64}
    (htotal : 0 ≤ (prompt + completion).toInt)
    (hroom : (recordOp client provider model (dayString now) (prompt + completion)).exact.Below
      S.bound (S.counter s)) :
    Solvent S (Metering.record (fun key => S.incrVia (net key) key) now client provider model
      prompt completion s) := by
  intro k
  have hsteps := recordSteps_room htotal hroom
  rw [record_eq_incrAll, incrAll_counter (recordSteps_nodup ..) h hsteps]
  refine Int.add_nonneg (h k) (List.sum_nonneg fun v hv => ?_)
  obtain ⟨p, hp, rfl⟩ := List.mem_map.mp hv
  split_ifs
  · exact (hsteps p hp).1
  · exact le_rfl

theorem incrAll_lt {net : String → Outcome} {steps : List (String × Int64)}
    (hnd : (steps.map Prod.fst).Nodup) (hc : Solvent S s)
    (hroom : ∀ p ∈ steps, 0 ≤ p.2.toInt ∧ S.counter s p.1 + p.2.toInt < S.bound)
    (hlt : ∀ k, S.counter s k < S.bound) (k : String) :
    S.counter (incrAll net steps s) k < S.bound := by
  induction steps generalizing s with
  | nil => exact hlt k
  | cons p steps ih =>
      obtain ⟨hp, hnd'⟩ := List.nodup_cons.mp hnd
      obtain ⟨ha, hsum⟩ := hroom p List.mem_cons_self
      have hhead : ∀ k', S.counter (S.incrVia (net p.1) p.1 p.2 s).2 k' = S.counter s k' +
          if (net p.1).carried = true ∧ k' = p.1 then p.2.toInt else 0 :=
        incrVia_counter (net p.1) (hc p.1) ha hsum
      refine @ih (S.incrVia (net p.1) p.1 p.2 s).2 hnd' (fun k' => ?_) (fun q hq => ?_) fun k' => ?_
      · have := hc k'
        rw [hhead]
        split_ifs <;> omega
      · have hne : q.1 ≠ p.1 := fun heq => hp (heq ▸ List.mem_map_of_mem hq)
        rw [hhead, if_neg (fun hand => hne hand.2), add_zero]
        exact hroom q (List.mem_cons_of_mem _ hq)
      · have := hlt k'
        rw [hhead]
        split_ifs with hand
        · rw [hand.2]
          exact hsum
        · omega

theorem Solvent.record_lt (h : Solvent S s) (net : String → Outcome) (now : ℤ)
    {provider model : String} {prompt completion : Int64}
    (htotal : 0 ≤ (prompt + completion).toInt)
    (hroom : (recordOp client provider model (dayString now) (prompt + completion)).exact.Below
      S.bound (S.counter s))
    (hlt : ∀ k, S.counter s k < S.bound) (k : String) :
    S.counter (Metering.record (fun key => S.incrVia (net key) key) now client provider model
      prompt completion s) k < S.bound := by
  rw [record_eq_incrAll]
  exact incrAll_lt (recordSteps_nodup ..) h (recordSteps_room htotal hroom) hlt k

theorem Solvent.lapse (h : Solvent S s) {key : String} {s' : S.State}
    (hl : S.lapse key s = some s') : Solvent S s' := by
  intro k
  rw [S.lapse_counter hl]
  exact h k

end CountingStore

end Quota

namespace Chat

open Quota (CountingStore Outcome cTokensKey cReqKey rsvKey dayString)
open Quota.CountingStore (Solvent)

/-! ### Amounts that fit -/

/-- The amounts of an operation on the counters, for the prompt and for the completion. -/
def Op.amounts (D : MeteredGateway) : Op → Option (Int64 × Int64)
  | .admitReq _ _ _ est cap =>
      some (max est 0, max (cap.getD D.quota.completionReserveTokens) 0)
  | .settle _ prompt completion => some (prompt, completion)
  | .record _ _ _ prompt completion => some (prompt, completion)
  | _ => none

/-- The store counts the sums of the operation exactly: each counter that the operation is for,
plus its amount, is below the bound of the store. -/
def Op.Room (S : CountingStore) (D : MeteredGateway) (now : ℤ) (id : String) (store : S.State) :
    Op → Prop
  | .admitReq c provider model est cap =>
      (D.reserveOp now id c provider model est cap).exact.Below S.bound (S.counter store)
  | .settle rsv prompt completion =>
      (Quota.Metering.settleReq rsv prompt completion (dayString now)).exact.Below S.bound
        (S.counter store)
  | .record c provider model prompt completion =>
      (Quota.recordOp c provider model (dayString now) (prompt + completion)).exact.Below S.bound
        (S.counter store)
  | _ => True

/-- The amounts are not negative, their sum fits in 64 bits, and the store has room for them. -/
structure Op.Fits (S : CountingStore) (D : MeteredGateway) (now : ℤ) (id : String)
    (store : S.State) (e : Op) : Prop where
  amounts : ∀ a ∈ e.amounts D, 0 ≤ a.1.toInt ∧ 0 ≤ a.2.toInt ∧ a.1.toInt + a.2.toInt < 2 ^ 63
  room : e.Room S D now id store

section Amounts

variable {S : CountingStore} {D : MeteredGateway} {now : ℤ} {id : String}
  {net : String → Outcome} {o : Oracle} {store : S.State}

theorem total_nonneg {p d : Int64}
    (h : 0 ≤ p.toInt ∧ 0 ≤ d.toInt ∧ p.toInt + d.toInt < 2 ^ 63) : 0 ≤ (p + d).toInt := by
  obtain ⟨hp, hd, hlt⟩ := h
  rw [Wrapping.toInt_add_of_lt hp hd hlt]
  exact Int.add_nonneg hp hd

theorem sound_newReservation {c provider model : String} {est : Int64}
    {cap : Option Int64} (h : Op.Fits S D now id store (.admitReq c provider model est cap)) :
    (D.quota.newReservation id c provider model est cap).Sound := by
  obtain ⟨hp, hc, hlt⟩ := h.amounts _ rfl
  exact ⟨hp, hc, hlt⟩

theorem reserve_newReservation {c provider model : String} {est : Int64}
    {cap : Option Int64} (h : Op.Fits S D now id store (.admitReq c provider model est cap)) :
    0 ≤ (D.quota.newReservation id c provider model est cap).reservedTotal.toInt := by
  have hsound := sound_newReservation h
  rw [hsound.reservedTotal]
  exact Int.add_nonneg hsound.prompt hsound.cap

theorem Op.Fits.usage_nonneg {e : Op} (h : e.Fits S D now id store) : 0 ≤ e.usage := by
  cases e with
  | settle rsv p d => exact total_nonneg (h.amounts _ rfl)
  | record c provider model p d => exact total_nonneg (h.amounts _ rfl)
  | _ => exact le_rfl

/-- Amounts that fit leave no counter below zero. -/
theorem solvent_wireAnswer {e : Op} (h : Solvent S store) (he : e.Fits S D now id store) :
    Solvent S (wireAnswer S D now id net o store e).2 := by
  cases e with
  | admitReq c provider model est cap => exact h.reserveVia _ (reserve_newReservation he) he.room
  | settle rsv p d => exact h.settleVia _ he.room
  | record c provider model p d => exact h.record net now he.usage_nonneg he.room
  | _ => exact h

/-- They leave every counter below the bound of the store. -/
theorem bounded_wireAnswer {e : Op} (h : Solvent S store) (he : e.Fits S D now id store)
    (hlt : ∀ k, S.counter store k < S.bound) (k : String) :
    S.counter (wireAnswer S D now id net o store e).2 k < S.bound := by
  cases e with
  | admitReq c provider model est cap =>
      have hroom := he.room
      have hnd : ((D.reserveOp now id c provider model est cap).tokenKeys ++
          (D.reserveOp now id c provider model est cap).requestKeys).Nodup :=
        Quota.admitOp_keys_nodup ..
      show S.counter (S.reserveVia _ (D.reserveOp now id c provider model est cap) store).2 k < _
      rw [Quota.CountingStore.reserveVia_counter _ hnd h (reserve_newReservation he) hroom]
      split_ifs
      · rw [@Quota.AdmitOp.place_apply ℤ _ _
          (D.reserveOp now id c provider model est cap).exact hnd]
        split_ifs with htok hreq
        · exact hroom _ (List.mem_append_left _ (List.mem_map.mpr ⟨k, htok, rfl⟩))
        · exact hroom _ (List.mem_append_right _ (List.mem_map.mpr ⟨k, hreq, rfl⟩))
        · exact hlt k
      · exact hlt k
  | settle rsv p d =>
      set req := Quota.Metering.settleReq rsv p d (dayString now) with hreq
      have hnd : req.tokenKeys.Nodup := Quota.tokenKeys_nodup rsv (dayString now)
      have hsettle : S.counter (S.settle req store).2 k < S.bound := by
        rcases Quota.CountingStore.settle_counter rfl hnd h he.room with hsame | hmoved
        · rw [hsame]
          exact hlt k
        · rw [hmoved, Quota.settleCounters_apply _ hnd]
          split_ifs with hk
          · exact max_lt (he.room k hk) S.bound_pos
          · exact hlt k
      show S.counter (S.settleVia (net (rsvKey rsv.id)) req store).2 k < _
      cases net (rsvKey rsv.id) with
      | failed msg => exact hlt k
      | done => exact hsettle
      | lost msg => exact hsettle
  | record c provider model p d =>
      exact h.record_lt net now he.usage_nonneg he.room hlt k
  | _ => exact hlt k

end Amounts

end Chat

end FirewallLLM
