import FirewallLLM.AuditLedger
import FirewallLLM.Router
import FirewallLLM.RouterFeed

/-! # The router against the counters

The router keeps its own count of the tokens of a provider, next to the counter of the store.
Here are the requests of all clients, one store and one router, as one machine: requests ask the
router for their provider, are charged in the store and feed the router, and attacks come in
between.

`router_mirrors`: over a run within one day, in which a charge that is made reaches its counter and
the store has room for it, no request feeds the router twice and the router has counted exactly
what it was fed.  That is at least what the rows say was served, and at most what the store has
charged to the provider, however the requests interleave, whatever is refused and wherever they
end. -/

namespace FirewallLLM

namespace Quota

/-! ### The counter of a provider -/

theorem pTokensKey_inj {p q day : String} : pTokensKey p day = pTokensKey q day ↔ p = q := by
  constructor
  · intro h
    have hlist := congrArg String.toList h
    simp only [pTokensKey, bucketKey, String.toList_append, List.append_assoc] at hlist
    have hname := List.append_cancel_left hlist
    rw [← List.append_assoc, ← List.append_assoc] at hname
    exact String.toList_inj.mp (List.append_cancel_right (List.append_cancel_right hname))
  · rintro rfl
    rfl

theorem pKey_mem_tokenKeys {α : Type} {rsv : Reservation α} {p day : String} :
    pTokensKey p day ∈ Metering.tokenKeys rsv day ↔ p = rsv.provider := by
  have hc : pTokensKey p day ≠ cTokensKey rsv.client day :=
    ne_of_keyFamily (by rw [keyFamily_pTokensKey, keyFamily_cTokensKey]; decide)
  have hm : pTokensKey p day ≠ mTokensKey rsv.model day :=
    ne_of_keyFamily (by rw [keyFamily_pTokensKey, keyFamily_mTokensKey]; decide)
  simp only [Metering.tokenKeys, List.mem_cons, List.not_mem_nil, or_false, false_or, hc, hm]
  exact pTokensKey_inj

/-- The tokens that a reservation holds from a provider. -/
def heldFrom (rsv : Reservation Int64) (p : String) : ℤ :=
  if p = rsv.provider then rsv.reservedTotal.toInt else 0

namespace CountingStore

variable {S : CountingStore} {s : S.State} {m : Metering Int64} {rsv : Reservation Int64}
  {today : String}

theorem place_provider (c : Counters ℤ) (p : String) :
    (m.admitOp rsv today).exact.place c (pTokensKey p today) =
      c (pTokensKey p today) + heldFrom rsv p := by
  have hnd : ((m.admitOp rsv today).exact.tokenKeys ++
      (m.admitOp rsv today).exact.requestKeys).Nodup := admitOp_keys_nodup m rsv today
  have htok : pTokensKey p today ∈ (m.admitOp rsv today).exact.tokenKeys ↔ p = rsv.provider :=
    pKey_mem_tokenKeys
  have hreq : pTokensKey p today ∉ (m.admitOp rsv today).exact.requestKeys := by
    have hc : pTokensKey p today ≠ cReqKey rsv.client today :=
      ne_of_keyFamily (by rw [keyFamily_pTokensKey, keyFamily_cReqKey]; decide)
    have hp : pTokensKey p today ≠ pReqKey rsv.provider today :=
      ne_of_keyFamily (by rw [keyFamily_pTokensKey, keyFamily_pReqKey]; decide)
    show pTokensKey p today ∉ [cReqKey rsv.client today, pReqKey rsv.provider today]
    simp only [List.mem_cons, List.not_mem_nil, hc, hp, or_self, not_false_eq_true]
  rw [AdmitOp.place_apply hnd, if_neg hreq]
  simp only [htok]
  unfold heldFrom
  split_ifs
  · rfl
  · exact (add_zero _).symm

/-- A settle that takes effect moves the counter of its provider to the usage, and further if the
counter would fall below zero. -/
theorem settleVia_provider {o : Outcome} (ho : o.carried = true) {prompt completion : Int64}
    (hopen : S.isOpen s (rsvKey rsv.id)) (hc : ∀ k, 0 ≤ S.counter s k)
    (hroom : (Metering.settleReq rsv prompt completion today).exact.Below S.bound (S.counter s))
    (p : String) :
    S.counter (S.settleVia o (Metering.settleReq rsv prompt completion today) s).2
        (pTokensKey p today) =
      if p = rsv.provider then
        max (S.counter s (pTokensKey p today) + (prompt + completion - rsv.reservedTotal).toInt) 0
      else S.counter s (pTokensKey p today) := by
  set req := Metering.settleReq rsv prompt completion today with hreq
  have hnd : req.tokenKeys.Nodup := tokenKeys_nodup rsv today
  have hmoved : S.counter (S.settleVia o req s).2 =
      settleCounters req.delta.toInt req.tokenKeys (S.counter s) := by
    cases o with
    | failed msg => cases ho
    | done => exact S.settle_open hopen rfl hnd hc hroom
    | lost msg => exact S.settle_open hopen rfl hnd hc hroom
  have hmem : pTokensKey p today ∈ req.tokenKeys ↔ p = rsv.provider := pKey_mem_tokenKeys
  rw [hmoved, settleCounters_apply _ hnd]
  simp only [hmem]
  rfl

theorem record_provider (net : String → Outcome) (now : ℤ) {client provider model : String}
    {prompt completion : Int64} (hc : ∀ k, 0 ≤ S.counter s k)
    (htotal : 0 ≤ (prompt + completion).toInt)
    (hroom : (recordOp client provider model (dayString now) (prompt + completion)).exact.Below
      S.bound (S.counter s)) (p : String) :
    S.counter (Metering.record (fun key => S.incrVia (net key) key) now client provider model
          prompt completion s) (pTokensKey p (dayString now)) =
      S.counter s (pTokensKey p (dayString now)) +
        if (net (pTokensKey provider (dayString now))).carried = true ∧ p = provider then
          (prompt + completion).toInt else 0 := by
  have hkey : pTokensKey p (dayString now) = pTokensKey provider (dayString now) ↔ p = provider :=
    pTokensKey_inj
  -- the other increments are on keys of other families
  have hne : ∀ k k' : String, keyFamily k ≠ keyFamily k' → ∀ (b : Prop) (v : ℤ) [Decidable b],
      (if b ∧ k = k' then v else 0) = 0 := fun k k' hk b v _ =>
    if_neg fun h => ne_of_keyFamily hk h.2
  rw [record_eq_incrAll, incrAll_counter (recordSteps_nodup ..) hc (recordSteps_room htotal hroom)]
  simp only [recordSteps, List.map_cons, List.map_nil, List.sum_cons, List.sum_nil]
  rw [hne _ (cReqKey client _) (by rw [keyFamily_pTokensKey, keyFamily_cReqKey]; decide),
    hne _ (cTokensKey client _) (by rw [keyFamily_pTokensKey, keyFamily_cTokensKey]; decide),
    hne _ (pReqKey provider _) (by rw [keyFamily_pTokensKey, keyFamily_pReqKey]; decide),
    hne _ (mTokensKey model _) (by rw [keyFamily_pTokensKey, keyFamily_mTokensKey]; decide)]
  simp only [hkey, add_zero, zero_add]

theorem settleVia_frame (o : Outcome) (prompt completion : Int64) {r : String}
    (hr : r ≠ rsvKey rsv.id) :
    let s' := (S.settleVia o (Metering.settleReq rsv prompt completion today) s).2
    (S.isOpen s r → S.isOpen s' r) ∧ (S.isSettled s' r ↔ S.isSettled s r) := by
  have hsettle := @LawfulStore.settle_frame S.toLawfulStore
    (Metering.settleReq rsv prompt completion today) s r hr
  cases o with
  | failed msg => exact ⟨id, Iff.rfl⟩
  | done => exact ⟨hsettle.1.mpr, hsettle.2⟩
  | lost msg => exact ⟨hsettle.1.mpr, hsettle.2⟩

theorem reserveVia_frame (o : Outcome) {op : AdmitOp Int64} {r : String}
    (hr : r ≠ op.reservationKey) :
    let s' := (S.reserveVia o op s).2
    (S.isOpen s r → S.isOpen s' r) ∧ (S.isSettled s' r ↔ S.isSettled s r) := by
  have hreserve : (S.isOpen s r → S.isOpen (S.reserve op s).2 r) ∧
      (S.isSettled (S.reserve op s).2 r ↔ S.isSettled s r) := by
    cases hres : S.reserve op s with
    | mk result s' =>
        cases result with
        | ok u => exact ⟨(S.reserve_frame hres hr).1.mpr, (S.reserve_frame hres hr).2⟩
        | error e =>
            obtain rfl := S.reserve_error hres
            exact ⟨id, Iff.rfl⟩
  cases o with
  | failed msg => exact ⟨id, Iff.rfl⟩
  | done => exact hreserve
  | lost msg => exact hreserve

/-- A reserve settles nothing, and a granted one is open and in the counters. -/
theorem reserveVia_fresh (o : Outcome) {op : AdmitOp Int64}
    (hfresh : ¬ S.isSettled s op.reservationKey)
    (hnd : (op.tokenKeys ++ op.requestKeys).Nodup) (hc : ∀ k, 0 ≤ S.counter s k)
    (hr : 0 ≤ op.reserve.toInt) (hroom : op.exact.Below S.bound (S.counter s)) :
    ¬ S.isSettled (S.reserveVia o op s).2 op.reservationKey ∧
      ((S.reserveVia o op s).1 = .ok () → S.isOpen (S.reserveVia o op s).2 op.reservationKey ∧
        S.counter (S.reserveVia o op s).2 = op.exact.place (S.counter s)) := by
  have hreserve : ¬ S.isSettled (S.reserve op s).2 op.reservationKey ∧
      ((S.reserve op s).1 = .ok () → S.isOpen (S.reserve op s).2 op.reservationKey ∧
        S.counter (S.reserve op s).2 = op.exact.place (S.counter s)) := by
    cases hres : S.reserve op s with
    | mk result s' =>
        cases result with
        | ok u =>
            obtain ⟨hopen, hnot⟩ := S.reserve_open hres hfresh
            exact ⟨hnot, fun _ => ⟨hopen, (S.reserve_ok hres hnd hc hr hroom).2⟩⟩
        | error e =>
            obtain rfl := S.reserve_error hres
            exact ⟨hfresh, fun h => by cases h⟩
  cases o with
  | failed msg => exact ⟨hfresh, fun h => by cases h⟩
  | done => exact hreserve
  | lost msg => exact ⟨hreserve.1, fun h => by cases h⟩

end CountingStore

end Quota

namespace Chat

open Quota (CountingStore Outcome pTokensKey rsvKey dayString heldFrom)
open Quota.CountingStore (Solvent)

/-! ### Tokens of a provider -/

/-- The tokens of a provider among these. -/
def tokensOf (p : String) (l : List (String × Int64)) : ℤ :=
  (l.map fun x => if x.1 = p then x.2.toInt else 0).sum

@[simp] theorem tokensOf_nil (p : String) : tokensOf p [] = 0 := rfl

theorem tokensOf_append (p : String) (l l' : List (String × Int64)) :
    tokensOf p (l ++ l') = tokensOf p l + tokensOf p l' := by
  unfold tokensOf
  rw [List.map_append, List.sum_append]

theorem tokensOf_singleton (p : String) (x : String × Int64) :
    tokensOf p [x] = if x.1 = p then x.2.toInt else 0 := by
  unfold tokensOf
  rw [List.map_singleton, List.sum_singleton]

theorem tokensOf_mem_le {p : String} {l : List (String × Int64)} (h : ∀ x ∈ l, 0 ≤ x.2.toInt)
    {x : String × Int64} (hx : x ∈ l) : tokensOf p [x] ≤ tokensOf p l := by
  rw [tokensOf_singleton]
  refine List.single_le_sum (fun y hy => ?_) _ (List.mem_map_of_mem hx)
  obtain ⟨z, hz, rfl⟩ := List.mem_map.mp hy
  have hpos := h z hz
  split_ifs <;> omega

theorem tokensOf_nonneg {p : String} {l : List (String × Int64)} (h : ∀ x ∈ l, 0 ≤ x.2.toInt) :
    0 ≤ tokensOf p l := by
  refine List.sum_nonneg fun y hy => ?_
  obtain ⟨z, hz, rfl⟩ := List.mem_map.mp hy
  have hpos := h z hz
  split_ifs <;> omega

theorem Mirrored.fed_once {s : State} (h : Mirrored s) : s.fed.length ≤ 1 := by
  cases h with
  | unfed hfed => simp [hfed]
  | unserved _ hfed => simp [hfed]
  | served _ hfed => simp [hfed]

theorem Mirrored.fed_nonneg {s : State} (h : Mirrored s) (hbills : ∀ x ∈ s.bills, 0 ≤ x.2.toInt)
    (p : String) : 0 ≤ tokensOf p s.fed := by
  cases h with
  | unfed hfed => rw [hfed, tokensOf_nil]
  | unserved hx hfed =>
      rw [hfed]
      exact tokensOf_nonneg (by simpa using hbills _ hx)
  | served hx hfed =>
      rw [hfed]
      exact tokensOf_nonneg (by simpa using hbills _ hx)

/-- What was fed is between what was served and what was charged. -/
theorem Mirrored.between {s : State} (h : Mirrored s) (hbills : ∀ x ∈ s.bills, 0 ≤ x.2.toInt)
    (p : String) : tokensOf p s.served ≤ tokensOf p s.fed ∧
      tokensOf p s.fed ≤ tokensOf p s.bills := by
  cases h with
  | unfed hfed hserved =>
      rw [hfed, hserved]
      exact ⟨le_rfl, tokensOf_nonneg hbills⟩
  | @unserved x hx hfed hserved =>
      rw [hfed, hserved]
      have hone : ∀ y ∈ [x], 0 ≤ y.2.toInt := by simpa using hbills x hx
      exact ⟨tokensOf_nonneg hone, tokensOf_mem_le hbills hx⟩
  | @served x hx hfed hserved =>
      rw [hfed, hserved]
      exact ⟨le_rfl, tokensOf_mem_le hbills hx⟩

/-! ### The reservations of a request -/

def Entry.admitted? : Entry → Option Reservation
  | .admitted rsv => some rsv
  | _ => none

/-- The reservations that a request has been given. -/
def State.admissions (s : State) : List Reservation := s.log.filterMap Entry.admitted?

section Log

variable {s s' : State} {o : Oracle} {e : Op} {r : Res e}

theorem perform_admissions (h : perform s o e = some (r, s')) (he : e.isAdmission = false) :
    s'.admissions = s.admissions := by
  unfold State.admissions
  cases e with
  | admitReq => cases he
  | finish row =>
      rw [perform_finish h]
      split_ifs
      · rfl
      · exact (filterMap_snoc ..).trans (List.append_nil _)
  | settle | record | recordTokensToday | send =>
      simp only [perform, Option.map_eq_some_iff, Prod.mk.injEq] at h
      obtain ⟨_, _, _, rfl⟩ := h
      exact (filterMap_snoc ..).trans (List.append_nil _)
  | observe | audit =>
      cases h
      exact (filterMap_snoc ..).trans (List.append_nil _)
  | resolve | chat | chatStream | nextItem | inspect =>
      simp only [perform, Option.map_eq_some_iff, Prod.mk.injEq] at h
      obtain ⟨_, _, _, rfl⟩ := h
      rfl
  | panic => cases h
  | openStream | mapItem | flush | cells | swapRecorded | dropGuard =>
      cases h
      rfl

theorem log_step_other {ev : RunEvent} (hev : ∀ t o, ev ≠ .run t o) :
    (step s ev).log = s.log := by
  cases ev with
  | run t o => exact absurd rfl (hev t o)
  | returned =>
      simp only [step]
      split <;> rfl
  | dropHandler =>
      simp only [step]
      split
      · split_ifs <;> rfl
      · rfl
  | dropBody =>
      simp only [step]
      split
      · split_ifs <;> rfl
      · rfl

theorem bill?_of_not_meters (he : e.meters = false) : e.bill? = none := by
  cases e <;> first | rfl | cases he

theorem isAdmission_of_not_meters (he : e.meters = false) : e.isAdmission = false := by
  cases e <;> first | rfl | cases he

theorem bills_step_run {t : Thread} (hn : s.next t = some e) (he : e.isAdmission = false)
    (o : Oracle) : (perform s o e = none ∧ step s (.run t o) = s) ∨
      (step s (.run t o)).bills = s.bills ++ e.bill?.toList ∧
        (step s (.run t o)).admissions = s.admissions := by
  rcases run_of_next hn o with hnone | ⟨r, s', hperform, hlog⟩
  · exact .inl hnone
  · refine .inr ?_
    rw [← (perform_lists hperform).1, ← perform_admissions hperform he]
    unfold State.bills State.admissions
    rw [hlog]
    exact ⟨rfl, rfl⟩

theorem admissions_step_run {t : Thread} {c provider model : String} {est : Int64}
    {cap : Option Int64} (hn : s.next t = some (.admitReq c provider model est cap))
    {r : Except MeteringError Reservation} (ho : o (.admitReq c provider model est cap) = some r) :
    (step s (.run t o)).bills = s.bills ∧
      (step s (.run t o)).admissions = s.admissions ++ r.toOption.toList := by
  rcases run_of_next hn o with ⟨hnone, -⟩ | ⟨r', s', hperform, hlog⟩
  · cases ho.symm.trans (Option.map_eq_none_iff.mp hnone)
  · unfold State.bills State.admissions
    rw [hlog]
    obtain ⟨r'', hr, heq⟩ := Option.map_eq_some_iff.mp hperform
    cases heq
    cases ho.symm.trans hr
    cases r with
    | ok rsv => exact ⟨(filterMap_snoc ..).trans (List.append_nil _), filterMap_snoc ..⟩
    | error err => exact ⟨rfl, (List.append_nil _).symm⟩

end Log

/-! ### One request against the counters -/

/-- What a request has been charged, it has raised the counters of its providers by. -/
structure Exchange.Covered (today : String) (x : Exchange) : Prop where
  amounts : ∀ b ∈ x.state.bills, 0 ≤ b.2.toInt
  raised : ∀ p, tokensOf p x.state.bills ≤ x.raised (pTokensKey p today)

/-- A request against the counters of a day: before its admission, with a reservation, and
without one.  A reservation that is not yet charged is open in the store, and the request has
raised the counter of its provider by what it holds. -/
inductive Exchange.Backed (S : CountingStore) (today : String) (store : S.State)
    (x : Exchange) : Prop where
  | arrived (arrived : Arrived x.client x.body x.state) (covered : x.Covered today)
      (bills : x.state.bills = []) (admissions : x.state.admissions = []) : Backed S today store x
  | reserved {rsv : Reservation} {charged : Bool}
      (standing : Standing (Settles rsv) x.state charged) (covered : x.Covered today)
      (admissions : x.state.admissions = [rsv])
      (before : charged = false → x.state.bills = [] ∧ S.isOpen store (rsvKey rsv.id) ∧
        0 ≤ rsv.reservedTotal.toInt ∧ ∀ p, heldFrom rsv p ≤ x.raised (pTokensKey p today)) :
      Backed S today store x
  | unreserved {charged : Bool} (standing : Standing (Records x.client) x.state charged)
      (covered : x.Covered today) (admissions : x.state.admissions = [])
      (before : charged = false → x.state.bills = []) : Backed S today store x

/-- A charge reaches the counter of its provider. -/
def Op.Reaches (now : ℤ) (net : String → Outcome) : Op → Prop
  | .settle rsv _ _ => (net (rsvKey rsv.id)).carried = true
  | .record _ provider _ _ _ => (net (pTokensKey provider (dayString now))).carried = true
  | _ => True

/-- What an event of one request leaves, next to the reservations of the others. -/
structure Exchange.Leaves (S : CountingStore) (today : String) (others : Set String)
    (x x' : Exchange) (store store' : S.State) : Prop where
  backed : x'.Backed S today store'
  frame : ∀ i ∈ others, S.isOpen store (rsvKey i) → S.isOpen store' (rsvKey i)
  settled : ∀ r, S.isSettled store' r →
    S.isSettled store r ∨ ∃ rsv ∈ x.state.admissions, r = rsvKey rsv.id
  kept : ∀ rsv ∈ x.state.admissions, rsv ∈ x'.state.admissions
  own : ∀ rsv ∈ x'.state.admissions, rsv.id ∉ others

section Steps

variable {S : CountingStore} {D : MeteredGateway} {x : Exchange} {now : ℤ} {id : String}
  {net : String → Outcome} {store : S.State} {today : String}

theorem Exchange.Backed.covered (h : x.Backed S today store) : x.Covered today := by
  cases h <;> assumption

theorem Exchange.Backed.frame {store' : S.State} (h : x.Backed S today store)
    (hopen : x.state.bills = [] → ∀ rsv ∈ x.state.admissions, S.isOpen store (rsvKey rsv.id) →
      S.isOpen store' (rsvKey rsv.id)) : x.Backed S today store' := by
  cases h with
  | arrived harr hcov hbills hadm => exact .arrived harr hcov hbills hadm
  | unreserved hst hcov hadm hbefore => exact .unreserved hst hcov hadm hbefore
  | @reserved rsv charged hst hcov hadm hbefore =>
      refine .reserved hst hcov hadm fun hcharged => ?_
      obtain ⟨hbills, ho, htotal, hheld⟩ := hbefore hcharged
      exact ⟨hbills, hopen hbills rsv (by rw [hadm]; exact List.mem_singleton_self rsv) ho, htotal,
        hheld⟩

theorem Exchange.Backed.still {x' : Exchange} (h : x.Backed S today store)
    (hclient : x'.client = x.client) (hbody : x'.body = x.body) (hraised : x'.raised = x.raised)
    (hbills : x'.state.bills = x.state.bills) (hadm : x'.state.admissions = x.state.admissions)
    (harrived : Arrived x.client x.body x.state →
      Arrived x.client x.body x'.state ∨ Standing (Records x.client) x'.state false)
    (hstanding : ∀ C charged, IsCharge C → Standing C x.state charged →
      Standing C x'.state charged) : x'.Backed S today store := by
  have hcov : x'.Covered today := by
    refine ⟨?_, ?_⟩
    · rw [hbills]
      exact h.covered.amounts
    · rw [hbills, hraised]
      exact h.covered.raised
  cases h with
  | arrived harr _ hnone hno =>
      rcases harrived harr with harr' | hst
      · exact .arrived (by rwa [hclient, hbody]) hcov (hbills.trans hnone) (hadm.trans hno)
      · exact .unreserved (by rwa [hclient]) hcov (hadm.trans hno) fun _ => hbills.trans hnone
  | reserved hst _ hone hbefore =>
      refine .reserved (hstanding _ _ (isCharge_settles _) hst) hcov (hadm.trans hone) ?_
      rwa [hbills, hraised]
  | unreserved hst _ hno hbefore =>
      have hst' := hstanding _ _ (isCharge_records _) hst
      rw [← hclient] at hst'
      refine .unreserved hst' hcov (hadm.trans hno) ?_
      rwa [hbills]

theorem Exchange.Backed.go_still (h : x.Backed S today store) {event : RunEvent}
    (hev : ∀ t o e, event = .run t o → x.state.next t = some e → e.meters = false) :
    (x.go S D now id net store event).1.Backed S today store ∧
      (x.go S D now id net store event).1.state.admissions = x.state.admissions ∧
      (x.go S D now id net store event).2 = store := by
  by_cases hrun : ∃ t o, event = .run t o
  · obtain ⟨t, o, rfl⟩ := hrun
    cases hn : x.state.next t with
    | none =>
        simp only [Exchange.go, hn]
        exact ⟨h, trivial, trivial⟩
    | some e =>
        have he := hev t o e rfl hn
        obtain ⟨hstore, -⟩ := @wireAnswer_of_not_meters S D now id net store e he o
        set s' := step x.state (.run t (fun e => (wireAnswer S D now id net o store e).1)) with hs'
        have hlog : s'.bills = x.state.bills ∧ s'.admissions = x.state.admissions := by
          rcases bills_step_run hn (isAdmission_of_not_meters he)
            (fun e => (wireAnswer S D now id net o store e).1) with ⟨-, hsame⟩ | ⟨hbills, hadm⟩
          · rw [hs', hsame]
            exact ⟨rfl, rfl⟩
          · rw [bill?_of_not_meters he] at hbills
            exact ⟨hbills.trans (List.append_nil _), hadm⟩
        have hraised : (fun k => x.raised k +
            (S.counter (wireAnswer S D now id net o store e).2 k - S.counter store k)) =
              x.raised := by
          funext k
          rw [hstore, sub_self, add_zero]
        rw [go_run hn]
        refine ⟨h.still rfl rfl hraised hlog.1 hlog.2 (fun harr => .inl (harr.run hn he _))
          (fun C charged hC hst => ?_), hlog.2, hstore⟩
        rcases hst.run hC hn (fun e => (wireAnswer S D now id net o store e).1) with
          ⟨-, hsame⟩ | hst'
        · rw [hsame]
          exact hst
        · rwa [he, Bool.or_false] at hst'
  · have hother : ∀ t o, event ≠ .run t o := fun t o heq => hrun ⟨t, o, heq⟩
    have hlog := @log_step_other x.state event hother
    have hbills : (step x.state event).bills = x.state.bills := by
      unfold State.bills
      rw [hlog]
    have hadm : (step x.state event).admissions = x.state.admissions := by
      unfold State.admissions
      rw [hlog]
    rw [go_other hother]
    exact ⟨h.still rfl rfl rfl hbills hadm (fun harr => harr.other hother)
      (fun _ _ _ hst => hst.other hother), hadm, rfl⟩

theorem raised_go {t : Thread} {e : Op} (hn : x.state.next t = some e) (o : Oracle) (k : String) :
    (x.go S D now id net store (.run t o)).1.raised k = x.raised k +
      (S.counter (x.go S D now id net store (.run t o)).2 k - S.counter store k) := by
  rw [go_run hn]

theorem Exchange.Covered.raised_nonneg (h : x.Covered today) (hbills : x.state.bills = [])
    (p : String) : 0 ≤ x.raised (pTokensKey p today) := by
  have hp := h.raised p
  rwa [hbills, tokensOf_nil] at hp

/-- The admission: what the store holds is for the provider that the request asks for. -/
theorem Exchange.Backed.go_admitReq {t : Thread} {c provider model : String} {est : Int64}
    {cap : Option Int64} (h : x.Backed S (dayString now) store)
    (hn : x.state.next t = some (.admitReq c provider model est cap))
    (hfits : Op.Fits S D now id store (.admitReq c provider model est cap))
    (hstore : Solvent S store) (hfresh : ¬ S.isSettled store (rsvKey id)) (o : Oracle) :
    (x.go S D now id net store (.run t o)).1.Backed S (dayString now)
        (x.go S D now id net store (.run t o)).2 ∧
      ¬ S.isSettled (x.go S D now id net store (.run t o)).2 (rsvKey id) ∧
      x.state.admissions = [] ∧
      ∀ rsv ∈ (x.go S D now id net store (.run t o)).1.state.admissions, rsv.id = id := by
  cases h with
  | reserved hst => rcases hst.asked hn with hm | ⟨he, -⟩ <;> contradiction
  | unreserved hst => rcases hst.asked hn with hm | ⟨he, -⟩ <;> contradiction
  | arrived harr hcov hbills hadm =>
      obtain hm | ⟨provider', model', heq⟩ := harr.asked hn
      · cases hm
      cases heq
      have htotal := reserve_newReservation hfits
      set rsv := D.quota.newReservation id x.client provider model x.body.promptEst.toInt64
        x.body.maxTokens with hrsv
      set op := D.quota.admitOp rsv (dayString now) with hop
      have hnd : (op.tokenKeys ++ op.requestKeys).Nodup :=
        Quota.admitOp_keys_nodup D.quota rsv (dayString now)
      set ans : Oracle := fun e => (wireAnswer S D now id net o store e).1 with hans
      set result := (S.reserveVia (net (rsvKey id)) op store).1 with hresult
      set store' := (S.reserveVia (net (rsvKey id)) op store).2 with hstore'
      have hst := @Arrived.admitted _ _ _ harr _ _ _ _ _ _ hn ans
        (D.quota.admitResult rsv result) rfl
      obtain ⟨hbills', hadm'⟩ := @admissions_step_run x.state ans t _ _ _ _ _ hn
        (D.quota.admitResult rsv result) rfl
      rw [hbills] at hbills'
      rw [hadm, List.nil_append] at hadm'
      obtain ⟨hfresh', hgranted⟩ : ¬ S.isSettled store' (rsvKey id) ∧
          (result = .ok () → S.isOpen store' (rsvKey id) ∧
            S.counter store' = op.exact.place (S.counter store)) :=
        Quota.CountingStore.reserveVia_fresh (net (rsvKey id)) hfresh hnd hstore htotal hfits.room
      have hcounter : S.counter store' = _ :=
        Quota.CountingStore.reserveVia_counter (net (rsvKey id)) hnd hstore htotal hfits.room
      have hplace := @Quota.CountingStore.place_provider D.quota rsv (dayString now)
        (S.counter store)
      have hheld : ∀ p, 0 ≤ heldFrom rsv p := by
        intro p
        unfold heldFrom
        split_ifs <;> omega
      have hraised : ∀ p, 0 ≤ x.raised (pTokensKey p (dayString now)) +
          (S.counter store' (pTokensKey p (dayString now)) -
            S.counter store (pTokensKey p (dayString now))) := by
        intro p
        have h₀ := hcov.raised_nonneg hbills p
        have h₁ := hheld p
        rw [hcounter]
        split_ifs
        · rw [hplace p]
          omega
        · omega
      rw [show x.go S D now id net store (.run t o) = _ from go_run hn o]
      set x' : Exchange := { x with
        state := step x.state (.run t ans)
        raised := fun k => x.raised k + (S.counter store' k - S.counter store k)
        unheard := x.unheard || unheardReserve S D now id net store
          (.admitReq x.client provider model x.body.promptEst.toInt64 x.body.maxTokens) } with hx'
      change x'.Backed S (dayString now) store' ∧ ¬ S.isSettled store' (rsvKey id) ∧ _ ∧ _
      have hcov' : x'.Covered (dayString now) := by
        refine ⟨?_, fun p => ?_⟩
        · rw [hbills']
          exact List.forall_mem_nil _
        · rw [hbills', tokensOf_nil]
          exact hraised p
      cases hr : result with
      | error e =>
          rw [hr] at hst hadm'
          have hnone : x'.state.admissions = [] := by
            rw [hadm']
            cases e <;> rfl
          have hst' : Standing (Records x.client) x'.state false := by
            cases e <;> exact hst
          refine ⟨.unreserved hst' hcov' hnone fun _ => hbills', hfresh', hadm, ?_⟩
          rw [hnone]
          exact List.forall_mem_nil _
      | ok u =>
          rw [hr] at hst hadm'
          obtain ⟨hopen, hplaced⟩ := hgranted hr
          refine ⟨.reserved hst hcov' hadm' fun _ => ⟨hbills', hopen, htotal, fun p => ?_⟩, hfresh',
            hadm, ?_⟩
          · have h₀ := hcov.raised_nonneg hbills p
            show _ ≤ x.raised _ + (S.counter store' _ - _)
            rw [hplaced, hplace p]
            omega
          · rw [hadm']
            exact List.forall_mem_singleton.mpr rfl

theorem go_bill {C : Op → Prop} (hC : IsCharge C) {t : Thread} {e : Op}
    (hst : Standing C x.state false) (hn : x.state.next t = some e) (he : C e)
    (hbills : x.state.bills = []) (o : Oracle) :
    Standing C (x.go S D now id net store (.run t o)).1.state true ∧
      (x.go S D now id net store (.run t o)).1.state.bills = e.bill?.toList ∧
      (x.go S D now id net store (.run t o)).1.state.admissions = x.state.admissions := by
  obtain ⟨hm, hadm⟩ := hC e he
  have hnone := @perform_of_meters S D now id net store x.state e hm o
  rw [go_run hn]
  refine ⟨?_, ?_⟩
  · rcases hst.run hC hn (fun e => (wireAnswer S D now id net o store e).1) with ⟨h, -⟩ | hst'
    · exact absurd h hnone
    · rwa [hm, Bool.or_true] at hst'
  · rcases bills_step_run hn hadm (fun e => (wireAnswer S D now id net o store e).1) with
      ⟨h, -⟩ | ⟨hb, ha⟩
    · exact absurd h hnone
    · rw [hbills, List.nil_append] at hb
      exact ⟨hb, ha⟩

/-- A settle that takes effect charges the provider of the reservation with the usage. -/
theorem Exchange.Backed.go_settle {t : Thread} {rsv : Reservation} {p d : Int64}
    (h : x.Backed S (dayString now) store) (hn : x.state.next t = some (.settle rsv p d))
    (hfits : Op.Fits S D now id store (.settle rsv p d)) (hstore : Solvent S store)
    (hnet : (net (rsvKey rsv.id)).carried = true) (o : Oracle) :
    (x.go S D now id net store (.run t o)).1.Backed S (dayString now)
        (x.go S D now id net store (.run t o)).2 ∧
      (x.go S D now id net store (.run t o)).1.state.admissions = x.state.admissions ∧
      rsv ∈ x.state.admissions := by
  cases h with
  | arrived harr => rcases harr.asked hn with hm | ⟨_, _, heq⟩ <;> contradiction
  | unreserved hst => rcases hst.asked hn with hm | ⟨he, -⟩ <;> contradiction
  | @reserved rsv₀ charged hst hcov hadm hbefore =>
      obtain hm | ⟨rfl, rfl⟩ := hst.asked hn
      · cases hm
      obtain ⟨hbills, hopen, htotal, hheld⟩ := hbefore rfl
      have hp : 0 ≤ (p + d).toInt := hfits.usage_nonneg
      -- the difference to the reservation fits in 64 bits
      have hdelta : (p + d - rsv.reservedTotal).toInt =
          (p + d).toInt - rsv.reservedTotal.toInt := Wrapping.toInt_sub_of_nonneg hp htotal
      obtain ⟨hst', hbills', hadm'⟩ := @go_bill S D x now id net store _ (isCharge_settles rsv) t _
        hst hn rfl hbills o
      have hraised := @raised_go S D x now id net store t _ hn o
      have hmoved : ∀ q, S.counter (x.go S D now id net store (.run t o)).2
          (pTokensKey q (dayString now)) = if q = rsv.provider then
            max (S.counter store (pTokensKey q (dayString now)) +
              (p + d - rsv.reservedTotal).toInt) 0
          else S.counter store (pTokensKey q (dayString now)) := by
        rw [go_run hn]
        exact Quota.CountingStore.settleVia_provider hnet hopen hstore hfits.room
      generalize x.go S D now id net store (.run t o) = y at *
      refine ⟨.reserved hst' ⟨?_, fun q => ?_⟩ (hadm'.trans hadm) (by simp), hadm',
        hadm ▸ List.mem_singleton_self rsv⟩
      · rw [hbills']
        exact List.forall_mem_singleton.mpr hp
      · have hq := hheld q
        rw [hbills', show Op.bill? (.settle rsv p d) = some (rsv.provider, p + d) from rfl,
          Option.toList_some, tokensOf_singleton, hraised, hmoved, hdelta]
        unfold heldFrom at hq
        by_cases hprov : q = rsv.provider
        · rw [if_pos hprov] at hq
          rw [if_pos hprov.symm, if_pos hprov]
          dsimp only
          omega
        · rw [if_neg hprov] at hq
          rw [if_neg (Ne.symm hprov), if_neg hprov]
          omega

/-- A record that reaches the counter of its provider charges it with the usage. -/
theorem Exchange.Backed.go_record {t : Thread} {c provider model : String} {p d : Int64}
    (h : x.Backed S (dayString now) store)
    (hn : x.state.next t = some (.record c provider model p d))
    (hfits : Op.Fits S D now id store (.record c provider model p d)) (hstore : Solvent S store)
    (hnet : (net (pTokensKey provider (dayString now))).carried = true) (o : Oracle) :
    (x.go S D now id net store (.run t o)).1.Backed S (dayString now)
        (x.go S D now id net store (.run t o)).2 ∧
      (x.go S D now id net store (.run t o)).1.state.admissions = x.state.admissions := by
  cases h with
  | arrived harr => rcases harr.asked hn with hm | ⟨_, _, heq⟩ <;> contradiction
  | reserved hst => rcases hst.asked hn with hm | ⟨he, -⟩ <;> contradiction
  | @unreserved charged hst hcov hadm hbefore =>
      obtain hm | ⟨rfl, rfl⟩ := hst.asked hn
      · cases hm
      have hbills := hbefore rfl
      have hp : 0 ≤ (p + d).toInt := hfits.usage_nonneg
      obtain ⟨hst', hbills', hadm'⟩ := @go_bill S D x now id net store _
        (isCharge_records x.client) t _ hst hn rfl hbills o
      have hraised := @raised_go S D x now id net store t _ hn o
      have hclient : (x.go S D now id net store (.run t o)).1.client = x.client := by rw [go_run hn]
      have hmoved : ∀ q, S.counter (x.go S D now id net store (.run t o)).2
          (pTokensKey q (dayString now)) = S.counter store (pTokensKey q (dayString now)) +
            if (net (pTokensKey provider (dayString now))).carried = true ∧ q = provider then
              (p + d).toInt else 0 := by
        rw [go_run hn]
        exact Quota.CountingStore.record_provider net now hstore hp hfits.room
      rw [← hclient] at hst'
      generalize x.go S D now id net store (.run t o) = y at *
      refine ⟨.unreserved hst' ⟨?_, fun q => ?_⟩ (hadm'.trans hadm) (by simp), hadm'⟩
      · rw [hbills']
        exact List.forall_mem_singleton.mpr hp
      · have h₀ := hcov.raised_nonneg hbills q
        rw [hbills', show Op.bill? (.record x.client provider model p d) =
          some (provider, p + d) from rfl, Option.toList_some, tokensOf_singleton, hraised, hmoved]
        by_cases hprov : q = provider
        · rw [if_pos hprov.symm, if_pos ⟨hnet, hprov⟩]
          dsimp only
          omega
        · rw [if_neg (Ne.symm hprov), if_neg fun h => hprov h.2]
          omega

/-- The record of a reservation that an operation may write. -/
def Op.touched (id : String) : Op → Option String
  | .admitReq .. => some id
  | .settle rsv _ _ => some rsv.id
  | _ => none

theorem wireAnswer_frame (e : Op) (o : Oracle) {r : String}
    (hr : ∀ i ∈ e.touched id, r ≠ rsvKey i) :
    (S.isOpen store r → S.isOpen (wireAnswer S D now id net o store e).2 r) ∧
      (S.isSettled (wireAnswer S D now id net o store e).2 r ↔ S.isSettled store r) := by
  cases e with
  | admitReq c provider model est cap =>
      exact Quota.CountingStore.reserveVia_frame (net (rsvKey id)) (hr id rfl)
  | settle rsv p d =>
      exact Quota.CountingStore.settleVia_frame (net (rsvKey rsv.id)) p d (hr rsv.id rfl)
  | record c provider model p d =>
      have hincr : ∀ (key : String) (amount : Int64) (s : S.State),
          (S.isOpen s r → S.isOpen (S.incrVia (net key) key amount s).2 r) ∧
            (S.isSettled (S.incrVia (net key) key amount s).2 r ↔ S.isSettled s r) := by
        intro key amount s
        have hframe := S.incr_frame key amount s r
        unfold Quota.CountingStore.incrVia
        cases net key with
        | failed msg => exact ⟨fun h => h, Iff.rfl⟩
        | done => exact ⟨hframe.1.mpr, hframe.2⟩
        | lost msg => exact ⟨hframe.1.mpr, hframe.2⟩
      simp only [wireAnswer, Quota.Metering.record]
      refine ⟨fun hopen => ?_, ?_⟩
      · exact (hincr ..).1 ((hincr ..).1 ((hincr ..).1 ((hincr ..).1 ((hincr ..).1 hopen))))
      · rw [(hincr ..).2, (hincr ..).2, (hincr ..).2, (hincr ..).2, (hincr ..).2]
  | _ => exact ⟨fun h => h, Iff.rfl⟩

theorem honest_wireAnswer (o : Oracle) :
    Honest (fun e => (wireAnswer S D now id net o store e).1) := by
  intro c provider model est cap rsv h
  simp only [wireAnswer, Quota.Metering.admitReq] at h
  generalize (S.reserveVia (net (rsvKey id)) _ store).1 = result at h
  cases result with
  | ok u =>
      cases h
      rfl
  | error e => cases e <;> cases h

theorem feeding_go (h : Feeding x.state) (event : RunEvent) :
    Feeding (x.go S D now id net store event).1.state := by
  by_cases hrun : ∃ t o, event = .run t o
  · obtain ⟨t, o, rfl⟩ := hrun
    cases hn : x.state.next t with
    | none =>
        simp only [Exchange.go, hn]
        exact h
    | some e =>
        rw [go_run hn]
        refine h.step _ ?_
        rintro t' o' heq
        cases heq
        exact honest_wireAnswer o
  · rw [go_other fun t o heq => hrun ⟨t, o, heq⟩]
    refine h.step event fun t o heq => absurd ⟨t, o, heq⟩ hrun

/-- **One event of one request** against the counters. -/
theorem Exchange.Backed.go (h : x.Backed S today store) (hstore : Solvent S store)
    {others : Set String}
    (hown : ∀ rsv ∈ x.state.admissions, rsv.id ∉ others) {event : RunEvent}
    (hday : ∀ t o, event = .run t o → dayString now = today)
    (hfits : ∀ t o, event = .run t o → ∀ e ∈ x.state.next t,
      e.Fits S D now id store ∧ e.Reaches now net)
    (hfresh : ∀ t o, event = .run t o → ∀ e ∈ x.state.next t, e.isAdmission = true →
      id ∉ others ∧ ¬ S.isSettled store (rsvKey id)) :
    x.Leaves S today others (x.go S D now id net store event).1 store
      (x.go S D now id net store event).2 := by
  by_cases hstill : ∀ t o e, event = .run t o → x.state.next t = some e → e.meters = false
  · obtain ⟨hbacked, hadm, hstore⟩ := @Exchange.Backed.go_still S D x now id net store today h
      event hstill
    refine ⟨by rwa [hstore], ?_, ?_, ?_, ?_⟩
    · rw [hstore]
      exact fun _ _ hopen => hopen
    · rw [hstore]
      exact fun _ hsettled => .inl hsettled
    · rw [hadm]
      exact fun _ hrsv => hrsv
    · rwa [hadm]
  · simp only [not_forall] at hstill
    obtain ⟨t, o, e, rfl, hn, hm⟩ := hstill
    obtain rfl := hday t o rfl
    obtain ⟨hfit, hreach⟩ := hfits t o rfl e hn
    have hframe : ∀ {r : String}, (∀ i ∈ e.touched id, r ≠ rsvKey i) →
        (S.isOpen store r → S.isOpen (x.go S D now id net store (.run t o)).2 r) ∧
          (S.isSettled (x.go S D now id net store (.run t o)).2 r ↔ S.isSettled store r) := by
      intro r hr
      rw [go_run hn]
      exact wireAnswer_frame e o hr
    have hne : ∀ {i j : String}, i ≠ j → rsvKey i ≠ rsvKey j := fun hij heq =>
      hij (Quota.rsvKey_inj.mp heq)
    cases e with
    | admitReq c provider model est cap =>
        obtain ⟨hother, hnot⟩ := hfresh t o rfl _ hn rfl
        obtain ⟨hbacked, hnot', hnone, hids⟩ := h.go_admitReq hn hfit hstore hnot o
        refine ⟨hbacked, fun i hi => (hframe ?_).1, fun r hr => ?_, ?_, fun rsv hrsv => ?_⟩
        · rintro j ⟨⟩
          exact hne fun heq => hother (heq ▸ hi)
        · -- the new reservation is not settled
          by_cases heq : r = rsvKey id
          · exact absurd (heq ▸ hr) hnot'
          · refine .inl ((hframe ?_).2.mp hr)
            rintro j ⟨⟩
            exact heq
        · rw [hnone]
          exact List.forall_mem_nil _
        · rw [hids rsv hrsv]
          exact hother
    | settle rsv p d =>
        obtain ⟨hbacked, hadm, hmem⟩ := h.go_settle hn hfit hstore hreach o
        refine ⟨hbacked, fun i hi => (hframe ?_).1, fun r hr => ?_, ?_, ?_⟩
        · rintro j ⟨⟩
          exact hne fun heq => hown rsv hmem (heq ▸ hi)
        · by_cases heq : r = rsvKey rsv.id
          · exact .inr ⟨rsv, hmem, heq⟩
          · refine .inl ((hframe ?_).2.mp hr)
            rintro j ⟨⟩
            exact heq
        · rw [hadm]
          exact fun _ hrsv => hrsv
        · rwa [hadm]
    | record c provider model p d =>
        obtain ⟨hbacked, hadm⟩ := h.go_record hn hfit hstore hreach o
        refine ⟨hbacked, fun i _ => (hframe ?_).1, fun r hr => .inl ((hframe ?_).2.mp hr), ?_, ?_⟩
        · rintro j ⟨⟩
        · rintro j ⟨⟩
        · rw [hadm]
          exact fun _ hrsv => hrsv
        · rwa [hadm]
    | _ => exact absurd rfl hm

end Steps

/-! ### The requests and the store -/

section Wire

variable {S : CountingStore} {D : MeteredGateway} {w : Wire S} {today : String}

/-- The requests against the store: each is backed, their reservations are distinct, only theirs
are settled, and a counter is the sum of what they have raised, within the range of the store. -/
structure Wire.Backed (today : String) (w : Wire S) : Prop where
  solvent : Solvent S w.store
  bounded : ∀ k, S.counter w.store k < S.bound
  backed : ∀ x ∈ w.exchanges, x.Backed S today w.store
  feeding : ∀ x ∈ w.exchanges, Feeding x.state
  distinct : ∀ (i j : ℕ) (x y : Exchange), w.exchanges[i]? = some x → w.exchanges[j]? = some y →
    ∀ rsv ∈ x.state.admissions, ∀ rsv' ∈ y.state.admissions, rsv.id = rsv'.id → i = j
  settled : ∀ r, S.isSettled w.store r →
    ∃ x ∈ w.exchanges, ∃ rsv ∈ x.state.admissions, r = rsvKey rsv.id
  counter : ∀ k, S.counter w.store k = (w.exchanges.map fun x => x.raised k).sum

/-- What has been fed of a provider. -/
def Wire.fedTo (w : Wire S) (p : String) : ℤ :=
  (w.exchanges.map fun x => tokensOf p x.state.fed).sum

/-- What the rows say was served by it. -/
def Wire.servedTo (w : Wire S) (p : String) : ℤ :=
  (w.exchanges.map fun x => tokensOf p x.state.served).sum

/-- The amounts of an event fit, its charges reach the counters of the day, and an admission draws
an id that no request has.  No record expires before its reservation is settled. -/
def Wire.Charges (D : MeteredGateway) (today : String) (w : Wire S) : WireEvent → Prop
  | .arrive .. => True
  | .go i now id net (.run t _) => dayString now = today ∧
      ∀ x ∈ w.exchanges[i]?, ∀ e ∈ x.state.next t, e.Fits S D now id w.store ∧ e.Reaches now net ∧
        (e.isAdmission = true → ∀ y ∈ w.exchanges, ∀ rsv ∈ y.state.admissions, rsv.id ≠ id)
  | .go .. => True
  | .lapse key => ∀ x ∈ w.exchanges, ∀ rsv ∈ x.state.admissions, rsvKey rsv.id = key →
      x.state.bills ≠ []

theorem Wire.Backed.empty (today : String) : (Wire.empty S).Backed today where
  solvent k := (S.counter_empty k).ge
  bounded k := (S.counter_empty k).trans_lt S.bound_pos
  backed _ hx := absurd hx List.not_mem_nil
  feeding _ hx := absurd hx List.not_mem_nil
  distinct i j x y hx := by simp [Wire.empty] at hx
  settled r hr := absurd hr (S.settled_empty r)
  counter k := S.counter_empty k

/-- What was fed of a provider is at least what was served, and the store has charged it. -/
theorem Wire.Backed.between (h : w.Backed today) (p : String) :
    w.servedTo p ≤ w.fedTo p ∧ w.fedTo p ≤ S.counter w.store (pTokensKey p today) := by
  have hone : ∀ x ∈ w.exchanges, tokensOf p x.state.served ≤ tokensOf p x.state.fed ∧
      tokensOf p x.state.fed ≤ x.raised (pTokensKey p today) := by
    intro x hx
    have hcov := (h.backed x hx).covered
    obtain ⟨hserved, hfed⟩ := (h.feeding x hx).mirrored.between hcov.amounts p
    exact ⟨hserved, hfed.trans (hcov.raised p)⟩
  refine ⟨List.sum_le_sum fun x hx => (hone x hx).1, ?_⟩
  rw [h.counter]
  exact List.sum_le_sum fun x hx => (hone x hx).2

theorem sum_set {f : Exchange → ℤ} {l : List Exchange} {i : ℕ} {x : Exchange}
    (hx : l[i]? = some x) (x' : Exchange) :
    ((l.set i x').map f).sum = (l.map f).sum + (f x' - f x) := by
  obtain ⟨hlt, rfl⟩ := List.getElem?_eq_some_iff.mp hx
  rw [List.map_set, List.sum_set', dif_pos (by simpa using hlt), List.getElem_map]
  ring

/-- The ids of the reservations of the other requests. -/
def Wire.others (w : Wire S) (i : ℕ) : Set String :=
  {n | ∃ j y, j ≠ i ∧ w.exchanges[j]? = some y ∧ ∃ rsv ∈ y.state.admissions, rsv.id = n}

theorem Wire.Backed.set (h : w.Backed today) {i : ℕ} {x x' : Exchange} {store' : S.State}
    (hx : w.exchanges[i]? = some x) (hsolvent : Solvent S store')
    (hbounded : ∀ k, S.counter store' k < S.bound)
    (hleaves : x.Leaves S today (w.others i) x' w.store store') (hfeeding : Feeding x'.state)
    (hraised : ∀ k, x'.raised k = x.raised k + (S.counter store' k - S.counter w.store k)) :
    Wire.Backed today (⟨store', w.exchanges.set i x'⟩ : Wire S) := by
  obtain ⟨hlt, -⟩ := List.getElem?_eq_some_iff.mp hx
  -- the requests after the event
  have hget : ∀ j y, (w.exchanges.set i x')[j]? = some y →
      (j = i ∧ y = x') ∨ (j ≠ i ∧ w.exchanges[j]? = some y) := by
    intro j y hy
    by_cases hj : j = i
    · subst hj
      rw [List.getElem?_set_self hlt, Option.some.injEq] at hy
      exact .inl ⟨rfl, hy.symm⟩
    · rw [List.getElem?_set_ne (Ne.symm hj)] at hy
      exact .inr ⟨hj, hy⟩
  refine ⟨hsolvent, hbounded, fun y hy => ?_, fun y hy => ?_,
    fun j k y z hy hz rsv hrsv rsv' hrsv' hid => ?_, fun r hr => ?_, fun k => ?_⟩
  · obtain ⟨j, hj⟩ := List.mem_iff_getElem?.mp hy
    rcases hget j y hj with ⟨-, rfl⟩ | ⟨hne, hj⟩
    · exact hleaves.backed
    · refine (h.backed y (List.mem_of_getElem? hj)).frame fun _ rsv hrsv hopen => ?_
      exact hleaves.frame rsv.id ⟨j, y, hne, hj, rsv, hrsv, rfl⟩ hopen
  · rcases List.mem_or_eq_of_mem_set hy with hy | rfl
    · exact h.feeding y hy
    · exact hfeeding
  · rcases hget j y hy with ⟨rfl, rfl⟩ | ⟨hj, hy'⟩
    · rcases hget k z hz with ⟨rfl, rfl⟩ | ⟨hk, hz'⟩
      · rfl
      · exact absurd ⟨k, z, hk, hz', rsv', hrsv', hid.symm⟩ (hleaves.own rsv hrsv)
    · rcases hget k z hz with ⟨rfl, rfl⟩ | ⟨hk, hz'⟩
      · exact absurd ⟨j, y, hj, hy', rsv, hrsv, hid⟩ (hleaves.own rsv' hrsv')
      · exact h.distinct j k y z hy' hz' rsv hrsv rsv' hrsv' hid
  · have hmine : ∀ rsv ∈ x.state.admissions,
        ∃ y ∈ w.exchanges.set i x', ∃ rsv' ∈ y.state.admissions, rsvKey rsv.id = rsvKey rsv'.id :=
      fun rsv hrsv => ⟨x', List.mem_set hlt x', rsv, hleaves.kept rsv hrsv, rfl⟩
    rcases hleaves.settled r hr with hr | ⟨rsv, hrsv, rfl⟩
    · obtain ⟨y, hy, rsv, hrsv, rfl⟩ := h.settled r hr
      obtain ⟨j, hj⟩ := List.mem_iff_getElem?.mp hy
      by_cases hji : j = i
      · obtain rfl := hji
        obtain rfl := Option.some.inj (hx.symm.trans hj)
        exact hmine rsv hrsv
      · have hset : (w.exchanges.set i x')[j]? = some y := by
          rw [List.getElem?_set_ne (Ne.symm hji)]
          exact hj
        exact ⟨y, List.mem_of_getElem? hset, rsv, hrsv, rfl⟩
    · exact hmine rsv hrsv
  · rw [sum_set hx, hraised, ← h.counter]
    show S.counter store' k = _
    omega

/-- A new request has no reservation. -/
theorem Wire.Backed.arrive (h : w.Backed today) (client requestId : String)
    (body : ChatCompletionRequest) :
    (w.step S D (.arrive client requestId body)).Backed today := by
  refine ⟨h.solvent, h.bounded, List.forall_mem_append.mpr ⟨h.backed, ?_⟩,
    List.forall_mem_append.mpr ⟨h.feeding, ?_⟩,
    fun i j x y hx hy rsv hrsv rsv' hrsv' hid => ?_, fun r hr => ?_, fun k => ?_⟩
  · rw [List.forall_mem_singleton]
    refine .arrived (arrived_init D.metered requestId client body) ⟨?_, fun p => le_rfl⟩ rfl rfl
    exact List.forall_mem_nil _
  · rw [List.forall_mem_singleton]
    exact feeding_init D.metered requestId client body
  · have hold : ∀ (i : ℕ) (x : Exchange),
        (w.exchanges ++ [Exchange.init D client requestId body])[i]? = some x →
          ∀ rsv ∈ x.state.admissions, w.exchanges[i]? = some x := by
      intro i x hx rsv hrsv
      rw [List.getElem?_append] at hx
      split_ifs at hx with hlt
      · exact hx
      · have hmem := List.mem_of_getElem? hx
        rw [List.mem_singleton] at hmem
        subst hmem
        exact (List.not_mem_nil hrsv).elim
    exact h.distinct i j x y (hold i x hx rsv hrsv) (hold j y hy rsv' hrsv') rsv hrsv rsv' hrsv'
      hid
  · obtain ⟨x, hx, hrsv⟩ := h.settled r hr
    exact ⟨x, List.mem_append_left _ hx, hrsv⟩
  · show S.counter w.store k = ((w.exchanges ++ [_]).map _).sum
    rw [List.map_append, List.sum_append, ← h.counter]
    exact (add_zero _).symm

/-- The record of a reservation that has been charged expires. -/
theorem Wire.Backed.lapse (h : w.Backed today) {key : String}
    (hcharges : w.Charges D today (.lapse key)) : (w.step S D (.lapse key)).Backed today := by
  simp only [Wire.step]
  cases hlapse : S.lapse key w.store with
  | none => exact h
  | some store =>
      have hcounter : S.counter store = S.counter w.store := S.lapse_counter hlapse
      refine ⟨h.solvent.lapse hlapse, fun k => ?_, fun x hx => ?_, h.feeding, h.distinct,
        fun r hr => ?_, fun k => ?_⟩
      · show S.counter store k < _
        rw [hcounter]
        exact h.bounded k
      · refine (h.backed x hx).frame fun hnone rsv hrsv hopen => ?_
        have hne : rsvKey rsv.id ≠ key := fun heq => hcharges x hx rsv hrsv heq hnone
        exact (S.lapse_frame hlapse hne).1.mpr hopen
      · by_cases hrkey : r = key
        · exact absurd (hrkey ▸ hr) (S.lapse_closes hlapse).2
        · exact h.settled r ((S.lapse_frame hlapse hrkey).2.mp hr)
      · show S.counter store k = _
        rw [hcounter]
        exact h.counter k

/-- After an event of a request the store is in its range, and the request has raised the counters
by what they have grown. -/
theorem Wire.Backed.ranges (h : w.Backed today) (x : Exchange) {now : ℤ} {id : String}
    (net : String → Outcome) {event : RunEvent}
    (hfits : ∀ t o, event = .run t o → ∀ e ∈ x.state.next t, e.Fits S D now id w.store) :
    Solvent S (x.go S D now id net w.store event).2 ∧
      (∀ k, S.counter (x.go S D now id net w.store event).2 k < S.bound) ∧
      ∀ k, (x.go S D now id net w.store event).1.raised k =
        x.raised k + (S.counter (x.go S D now id net w.store event).2 k -
          S.counter w.store k) := by
  by_cases hrun : ∃ t o, event = .run t o
  · obtain ⟨t, o, rfl⟩ := hrun
    cases hn : x.state.next t with
    | none =>
        simp only [Exchange.go, hn]
        exact ⟨h.solvent, h.bounded, fun k => by omega⟩
    | some e =>
        have hfit := hfits t o rfl e hn
        refine ⟨?_, ?_, raised_go hn o⟩
        · rw [go_run hn]
          exact solvent_wireAnswer h.solvent hfit
        · rw [go_run hn]
          exact bounded_wireAnswer h.solvent hfit h.bounded
  · rw [go_other fun t o heq => hrun ⟨t, o, heq⟩]
    exact ⟨h.solvent, h.bounded, fun k => by dsimp only; omega⟩

theorem Wire.Backed.go (h : w.Backed today) {i : ℕ} {now : ℤ} {id : String}
    {net : String → Outcome} {event : RunEvent}
    (hcharges : w.Charges D today (.go i now id net event)) :
    (w.step S D (.go i now id net event)).Backed today := by
  cases hx : w.exchanges[i]? with
  | none =>
      simp only [Wire.step, hx]
      exact h
  | some x =>
      simp only [Wire.step, hx]
      have hfits : ∀ t o, event = .run t o → ∀ e ∈ x.state.next t, e.Fits S D now id w.store := by
        rintro t o rfl e he
        exact (hcharges.2 x hx e he).1
      obtain ⟨hsolvent, hbounded, hraised⟩ := h.ranges x net hfits
      have hown : ∀ rsv ∈ x.state.admissions, rsv.id ∉ w.others i := by
        rintro rsv hrsv ⟨j, y, hj, hy, rsv', hrsv', hid⟩
        exact hj (h.distinct i j x y hx hy rsv hrsv rsv' hrsv' hid.symm).symm
      refine h.set hx hsolvent hbounded ?_
        (feeding_go (h.feeding x (List.mem_of_getElem? hx)) event) hraised
      refine (h.backed x (List.mem_of_getElem? hx)).go h.solvent hown ?_ ?_ ?_
      · rintro t o rfl
        exact hcharges.1
      · rintro t o rfl e he
        obtain ⟨hfit, hreach, -⟩ := hcharges.2 x hx e he
        exact ⟨hfit, hreach⟩
      · rintro t o rfl e he hadm
        have hfresh := (hcharges.2 x hx e he).2.2 hadm
        refine ⟨?_, fun hsettled => ?_⟩
        · rintro ⟨j, y, -, hy, rsv, hrsv, hid⟩
          exact hfresh y (List.mem_of_getElem? hy) rsv hrsv hid
        · obtain ⟨y, hy, rsv, hrsv, hkey⟩ := h.settled _ hsettled
          exact hfresh y hy rsv hrsv (Quota.rsvKey_inj.mp hkey).symm

/-- **One event** of the requests and the store. -/
theorem Wire.Backed.step (h : w.Backed today) {event : WireEvent}
    (hcharges : w.Charges D today event) : (w.step S D event).Backed today := by
  cases event with
  | arrive client requestId body => exact h.arrive client requestId body
  | lapse key => exact h.lapse hcharges
  | go i now id net event => exact h.go hcharges

end Wire

/-! ### The router -/

open Routing (PolicyEngine Builtins)

section Router

variable {F : Type} [Builtins F] {router : PolicyEngine F} {now : F}

/-- The call of the router that an operation is. -/
def Op.call? (now : F) : Op → Option (Routing.Call F Int64)
  | .resolve model clientId => some (.resolve now model clientId)
  | .recordTokensToday provider tokens => some (.usage now provider tokens)
  | _ => none

/-- What the router answers; everything else is answered by the environment. -/
def routerAnswer (router : PolicyEngine F) (now : F) (o : Oracle) : (e : Op) → Option (Res e)
  | .resolve model clientId => some (router.resolve now model clientId).1
  | .recordTokensToday _ _ => some ()
  | e => o e

/-- Only usage moves the count. -/
theorem providerTokens_step {call : Routing.Call F Int64} (h : ∀ now p n, call ≠ .usage now p n) :
    (router.step call).providerTokens = router.providerTokens := by
  cases call with
  | usage now p n => exact absurd rfl (h now p n)
  | attack now severity client =>
      simp only [PolicyEngine.step, PolicyEngine.onAttackDetected, PolicyEngine.switchProvider,
        PolicyEngine.blockSource]
      split_ifs
      · rfl
      · rfl
      · split <;> rfl
      · split <;> rfl
  | resolve now model client =>
      have hexpire : (router.expireOverride now).providerTokens = router.providerTokens := by
        unfold PolicyEngine.expireOverride
        split_ifs <;> rfl
      simp only [PolicyEngine.step, PolicyEngine.resolve]
      split_ifs
      · rfl
      · split <;> exact hexpire

theorem providerTokens_usage (p q : String) (n : Int64) {today : String}
    (hday : PolicyEngine.day now = today) :
    (router.step (.usage now p n)).providerTokens (q, today) =
      router.providerTokens (q, today) + if q = p then n else 0 := by
  subst hday
  simp only [PolicyEngine.step, PolicyEngine.recordTokensToday, PolicyEngine.recordTokens,
    Function.update_apply, Prod.mk.injEq, and_true]
  split_ifs with hq
  · rw [hq]
  · exact (Int64.add_zero _).symm

end Router

/-! ### The machine -/

/-- The requests, the store and the router. -/
structure Site (S : CountingStore) (F : Type) where
  wire : Wire S
  router : PolicyEngine F

/-- A request arrives, or one goes on at a reading of the clock, or an attack is reported, or the
record of a reservation expires. -/
inductive SiteEvent (F : Type) where
  | arrive (client requestId : String) (body : ChatCompletionRequest)
  | go (i : ℕ) (now : F) (id : String) (net : String → Outcome) (event : RunEvent)
  | attack (now : F) (severity client : String)
  | lapse (reservationKey : String)

section Site

variable {F : Type} [Builtins F]

/-- What an event is for the requests and the store. -/
def SiteEvent.onWire (router : PolicyEngine F) : SiteEvent F → Option WireEvent
  | .arrive client requestId body => some (.arrive client requestId body)
  | .go i now id net (.run t o) =>
      some (.go i (Builtins.seconds now) id net (.run t (routerAnswer router now o)))
  | .go i now id net event => some (.go i (Builtins.seconds now) id net event)
  | .attack .. => none
  | .lapse key => some (.lapse key)

/-- What it is for the router. -/
def Site.call? {S : CountingStore} (site : Site S F) : SiteEvent F → Option (Routing.Call F Int64)
  | .go i now _ _ (.run t _) =>
      ((site.wire.exchanges[i]?).bind (·.state.next t)).bind (Op.call? now)
  | .attack now severity client => some (.attack now severity client)
  | _ => none

/-- One event. -/
def Site.step (S : CountingStore) (D : MeteredGateway) (site : Site S F) (event : SiteEvent F) :
    Site S F where
  wire := (event.onWire site.router).elim site.wire (site.wire.step S D)
  router := (site.call? event).elim site.router site.router.step

/-- Before the first request. -/
def Site.start (S : CountingStore) (router : PolicyEngine F) : Site S F := ⟨Wire.empty S, router⟩

/-- The charges of an event reach the counters of the day. -/
def Site.Charges {S : CountingStore} (D : MeteredGateway) (today : String) (site : Site S F)
    (event : SiteEvent F) : Prop :=
  ∀ e ∈ event.onWire site.router, site.wire.Charges D today e

/-- The router has counted what it was fed. -/
structure Site.Counted {S : CountingStore} (today : String) (site : Site S F) : Prop where
  wire : site.wire.Backed today
  router : ∀ p, site.router.providerTokens (p, today) = Int64.ofInt (site.wire.fedTo p)

variable {S : CountingStore} {D : MeteredGateway} {today : String} {site : Site S F}

theorem fed_step_run {s : State} {t : Thread} {e : Op} (hn : s.next t = some e) {o : Oracle}
    (ho : e.fed? ≠ none → o e ≠ none) :
    (step s (.run t o)).fed = s.fed ++ e.fed?.toList := by
  rcases run_of_next hn o with ⟨hnone, hsame⟩ | ⟨r, s', hperform, hlog⟩
  · cases hfed : e.fed? with
    | none => rw [hsame, Option.toList_none, List.append_nil]
    | some x =>
        cases e with
        | recordTokensToday p n =>
            exact absurd (Option.map_eq_none_iff.mp hnone) (ho (by simp [hfed]))
        | _ => cases hfed
  · rw [← (perform_lists hperform).2.1]
    unfold State.fed
    rw [hlog]

theorem ofInt_fed (a : ℤ) (p q : String) (n : Int64) :
    Int64.ofInt (a + tokensOf q [(p, n)]) = Int64.ofInt a + if q = p then n else 0 := by
  rw [tokensOf_singleton, Int64.ofInt_add]
  by_cases hq : q = p
  · rw [if_pos hq, if_pos hq.symm, Int64.ofInt_toInt]
  · rw [if_neg hq, if_neg (Ne.symm hq)]
    rfl

section Fed

variable {w : Wire S} {i : ℕ} {now : ℤ} {id : String} {net : String → Outcome} {event : RunEvent}

theorem fedTo_go {x : Exchange} (hx : w.exchanges[i]? = some x) (p : String) :
    (w.step S D (.go i now id net event)).fedTo p = w.fedTo p +
      (tokensOf p (x.go S D now id net w.store event).1.state.fed - tokensOf p x.state.fed) := by
  simp only [Wire.step, hx, Wire.fedTo]
  exact sum_set hx _

theorem fedTo_still (hfed : ∀ x, w.exchanges[i]? = some x →
    (x.go S D now id net w.store event).1.state.fed = x.state.fed) (p : String) :
    (w.step S D (.go i now id net event)).fedTo p = w.fedTo p := by
  cases hx : w.exchanges[i]? with
  | none => simp only [Wire.step, hx]
  | some x => rw [fedTo_go hx, hfed x hx, sub_self, add_zero]

end Fed

/-- **One event** of the machine. -/
theorem Site.Counted.step (h : site.Counted today) {event : SiteEvent F}
    (hcharges : site.Charges D today event) : (site.step S D event).Counted today := by
  refine ⟨?_, fun q => ?_⟩
  · simp only [Site.step]
    cases hon : event.onWire site.router with
    | none => exact h.wire
    | some e => exact h.wire.step (hcharges e hon)
  · have hq := h.router q
    cases event with
    | arrive client requestId body =>
        show site.router.providerTokens (q, today) =
          Int64.ofInt ((site.wire.exchanges ++ [_]).map _).sum
        rw [List.map_append, List.sum_append, hq]
        exact congrArg Int64.ofInt (add_zero _).symm
    | lapse key => exact hq
    | attack now severity client =>
        have hsame : (site.router.step (.attack now severity client)).providerTokens =
            site.router.providerTokens := providerTokens_step (by simp)
        exact (congrFun hsame _).trans hq
    | go i now id net event =>
        by_cases hrun : ∃ t o, event = .run t o
        · obtain ⟨t, o, rfl⟩ := hrun
          have hday : dayString (Builtins.seconds now) = today := (hcharges _ rfl).1
          cases hasked : (site.wire.exchanges[i]?).bind (·.state.next t) with
          | none =>
              have hrouter :
                  (site.step S D (.go i now id net (.run t o))).router = site.router := by
                simp only [Site.step, Site.call?, hasked, Option.bind_none, Option.elim_none]
              rw [hrouter, hq]
              refine congrArg Int64.ofInt (fedTo_still (fun x hx => ?_) q).symm
              have hn : x.state.next t = none := by
                rwa [hx, Option.bind_some] at hasked
              simp only [Exchange.go, hn]
          | some e =>
              obtain ⟨x, hx, hn⟩ := Option.bind_eq_some_iff.mp hasked
              have hrouter : (site.step S D (.go i now id net (.run t o))).router =
                  (e.call? now).elim site.router site.router.step := by
                simp only [Site.step, Site.call?, hasked, Option.bind_some]
              have hfed : ((site.step S D (.go i now id net (.run t o))).wire).fedTo q =
                  site.wire.fedTo q + tokensOf q e.fed?.toList := by
                have hlog : (x.go S D (Builtins.seconds now) id net site.wire.store
                    (.run t (routerAnswer site.router now o))).1.state.fed =
                      x.state.fed ++ e.fed?.toList := by
                  rw [go_run hn]
                  refine fed_step_run hn fun hsome => ?_
                  cases e with
                  | recordTokensToday p n => exact Option.some_ne_none ()
                  | _ => exact absurd rfl hsome
                refine (fedTo_go hx q).trans ?_
                rw [hlog, tokensOf_append, add_sub_cancel_left]
              rw [hrouter, hfed]
              cases e with
              | recordTokensToday p n =>
                  exact (providerTokens_usage p q n hday).trans
                    ((congrArg (· + _) hq).trans (ofInt_fed _ p q n).symm)
              | resolve model clientId =>
                  have hsame : (site.router.step (.resolve now model clientId)).providerTokens =
                      site.router.providerTokens := providerTokens_step (by simp)
                  exact (congrFun hsame _).trans (hq.trans (congrArg _ (add_zero _).symm))
              | _ => exact hq.trans (congrArg _ (add_zero _).symm)
        · have hnot : ∀ t o, event ≠ .run t o := fun t o heq => hrun ⟨t, o, heq⟩
          have hsite : site.step S D (.go i now id net event) =
              ⟨site.wire.step S D (.go i (Builtins.seconds now) id net event), site.router⟩ := by
            cases event with
            | run t o => exact absurd rfl (hnot t o)
            | _ => rfl
          rw [hsite, hq]
          refine congrArg Int64.ofInt (fedTo_still (fun x hx => ?_) q).symm
          rw [go_other hnot]
          unfold State.fed
          rw [log_step_other hnot]

/-- **The router counts what was served and charged**, in every state of a run within one day in
which charges reach their counters: no request has fed it twice, and it has counted exactly what
it was fed, which is at least what the rows say was served by the provider, and at most what the
store has charged to it. -/
theorem router_mirrors (S : CountingStore) (D : MeteredGateway) (routing : Routing.RoutingConfig F)
    (today : String) (events : List (SiteEvent F))
    (hcharges : Runs.Along (Site.step S D) (Site.Charges D today)
      (Site.start S (PolicyEngine.new routing)) events) :
    let site := Runs.final (Site.step S D) (Site.start S (PolicyEngine.new routing)) events
    (∀ x ∈ site.wire.exchanges, x.state.fed.length ≤ 1) ∧
      ∀ p, (site.router.providerTokens (p, today)).toInt = site.wire.fedTo p ∧
        site.wire.servedTo p ≤ site.wire.fedTo p ∧
        site.wire.fedTo p ≤ S.counter site.wire.store (pTokensKey p today) := by
  intro site
  have hstart : (Site.start S (PolicyEngine.new routing)).Counted today :=
    ⟨.empty today, fun p => rfl⟩
  have hsite : site.Counted today :=
    Runs.final_invariant (fun _ _ h hc => h.step hc) hstart hcharges
  refine ⟨fun x hx => (hsite.wire.feeding x hx).mirrored.fed_once, fun p => ?_⟩
  obtain ⟨hserved, hcharged⟩ := hsite.wire.between p
  -- what was fed is charged, and so within the range of the store
  have hfed : 0 ≤ site.wire.fedTo p :=
    List.sum_nonneg fun v hv => by
      obtain ⟨x, hx, rfl⟩ := List.mem_map.mp hv
      exact (hsite.wire.feeding x hx).mirrored.fed_nonneg (hsite.wire.backed x hx).covered.amounts p
  have hlt := (hcharged.trans_lt (hsite.wire.bounded _)).trans_le S.bound_le
  rw [hsite.router p, Int64.toInt_ofInt_of_le (by omega) hlt]
  exact ⟨rfl, hserved, hcharged⟩

/-! ### A provider that fails once -/

instance Op.decidableReaches (now : ℤ) (net : String → Outcome) :
    (e : Op) → Decidable (e.Reaches now net)
  | .settle rsv _ _ => inferInstanceAs (Decidable ((net (rsvKey rsv.id)).carried = true))
  | .record _ provider _ _ _ =>
      inferInstanceAs (Decidable ((net (pTokensKey provider (dayString now))).carried = true))
  | .resolve .. | .admitReq .. | .chat .. | .chatStream .. | .recordTokensToday .. | .nextItem
  | .send .. | .inspect .. | .observe .. | .audit .. | .finish .. | .openStream .. | .mapItem ..
  | .flush | .cells | .swapRecorded | .dropGuard | .panic => inferInstanceAs (Decidable True)

instance Wire.decidableCharges (w : Wire S) : (event : WireEvent) →
    Decidable (w.Charges D today event)
  | .arrive .. => inferInstanceAs (Decidable True)
  | .go i now id net (.run t _) =>
      inferInstanceAs (Decidable (dayString now = today ∧
        ∀ x ∈ w.exchanges[i]?, ∀ e ∈ x.state.next t,
          e.Fits S D now id w.store ∧ e.Reaches now net ∧
          (e.isAdmission = true → ∀ y ∈ w.exchanges, ∀ rsv ∈ y.state.admissions, rsv.id ≠ id)))
  | .go _ _ _ _ .returned => inferInstanceAs (Decidable True)
  | .go _ _ _ _ .dropHandler => inferInstanceAs (Decidable True)
  | .go _ _ _ _ .dropBody => inferInstanceAs (Decidable True)
  | .lapse key => inferInstanceAs (Decidable (∀ x ∈ w.exchanges, ∀ rsv ∈ x.state.admissions,
      rsvKey rsv.id = key → x.state.bills ≠ []))

instance Site.decidableCharges (event : SiteEvent F) : Decidable (site.Charges D today event) :=
  Option.decidableForallMem (event.onWire site.router)

/-- A request is answered, and another one fails at the provider, in turn; an attack is reported
meanwhile. -/
def servedOnce : List (SiteEvent ℤ) :=
  [.arrive "c" "r" wordyRequest, .arrive "d" "s" wordyRequest] ++
    (List.replicate 8 [SiteEvent.go 0 0 "1" (fun _ => .done) (.run .handler (usageOracle false)),
      .attack 0 "high" "c",
      .go 1 0 "2" (fun _ => .done) (.run .handler (usageOracle true))]).flatten

def oneProvider : Routing.RoutingConfig ℤ := ⟨["p"], [], [], Routing.noFailover, "memory"⟩

/-- The machine after it. -/
def servedSite : Site .redis ℤ :=
  Runs.final (Site.step .redis openGateway) (Site.start .redis (PolicyEngine.new oneProvider))
    servedOnce

/-- The store has charged both requests, and the router has counted the one that was served. -/
theorem router_mirrors_servedOnce :
    ((∀ x ∈ servedSite.wire.exchanges, x.state.fed.length ≤ 1) ∧
      (servedSite.router.providerTokens ("p", dayString 0)).toInt = servedSite.wire.fedTo "p" ∧
      servedSite.wire.servedTo "p" ≤ servedSite.wire.fedTo "p" ∧
      servedSite.wire.fedTo "p" ≤
        CountingStore.redis.counter servedSite.wire.store (pTokensKey "p" (dayString 0))) ∧
      servedSite.wire.servedTo "p" = 7 ∧
      CountingStore.redis.counter servedSite.wire.store (pTokensKey "p" (dayString 0)) = 8 := by
  obtain ⟨honce, hcounts⟩ :=
    router_mirrors .redis openGateway oneProvider (dayString 0) servedOnce (by decide)
  exact ⟨⟨honce, hcounts "p"⟩, by decide, by decide⟩

end Site

end Chat

end FirewallLLM
