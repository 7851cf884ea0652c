import FirewallLLM.AuditAgreement
import FirewallLLM.CountedOnce
import FirewallLLM.MeteringDays

/-! # Audit and metering

The audit rows of all requests against the token counters of one store.  The reservations of the
requests are the book of the quota ledger: a hold is placed by the admission of a request and
closed by its settle, so that a token counter is the sum of what the requests of its client were
charged; and each of them has one row, with what it was charged.

`rows_agree`: in a run within one day, at the end of which every request has been settled and has
ended, the token counter of a client is the sum of its rows. -/

namespace FirewallLLM

namespace Chat

open Quota (CountingStore Outcome Balanced keyFamily cTokensKey cReqKey rsvKey dayString)
open Ledger (Hold charged ids)

/-! ### The book of the requests -/

/-- The hold of a request in the book of a day. -/
def Exchange.hold? (day : String) (x : Exchange) : Option (Hold String String) :=
  x.state.reservation.map fun rsv => {
    id := rsvKey rsv.id
    keys := Quota.Metering.tokenKeys rsv day
    held := rsv.reservedTotal.toInt
    final := x.state.charges.head?.map fun f => (f.1 + f.2).toInt }

section Machine

variable {S : CountingStore}

def Wire.book (day : String) (w : Wire S) : List (Hold String String) :=
  w.exchanges.filterMap (Exchange.hold? day)

/-- The audit log. -/
def Wire.rows (w : Wire S) : List Row := w.exchanges.flatMap (fun x => x.state.rows)

variable (S) (D : MeteredGateway)

/-- An admission draws a new id and is granted, and a settle takes effect. -/
def Wire.Serves (w : Wire S) (now : ℤ) (id : String) (net : String → Outcome) : Op → Prop
  | .admitReq c provider model est cap => net (rsvKey id) = .done ∧
      (S.reserve (D.reserveOp now id c provider model est cap) w.store).1.isOk = true ∧
      ∀ y ∈ w.exchanges, ∀ rsv ∈ y.state.reservation, rsv.id ≠ id
  | .settle rsv _ _ => (net (rsvKey rsv.id)).carried = true
  | _ => True

/-- The operation of an event is served, on this day, and no record expires before its reservation
is settled. -/
def Wire.Served (today : ℤ) (w : Wire S) : WireEvent → Prop
  | .arrive .. => True
  | .lapse key => ∀ x ∈ w.exchanges, ∀ rsv ∈ x.state.reservation, rsvKey rsv.id = key →
      x.state.charges ≠ []
  | .go i now id net (.run t _) => dayString now = dayString today ∧
      ∀ x ∈ w.exchanges[i]?, ∀ e ∈ x.state.next t, w.Serves S D now id net e
  | .go .. => True

/-- No request strays. -/
def Wire.Agrees (w : Wire S) : WireEvent → Prop
  | .arrive .. | .lapse _ => True
  | .go i _ _ _ event => ∀ x ∈ w.exchanges[i]?, strays x.body.promptEst x.state event = false

end Machine

/-! ### One request -/

/-- A request against its hold: none before the admission, an open one until it is charged, and
a closed one after; or none any more. -/
inductive Exchange.Booked (x : Exchange) : Prop where
  | arrived (arrived : Arrived x.client x.body x.state) (fresh : Fresh x.state)
      (charges : x.state.charges = []) : Booked x
  | reserved {rsv : Reservation} {charged : Bool}
      (standing : Standing (Settles rsv) x.state charged) (closed : Closed x.state)
      (reservation : x.state.reservation = some rsv)
      (client : rsv.client = x.client) (charges : x.state.charges.length = charged.toNat)
      (fits : ∀ f ∈ x.state.charges,
        0 ≤ f.1.toInt ∧ 0 ≤ f.2.toInt ∧ f.1.toInt + f.2.toInt < 2 ^ 63) : Booked x
  | gone (handler : x.state.handler = none) (body : x.state.body = none)
      (tasks : x.state.tasks = []) (reservation : x.state.reservation = none)
      (charges : x.state.charges = []) : Booked x

section Steps

variable {S : CountingStore} {D : MeteredGateway} {x : Exchange} {now : ℤ} {id : String}
  {net : String → Outcome} {store : S.State}

theorem charges_step_other {s : State} {ev : RunEvent} (hev : ∀ t o, ev ≠ .run t o) :
    (step s ev).charges = s.charges := by
  cases ev with
  | run t o => exact absurd rfl (hev t o)
  | returned =>
      simp only [step]
      split <;> rfl
  | dropHandler =>
      simp only [step]
      split
      · split_ifs <;> rfl
      · rfl
  | dropBody =>
      simp only [step]
      split
      · split_ifs <;> rfl
      · rfl

theorem charges_step_run {s : State} {t : Thread} {e : Op} (hn : s.next t = some e) (o : Oracle) :
    (perform s o e = none ∧ step s (.run t o) = s) ∨
      (step s (.run t o)).charges = s.charges ++ e.charge?.toList := by
  rcases run_of_next hn o with hnone | ⟨r, s', hperform, hlog⟩
  · exact .inl hnone
  · refine .inr ?_
    rw [← perform_charges hperform]
    unfold State.charges
    rw [hlog]

theorem charge?_of_not_meters {e : Op} (he : e.meters = false) : e.charge? = none := by
  cases e <;> first | rfl | cases he

theorem Arrived.leaves {client : String} {body : ChatCompletionRequest} {s : State}
    (h : Arrived client body s) {ev : RunEvent} (hev : ∀ t o, ev ≠ .run t o) :
    step s ev = s ∨ step s ev = { s with handler := none } := by
  obtain ⟨p, hh, hp⟩ := h.handler
  cases ev with
  | run t o => exact absurd rfl (hev t o)
  | returned =>
      simp only [step, hh]
      cases p with
      | op e k => exact .inl rfl
      | ret reply =>
          obtain ⟨status, out, rfl⟩ := hp
          exact .inr rfl
  | dropHandler =>
      simp only [step, hh]
      cases p with
      | ret reply => exact .inl rfl
      | op e k =>
          dsimp only
          split_ifs
          · exact .inr rfl
          · exact .inl rfl
  | dropBody => exact .inl (dropBody_none h.body).1

theorem Fresh.goes {s : State} (h : Fresh s) {t : Thread} {e : Op} (hn : s.next t = some e)
    (he : e.meters = false) (o : Oracle) : Fresh (Chat.step s (.run t o)) := by
  obtain ⟨⟨p, hh, hp⟩, hb, ht, hrec, hset, hres⟩ := id h
  obtain rfl := next_of_no_worker hb ht hn
  rw [next_handler hh] at hn
  cases p with
  | ret reply => cases hn
  | op e' k =>
      cases hn
      rcases run_handler_op hh o with ⟨-, hstep⟩ | ⟨r, s', hperform, hstep⟩
      · rw [hstep]
        exact h
      · have hplain : e.plain = true ∧ ∀ r, Entering (k r) := by
          cases e <;> first | exact hp | cases he
        have hsame := perform_plain hperform hplain.1
        rw [hstep]
        exact ⟨⟨_, rfl, hplain.2 r⟩, hsame.body.trans hb, hsame.tasks.trans ht,
          hsame.recorded.trans hrec, hsame.settles.trans hset, hsame.reservation.trans hres⟩

theorem Fresh.admitted {s : State} (h : Fresh s) {t : Thread} {c provider model : String}
    {est : Int64} {cap : Option Int64} (hn : s.next t = some (.admitReq c provider model est cap))
    {o : Oracle} {rsv : Reservation}
    (ho : o (.admitReq c provider model est cap) = some (.ok rsv)) :
    (Chat.step s (.run t o)).reservation = some rsv ∧ Closed (Chat.step s (.run t o)) := by
  obtain ⟨⟨p, hh, hp⟩, hb, ht, -⟩ := id h
  obtain rfl := next_of_no_worker hb ht hn
  rw [next_handler hh] at hn
  cases p with
  | ret reply => cases hn
  | op e' k =>
      cases hn
      rcases run_handler_op hh o with ⟨hnone, -⟩ | ⟨r, s', hperform, hstep⟩
      · cases ho.symm.trans (Option.map_eq_none_iff.mp hnone)
      · obtain ⟨r', hr, heq⟩ := Option.map_eq_some_iff.mp hperform
        cases heq
        cases ho.symm.trans hr
        rw [hstep]
        exact ⟨rfl, closed_of_handler rfl hb ht (noAdmission_owes (hp.1 rsv))⟩

/-- The hold is read off the reservation and the settled figures. -/
theorem hold?_congr {x' : Exchange} {day : String}
    (hres : x'.state.reservation = x.state.reservation)
    (hcharges : x'.state.charges = x.state.charges) : x'.hold? day = x.hold? day := by
  simp only [Exchange.hold?, hres, hcharges]

theorem hold?_of_none {day : String} (h : x.state.reservation = none) : x.hold? day = none := by
  rw [Exchange.hold?, h]
  rfl

theorem Exchange.Booked.go_still (h : x.Booked) {event : RunEvent}
    (hev : ∀ t o e, event = .run t o → x.state.next t = some e → e.meters = false) (day : String) :
    (x.go S D now id net store event).1.Booked ∧
      (x.go S D now id net store event).1.hold? day = x.hold? day ∧
      (x.go S D now id net store event).2 = store := by
  by_cases hrun : ∃ t o, event = .run t o
  · obtain ⟨t, o, rfl⟩ := hrun
    cases hn : x.state.next t with
    | none =>
        simp only [Exchange.go, hn]
        exact ⟨h, trivial, trivial⟩
    | some e =>
        have he := hev t o e rfl hn
        have hstore := (@wireAnswer_of_not_meters S D now id net store e he o).1
        set o' : Oracle := fun e => (wireAnswer S D now id net o store e).1 with ho'
        have hcharges : (step x.state (.run t o')).charges = x.state.charges := by
          rcases charges_step_run hn o' with ⟨-, hsame⟩ | hplus
          · rw [hsame]
          · rw [hplus, charge?_of_not_meters he]
            exact List.append_nil _
        rw [go_run hn]
        cases h with
        | arrived harr hfresh hch =>
            have hfresh' := hfresh.goes hn he o'
            refine ⟨.arrived (harr.run hn he o') hfresh' (hcharges.trans hch), ?_, hstore⟩
            rw [hold?_of_none hfresh.reservation]
            exact hold?_of_none hfresh'.reservation
        | reserved hst hclosed hres hclient hlen hfits =>
            obtain ⟨hclosed', hres'⟩ := hclosed.step (.run t o')
            refine ⟨.reserved ?_ hclosed' (hres'.trans hres) hclient (by rw [hcharges]; exact hlen)
              (by rw [hcharges]; exact hfits), ?_, hstore⟩
            · rcases hst.run (isCharge_settles _) hn o' with ⟨-, hsame⟩ | hst'
              · show Standing _ (step x.state (.run t o')) _
                rw [hsame]
                exact hst
              · rwa [he, Bool.or_false] at hst'
            · exact hold?_congr hres' hcharges
        | gone hh hb ht =>
            obtain rfl := next_of_no_worker hb ht hn
            simp [State.next, hh] at hn
  · have hother : ∀ t o, event ≠ .run t o := fun t o heq => hrun ⟨t, o, heq⟩
    have hcharges := @charges_step_other x.state event hother
    rw [go_other hother]
    refine ⟨?_, ?_, rfl⟩
    · cases h with
      | arrived harr hfresh hch =>
          rcases harr.leaves hother with hsame | hgone
          · rw [hsame]
            exact .arrived harr hfresh hch
          · rw [hgone]
            exact .gone rfl hfresh.body hfresh.tasks hfresh.reservation hch
      | reserved hst hclosed hres hclient hlen hfits =>
          obtain ⟨hclosed', hres'⟩ := hclosed.step event
          exact .reserved (hst.other hother) hclosed' (hres'.trans hres) hclient
            (by rw [hcharges]; exact hlen) (by rw [hcharges]; exact hfits)
      | gone hh hb ht hres hch =>
          rw [(idle_of_nothing hh hb ht event).1]
          exact .gone hh hb ht hres hch
    · cases h with
      | arrived harr hfresh =>
          rw [hold?_of_none hfresh.reservation]
          rcases harr.leaves hother with hsame | hgone
          · rw [hsame]
            exact hold?_of_none hfresh.reservation
          · rw [hgone]
            exact hold?_of_none hfresh.reservation
      | reserved _ hclosed => exact hold?_congr (hclosed.step event).2 hcharges
      | gone hh hb ht => rw [(idle_of_nothing hh hb ht event).1]

/-- The admission places the hold. -/
theorem Exchange.Booked.go_admitReq {t : Thread} {c provider model : String} {est : Int64}
    {cap : Option Int64} (h : x.Booked)
    (hn : x.state.next t = some (.admitReq c provider model est cap))
    (hdone : net (rsvKey id) = .done)
    (hok : (S.reserve (D.reserveOp now id c provider model est cap) store).1.isOk = true)
    (o : Oracle) :
    x.hold? (dayString now) = none ∧ (x.go S D now id net store (.run t o)).1.Booked ∧
      (x.go S D now id net store (.run t o)).1.hold? (dayString now) =
        some (D.reserveOp now id c provider model est cap).exact.hold ∧
      S.reserve (D.reserveOp now id c provider model est cap) store =
        (.ok (), (x.go S D now id net store (.run t o)).2) := by
  cases h with
  | gone hh hb ht =>
      obtain rfl := next_of_no_worker hb ht hn
      simp [State.next, hh] at hn
  | reserved hst => rcases hst.asked hn with hm | ⟨he, -⟩ <;> contradiction
  | arrived harr hfresh hch =>
      obtain hm | ⟨provider', model', heq⟩ := harr.asked hn
      · cases hm
      cases heq
      set rsv := D.quota.newReservation id x.client provider model x.body.promptEst.toInt64
        x.body.maxTokens with hrsv
      set op := D.reserveOp now id x.client provider model x.body.promptEst.toInt64
        x.body.maxTokens with hop
      obtain ⟨store', hreserve⟩ : ∃ store', S.reserve op store = (.ok (), store') := by
        generalize S.reserve op store = y at hok
        obtain ⟨result, store'⟩ := y
        cases result with
        | ok u => exact ⟨store', rfl⟩
        | error e => cases hok
      have hanswer : wireAnswer S D now id net o store (.admitReq x.client provider model
          x.body.promptEst.toInt64 x.body.maxTokens) = (some (.ok rsv), store') := by
        have hvia : S.reserveVia (net (rsvKey id)) op store = (.ok (), store') := by
          rw [hdone]
          exact hreserve
        simp only [wireAnswer, Quota.Metering.admitReq]
        change (some (D.quota.admitResult rsv (S.reserveVia (net (rsvKey id)) op store).1), _) = _
        rw [show S.reserveVia (net (rsvKey id)) (D.quota.admitOp (D.quota.newReservation id x.client
          provider model x.body.promptEst.toInt64 x.body.maxTokens) (dayString now)) store =
            (.ok (), store') from hvia, hvia]
        rfl
      set o' : Oracle := fun e => (wireAnswer S D now id net o store e).1 with ho'
      have hok' : o' (.admitReq x.client provider model x.body.promptEst.toInt64
          x.body.maxTokens) = some (.ok rsv) := congrArg Prod.fst hanswer
      have hst : Standing (Settles rsv) (step x.state (.run t o')) false := harr.admitted hn hok'
      obtain ⟨hres, hclosed⟩ := hfresh.admitted hn hok'
      have hcharges : (step x.state (.run t o')).charges = [] := by
        rcases charges_step_run hn o' with ⟨-, hsame⟩ | hplus
        · rw [hsame, hch]
        · rw [hplus, hch]
          rfl
      rw [go_run hn, hanswer]
      refine ⟨hold?_of_none hfresh.reservation, ?_, ?_, hreserve⟩
      · exact .reserved hst hclosed hres rfl (by rw [hcharges]; rfl)
          (by rw [hcharges]; exact fun _ hf => absurd hf List.not_mem_nil)
      · show (step x.state (.run t o')).reservation.map _ = _
        rw [hres, hcharges]
        rfl

/-- The settle closes the hold with what it charges. -/
theorem Exchange.Booked.go_settle {t : Thread} {rsv : Reservation} {p d : Int64} (h : x.Booked)
    (hn : x.state.next t = some (.settle rsv p d))
    (hfits : 0 ≤ p.toInt ∧ 0 ≤ d.toInt ∧ p.toInt + d.toInt < 2 ^ 63)
    (hcarried : (net (rsvKey rsv.id)).carried = true) (o : Oracle) (day : String) :
    ∃ hold, x.hold? day = some hold ∧ hold.id = rsvKey rsv.id ∧ hold.final = none ∧
      hold.keys = Quota.Metering.tokenKeys rsv day ∧ hold.held = rsv.reservedTotal.toInt ∧
      (x.go S D now id net store (.run t o)).1.Booked ∧
      (x.go S D now id net store (.run t o)).1.hold? day =
        some { hold with final := some (p + d).toInt } ∧
      (x.go S D now id net store (.run t o)).2 =
        (S.settle (Quota.Metering.settleReq rsv p d (dayString now)) store).2 := by
  cases h with
  | gone hh hb ht =>
      obtain rfl := next_of_no_worker hb ht hn
      simp [State.next, hh] at hn
  | arrived harr => rcases harr.asked hn with hm | ⟨_, _, heq⟩ <;> contradiction
  | reserved hst hclosed hres hclient hlen =>
      obtain hm | ⟨rfl, rfl⟩ := hst.asked hn
      · cases hm
      have hnil : x.state.charges = [] := List.length_eq_zero_iff.mp hlen
      set o' : Oracle := fun e => (wireAnswer S D now id net o store e).1 with ho'
      have hrun : perform x.state o' (.settle rsv p d) ≠ none := perform_of_meters rfl o
      have hcharges : (step x.state (.run t o')).charges = [(p, d)] := by
        rcases charges_step_run hn o' with ⟨hnone, -⟩ | hplus
        · exact absurd hnone hrun
        · rw [hplus, hnil]
          rfl
      have hst' : Standing (Settles rsv) (step x.state (.run t o')) true := by
        rcases hst.run (isCharge_settles rsv) hn o' with ⟨hnone, -⟩ | hst'
        · exact absurd hnone hrun
        · exact hst'
      obtain ⟨hclosed', hres'⟩ := hclosed.step (.run t o')
      refine ⟨⟨rsvKey rsv.id, Quota.Metering.tokenKeys rsv day, rsv.reservedTotal.toInt, none⟩,
        ?_, rfl, rfl, rfl, rfl, ?_⟩
      · rw [Exchange.hold?, hres, hnil]
        rfl
      · rw [go_run hn]
        refine ⟨.reserved hst' hclosed' (hres'.trans hres) hclient (by rw [hcharges]; rfl) ?_,
          ?_, ?_⟩
        · rw [hcharges]
          intro f hf
          rw [List.mem_singleton.mp hf]
          exact hfits
        · show (step x.state (.run t o')).reservation.map _ = _
          rw [hres', hres, hcharges]
          rfl
        · show (S.settleVia (net (rsvKey rsv.id)) _ store).2 = _
          cases hnet : net (rsvKey rsv.id) with
          | failed msg =>
              rw [hnet] at hcarried
              cases hcarried
          | done => rfl
          | lost msg => rfl

end Steps

/-! ### The store and the book -/

section Book

variable {S : CountingStore} {D : MeteredGateway} {w : Wire S} {day : String}

theorem reserveOp_legal {now : ℤ} {id c provider model : String} {est : Int64}
    {cap : Option Int64} {store : S.State}
    (h : Op.Fits S D now id store (.admitReq c provider model est cap)) :
    let op := (D.reserveOp now id c provider model est cap).exact
    op.Legal ⟨op.cTokensLimit, op.cReqLimit, op.pTokensLimit⟩ keyFamily where
  cTokensLimit := rfl
  cReqLimit := rfl
  pTokensLimit := rfl
  cTokens := Quota.keyFamily_cTokensKey ..
  cReq := Quota.keyFamily_cReqKey ..
  pTokens := Quota.keyFamily_pTokensKey ..
  pReq := Quota.keyFamily_pReqKey ..
  mTokens := Quota.keyFamily_mTokensKey ..
  reserve := reserve_newReservation h

theorem book_split {i : ℕ} {x : Exchange} (hx : w.exchanges[i]? = some x) :
    ∃ before after, w.book day = before ++ ((x.hold? day).toList ++ after) ∧
      ∀ store x', Wire.book day (⟨store, w.exchanges.set i x'⟩ : Wire S) =
        before ++ ((x'.hold? day).toList ++ after) := by
  obtain ⟨hlt, rfl⟩ := List.getElem?_eq_some_iff.mp hx
  refine ⟨(w.exchanges.take i).filterMap (Exchange.hold? day),
    (w.exchanges.drop (i + 1)).filterMap (Exchange.hold? day), ?_, fun store x' => ?_⟩
  · conv_lhs => rw [Wire.book, ← List.take_append_drop i w.exchanges, List.drop_eq_getElem_cons hlt]
    rw [List.filterMap_append, List.filterMap_cons]
    cases w.exchanges[i].hold? day <;> rfl
  · rw [Wire.book, List.set_eq_take_append_cons_drop, if_pos hlt, List.filterMap_append,
      List.filterMap_cons]
    cases x'.hold? day <;> rfl

theorem id_ne_of_mem_book {id : String} (hfresh : ∀ y ∈ w.exchanges,
    ∀ rsv ∈ y.state.reservation, rsv.id ≠ id) : rsvKey id ∉ ids (w.book day) := by
  intro hmem
  obtain ⟨hold, hhold, hid⟩ := List.mem_map.mp hmem
  obtain ⟨y, hy, hyhold⟩ := List.mem_filterMap.mp hhold
  obtain ⟨rsv, hrsv, rfl⟩ := Option.map_eq_some_iff.mp hyhold
  exact hfresh y hy rsv hrsv (Quota.rsvKey_inj.mp hid)

end Book

/-! ### The invariant -/

/-- The requests, and the store against their book. -/
structure Wire.Kept {S : CountingStore} (day : String) (w : Wire S) : Prop where
  booked : ∀ x ∈ w.exchanges, x.Booked
  story : ∀ x ∈ w.exchanges, Story x.client x.body.promptEst x.state
  audit : ∀ x ∈ w.exchanges, ∃ skip id lost polled reached,
    Audit skip id x.state lost polled reached
  balanced : ∃ book, Balanced S.toLawfulStore keyFamily w.store book ∧ book.Perm (w.book day)

section Invariant

variable {S : CountingStore} {D : MeteredGateway} {w : Wire S} {today : ℤ}

theorem Wire.Kept.empty (day : String) : (Wire.empty S).Kept day :=
  ⟨fun _ hx => absurd hx List.not_mem_nil, fun _ hx => absurd hx List.not_mem_nil,
    fun _ hx => absurd hx List.not_mem_nil, [], Balanced.empty, .refl _⟩

/-- The admission enters the hold of its request into the book. -/
theorem Wire.Kept.balanced_admitReq {i : ℕ} {x x' : Exchange} {store' : S.State} {day : String}
    {op : Quota.AdmitOp Int64} (h : w.Kept day) (hx : w.exchanges[i]? = some x)
    {lim : Quota.Limits} (hlegal : op.exact.Legal lim keyFamily)
    (hroom : op.exact.Below S.bound (S.counter w.store))
    (hnew : op.reservationKey ∉ ids (w.book day))
    (hnone : x.hold? day = none) (hhold : x'.hold? day = some op.exact.hold)
    (hreserve : S.reserve op w.store = (.ok (), store')) :
    ∃ book, Balanced S.toLawfulStore keyFamily store' book ∧
      book.Perm (Wire.book day (⟨store', w.exchanges.set i x'⟩ : Wire S)) := by
  obtain ⟨book, hbalanced, hperm⟩ := h.balanced
  obtain ⟨before, after, hbook, hset⟩ := @book_split S w day i x hx
  have hnew' : op.reservationKey ∉ ids book := fun hmem =>
    hnew ((hperm.map Hold.id).mem_iff.mp hmem)
  refine ⟨book ++ [op.exact.hold], hbalanced.admitReq hlegal hnew' hroom hreserve, ?_⟩
  rw [hset store' x', hhold]
  rw [hnone] at hbook
  rw [hbook] at hperm
  -- the hold of the request stands in the middle of the book
  refine (List.perm_append_comm.trans (List.Perm.cons op.exact.hold hperm)).trans ?_
  exact List.perm_middle.symm

/-- The settle closes it. -/
theorem Wire.Kept.balanced_settle {i : ℕ} {x x' : Exchange} {day : String}
    {hold : Hold String String} {req : Quota.SettleReq Int64} {total : ℤ} (h : w.Kept day)
    (hx : w.exchanges[i]? = some x) (hhold : x.hold? day = some hold)
    (hhold' : x'.hold? day = some { hold with final := some total }) (hopen : hold.final = none)
    (hid : req.reservationKey = hold.id) (hkeys : req.tokenKeys = hold.keys)
    (hdelta : 0 ≤ hold.held → hold.held + req.delta.toInt = total) (htotal : 0 ≤ total)
    (hroom : req.exact.Below S.bound (S.counter w.store)) :
    ∃ book, Balanced S.toLawfulStore keyFamily (S.settle req w.store).2 book ∧
      book.Perm (Wire.book day (⟨(S.settle req w.store).2, w.exchanges.set i x'⟩ : Wire S)) := by
  obtain ⟨book, hbalanced, hperm⟩ := h.balanced
  obtain ⟨before, after, hbook, hset⟩ := @book_split S w day i x hx
  rw [hhold] at hbook
  have hmem : hold ∈ book := by
    rw [hperm.mem_iff, hbook]
    simp
  have hheld : 0 ≤ hold.held := by
    have hcharge := hbalanced.nonneg hold hmem
    rwa [Hold.charge, hopen] at hcharge
  have hsum := hdelta hheld
  refine ⟨Ledger.close hold.id (hold.held + req.delta.toInt) book,
    hbalanced.settle hmem hopen hid hkeys (by omega) hroom, ?_⟩
  rw [hset _ x', hhold', hsum]
  refine (hperm.map _).trans ?_
  -- no other hold of the book has this id
  have hnodup : (ids (w.book day)).Nodup := (hperm.map Hold.id).nodup_iff.mp hbalanced.nodup
  rw [hbook, ids, List.map_append, List.map_append] at hnodup
  have hbefore : hold.id ∉ ids before := fun hmem =>
    (List.nodup_append.mp hnodup).2.2 _ hmem _ (by simp) rfl
  have hafter : hold.id ∉ ids after := by
    have hrest := (List.nodup_append.mp hnodup).2.1
    exact (List.nodup_cons.mp hrest).1
  have hclose : Ledger.close hold.id total (w.book day) =
      before ++ ([{ hold with final := some total }] ++ after) := by
    rw [hbook]
    unfold Ledger.close
    rw [List.map_append, List.map_append]
    have h₁ := Ledger.close_of_not_mem hbefore total
    have h₂ := Ledger.close_of_not_mem hafter total
    unfold Ledger.close at h₁ h₂
    rw [h₁, h₂]
    simp
  exact List.Perm.of_eq hclose

theorem Wire.Kept.go {i : ℕ} {now : ℤ} {id : String} {net : String → Outcome} {event : RunEvent}
    {x : Exchange} (h : w.Kept (dayString today)) (hx : w.exchanges[i]? = some x)
    (hserved : w.Served S D today (.go i now id net event))
    (hfits : w.Fits S D (.go i now id net event)) :
    (x.go S D now id net w.store event).1.Booked ∧
      ∃ book, Balanced S.toLawfulStore keyFamily (x.go S D now id net w.store event).2 book ∧
        book.Perm (Wire.book (dayString today) (⟨(x.go S D now id net w.store event).2,
          w.exchanges.set i (x.go S D now id net w.store event).1⟩ : Wire S)) := by
  have hbooked := h.booked x (List.mem_of_getElem? hx)
  by_cases hstill : ∀ t o e, event = .run t o → x.state.next t = some e → e.meters = false
  · obtain ⟨hbooked', hhold, hstore⟩ := @Exchange.Booked.go_still S D x now id net w.store hbooked
      event hstill (dayString today)
    refine ⟨hbooked', ?_⟩
    obtain ⟨book, hbalanced, hperm⟩ := h.balanced
    obtain ⟨before, after, hbook, hset⟩ := @book_split S w (dayString today) i x hx
    rw [hstore]
    refine ⟨book, hbalanced, ?_⟩
    rw [hset, hhold, ← hbook]
    exact hperm
  · simp only [not_forall] at hstill
    obtain ⟨t, o, e, rfl, hn, hm⟩ := hstill
    obtain ⟨hday, hserves⟩ := hserved
    have hserve := hserves x (Option.mem_def.mpr hx) e (Option.mem_def.mpr hn)
    have hfit := hfits x (Option.mem_def.mpr hx) e (Option.mem_def.mpr hn)
    cases e with
    | admitReq c provider model est cap =>
        obtain ⟨hdone, hok, hfresh⟩ := hserve
        obtain ⟨hnone, hbooked', hhold, hreserve⟩ :=
          @Exchange.Booked.go_admitReq S D x now id net w.store t _ _ _ _ _ hbooked hn hdone hok o
        rw [hday] at hnone hhold
        exact ⟨hbooked', h.balanced_admitReq hx (reserveOp_legal hfit) hfit.room
          (id_ne_of_mem_book hfresh) hnone hhold hreserve⟩
    | settle rsv p d =>
        have hamounts := hfit.amounts _ rfl
        obtain ⟨hold, hhold, hid, hopen, hkeys, hheld, hbooked', hhold', hstore⟩ :=
          @Exchange.Booked.go_settle S D x now id net w.store t rsv p d hbooked hn hamounts hserve o
            (dayString today)
        refine ⟨hbooked', ?_⟩
        rw [hstore]
        refine h.balanced_settle hx hhold hhold' hopen hid.symm ?_ (fun hpos => ?_)
          (total_nonneg hamounts) hfit.room
        · rw [hkeys, ← hday]
          rfl
        · have hp : 0 ≤ (p + d).toInt := total_nonneg hamounts
          rw [hheld] at hpos ⊢
          show rsv.reservedTotal.toInt + (p + d - rsv.reservedTotal).toInt = _
          rw [Wrapping.toInt_sub_of_nonneg hp hpos]
          omega
    | record c provider model p d =>
        exfalso
        cases hbooked with
        | arrived harr => rcases harr.asked hn with hm | ⟨_, _, heq⟩ <;> contradiction
        | reserved hst => rcases hst.asked hn with hm | ⟨he, -⟩ <;> contradiction
        | gone hh hb ht =>
            obtain rfl := next_of_no_worker hb ht hn
            simp [State.next, hh] at hn
    | _ => exact absurd rfl hm

theorem not_denies {i : ℕ} {now : ℤ} {id : String} {net : String → Outcome} {t : Thread}
    {o : Oracle} {x : Exchange} (hx : w.exchanges[i]? = some x)
    (hserved : w.Served S D today (.go i now id net (.run t o))) :
    denies x.state (.run t (fun e => (wireAnswer S D now id net o w.store e).1)) = false := by
  have hserve := hserved.2 x (Option.mem_def.mpr hx)
  simp only [denies]
  cases hn : x.state.next t with
  | none => rfl
  | some e =>
      cases e with
      | admitReq c provider model est cap =>
          obtain ⟨hdone, hok, -⟩ := hserve _ (Option.mem_def.mpr hn)
          simp only [wireAnswer, Quota.Metering.admitReq, hdone, Quota.CountingStore.reserveVia]
          change fails (some (D.quota.admitResult _ (S.reserve
            (D.reserveOp now id c provider model est cap) w.store).1)) = false
          generalize S.reserve (D.reserveOp now id c provider model est cap) w.store = y at hok
          obtain ⟨result, store'⟩ := y
          cases result with
          | ok u => rfl
          | error e => cases hok
      | _ => rfl

/-- **One event**: every request keeps to its story, and the store to the book. -/
theorem Wire.Kept.step (h : w.Kept (dayString today)) {event : WireEvent}
    (hserved : w.Served S D today event) (hfits : w.Fits S D event)
    (hagrees : w.Agrees S event) : (w.step S D event).Kept (dayString today) := by
  cases event with
  | arrive client requestId body =>
      have hnone : (Exchange.init D client requestId body).hold? (dayString today) = none := rfl
      refine ⟨List.forall_mem_append.mpr ⟨h.booked, ?_⟩, List.forall_mem_append.mpr ⟨h.story, ?_⟩,
        List.forall_mem_append.mpr ⟨h.audit, ?_⟩, ?_⟩
      · rw [List.forall_mem_singleton]
        exact .arrived (arrived_init D.metered requestId client body)
          (fresh_init D.gateway requestId client body) rfl
      · rw [List.forall_mem_singleton]
        exact story_init D.metered requestId client body
      · rw [List.forall_mem_singleton]
        exact ⟨_, _, _, _, _, audit_init D.gateway requestId client body⟩
      · obtain ⟨book, hbalanced, hperm⟩ := h.balanced
        refine ⟨book, hbalanced, ?_⟩
        rw [Wire.book, Wire.step, List.filterMap_append, List.filterMap_cons, hnone]
        exact hperm.trans (.of_eq (List.append_nil _).symm)
  | lapse key =>
      refine ⟨h.booked, h.story, h.audit, ?_⟩
      obtain ⟨book, hbalanced, hperm⟩ := h.balanced
      refine ⟨book, ?_, hperm⟩
      simp only [Wire.step]
      cases hlapse : S.lapse key w.store with
      | none => exact hbalanced
      | some store =>
          refine hbalanced.lapse_closed hlapse fun hold hhold hid => ?_
          obtain ⟨x, hx, hxhold⟩ := List.mem_filterMap.mp (hperm.mem_iff.mp hhold)
          obtain ⟨rsv, hrsv, rfl⟩ := Option.map_eq_some_iff.mp hxhold
          have hcharges := hserved x hx rsv hrsv hid
          cases hlist : x.state.charges with
          | nil => exact absurd hlist hcharges
          | cons f fs => simp
  | go i now id net event =>
      cases hx : w.exchanges[i]? with
      | none =>
          simp only [Wire.step, hx]
          exact h
      | some x =>
          have hmem := List.mem_of_getElem? hx
          obtain ⟨hbooked, hbalanced⟩ := h.go hx hserved hfits
          have hstray := hagrees x (Option.mem_def.mpr hx)
          -- what the request is after the event
          obtain ⟨event', hgo, hstray', hdeny'⟩ : ∃ event',
              ((x.go S D now id net w.store event).1.client = x.client ∧
                (x.go S D now id net w.store event).1.body = x.body ∧
                (x.go S D now id net w.store event).1.state = Chat.step x.state event') ∧
              strays x.body.promptEst x.state event' = false ∧ denies x.state event' = false := by
            cases event with
            | run t o =>
                refine ⟨.run t (fun e => (wireAnswer S D now id net o w.store e).1), ?_, ?_,
                  not_denies hx hserved⟩
                · cases hn : x.state.next t with
                  | none =>
                      simp only [Exchange.go, hn]
                      exact ⟨trivial, trivial, (step_of_next_none hn _).symm⟩
                  | some e =>
                      rw [go_run hn]
                      exact ⟨rfl, rfl, rfl⟩
                · rw [← hstray]
                  simp only [strays]
                  cases x.state.next t with
                  | none => rfl
                  | some e => cases e <;> rfl
            | returned => exact ⟨.returned, ⟨rfl, rfl, rfl⟩, hstray, rfl⟩
            | dropHandler => exact ⟨.dropHandler, ⟨rfl, rfl, rfl⟩, hstray, rfl⟩
            | dropBody => exact ⟨.dropBody, ⟨rfl, rfl, rfl⟩, hstray, rfl⟩
          obtain ⟨hclient, hbody, hstate⟩ := hgo
          have hall : ∀ P : Exchange → Prop, (∀ y ∈ w.exchanges, P y) →
              P (x.go S D now id net w.store event).1 →
              ∀ y ∈ w.exchanges.set i (x.go S D now id net w.store event).1, P y := by
            intro P hP hgo y hy
            rcases List.mem_or_eq_of_mem_set hy with hy | rfl
            · exact hP y hy
            · exact hgo
          simp only [Wire.step, hx]
          refine ⟨hall _ h.booked hbooked, hall _ h.story ?_, hall _ h.audit ?_, hbalanced⟩
          · rw [hclient, hbody, hstate]
            exact (h.story x hmem).step event' hstray' hdeny'
          · obtain ⟨skip, rid, lost, polled, reached, haudit⟩ := h.audit x hmem
            rw [hstate]
            exact ⟨skip, rid, _, _, _, haudit.step event'⟩

/-! ### At the end of a run -/

/-- Every request has been settled and has ended. -/
def Wire.Settled (w : Wire S) : Prop := ∀ x ∈ w.exchanges, x.state.charges ≠ [] ∧ x.state.Ended

/-- The row of a request that has been settled and has ended. -/
theorem Wire.Kept.row {day : String} (h : w.Kept day) (hend : w.Settled) {x : Exchange}
    (hx : x ∈ w.exchanges) : ∃ row rsv, x.state.rows = [row] ∧ x.state.charges = [row.figures] ∧
      row.clientId = x.client ∧ x.state.reservation = some rsv ∧ rsv.client = x.client ∧
      (row.prompt + row.completion).toInt = row.prompt.toInt + row.completion.toInt := by
  obtain ⟨hcharged, hended⟩ := hend x hx
  cases h.booked x hx with
  | arrived _ _ hnil => exact absurd hnil hcharged
  | gone _ _ _ _ hnil => exact absurd hnil hcharged
  | @reserved rsv charged _ _ hres hclient hlen hfits =>
      obtain ⟨f, hf⟩ : ∃ f, x.state.charges = [f] := by
        rw [← List.length_eq_one_iff, hlen]
        cases charged with
        | true => rfl
        | false => exact absurd (List.length_eq_zero_iff.mp hlen) hcharged
      obtain ⟨skip, rid, lost, polled, reached, haudit⟩ := h.audit x hx
      obtain ⟨row, hrow, hrclient, rfl⟩ := (h.story x hx).ended haudit hended hf
      obtain ⟨hp, hd, hlt⟩ := hfits row.figures (by simp [hf])
      exact ⟨row, rsv, hrow, hf, hrclient, hres, hclient, Wrapping.toInt_add_of_lt hp hd hlt⟩

theorem charged_filterMap (k : String) (day : String) (xs : List Exchange) :
    charged (xs.filterMap (Exchange.hold? day)) k =
      (xs.map (fun x => (x.hold? day).elim 0 (Hold.chargeAt · k))).sum := by
  induction xs with
  | nil => rfl
  | cons x xs ih =>
      rw [List.filterMap_cons, List.map_cons, List.sum_cons, ← ih]
      cases x.hold? day with
      | none => exact (zero_add _).symm
      | some hold => exact Ledger.charged_cons ..

/-- The usage that a log says of a client. -/
def auditedUsage (client : String) (rows : List Row) : ℤ :=
  ((rows.filter (fun row => row.clientId = client)).map
    (fun row => row.prompt.toInt + row.completion.toInt)).sum

theorem auditedUsage_flatMap (client : String) (xs : List Exchange) :
    auditedUsage client (xs.flatMap (fun x => x.state.rows)) =
      (xs.map (fun x => auditedUsage client x.state.rows)).sum := by
  induction xs with
  | nil => rfl
  | cons x xs ih =>
      rw [List.flatMap_cons, List.map_cons, List.sum_cons, ← ih]
      simp only [auditedUsage, List.filter_append, List.map_append, List.sum_append]

theorem Wire.Kept.counter (h : w.Kept (dayString today)) (hend : w.Settled) (client : String) :
    S.counter w.store (cTokensKey client (dayString today)) = auditedUsage client w.rows := by
  obtain ⟨book, hbalanced, hperm⟩ := h.balanced
  have htokens : (keyFamily (cTokensKey client (dayString today))).isTokens = true := by
    rw [Quota.keyFamily_cTokensKey]
    rfl
  have hsum : charged book (cTokensKey client (dayString today)) =
      charged (w.book (dayString today)) (cTokensKey client (dayString today)) :=
    (hperm.map _).sum_eq
  rw [hbalanced.counters _ htokens, hsum, Wire.book, charged_filterMap, Wire.rows,
    auditedUsage_flatMap]
  congr 1
  refine List.map_congr_left fun x hx => ?_
  obtain ⟨row, rsv, hrows, hcharges, hrclient, hres, hclient, htotal⟩ := h.row hend hx
  have hday := Quota.colon_not_mem_dayString today
  have hkeys : cTokensKey client (dayString today) ∈
      Quota.Metering.tokenKeys rsv (dayString today) ↔ rsv.client = client := by
    rw [Quota.cTokensKey_mem_tokenKeys hday hday]
    exact and_iff_right rfl
  simp only [Exchange.hold?, hres, hcharges, Option.map_some, List.head?_cons, Option.elim_some,
    Hold.chargeAt, Hold.charge, hkeys, hclient, Option.getD_some, auditedUsage, hrows]
  by_cases hmine : x.client = client
  · have hmine' : row.clientId = client := hrclient.trans hmine
    simp [hmine, hmine', Row.figures, htotal]
  · have hother : ¬ row.clientId = client := fun heq => hmine (hrclient.symm.trans heq)
    simp [hmine, hother]

end Invariant

/-! ### Runs -/

section Runs

/-- **Audit and metering agree**: in a run within one day, at the end of which every request has
been settled and has ended, each request has one row with what it was charged, and the token
counter of a client is the sum of its rows; if the amounts fit and the store has room for their
sums, and if no request strays. -/
theorem rows_agree (S : CountingStore) (D : MeteredGateway) (today : ℤ) (events : List WireEvent)
    (hserved : Runs.Along (Wire.step S D) (Wire.Served S D today) (Wire.empty S) events)
    (hsettled : (Runs.final (Wire.step S D) (Wire.empty S) events).Settled)
    (hfits : Runs.Along (Wire.step S D) (Wire.Fits S D) (Wire.empty S) events)
    (hagrees : Runs.Along (Wire.step S D) (Wire.Agrees S) (Wire.empty S) events) :
    (∀ x ∈ (Runs.final (Wire.step S D) (Wire.empty S) events).exchanges, ∃ row,
        x.state.rows = [row] ∧ row.clientId = x.client ∧ x.state.charges = [row.figures]) ∧
      ∀ client, S.counter (Runs.final (Wire.step S D) (Wire.empty S) events).store
          (cTokensKey client (dayString today)) =
        auditedUsage client (Runs.final (Wire.step S D) (Wire.empty S) events).rows := by
  have hkept : (Runs.final (Wire.step S D) (Wire.empty S) events).Kept (dayString today) :=
    Runs.final_invariant (I := Wire.Kept (dayString today))
      (fun w e hw hq => hw.step hq.1 hq.2.1 hq.2.2) (Wire.Kept.empty _)
      ((Runs.along_and _ _).mpr ⟨hserved, (Runs.along_and _ _).mpr ⟨hfits, hagrees⟩⟩)
  refine ⟨fun x hx => ?_, fun client => hkept.counter hsettled client⟩
  obtain ⟨row, -, hrows, hcharges, hrclient, -⟩ := hkept.row hsettled hx
  exact ⟨row, hrows, hrclient, hcharges⟩

/-! ### A provider call that fails -/

variable {S : CountingStore} {D : MeteredGateway}

instance Wire.decidableServes (w : Wire S) (now : ℤ) (id : String) (net : String → Outcome) :
    (e : Op) → Decidable (w.Serves S D now id net e)
  | .admitReq c provider model est cap => inferInstanceAs (Decidable (net (rsvKey id) = .done ∧
      (S.reserve (D.reserveOp now id c provider model est cap) w.store).1.isOk = true ∧
      ∀ y ∈ w.exchanges, ∀ rsv ∈ y.state.reservation, rsv.id ≠ id))
  | .settle rsv _ _ => inferInstanceAs (Decidable ((net (rsvKey rsv.id)).carried = true))
  | .resolve .. | .chat _ | .chatStream _ | .record .. | .recordTokensToday .. | .nextItem
  | .send _ | .inspect .. | .observe _ | .audit _ | .finish _ | .openStream _ | .mapItem _
  | .flush | .cells | .swapRecorded | .dropGuard | .panic => inferInstanceAs (Decidable True)

instance Wire.decidableServed (today : ℤ) (w : Wire S) :
    (event : WireEvent) → Decidable (w.Served S D today event)
  | .arrive .. => inferInstanceAs (Decidable True)
  | .lapse key => inferInstanceAs (Decidable (∀ x ∈ w.exchanges, ∀ rsv ∈ x.state.reservation,
      rsvKey rsv.id = key → x.state.charges ≠ []))
  | .go i now id net (.run t _) => inferInstanceAs (Decidable (dayString now = dayString today ∧
      ∀ x ∈ w.exchanges[i]?, ∀ e ∈ x.state.next t, w.Serves S D now id net e))
  | .go _ _ _ _ .returned => inferInstanceAs (Decidable True)
  | .go _ _ _ _ .dropHandler => inferInstanceAs (Decidable True)
  | .go _ _ _ _ .dropBody => inferInstanceAs (Decidable True)

instance Wire.decidableAgrees (w : Wire S) : (event : WireEvent) → Decidable (w.Agrees S event)
  | .arrive .. => inferInstanceAs (Decidable True)
  | .lapse _ => inferInstanceAs (Decidable True)
  | .go i _ _ _ event => inferInstanceAs (Decidable
      (∀ x ∈ w.exchanges[i]?, strays x.body.promptEst x.state event = false))

/-- A provider that fails, or reports what was used. -/
def usageOracle (fails : Bool) : Oracle
  | .chat _ => some (if fails then .error (.connection "refused") else .ok (.obj [("usage", .obj
      [("prompt_tokens", .num (.posInt 3)), ("completion_tokens", .num (.posInt 4))])]))
  | e => sampleOracle e

/-- A request with a prompt of one token. -/
def wordyRequest : ChatCompletionRequest :=
  { sampleRequest false with messages := [⟨"user".toList, some "hello".toList, none, none⟩] }

/-- The request is admitted, sent to the provider and answered. -/
def answeredRun (fails : Bool) : List WireEvent :=
  .arrive "c" "r" wordyRequest ::
    List.replicate 8 (.go 0 0 "1" (fun _ => .done) (.run .handler (usageOracle fails))) ++
      [.go 0 0 "1" (fun _ => .done) .returned]

def answeredWire (fails : Bool) : Wire .redis :=
  Runs.final (Wire.step .redis openGateway) (Wire.empty .redis) (answeredRun fails)

theorem settled_answeredWire (fails : Bool) : (answeredWire fails).Settled := by
  have hidle : ∀ fails, ∀ x ∈ (answeredWire fails).exchanges, x.state.charges ≠ [] ∧
      x.state.handler = none ∧ x.state.body = none ∧ x.state.tasks = [] := by decide
  intro x hx
  obtain ⟨hcharges, hh, hb, ht⟩ := hidle fails x hx
  refine ⟨hcharges, hh, hb, ?_⟩
  rw [ht]
  exact fun _ hmem => absurd hmem List.not_mem_nil

theorem rows_agree_answered : auditedUsage "c" (answeredWire false).rows = 7 ∧
    CountingStore.redis.counter (answeredWire false).store (cTokensKey "c" (dayString 0)) =
      auditedUsage "c" (answeredWire false).rows :=
  ⟨by decide, (rows_agree .redis openGateway 0 (answeredRun false) (by decide)
    (settled_answeredWire false) (by decide) (by decide)).2 "c"⟩

/-- The prompt of a request whose provider call fails is charged, and its row says nothing. -/
theorem rows_disagree :
    ¬ ∀ (S : CountingStore) (D : MeteredGateway) (today : ℤ) (events : List WireEvent),
      Runs.Along (Wire.step S D) (Wire.Served S D today) (Wire.empty S) events →
      (Runs.final (Wire.step S D) (Wire.empty S) events).Settled →
      Runs.Along (Wire.step S D) (Wire.Fits S D) (Wire.empty S) events →
      ∀ client, S.counter (Runs.final (Wire.step S D) (Wire.empty S) events).store
          (cTokensKey client (dayString today)) =
        auditedUsage client (Runs.final (Wire.step S D) (Wire.empty S) events).rows := by
  intro h
  have hcounter : CountingStore.redis.counter (answeredWire true).store
      (cTokensKey "c" (dayString 0)) = auditedUsage "c" (answeredWire true).rows :=
    h .redis openGateway 0 (answeredRun true) (by decide) (settled_answeredWire true) (by decide)
      "c"
  exact absurd hcounter (by decide)

end Runs

end Chat

end FirewallLLM
