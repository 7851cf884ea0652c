import FirewallLLM.StoreTraffic
import Mathlib.Algebra.BigOperators.Pi

/-! # Requests that are counted once

What a request adds to the counters of its client when replies of the store may be lost.  A
reserve whose reply is lost has taken effect, but a fail-open gateway goes on as if it had not,
and records the request again.

`counted_once_iff`: in a run whose amounts fit and whose sums are counted exactly, every request
raises the request counter of its client by at most one, and the token counter by at most its
reserve or its usage, if and only if no request is recorded after a reserve that took effect
unheard. -/

namespace FirewallLLM

namespace Chat

open Quota (CountingStore Outcome cTokensKey cReqKey rsvKey dayString)
open Quota.CountingStore (Solvent)

/-! ### What a request adds -/

/-- What a request has added to the request counters of its client, by the day. -/
def Exchange.requests (x : Exchange) (day : String) : ℤ := x.raised (cReqKey x.client day)

/-- What it has added to the token counters. -/
def Exchange.tokens (x : Exchange) (day : String) : ℤ := x.raised (cTokensKey x.client day)

/-- Over any days, the request is counted at most once, and its tokens are at most its reserve or
its usage. -/
def Exchange.CountedOnce (D : MeteredGateway) (x : Exchange) : Prop :=
  ∀ days : Finset String, ∑ day ∈ days, x.requests day ≤ 1 ∧
    ∑ day ∈ days, x.tokens day ≤ max (x.reserve D) x.state.usage

/-- The client that a record is for, and its tokens. -/
def Op.recorded? : Op → Option (String × ℤ)
  | .record c _ _ prompt completion => some (c, (prompt + completion).toInt)
  | _ => none

/-- A record leaves the request counter alone when a reserve took effect unheard, and the token
counter too unless the record or the reserve is of nothing. -/
def Exchange.Calm (D : MeteredGateway) (x : Exchange) (now : ℤ) (net : String → Outcome) :
    RunEvent → Prop
  | .run t _ => ∀ e ∈ x.state.next t, ∀ r ∈ e.recorded?, x.unheard = true →
      (net (cReqKey r.1 (dayString now))).carried = false ∧
        ((net (cTokensKey r.1 (dayString now))).carried = true → r.2 = 0 ∨ x.reserve D = 0)
  | _ => True

section Machine

variable (S : CountingStore) (D : MeteredGateway)

/-- No request is recorded after a reserve that took effect unheard. -/
def Wire.Calm (w : Wire S) : WireEvent → Prop
  | .arrive .. | .lapse _ => True
  | .go i now _ net event => ∀ x ∈ w.exchanges[i]?, x.Calm D now net event

/-- The amounts of the event fit, and the store has room for them. -/
def Wire.Fits (w : Wire S) : WireEvent → Prop
  | .arrive .. | .lapse _ => True
  | .go i now id _ (.run t _) =>
      ∀ x ∈ w.exchanges[i]?, ∀ e ∈ x.state.next t, e.Fits S D now id w.store
  | .go .. => True

end Machine

/-- The reserve adds `r` requests on a day, and the charge `q` requests and `t` tokens. -/
def Exchange.Adds (D : MeteredGateway) (x : Exchange) (r q t : ℤ) : Prop :=
  ∃ day₀ day₁, (∀ day, x.requests day =
      (Pi.single day₀ r : String → ℤ) day + (Pi.single day₁ q : String → ℤ) day) ∧
    ∀ day, x.tokens day =
      (Pi.single day₀ (r * x.reserve D) : String → ℤ) day + (Pi.single day₁ t : String → ℤ) day

section Adds

variable {D : MeteredGateway} {x : Exchange} {r q t : ℤ}

theorem reserve_nonneg (D : MeteredGateway) (x : Exchange) : 0 ≤ x.reserve D :=
  Int.add_nonneg (Int.natCast_nonneg _) (allowance D.quota x.body).completion_nonneg

theorem sum_single (days : Finset String) (day₀ : String) (v : ℤ) :
    ∑ day ∈ days, (Pi.single day₀ v : String → ℤ) day = if day₀ ∈ days then v else 0 := by
  simp only [Pi.single_apply, Finset.sum_ite_eq']

/-- What the sums over days come to. -/
theorem Exchange.Adds.countedOnce_iff (h : x.Adds D r q t) (hr : r = 0 ∨ r = 1)
    (hq : q = 0 ∨ q = 1) (ht : t ≤ max (x.reserve D) x.state.usage) :
    x.CountedOnce D ↔ r + q ≤ 1 ∧ r * x.reserve D + t ≤ max (x.reserve D) x.state.usage := by
  obtain ⟨day₀, day₁, hreq, htok⟩ := h
  have hR := reserve_nonneg D x
  have hrR : r * x.reserve D = 0 ∨ r * x.reserve D = x.reserve D := by
    rcases hr with rfl | rfl
    · exact .inl (zero_mul _)
    · exact .inr (one_mul _)
  have hsum : ∀ days : Finset String,
      ∑ day ∈ days, x.requests day =
          (if day₀ ∈ days then r else 0) + (if day₁ ∈ days then q else 0) ∧
        ∑ day ∈ days, x.tokens day =
          (if day₀ ∈ days then r * x.reserve D else 0) + (if day₁ ∈ days then t else 0) := by
    intro days
    simp only [hreq, htok, Finset.sum_add_distrib, sum_single, and_self]
  constructor
  · intro h
    have hboth := h {day₀, day₁}
    rw [(hsum _).1, (hsum _).2] at hboth
    simpa using hboth
  · intro h days
    rw [(hsum days).1, (hsum days).2]
    split_ifs <;> omega

end Adds

/-! ### The invariant -/

/-- What a request has added to the counters of its client, according to what it is charged by. -/
inductive Exchange.Tallied (D : MeteredGateway) (x : Exchange) : Prop where
  | arrived (arrived : Arrived x.client x.body x.state) (unheard : x.unheard = false)
      (usage : x.state.usage = 0) (adds : x.Adds D 0 0 0) : Tallied D x
  | reserved {rsv : Reservation} {charged : Bool} {t : ℤ}
      (standing : Standing (Settles rsv) x.state charged) (unheard : x.unheard = false)
      (client : rsv.client = x.client) (sound : rsv.Sound)
      (total : rsv.reservedTotal.toInt = x.reserve D) (usage : 0 ≤ x.state.usage)
      (adds : x.Adds D 1 0 t) (before : charged = false → t = 0 ∧ x.state.usage = 0)
      (bound : t ≤ max (x.state.usage - x.reserve D) 0) : Tallied D x
  | unreserved {charged : Bool} {q t : ℤ} (standing : Standing (Records x.client) x.state charged)
      (usage : 0 ≤ x.state.usage) (adds : x.Adds D (if x.unheard then 1 else 0) q t)
      (before : charged = false → q = 0 ∧ t = 0 ∧ x.state.usage = 0) (requests : q = 0 ∨ q = 1)
      (tokens : t = 0 ∨ t = x.state.usage) : Tallied D x

section Steps

variable {S : CountingStore} {D : MeteredGateway} {x : Exchange} {now : ℤ} {id : String}
  {net : String → Outcome} {store : S.State}

theorem usage_step_other {s : State} {ev : RunEvent} (hev : ∀ t o, ev ≠ .run t o) :
    (step s ev).usage = s.usage := by
  cases ev with
  | run t o => exact absurd rfl (hev t o)
  | returned =>
      simp only [step]
      split <;> rfl
  | dropHandler =>
      simp only [step]
      split
      · split_ifs <;> rfl
      · rfl
  | dropBody =>
      simp only [step]
      split
      · split_ifs <;> rfl
      · rfl

/-- An operation that is performed is charged for, and one that is not changes nothing. -/
theorem usage_step_run {s : State} {t : Thread} {e : Op} (hn : s.next t = some e) (o : Oracle) :
    (perform s o e = none ∧ step s (.run t o) = s) ∨
      (step s (.run t o)).usage = s.usage + e.usage := by
  rcases run_of_next hn o with hnone | ⟨r, s', hperform, hlog⟩
  · exact .inl hnone
  · refine .inr ?_
    rw [← perform_usage hperform]
    unfold State.usage
    rw [hlog]

theorem go_run {t : Thread} {e : Op} (hn : x.state.next t = some e) (o : Oracle) :
    x.go S D now id net store (.run t o) =
      ({ x with
          state := step x.state (.run t (fun e => (wireAnswer S D now id net o store e).1))
          raised := fun k => x.raised k +
            (S.counter (wireAnswer S D now id net o store e).2 k - S.counter store k)
          unheard := x.unheard || unheardReserve S D now id net store e },
        (wireAnswer S D now id net o store e).2) := by
  simp only [Exchange.go, hn]

theorem requests_go {t : Thread} {e : Op} (hn : x.state.next t = some e) (o : Oracle)
    (day : String) : (x.go S D now id net store (.run t o)).1.requests day = x.requests day +
      (S.counter (wireAnswer S D now id net o store e).2 (cReqKey x.client day) -
        S.counter store (cReqKey x.client day)) := by
  rw [go_run hn]
  rfl

theorem tokens_go {t : Thread} {e : Op} (hn : x.state.next t = some e) (o : Oracle)
    (day : String) : (x.go S D now id net store (.run t o)).1.tokens day = x.tokens day +
      (S.counter (wireAnswer S D now id net o store e).2 (cTokensKey x.client day) -
        S.counter store (cTokensKey x.client day)) := by
  rw [go_run hn]
  rfl

theorem go_other {event : RunEvent} (hev : ∀ t o, event ≠ .run t o) :
    x.go S D now id net store event = ({ x with state := step x.state event }, store) := by
  cases event with
  | run t o => exact absurd rfl (hev t o)
  | _ => rfl

theorem wireAnswer_of_not_meters {e : Op} (he : e.meters = false) (o : Oracle) :
    (wireAnswer S D now id net o store e).2 = store ∧
      unheardReserve S D now id net store e = false := by
  cases e <;> first | exact ⟨rfl, rfl⟩ | cases he

theorem perform_of_meters {s : State} {e : Op} (he : e.meters = true) (o : Oracle) :
    perform s (fun e => (wireAnswer S D now id net o store e).1) e ≠ none := by
  cases e with
  | admitReq | settle | record => simp [perform, wireAnswer]
  | _ => cases he

theorem Exchange.CountedOnce.congr {x' : Exchange} (h : x.CountedOnce D)
    (hreq : ∀ day, x'.requests day = x.requests day) (htok : ∀ day, x'.tokens day = x.tokens day)
    (hbody : x'.body = x.body) (husage : x'.state.usage = x.state.usage) :
    x'.CountedOnce D := by
  intro days
  simp only [hreq, htok, husage, Exchange.reserve, hbody]
  exact h days

/-- The first operation that counts is the reserve. -/
theorem Exchange.Adds.reserve {x' : Exchange} {r : ℤ} {today : String} (h : x.Adds D 0 0 0)
    (hbody : x'.body = x.body)
    (hreq : ∀ day, x'.requests day = x.requests day + (Pi.single today r : String → ℤ) day)
    (htok : ∀ day, x'.tokens day =
      x.tokens day + (Pi.single today (r * x.reserve D) : String → ℤ) day) :
    x'.Adds D r 0 0 := by
  obtain ⟨day₀, day₁, h₁, h₂⟩ := h
  have hR : x'.reserve D = x.reserve D := by simp only [Exchange.reserve, hbody]
  refine ⟨today, today, fun day => ?_, fun day => ?_⟩
  · rw [hreq, h₁]
    simp
  · rw [htok, h₂, hR]
    simp

/-- The second one is the charge. -/
theorem Exchange.Adds.charge {x' : Exchange} {r q t : ℤ} {today : String} (h : x.Adds D r 0 0)
    (hbody : x'.body = x.body)
    (hreq : ∀ day, x'.requests day = x.requests day + (Pi.single today q : String → ℤ) day)
    (htok : ∀ day, x'.tokens day = x.tokens day + (Pi.single today t : String → ℤ) day) :
    x'.Adds D r q t := by
  obtain ⟨day₀, day₁, h₁, h₂⟩ := h
  have hR : x'.reserve D = x.reserve D := by simp only [Exchange.reserve, hbody]
  refine ⟨day₀, today, fun day => ?_, fun day => ?_⟩
  · rw [hreq, h₁]
    simp
  · rw [htok, h₂, hR]
    simp

theorem Exchange.Adds.congr {x' : Exchange} {r q t : ℤ} (h : x.Adds D r q t)
    (hbody : x'.body = x.body) (hreq : ∀ day, x'.requests day = x.requests day)
    (htok : ∀ day, x'.tokens day = x.tokens day) : x'.Adds D r q t := by
  obtain ⟨day₀, day₁, h₁, h₂⟩ := h
  have hR : x'.reserve D = x.reserve D := by simp only [Exchange.reserve, hbody]
  exact ⟨day₀, day₁, fun day => (hreq day).trans (h₁ day), fun day => by rw [htok, h₂, hR]⟩

theorem Exchange.Tallied.still {x' : Exchange} (h : x.Tallied D) (hclient : x'.client = x.client)
    (hbody : x'.body = x.body) (hraised : x'.raised = x.raised) (hunheard : x'.unheard = x.unheard)
    (husage : x'.state.usage = x.state.usage)
    (harrived : Arrived x.client x.body x.state →
      Arrived x.client x.body x'.state ∨ Standing (Records x.client) x'.state false)
    (hstanding : ∀ C charged, IsCharge C → Standing C x.state charged →
      Standing C x'.state charged) : x'.Tallied D := by
  have hreq : ∀ day, x'.requests day = x.requests day := fun day => by
    simp only [Exchange.requests, hraised, hclient]
  have htok : ∀ day, x'.tokens day = x.tokens day := fun day => by
    simp only [Exchange.tokens, hraised, hclient]
  have hR : x'.reserve D = x.reserve D := by simp only [Exchange.reserve, hbody]
  cases h with
  | arrived harr hun husage₀ hadds =>
      rcases harrived harr with harr' | hst
      · exact .arrived (by rwa [hclient, hbody]) (hunheard.trans hun) (husage.trans husage₀)
          (hadds.congr hbody hreq htok)
      · refine .unreserved (q := 0) (t := 0) (by rwa [hclient]) (husage.trans husage₀).ge ?_
          (fun _ => ⟨rfl, rfl, husage.trans husage₀⟩) (.inl rfl) (.inl rfl)
        rw [hunheard.trans hun]
        exact hadds.congr hbody hreq htok
  | reserved hst hun hcl hsound htotal hnonneg hadds hbefore hbound =>
      exact .reserved (hstanding _ _ (isCharge_settles _) hst) (hunheard.trans hun)
        (hcl.trans hclient.symm) hsound (htotal.trans hR.symm) (by rwa [husage])
        (hadds.congr hbody hreq htok) (by rwa [husage]) (by rwa [husage, hR])
  | unreserved hst hnonneg hadds hbefore hq ht =>
      refine .unreserved (by rw [hclient]; exact hstanding _ _ (isCharge_records _) hst)
        (by rwa [husage]) ?_ (by rwa [husage]) hq (by rwa [husage])
      rw [hunheard]
      exact hadds.congr hbody hreq htok

theorem Exchange.Tallied.go_still (h : x.Tallied D) (hc : x.CountedOnce D) {event : RunEvent}
    (hev : ∀ t o e, event = .run t o → x.state.next t = some e → e.meters = false) :
    (x.go S D now id net store event).1.Tallied D ∧
      (x.go S D now id net store event).1.CountedOnce D ∧
      (x.go S D now id net store event).2 = store := by
  by_cases hrun : ∃ t o, event = .run t o
  · obtain ⟨t, o, rfl⟩ := hrun
    cases hn : x.state.next t with
    | none =>
        simp only [Exchange.go, hn]
        exact ⟨h, hc, trivial⟩
    | some e =>
        have he := hev t o e rfl hn
        obtain ⟨hstore, hunheard⟩ := @wireAnswer_of_not_meters S D now id net store e he o
        have husage : (step x.state (.run t
            (fun e => (wireAnswer S D now id net o store e).1))).usage = x.state.usage := by
          rcases usage_step_run hn (fun e => (wireAnswer S D now id net o store e).1) with
            ⟨-, hsame⟩ | hplus
          · rw [hsame]
          · rw [hplus, usage_of_not_meters he, add_zero]
        have hraised : ∀ k, x.raised k +
            (S.counter (wireAnswer S D now id net o store e).2 k - S.counter store k) =
              x.raised k := by
          intro k
          rw [hstore, sub_self, add_zero]
        rw [go_run hn]
        refine ⟨h.still rfl rfl (funext hraised) ?_ husage (fun harr => .inl (harr.run hn he _))
          (fun C charged hC hst => ?_), ?_, hstore⟩
        · rw [hunheard, Bool.or_false]
        · rcases hst.run hC hn (fun e => (wireAnswer S D now id net o store e).1) with
            ⟨-, hsame⟩ | hst'
          · rw [hsame]
            exact hst
          · rwa [he, Bool.or_false] at hst'
        · exact hc.congr (fun day => hraised _) (fun day => hraised _) rfl husage
  · have hother : ∀ t o, event ≠ .run t o := fun t o heq => hrun ⟨t, o, heq⟩
    have husage := @usage_step_other x.state event hother
    rw [go_other hother]
    refine ⟨?_, hc.congr (fun _ => rfl) (fun _ => rfl) rfl husage, rfl⟩
    exact h.still rfl rfl rfl rfl husage (fun harr => harr.other hother)
      (fun _ _ _ hst => hst.other hother)

theorem newReservation_total (x : Exchange) (id provider model : String) :
    let rsv := D.quota.newReservation id x.client provider model x.body.promptEst.toInt64
      x.body.maxTokens
    rsv.promptEst.toInt + rsv.completionCap.toInt = x.reserve D := by
  have h0 : (0 : Int64).toInt = 0 := by decide
  have hprompt : (max x.body.promptEst.toInt64 0).toInt = x.body.promptEst.toNat := by
    rw [Wrapping.toInt_max, h0, toInt_toInt64_of_lt (promptEst_lt x.body)]
    omega
  exact congrArg (· + _) hprompt

/-- What the reserve adds, if it takes effect. -/
theorem Exchange.Adds.admitReq {t : Thread} {provider model : String} (hadds : x.Adds D 0 0 0)
    (hn : x.state.next t = some (.admitReq x.client provider model x.body.promptEst.toInt64
      x.body.maxTokens))
    (hfits : Op.Fits S D now id store (.admitReq x.client provider model
      x.body.promptEst.toInt64 x.body.maxTokens))
    (hstore : Solvent S store) (o : Oracle) :
    (x.go S D now id net store (.run t o)).1.Adds D (if (net (rsvKey id)).carried &&
      (S.reserve (D.reserveOp now id x.client provider model x.body.promptEst.toInt64
        x.body.maxTokens) store).1.isOk then 1 else 0) 0 0 := by
  have htotal := (sound_newReservation hfits).reservedTotal.trans
    (newReservation_total x id provider model)
  set rsv := D.quota.newReservation id x.client provider model x.body.promptEst.toInt64
    x.body.maxTokens
  have hplace := @Quota.CountingStore.place_client D.quota rsv (dayString now) (S.counter store)
  set op := D.reserveOp now id x.client provider model x.body.promptEst.toInt64 x.body.maxTokens
  set took := (net (rsvKey id)).carried && (S.reserve op store).1.isOk
  have hcounter : S.counter (wireAnswer S D now id net o store
      (.admitReq x.client provider model x.body.promptEst.toInt64 x.body.maxTokens)).2 =
        if took then op.exact.place (S.counter store) else S.counter store :=
    Quota.CountingStore.reserveVia_counter (net (rsvKey id))
      (Quota.admitOp_keys_nodup D.quota rsv (dayString now)) hstore
      (reserve_newReservation hfits) hfits.room
  refine Exchange.Adds.reserve hadds (by rw [go_run hn]) (fun day => ?_ : ∀ day, _ =
    _ + (Pi.single (dayString now) _ : String → ℤ) day) (fun day => ?_)
  · rw [requests_go hn, hcounter]
    cases took with
    | false => simp
    | true =>
        rw [if_pos rfl, if_pos rfl]
        exact congrArg _ (sub_eq_iff_eq_add'.mpr (hplace day).1)
  · rw [tokens_go hn, hcounter]
    cases took with
    | false => simp
    | true =>
        rw [if_pos rfl, if_pos rfl, one_mul, ← htotal]
        exact congrArg _ (sub_eq_iff_eq_add'.mpr (hplace day).2)

/-- The reserve is counted once, heard or unheard. -/
theorem Exchange.Tallied.go_admitReq {t : Thread} {c provider model : String} {est : Int64}
    {cap : Option Int64} (h : x.Tallied D)
    (hn : x.state.next t = some (.admitReq c provider model est cap))
    (hfits : Op.Fits S D now id store (.admitReq c provider model est cap))
    (hstore : Solvent S store) (o : Oracle) :
    (x.go S D now id net store (.run t o)).1.Tallied D ∧
      (x.go S D now id net store (.run t o)).1.CountedOnce D := by
  cases h with
  | reserved hst => rcases hst.asked hn with hm | ⟨he, -⟩ <;> contradiction
  | unreserved hst => rcases hst.asked hn with hm | ⟨he, -⟩ <;> contradiction
  | arrived harr hun husage₀ hadds =>
      obtain hm | ⟨provider', model', heq⟩ := harr.asked hn
      · cases hm
      cases heq
      have hsound := sound_newReservation hfits
      have htotal := hsound.reservedTotal.trans (newReservation_total x id provider model)
      set rsv := D.quota.newReservation id x.client provider model x.body.promptEst.toInt64
        x.body.maxTokens with hrsv
      set op := D.quota.admitOp rsv (dayString now) with hop
      -- the reserve takes effect, or not
      set took := (net (rsvKey id)).carried && (S.reserve op store).1.isOk with htook
      have hadds' : (x.go S D now id net store (.run t o)).1.Adds D (if took then 1 else 0) 0 0 :=
        hadds.admitReq hn hfits hstore o
      have hst := @Arrived.admitted _ _ _ harr _ _ _ _ _ _ hn
        (fun e => (wireAnswer S D now id net o store e).1)
        (D.quota.admitResult rsv (S.reserveVia (net (rsvKey id)) op store).1) rfl
      have hun' : (x.go S D now id net store (.run t o)).1.unheard = unheardReserve S D now id net
          store (.admitReq x.client provider model x.body.promptEst.toInt64 x.body.maxTokens) := by
        rw [go_run hn]
        show (x.unheard || _) = _
        rw [hun, Bool.false_or]
      simp only [unheardReserve] at hun'
      have husage : (x.go S D now id net store (.run t o)).1.state.usage = 0 := by
        rw [go_run hn]
        rcases usage_step_run hn (fun e => (wireAnswer S D now id net o store e).1) with
          ⟨hnone, -⟩ | hplus
        · exact absurd hnone (perform_of_meters rfl o)
        · exact hplus.trans (by rw [husage₀]; rfl)
      have hstate : (x.go S D now id net store (.run t o)).1.state = step x.state
          (.run t (fun e => (wireAnswer S D now id net o store e).1)) := by rw [go_run hn]
      have hclient : (x.go S D now id net store (.run t o)).1.client = x.client := by rw [go_run hn]
      have hbody : (x.go S D now id net store (.run t o)).1.body = x.body := by rw [go_run hn]
      rw [← hstate] at hst
      generalize (x.go S D now id net store (.run t o)).1 = x' at *
      have hR : x'.reserve D = x.reserve D := by simp only [Exchange.reserve, hbody]
      have hcounted : x'.CountedOnce D := by
        have hR0 := reserve_nonneg D x'
        rw [hadds'.countedOnce_iff (by split_ifs <;> simp) (.inl rfl) (by omega), husage]
        split_ifs <;> omega
      refine ⟨?_, hcounted⟩
      -- without a reservation the request is unheard exactly if the reserve took effect
      have hopen : Standing (Records x.client) x'.state false → x'.unheard = took →
          x'.Tallied D := by
        intro hst hun'
        rw [← hun'] at hadds'
        exact .unreserved (by rwa [hclient]) husage.ge hadds' (fun _ => ⟨rfl, rfl, husage⟩)
          (.inl rfl) (.inl rfl)
      cases ho : net (rsvKey id) with
      | failed msg =>
          rw [ho] at hst hun' htook
          exact hopen hst (hun'.trans htook.symm)
      | lost msg =>
          rw [ho] at hst hun' htook
          exact hopen hst (hun'.trans (htook.trans (Bool.true_and _)).symm)
      | done =>
          rw [ho] at hst hun' htook
          cases hres : S.reserve op store with
          | mk result store' =>
              simp only [Quota.CountingStore.reserveVia, hres] at hst htook
              cases result with
              | error e =>
                  cases e with
                  | denied denied => exact hopen hst (hun'.trans htook.symm)
                  | backend msg => exact hopen hst (hun'.trans htook.symm)
              | ok u =>
                  have htook : took = true := htook
                  rw [htook] at hadds'
                  exact .reserved hst hun' hclient.symm hsound (htotal.trans hR.symm) husage.ge
                    hadds' (fun _ => ⟨rfl, husage⟩) (le_max_right _ _)

/-- What a charge `e` leaves behind, which adds `q` requests and `t` tokens on one day. -/
structure Exchange.Charge (C : Op → Prop) (x x' : Exchange) (e : Op) (today : String) (q t : ℤ) :
    Prop where
  client : x'.client = x.client
  body : x'.body = x.body
  unheard : x'.unheard = x.unheard
  usage : x'.state.usage = e.usage
  standing : Standing C x'.state true
  requests : ∀ day, x'.requests day = x.requests day + (Pi.single today q : String → ℤ) day
  tokens : ∀ day, x'.tokens day = x.tokens day + (Pi.single today t : String → ℤ) day

theorem go_charge {C : Op → Prop} (hC : IsCharge C) (hst : Standing C x.state false) {t : Thread}
    {e : Op} (hn : x.state.next t = some e) (he : C e) (husage : x.state.usage = 0) (o : Oracle)
    {today : String} {q a : ℤ} (hmoved : ∀ day,
      S.counter (wireAnswer S D now id net o store e).2 (cReqKey x.client day) =
          S.counter store (cReqKey x.client day) + (Pi.single today q : String → ℤ) day ∧
        S.counter (wireAnswer S D now id net o store e).2 (cTokensKey x.client day) =
          S.counter store (cTokensKey x.client day) + (Pi.single today a : String → ℤ) day) :
    x.Charge C (x.go S D now id net store (.run t o)).1 e today q a := by
  obtain ⟨hm, hadm⟩ := hC e he
  have hunheard : unheardReserve S D now id net store e = false := by
    cases e <;> first | rfl | cases hadm
  refine ⟨by rw [go_run hn], by rw [go_run hn], ?_, ?_, ?_, fun day => ?_, fun day => ?_⟩
  · rw [go_run hn, hunheard, Bool.or_false]
  · rcases usage_step_run hn (fun e => (wireAnswer S D now id net o store e).1) with
      ⟨hnone, -⟩ | hplus
    · exact absurd hnone (perform_of_meters hm o)
    · rw [go_run hn]
      exact hplus.trans (by rw [husage, zero_add])
  · rcases hst.run hC hn (fun e => (wireAnswer S D now id net o store e).1) with
      ⟨hnone, -⟩ | hst'
    · exact absurd hnone (perform_of_meters hm o)
    · rw [hm, Bool.or_true] at hst'
      rwa [go_run hn]
  · rw [requests_go hn, (hmoved day).1, add_sub_cancel_left]
  · rw [tokens_go hn, (hmoved day).2, add_sub_cancel_left]

theorem Exchange.Tallied.go_settle {t : Thread} {rsv : Reservation} {p d : Int64}
    (h : x.Tallied D) (hn : x.state.next t = some (.settle rsv p d))
    (hfits : Op.Fits S D now id store (.settle rsv p d)) (hstore : Solvent S store) (o : Oracle) :
    (x.go S D now id net store (.run t o)).1.Tallied D ∧
      (x.go S D now id net store (.run t o)).1.CountedOnce D := by
  cases h with
  | arrived harr => rcases harr.asked hn with hm | ⟨_, _, heq⟩ <;> contradiction
  | unreserved hst => rcases hst.asked hn with hm | ⟨he, -⟩ <;> contradiction
  | @reserved rsv₀ charged t₀ hst hun hcl hsound htotal hnonneg hadds hbefore hbound =>
      obtain hm | ⟨rfl, rfl⟩ := hst.asked hn
      · cases hm
      obtain ⟨rfl, husage₀⟩ := hbefore rfl
      obtain ⟨t', ht', hmoved⟩ := @Quota.CountingStore.settleVia_client S store rsv (dayString now)
        (net (rsvKey rsv.id)) p d hstore hfits.room
      have hgo : x.Charge (Settles rsv) (x.go S D now id net store (.run t o)).1 (.settle rsv p d)
          (dayString now) 0 t' := by
        refine go_charge (isCharge_settles rsv) hst hn rfl husage₀ o fun day => ?_
        rw [← hcl, Pi.single_zero, Pi.zero_apply, add_zero]
        exact hmoved day
      -- the clamp raises nothing, as no counter is below zero
      have hR := reserve_nonneg D x
      have hp := hfits.usage_nonneg
      have hdelta : (p + d - rsv.reservedTotal).toInt =
          Op.usage (.settle rsv p d) - x.reserve D := by
        rw [Wrapping.toInt_sub_of_nonneg hp (by omega), htotal]
        rfl
      have hbound' : t' ≤ max (Op.usage (.settle rsv p d) - x.reserve D) 0 := by
        have hv := hstore (cTokensKey rsv.client (dayString now))
        rw [hdelta] at ht'
        omega
      generalize (x.go S D now id net store (.run t o)).1 = x' at hgo
      have hR' : x'.reserve D = x.reserve D := by simp only [Exchange.reserve, hgo.body]
      have hadds' : x'.Adds D 1 0 t' := hadds.charge hgo.body hgo.requests hgo.tokens
      constructor
      · refine .reserved hgo.standing (hgo.unheard.trans hun) (hcl.trans hgo.client.symm) hsound
          (htotal.trans hR'.symm) ?_ hadds' nofun ?_
        · rwa [hgo.usage]
        · rwa [hgo.usage, hR']
      · rw [hadds'.countedOnce_iff (.inr rfl) (.inl rfl) (by rw [hgo.usage]; omega), hgo.usage, hR']
        constructor <;> omega

/-- A record is the one charge of a request without a reservation, which may have been counted
unheard. -/
theorem Exchange.Tallied.go_record {t : Thread} {c provider model : String} {p d : Int64}
    (h : x.Tallied D) (hn : x.state.next t = some (.record c provider model p d))
    (hfits : Op.Fits S D now id store (.record c provider model p d)) (hstore : Solvent S store)
    (o : Oracle) :
    (x.go S D now id net store (.run t o)).1.Tallied D ∧
      ((x.go S D now id net store (.run t o)).1.CountedOnce D ↔ x.Calm D now net (.run t o)) := by
  cases h with
  | arrived harr => rcases harr.asked hn with hm | ⟨_, _, heq⟩ <;> contradiction
  | reserved hst => rcases hst.asked hn with hm | ⟨he, -⟩ <;> contradiction
  | @unreserved charged q₀ t₀ hst hnonneg hadds hbefore hq ht =>
      obtain hm | ⟨rfl, rfl⟩ := hst.asked hn
      · cases hm
      obtain ⟨rfl, rfl, husage₀⟩ := hbefore rfl
      have hgo : x.Charge (Records x.client) (x.go S D now id net store (.run t o)).1
          (.record x.client provider model p d) (dayString now)
          (if (net (cReqKey x.client (dayString now))).carried then 1 else 0)
          (if (net (cTokensKey x.client (dayString now))).carried then (p + d).toInt else 0) :=
        go_charge (isCharge_records x.client) hst hn rfl husage₀ o fun day =>
          Quota.CountingStore.record_client net now hstore hfits.usage_nonneg hfits.room day
      have hR := reserve_nonneg D x
      have hp := hfits.usage_nonneg
      have hcalm : x.Calm D now net (.run t o) ↔ (x.unheard = true →
          (net (cReqKey x.client (dayString now))).carried = false ∧
            ((net (cTokensKey x.client (dayString now))).carried = true →
              (p + d).toInt = 0 ∨ x.reserve D = 0)) := by
        refine ⟨fun h => h (.record x.client provider model p d) (Option.mem_def.mpr hn)
          (x.client, (p + d).toInt) rfl, fun h e he r hr => ?_⟩
        rw [Option.mem_def, hn, Option.some.injEq] at he
        subst he
        rw [Op.recorded?, Option.mem_def, Option.some.injEq] at hr
        subst hr
        exact h
      generalize (x.go S D now id net store (.run t o)).1 = x' at hgo
      have hR' : x'.reserve D = x.reserve D := by simp only [Exchange.reserve, hgo.body]
      have hadds' := hadds.charge hgo.body hgo.requests hgo.tokens
      rw [← hgo.unheard] at hadds' hcalm
      have husage' : x'.state.usage = (p + d).toInt := hgo.usage
      have hp' : 0 ≤ (p + d).toInt := hp
      constructor
      · have hst' : Standing (Records x'.client) x'.state true := by
          rw [hgo.client]
          exact hgo.standing
        refine .unreserved hst' (by rwa [husage']) hadds' nofun ?_ ?_
        · split_ifs <;> simp
        · rw [husage']
          split_ifs <;> simp
      · rw [hcalm, hadds'.countedOnce_iff (by split_ifs <;> simp) (by split_ifs <;> simp)
          (by rw [husage']; split_ifs <;> omega), husage', hR']
        cases x'.unheard with
        | false =>
            refine iff_of_true ⟨?_, ?_⟩ nofun
            · simp only [Bool.false_eq_true, if_false]
              split_ifs <;> omega
            · simp only [Bool.false_eq_true, if_false, zero_mul]
              split_ifs <;> omega
        | true =>
            simp only [if_true, one_mul, forall_const]
            refine and_congr ?_ ?_
            · cases (net (cReqKey x.client (dayString now))).carried <;> simp
            · cases (net (cTokensKey x.client (dayString now))).carried with
              | false => simp
              | true =>
                  simp only [if_true, forall_const]
                  omega

theorem Exchange.Tallied.go (h : x.Tallied D) (hc : x.CountedOnce D) (hstore : Solvent S store)
    {event : RunEvent}
    (hfits : ∀ t o, event = .run t o → ∀ e ∈ x.state.next t, e.Fits S D now id store) :
    (x.go S D now id net store event).1.Tallied D ∧
      ((x.go S D now id net store event).1.CountedOnce D ↔ x.Calm D now net event) ∧
      Solvent S (x.go S D now id net store event).2 := by
  by_cases hstill : ∀ t o e, event = .run t o → x.state.next t = some e → e.meters = false
  · obtain ⟨ht, hc', hstore'⟩ := @Exchange.Tallied.go_still S D x now id net store h hc event hstill
    refine ⟨ht, iff_of_true hc' ?_, by rwa [hstore']⟩
    cases event with
    | run t o =>
        intro e he r hr
        have hm := hstill t o e rfl he
        cases e with
        | record => cases hm
        | _ => cases hr
    | _ => trivial
  · simp only [not_forall] at hstill
    obtain ⟨t, o, e, rfl, hn, hm⟩ := hstill
    have he := hfits t o rfl e hn
    have hstore' : Solvent S (x.go S D now id net store (.run t o)).2 := by
      rw [go_run hn]
      exact solvent_wireAnswer hstore he
    cases e with
    | admitReq c provider model est cap =>
        obtain ⟨ht, hc'⟩ := @Exchange.Tallied.go_admitReq S D x now id net store _ _ _ _ _ _ h hn he
          hstore o
        refine ⟨ht, iff_of_true hc' ?_, hstore'⟩
        intro e he r hr
        cases hn.symm.trans he
        cases hr
    | settle rsv p d =>
        obtain ⟨ht, hc'⟩ := @Exchange.Tallied.go_settle S D x now id net store _ _ _ _ h hn he
          hstore o
        refine ⟨ht, iff_of_true hc' ?_, hstore'⟩
        intro e he r hr
        cases hn.symm.trans he
        cases hr
    | record c provider model p d =>
        obtain ⟨ht, hc'⟩ := h.go_record hn he hstore o
        exact ⟨ht, hc', hstore'⟩
    | _ => exact absurd rfl hm

end Steps

/-! ### Runs -/

section Runs

variable {S : CountingStore} {D : MeteredGateway}

/-- The invariant of the machine. -/
structure Wire.Inv (D : MeteredGateway) (w : Wire S) : Prop where
  solvent : Solvent S w.store
  tallied : ∀ x ∈ w.exchanges, x.Tallied D
  counted : ∀ x ∈ w.exchanges, x.CountedOnce D

theorem Wire.Inv.empty : (Wire.empty S).Inv D :=
  ⟨fun k => (S.counter_empty k).ge, fun _ hx => absurd hx List.not_mem_nil,
    fun _ hx => absurd hx List.not_mem_nil⟩

theorem tallied_init (client requestId : String) (body : ChatCompletionRequest) :
    (Exchange.init D client requestId body).Tallied D ∧
      (Exchange.init D client requestId body).CountedOnce D := by
  have hadds : (Exchange.init D client requestId body).Adds D 0 0 0 := by
    refine ⟨"", "", fun day => ?_, fun day => ?_⟩
    · rw [Pi.single_zero]
      rfl
    · rw [zero_mul, Pi.single_zero]
      rfl
  have hR := reserve_nonneg D (Exchange.init D client requestId body)
  refine ⟨.arrived (arrived_init D.metered requestId client body) rfl rfl hadds, ?_⟩
  rw [hadds.countedOnce_iff (.inl rfl) (.inl rfl) (le_max_of_le_left hR)]
  exact ⟨zero_le_one, le_max_of_le_left (by rwa [zero_mul, add_zero])⟩

/-- **One event**: the requests stay counted once exactly if the event is calm. -/
theorem Wire.Inv.step {w : Wire S} (h : w.Inv D) {event : WireEvent} (hfits : w.Fits S D event) :
    ((∀ x ∈ (w.step S D event).exchanges, x.CountedOnce D) ↔ w.Calm S D event) ∧
      (w.Calm S D event → (w.step S D event).Inv D) := by
  cases event with
  | arrive client requestId body =>
      obtain ⟨ht, hc⟩ := @tallied_init D client requestId body
      have hcounted : ∀ x ∈ (w.step S D (.arrive client requestId body)).exchanges,
          x.CountedOnce D := List.forall_mem_append.mpr ⟨h.counted, by simpa using hc⟩
      refine ⟨iff_of_true hcounted trivial, fun _ => ⟨h.solvent, ?_, hcounted⟩⟩
      exact List.forall_mem_append.mpr ⟨h.tallied, by simpa using ht⟩
  | lapse key =>
      refine ⟨iff_of_true h.counted trivial, fun _ => ⟨?_, h.tallied, h.counted⟩⟩
      simp only [Wire.step]
      cases hlapse : S.lapse key w.store with
      | none => exact h.solvent
      | some store => exact h.solvent.lapse hlapse
  | go i now id net event =>
      cases hx : w.exchanges[i]? with
      | none =>
          simp only [Wire.step, Wire.Calm, hx]
          exact ⟨iff_of_true h.counted fun x hx => absurd hx (Option.not_mem_none x), fun _ => h⟩
      | some x =>
          have hmem := List.mem_of_getElem? hx
          obtain ⟨hlt, -⟩ := List.getElem?_eq_some_iff.mp hx
          obtain ⟨ht, hiff, hsolvent⟩ := @Exchange.Tallied.go S D x now id net w.store
            (h.tallied x hmem) (h.counted x hmem) h.solvent event (by
              rintro t o rfl
              exact hfits x (Option.mem_def.mpr hx))
          have hcalm : w.Calm S D (.go i now id net event) ↔ x.Calm D now net event := by
            simp only [Wire.Calm, hx, Option.mem_def, Option.some.injEq, forall_eq']
          have hall : ∀ P : Exchange → Prop, (∀ y ∈ w.exchanges, P y) →
              P (x.go S D now id net w.store event).1 →
              ∀ y ∈ w.exchanges.set i (x.go S D now id net w.store event).1, P y := by
            intro P hP hgo y hy
            rcases List.mem_or_eq_of_mem_set hy with hy | rfl
            · exact hP y hy
            · exact hgo
          simp only [Wire.step, hx]
          rw [hcalm, ← hiff]
          refine ⟨⟨fun hc => hc _ (List.mem_set hlt _), hall _ h.counted⟩, fun hc => ?_⟩
          exact ⟨hsolvent, hall _ h.tallied ht, hall _ h.counted hc⟩

/-- **A request is counted once, even if replies are lost**, in every state of a run whose
amounts and sums fit, if and only if no request is recorded after a reserve that took effect
unheard. -/
theorem counted_once_iff (S : CountingStore) (D : MeteredGateway) (events : List WireEvent)
    (hfits : Runs.Along (Wire.step S D) (Wire.Fits S D) (Wire.empty S) events) :
    (∀ pre, pre <+: events →
        ∀ x ∈ (Runs.final (Wire.step S D) (Wire.empty S) pre).exchanges, x.CountedOnce D) ↔
      Runs.Along (Wire.step S D) (Wire.Calm S D) (Wire.empty S) events := by
  have hrun : Runs.Along (Wire.step S D)
      (fun w e => ∀ x ∈ (w.step S D e).exchanges, x.CountedOnce D) (Wire.empty S) events ↔
        Runs.Along (Wire.step S D) (Wire.Calm S D) (Wire.empty S) events :=
    Runs.Along.iff_of_invariant (I := Wire.Inv D) (fun w e hw hf => (hw.step hf).1)
      (fun w e hw hf => (hw.step hf).2) events (Wire.empty S) Wire.Inv.empty hfits
  rw [Runs.forall_prefix_iff (P := fun w : Wire S => ∀ x ∈ w.exchanges, x.CountedOnce D), ← hrun]
  exact and_iff_right Wire.Inv.empty.counted

/-! ### A reserve whose reply is lost -/

instance Op.decidableRoom (now : ℤ) (id : String) (store : S.State) :
    (e : Op) → Decidable (e.Room S D now id store)
  | .admitReq c provider model est cap => inferInstanceAs (Decidable
      ((D.reserveOp now id c provider model est cap).exact.Below S.bound (S.counter store)))
  | .settle rsv prompt completion => inferInstanceAs (Decidable
      ((Quota.Metering.settleReq rsv prompt completion (dayString now)).exact.Below S.bound
        (S.counter store)))
  | .record c provider model prompt completion => inferInstanceAs (Decidable
      ((Quota.recordOp c provider model (dayString now) (prompt + completion)).exact.Below S.bound
        (S.counter store)))
  | .resolve .. | .chat _ | .chatStream _ | .recordTokensToday .. | .nextItem | .send _
  | .inspect .. | .observe _ | .audit _ | .finish _ | .openStream _ | .mapItem _ | .flush | .cells
  | .swapRecorded | .dropGuard | .panic => isTrue trivial

instance Op.decidableFits (now : ℤ) (id : String) (store : S.State) (e : Op) :
    Decidable (e.Fits S D now id store) :=
  have : Decidable (∀ a ∈ e.amounts D, 0 ≤ a.1.toInt ∧ 0 ≤ a.2.toInt ∧
      a.1.toInt + a.2.toInt < 2 ^ 63) := Option.decidableForallMem (e.amounts D)
  decidable_of_iff (_ ∧ e.Room S D now id store) ⟨fun h => ⟨h.1, h.2⟩, fun h => ⟨h.1, h.2⟩⟩

instance Wire.decidableFits (w : Wire S) : (event : WireEvent) → Decidable (w.Fits S D event)
  | .arrive .. => inferInstanceAs (Decidable True)
  | .go i now id _ (.run t _) =>
      inferInstanceAs (Decidable (∀ x ∈ w.exchanges[i]?, ∀ e ∈ x.state.next t,
        e.Fits S D now id w.store))
  | .go _ _ _ _ .returned => inferInstanceAs (Decidable True)
  | .go _ _ _ _ .dropHandler => inferInstanceAs (Decidable True)
  | .go _ _ _ _ .dropBody => inferInstanceAs (Decidable True)
  | .lapse _ => inferInstanceAs (Decidable True)

instance Exchange.decidableCalm (x : Exchange) (now : ℤ) (net : String → Outcome) :
    (event : RunEvent) → Decidable (x.Calm D now net event)
  | .run t _ => inferInstanceAs (Decidable (∀ e ∈ x.state.next t, ∀ r ∈ e.recorded?,
      x.unheard = true → (net (cReqKey r.1 (dayString now))).carried = false ∧
        ((net (cTokensKey r.1 (dayString now))).carried = true → r.2 = 0 ∨ x.reserve D = 0)))
  | .returned => inferInstanceAs (Decidable True)
  | .dropHandler => inferInstanceAs (Decidable True)
  | .dropBody => inferInstanceAs (Decidable True)

instance Wire.decidableCalm (w : Wire S) : (event : WireEvent) → Decidable (w.Calm S D event)
  | .arrive .. => inferInstanceAs (Decidable True)
  | .go i now _ net event =>
      inferInstanceAs (Decidable (∀ x ∈ w.exchanges[i]?, x.Calm D now net event))
  | .lapse _ => inferInstanceAs (Decidable True)

/-- A fail-open gateway without quotas. -/
def openGateway : MeteredGateway where
  gateway := { sampleGateway with backendFailClosed := false }
  quota := ⟨none, none, none, false, 1024⟩
  metered := rfl

/-- The reply of the reserve is lost. -/
def lostReserve (key : String) : Outcome :=
  if key = rsvKey "1" then .lost "redis op timeout (reserve)" else .done

/-- One request that goes on by so many operations. -/
def lostRun (n : ℕ) : List WireEvent :=
  .arrive "c" "r" (sampleRequest false) ::
    List.replicate n (.go 0 0 "1" lostReserve (.run .handler sampleOracle))

/-- The reserve fails without an effect. -/
def failedReserve (key : String) : Outcome :=
  if key = rsvKey "2" then .failed "redis op timeout (reserve)" else .done

/-- The client of the first request is gone before the request is recorded, and the second one is
recorded after a reserve that had no effect. -/
def disconnected : List WireEvent :=
  lostRun 5 ++ [.go 0 0 "1" lostReserve .dropHandler, .arrive "c" "s" (sampleRequest false)] ++
    List.replicate 6 (.go 1 0 "2" failedReserve (.run .handler sampleOracle))

theorem counted_once_disconnected :
    (Runs.Along (Wire.step .redis openGateway) (Wire.Calm .redis openGateway) (Wire.empty .redis)
        disconnected ∧
      ∀ pre, pre <+: disconnected → ∀ x ∈ (Runs.final (Wire.step .redis openGateway)
        (Wire.empty .redis) pre).exchanges, x.CountedOnce openGateway) ∧
    ((Runs.final (Wire.step .redis openGateway) (Wire.empty .redis) disconnected).exchanges.map
      (fun x => (x.requests (dayString 0), x.unheard))) = [(1, true), (1, false)] := by
  have hcalm : Runs.Along (Wire.step .redis openGateway) (Wire.Calm .redis openGateway)
      (Wire.empty .redis) disconnected := by decide
  exact ⟨⟨hcalm, (counted_once_iff .redis openGateway disconnected (by decide)).mpr hcalm⟩,
    by decide⟩

/-- A request that is served after such a reserve is counted twice. -/
theorem counted_twice :
    ¬ ∀ (S : CountingStore) (D : MeteredGateway) (events : List WireEvent),
      D.gateway.backendFailClosed = false →
      Runs.Along (Wire.step S D) (Wire.Fits S D) (Wire.empty S) events →
      ∀ pre, pre <+: events →
        ∀ x ∈ (Runs.final (Wire.step S D) (Wire.empty S) pre).exchanges, x.CountedOnce D := by
  intro h
  have hall := h .redis openGateway (lostRun 6) rfl (by decide) (lostRun 6) List.prefix_rfl
  have hreq : ∀ x ∈ (Runs.final (Wire.step .redis openGateway) (Wire.empty .redis)
      (lostRun 6)).exchanges, x.requests (dayString 0) ≤ 1 := by
    intro x hx
    have hday := (hall x hx {dayString 0}).1
    rwa [Finset.sum_singleton] at hday
  exact absurd hreq (by decide)

end Runs

end Chat

end FirewallLLM
