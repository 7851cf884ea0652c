import FirewallLLM.MeteringDays
import FirewallLLM.PyMetering
import FirewallLLM.TokenStore

/-! # One Redis under both gateways

Gateways of both branches with one configuration that meter over one Redis server.  The Rust
gateways compute in 64 bits, the Python gateways in the integers; each runs its own copy of the
scripts, with keys and arguments that it builds itself.  Every call reaches the server, the record
of a reservation may expire at any time, and the counters and their sums stay below `2 ^ 53`, where
the numbers of the scripts are integers.

`OneMeter` is what the gateways are meant to be together: one meter that computes in the integers.
`one_meter`: whoever makes which call, admissions are answered alike and the server is left alike,
and within one day it keeps the quota ledger. -/

namespace FirewallLLM.SharedMetering

open Quota
open Ledger (Hold ids)
open Py.Metering (admitArgs settleArgs ScriptBroken)

/-! ### The gateways -/

/-- The quotas of one configuration, as each branch reads them. -/
structure Quotas where
  rust : Quota.Metering Int64
  python : Py.Metering.Quotas
  pythonReserve : ℤ
  clientTokens : python.clientTokensPerDay = rust.clientTokensPerDay.map Int64.toInt
  clientRequests : python.clientRequestsPerDay = rust.clientRequestsPerDay.map Int64.toInt
  providerTokens : python.providerTokensPerDay = rust.providerTokensPerDay.map Int64.toInt
  completionReserve : pythonReserve = rust.completionReserveTokens.toInt

/-- What a request asks of the metering. -/
structure Request where
  id : String
  client : String
  provider : String
  model : String
  promptEst : Int64
  maxTokens : Option Int64

inductive Branch where
  | rust
  | python

/-- A reservation in the hands of a gateway. -/
inductive Voucher where
  | rust (rsv : Reservation Int64)
  | python (rsv : Reservation ℤ)

/-- The reservation read in the integers. -/
def Voucher.exact : Voucher → Reservation ℤ
  | .rust rsv => rsv.exact
  | .python rsv => rsv

namespace Quotas

variable (q : Quotas) (now : ℤ) (r : Request) (s : RedisStore)

/-- `Metering::admit` of a Rust gateway. -/
def rustAdmit : Except (MeteringError Int64) (Reservation Int64) × RedisStore :=
  q.rust.admitReq (fun op => RedisStore.reserve op.exact) now r.id r.client r.provider r.model
    r.promptEst r.maxTokens s

/-- `body.max_tokens or config.quotas.completion_reserve_tokens` -/
def pythonCap : ℤ := ((r.maxTokens.map Int64.toInt).filter (· ≠ 0)).getD q.pythonReserve

/-- `Metering.admit` of a Python gateway. -/
def pythonAdmit : Except Py.Metering.QuotaExceeded (Reservation ℤ) × RedisStore :=
  let rsv := Py.Metering.newReservation r.id r.client r.provider r.model r.promptEst.toInt
    (q.pythonCap r)
  let x := Py.Metering.admitScript q.python rsv (dayString now) s
  (x.1.1, x.2)

/-- The admission by a gateway: the reservation, or the scope and the limit of the denial. -/
def admission : Branch → Except (MeteringError ℤ) Voucher × RedisStore
  | .rust =>
      let x := q.rustAdmit now r s
      ((x.1.mapError MeteringError.exact).map .rust, x.2)
  | .python =>
      let x := q.pythonAdmit now r s
      ((x.1.mapError fun err => .quotaExceeded err.scope err.limit).map .python, x.2)

end Quotas

/-- The gateway that holds a reservation settles it. -/
def Voucher.settle (now : ℤ) (prompt completion : Int64) (usageSource : String) (s : RedisStore) :
    Voucher → RedisStore
  | .rust rsv =>
      Quota.Metering.settle (fun req => RedisStore.settle req.exact) now rsv prompt completion s
  | .python rsv =>
      (Py.Metering.settleScript rsv prompt.toInt completion.toInt usageSource (dayString now) s).2

/-! ### The machine -/

/-- A call of a gateway: it admits a request, or settles one that was admitted, for the first time
or again.  Or the record of a reservation expires. -/
inductive Call where
  | admitReq (now : ℤ) (r : Request)
  | settle (now : ℤ) (id : String) (prompt completion : Int64) (usageSource : String)
  | lapse (id : String)

/-- A reservation that was handed out, and what it came to. -/
structure Held (ρ : Type) where
  rsv : ρ
  final : Option ℤ

/-- The server, the reservations, and the answers to the admissions. -/
structure State where
  store : RedisStore
  held : List (Held Voucher)
  answers : List (Except (MeteringError ℤ) (Reservation ℤ))

/-- The reservations among `held`, of which the one with the id comes to `total`: the usage of a
settle, or the reserve where the record has expired. -/
def closeHeld {ρ : Type} (exact : ρ → Reservation ℤ) (id : String) (total : ℤ)
    (held : List (Held ρ)) : List (Held ρ) :=
  held.map fun h => if (exact h.rsv).id = id then { h with final := some total } else h

/-- The reservation that an admission hands out. -/
def handedOut {ρ : Type} : Except (MeteringError ℤ) ρ → List (Held ρ)
  | .ok rsv => [⟨rsv, none⟩]
  | .error _ => []

/-- One call; the branch is that of the gateway which admits. -/
def State.step (q : Quotas) (s : State) : Branch × Call → State
  | (branch, .admitReq now r) =>
      let x := q.admission now r s.store branch
      ⟨x.2, s.held ++ handedOut x.1, s.answers ++ [x.1.map Voucher.exact]⟩
  | (_, .settle now id prompt completion usageSource) =>
      match s.held.find? (·.rsv.exact.id = id) with
      | none => s
      | some h =>
          ⟨h.rsv.settle now prompt completion usageSource s.store,
            if h.final = none then
              closeHeld Voucher.exact id (prompt.toInt + completion.toInt) s.held
            else s.held, s.answers⟩
  | (_, .lapse id) =>
      match s.held.find? (·.rsv.exact.id = id) with
      | none => s
      | some h =>
          ⟨s.store.lapse (rsvKey id),
            if h.final = none then closeHeld Voucher.exact id h.rsv.exact.reservedTotal s.held
            else s.held, s.answers⟩

def State.start : State := ⟨.empty, [], []⟩

/-! ### The one meter -/

/-- The server, the reservations and the answers, with all numbers in the integers. -/
structure OneMeter where
  store : RedisStore
  held : List (Held (Reservation ℤ))
  answers : List (Except (MeteringError ℤ) (Reservation ℤ))

/-- The reservation of a request. -/
def Quotas.reservation (q : Quotas) (r : Request) : Reservation ℤ :=
  q.rust.exact.newReservation r.id r.client r.provider r.model r.promptEst.toInt
    (r.maxTokens.map Int64.toInt)

def OneMeter.step (q : Quotas) (m : OneMeter) : Call → OneMeter
  | .admitReq now r =>
      let x := RedisStore.reserve (q.rust.exact.admitOp (q.reservation r) (dayString now)) m.store
      let answer := q.rust.exact.admitResult (q.reservation r) x.1
      ⟨x.2, m.held ++ handedOut answer, m.answers ++ [answer]⟩
  | .settle now id prompt completion _ =>
      match m.held.find? (·.rsv.id = id) with
      | none => m
      | some h =>
          ⟨(RedisStore.settle (Quota.Metering.settleReq h.rsv prompt.toInt completion.toInt
              (dayString now)) m.store).2,
            if h.final = none then
              closeHeld (fun rsv => rsv) id (prompt.toInt + completion.toInt) m.held
            else m.held, m.answers⟩
  | .lapse id =>
      match m.held.find? (·.rsv.id = id) with
      | none => m
      | some h =>
          ⟨m.store.lapse (rsvKey id),
            if h.final = none then closeHeld (fun rsv => rsv) id h.rsv.reservedTotal m.held
            else m.held, m.answers⟩

def OneMeter.start : OneMeter := ⟨.empty, [], []⟩

/-- A reservation read in the integers. -/
def Held.exact (h : Held Voucher) : Held (Reservation ℤ) := ⟨h.rsv.exact, h.final⟩

/-- What the gateways are together. -/
def State.view (s : State) : OneMeter := ⟨s.store, s.held.map Held.exact, s.answers⟩

/-- A request that passes the contract checks, with a reserve that fits in 64 bits. -/
structure Quotas.Accepts (q : Quotas) (r : Request) : Prop where
  maxTokens : ∀ n ∈ r.maxTokens, 1 ≤ n.toInt
  fits : max r.promptEst.toInt 0 +
    max (r.maxTokens.getD q.rust.completionReserveTokens).toInt 0 < 2 ^ 63

/-- An admission draws a new id, amounts fit in 64 bits, and the counters of a call stay below
`2 ^ 53` with its amount. -/
def OneMeter.Legal (q : Quotas) (m : OneMeter) : Call → Prop
  | .admitReq now r => (q.Accepts r ∧ ∀ h ∈ m.held, h.rsv.id ≠ r.id) ∧
      (q.rust.exact.admitOp (q.reservation r) (dayString now)).Below (2 ^ 53) m.store.counters
  | .settle now id prompt completion _ =>
      (0 ≤ prompt.toInt ∧ 0 ≤ completion.toInt ∧ prompt.toInt + completion.toInt < 2 ^ 63) ∧
      ∀ h ∈ m.held, h.rsv.id = id → h.final = none →
        (Quota.Metering.settleReq h.rsv prompt.toInt completion.toInt (dayString now)).Below
          (2 ^ 53) m.store.counters
  | .lapse _ => True

/-! ### Both admissions are one reserve -/

section Admission

variable {q : Quotas} {r : Request} {now : ℤ} {s : RedisStore}

/-- The reservation of a Rust gateway. -/
def Quotas.rustReservation (q : Quotas) (r : Request) : Reservation Int64 :=
  q.rust.newReservation r.id r.client r.provider r.model r.promptEst r.maxTokens

theorem rustReservation_exact (q : Quotas) (r : Request) :
    (q.rustReservation r).exact = q.reservation r :=
  newReservation_exact ..

theorem Quotas.Accepts.sound (h : q.Accepts r) : (q.rustReservation r).Sound := by
  obtain ⟨hprompt, hcap⟩ := newReservation_nonneg q.rust r.id r.client r.provider r.model
    r.promptEst r.maxTokens
  have h0 : (0 : Int64).toInt = 0 := by decide
  have hfits := h.fits
  rw [← h0, ← Wrapping.toInt_max, ← Wrapping.toInt_max] at hfits
  exact ⟨hprompt, hcap, hfits⟩

/-- The cap of a Python gateway: a `max_tokens` that passes the contract checks is not zero. -/
theorem pythonCap_eq (h : q.Accepts r) :
    q.pythonCap r = (r.maxTokens.map Int64.toInt).getD q.rust.exact.completionReserveTokens := by
  unfold Quotas.pythonCap
  rw [q.completionReserve]
  cases hmax : r.maxTokens with
  | none => rfl
  | some n =>
      have hn : n.toInt ≠ 0 := by
        have := h.maxTokens n hmax
        omega
      simp [Option.filter, hn]

theorem pythonReservation_eq (h : q.Accepts r) :
    Py.Metering.newReservation r.id r.client r.provider r.model r.promptEst.toInt (q.pythonCap r) =
      q.reservation r := by
  rw [pythonCap_eq h]
  unfold Py.Metering.newReservation Quotas.reservation Quota.Metering.newReservation
  rw [max_comm 0, max_comm 0]

theorem admitArgs_eq (q : Quotas) (rsv : Reservation ℤ) (day : String) :
    admitArgs q.python rsv day = q.rust.exact.admitOp rsv day := by
  simp only [admitArgs, Py.Metering.limit, q.clientTokens, q.clientRequests, q.providerTokens]
  rfl

theorem rustOp_exact (h : q.Accepts r) (day : String) :
    (q.rust.admitOp (q.rustReservation r) day).exact =
      q.rust.exact.admitOp (q.reservation r) day := by
  rw [← rustReservation_exact]
  exact admitOp_exact _ h.sound.reservedTotal

/-- A Rust gateway admits as the one meter. -/
theorem rustAdmit_eq (h : q.Accepts r) :
    let x := RedisStore.reserve (q.rust.exact.admitOp (q.reservation r) (dayString now)) s
    ((q.rustAdmit now r s).1.mapError MeteringError.exact).map Reservation.exact =
        q.rust.exact.admitResult (q.reservation r) x.1 ∧ (q.rustAdmit now r s).2 = x.2 := by
  rw [← rustOp_exact h, ← rustReservation_exact]
  exact ⟨admitResult_exact _ _, rfl⟩

theorem reserve_admitArgs (p : Py.Metering.Quotas) (rsv : Reservation ℤ) (day : String)
    (s : RedisStore) : s.reserve (admitArgs p rsv day) =
      if ScriptBroken p.clientTokensPerDay
          (s.counters (cTokensKey rsv.client day) + rsv.reservedTotal) then
        (.error (.denied .clientTokens), s)
      else if ScriptBroken p.clientRequestsPerDay (s.counters (cReqKey rsv.client day) + 1) then
        (.error (.denied .clientRequests), s)
      else if ScriptBroken p.providerTokensPerDay
          (s.counters (pTokensKey rsv.provider day) + rsv.reservedTotal) then
        (.error (.denied .providerTokens), s)
      else (.ok (), ⟨(admitArgs p rsv day).place s.counters,
        Function.update s.records (rsvKey rsv.id) (some "open")⟩) :=
  RedisStore.reserve_eq ..

/-- What a Python gateway reads off the reply is what a Rust gateway reads off it. -/
theorem admitScript_answer (q : Quotas) (rsv : Reservation ℤ) (day : String) (s : RedisStore) :
    let x := RedisStore.reserve (q.rust.exact.admitOp rsv day) s
    let y := Py.Metering.admitScript q.python rsv day s
    y.1.1.mapError (fun err => MeteringError.quotaExceeded err.scope err.limit) =
        q.rust.exact.admitResult rsv x.1 ∧ y.2 = x.2 := by
  have hct : q.rust.exact.clientTokensPerDay = q.python.clientTokensPerDay := q.clientTokens.symm
  have hcr : q.rust.exact.clientRequestsPerDay = q.python.clientRequestsPerDay :=
    q.clientRequests.symm
  have hpt : q.rust.exact.providerTokensPerDay = q.python.providerTokensPerDay :=
    q.providerTokens.symm
  rw [← admitArgs_eq, Py.Metering.admitScript_eq, reserve_admitArgs]
  split_ifs
  · exact ⟨by simp [Py.Metering.exceeded, Except.mapError, Quota.Metering.admitResult,
      Quota.Metering.quotaExceeded, hct], rfl⟩
  · exact ⟨by simp [Py.Metering.exceeded, Except.mapError, Quota.Metering.admitResult,
      Quota.Metering.quotaExceeded, hcr], rfl⟩
  · exact ⟨by simp [Py.Metering.exceeded, Except.mapError, Quota.Metering.admitResult,
      Quota.Metering.quotaExceeded, hpt], rfl⟩
  · exact ⟨rfl, rfl⟩

/-- What a gateway answers, and what it leaves on the server, does not depend on its branch. -/
theorem admission_eq (h : q.Accepts r) (branch : Branch) :
    let x := RedisStore.reserve (q.rust.exact.admitOp (q.reservation r) (dayString now)) s
    (q.admission now r s branch).1.map Voucher.exact =
        q.rust.exact.admitResult (q.reservation r) x.1 ∧
      (q.admission now r s branch).2 = x.2 := by
  cases branch with
  | rust =>
      obtain ⟨hanswer, hstore⟩ := @rustAdmit_eq q r now s h
      refine ⟨?_, hstore⟩
      rw [← hanswer]
      simp only [Quotas.admission]
      cases (q.rustAdmit now r s).1 <;> rfl
  | python =>
      obtain ⟨hanswer, hstore⟩ := admitScript_answer q (q.reservation r) (dayString now) s
      rw [← pythonReservation_eq h] at hanswer hstore ⊢
      refine ⟨?_, hstore⟩
      rw [← hanswer]
      simp only [Quotas.admission, Quotas.pythonAdmit]
      cases (Py.Metering.admitScript q.python _ (dayString now) s).1.1 <;> rfl

end Admission

/-! ### Both settles are one settle -/

section Settle

/-- The arithmetic of a settle is exact. -/
def Voucher.Sound : Voucher → Prop
  | .rust rsv => rsv.Sound
  | .python _ => True

variable {prompt completion : Int64}

theorem settleReq_exact {rsv : Reservation Int64} (h : rsv.Sound) (hp : 0 ≤ prompt.toInt)
    (hc : 0 ≤ completion.toInt) (hfits : prompt.toInt + completion.toInt < 2 ^ 63) (day : String) :
    (Quota.Metering.settleReq rsv prompt completion day).exact =
      Quota.Metering.settleReq rsv.exact prompt.toInt completion.toInt day := by
  have htotal : (prompt + completion).toInt = prompt.toInt + completion.toInt :=
    Wrapping.toInt_add_of_lt hp hc hfits
  have hreserved : rsv.reservedTotal.toInt = rsv.exact.reservedTotal := h.reservedTotal
  have hnonneg : 0 ≤ rsv.reservedTotal.toInt := by
    rw [h.reservedTotal]
    exact Int.add_nonneg h.prompt h.cap
  have hdelta : (prompt + completion - rsv.reservedTotal).toInt =
      prompt.toInt + completion.toInt - rsv.exact.reservedTotal := by
    rw [Wrapping.toInt_sub_of_nonneg (by omega) hnonneg, htotal, hreserved]
  simp only [Quota.Metering.settleReq, SettleReq.exact, hdelta]
  rfl

/-- What a settle leaves on the server does not depend on the branch. -/
theorem Voucher.settle_eq {v : Voucher} (h : v.Sound) (hp : 0 ≤ prompt.toInt)
    (hc : 0 ≤ completion.toInt) (hfits : prompt.toInt + completion.toInt < 2 ^ 63) (now : ℤ)
    (usageSource : String) (s : RedisStore) :
    v.settle now prompt completion usageSource s =
      (RedisStore.settle (Quota.Metering.settleReq v.exact prompt.toInt completion.toInt
        (dayString now)) s).2 := by
  cases v with
  | rust rsv =>
      simp only [Voucher.settle, Quota.Metering.settle, settleReq_exact h hp hc hfits]
      rfl
  | python rsv => rfl

end Settle

/-! ### Runs -/

section Runs

variable {q : Quotas}

theorem handedOut_exact (x : Except (MeteringError ℤ) Voucher) :
    (handedOut x).map Held.exact = handedOut (x.map Voucher.exact) := by
  cases x <;> rfl

theorem closeHeld_exact (id : String) (total : ℤ) (held : List (Held Voucher)) :
    (closeHeld Voucher.exact id total held).map Held.exact =
      closeHeld (fun rsv => rsv) id total (held.map Held.exact) := by
  simp only [closeHeld, List.map_map]
  refine List.map_congr_left fun h _ => ?_
  by_cases hid : h.rsv.exact.id = id <;> simp [Held.exact, hid]

/-- Settles of Rust gateways compute exactly. -/
def State.Sound (s : State) : Prop := ∀ h ∈ s.held, h.rsv.Sound

theorem admission_sound {r : Request} {now : ℤ} {s : RedisStore} (h : q.Accepts r)
    (branch : Branch) : ∀ x ∈ handedOut (q.admission now r s branch).1, x.rsv.Sound := by
  intro x hx
  cases branch with
  | rust =>
      have hresult : (q.rustAdmit now r s).1 = q.rust.admitResult (q.rustReservation r)
          (RedisStore.reserve (q.rust.admitOp (q.rustReservation r) (dayString now)).exact s).1 :=
        rfl
      simp only [Quotas.admission, hresult] at hx
      generalize (RedisStore.reserve _ s).1 = reply at hx
      rcases reply with (d | msg) | ⟨⟩
      · cases hx
      · cases hx
      · obtain rfl := List.mem_singleton.mp hx
        exact h.sound
  | python =>
      simp only [Quotas.admission] at hx
      cases hy : (q.pythonAdmit now r s).1 with
      | error err =>
          rw [hy] at hx
          cases hx
      | ok rsv =>
          rw [hy] at hx
          obtain rfl := List.mem_singleton.mp hx
          trivial

theorem State.Sound.closeHeld {s : State} (hs : s.Sound) {id : String} {total : ℤ} :
    ∀ y ∈ closeHeld Voucher.exact id total s.held, y.rsv.Sound := by
  intro y hy
  obtain ⟨z, hz, rfl⟩ := List.mem_map.mp hy
  have hzs := hs z hz
  split_ifs <;> exact hzs

/-- The reservations are those of before, closed or not, and the ones that were handed out. -/
theorem State.Sound.step {s : State} (hs : s.Sound) {e : Branch × Call} (h : s.view.Legal q e.2) :
    (s.step q e).Sound := by
  obtain ⟨branch, call⟩ := e
  cases call with
  | admitReq now r =>
      intro x hx
      rcases List.mem_append.mp hx with hx | hx
      · exact hs x hx
      · exact admission_sound h.1.1 branch x hx
  | settle now id prompt completion usageSource =>
      simp only [State.step]
      cases s.held.find? (·.rsv.exact.id = id) with
      | none => exact hs
      | some x =>
          intro y hy
          by_cases hfinal : x.final = none
          · simp only [hfinal, if_true] at hy
            exact hs.closeHeld y hy
          · simp only [hfinal, if_false] at hy
            exact hs y hy
  | lapse id =>
      simp only [State.step]
      cases s.held.find? (·.rsv.exact.id = id) with
      | none => exact hs
      | some x =>
          intro y hy
          by_cases hfinal : x.final = none
          · simp only [hfinal, if_true] at hy
            exact hs.closeHeld y hy
          · simp only [hfinal, if_false] at hy
            exact hs y hy

theorem State.Sound.view_step {s : State} (hs : s.Sound) {e : Branch × Call}
    (h : s.view.Legal q e.2) : (s.step q e).view = s.view.step q e.2 := by
  obtain ⟨branch, call⟩ := e
  cases call with
  | admitReq now r =>
      obtain ⟨hanswer, hstore⟩ := @admission_eq q r now s.store h.1.1 branch
      simp only [State.step, OneMeter.step, State.view, List.map_append, handedOut_exact, hanswer,
        hstore]
  | settle now id prompt completion usageSource =>
      obtain ⟨⟨hp, hc, hfits⟩, -⟩ := h
      have hfind : s.view.held.find? (·.rsv.id = id) =
          (s.held.find? (·.rsv.exact.id = id)).map Held.exact := List.find?_map ..
      simp only [State.step, OneMeter.step, hfind]
      cases hf : s.held.find? (·.rsv.exact.id = id) with
      | none => rfl
      | some x =>
          have hx := hs x (List.mem_of_find?_eq_some hf)
          simp only [Option.map_some, State.view, x.rsv.settle_eq hx hp hc hfits]
          by_cases hfinal : x.final = none
          · simp only [hfinal, Held.exact, if_true, closeHeld_exact]
          · simp only [hfinal, Held.exact, if_false]
  | lapse id =>
      have hfind : s.view.held.find? (·.rsv.id = id) =
          (s.held.find? (·.rsv.exact.id = id)).map Held.exact := List.find?_map ..
      simp only [State.step, OneMeter.step, hfind]
      cases hf : s.held.find? (·.rsv.exact.id = id) with
      | none => rfl
      | some x =>
          simp only [Option.map_some, State.view]
          by_cases hfinal : x.final = none
          · simp only [hfinal, Held.exact, if_true, closeHeld_exact]
          · simp only [hfinal, Held.exact, if_false]

end Runs

/-! ### The ledger -/

section Ledger

/-- The limits that the scripts are given. -/
def Quotas.limits (q : Quotas) : Limits := q.rust.limits

/-- The day of a call; a record may expire on any. -/
def Call.day : Call → Option String
  | .admitReq now _ => some (dayString now)
  | .settle now _ _ _ _ => some (dayString now)
  | .lapse _ => none

/-- The hold of a reservation in the ledger of a day. -/
def Held.hold (day : String) (h : Held (Reservation ℤ)) : Hold String String where
  id := rsvKey h.rsv.id
  keys := Quota.Metering.tokenKeys h.rsv day
  held := h.rsv.reservedTotal
  final := h.final

/-- The server, with the ledger of a day. -/
def OneMeter.books (day : String) (m : OneMeter) : Books RedisStore.lawful :=
  ⟨m.store, m.held.map (Held.hold day)⟩

variable {q : Quotas} {m : OneMeter} {day : String}

theorem rsvKey_not_mem_ids {id : String} (h : ∀ x ∈ m.held, x.rsv.id ≠ id) :
    rsvKey id ∉ ids (m.books day).book := by
  intro hmem
  obtain ⟨hold, hhold, hkey⟩ := List.mem_map.mp hmem
  obtain ⟨x, hx, rfl⟩ := List.mem_map.mp hhold
  exact h x hx (rsvKey_inj.mp hkey)

theorem closeHeld_hold (id : String) (total : ℤ) (held : List (Held (Reservation ℤ))) :
    (closeHeld (fun rsv => rsv) id total held).map (Held.hold day) =
      Ledger.close (rsvKey id) total (held.map (Held.hold day)) := by
  simp only [closeHeld, Ledger.close, List.map_map]
  refine List.map_congr_left fun h _ => ?_
  by_cases hid : h.rsv.id = id
  · simp [Held.hold, hid]
  · simp [Held.hold, hid, rsvKey_inj]

/-- An admission is a step of the ledger of its day. -/
theorem OneMeter.books_admit {now : ℤ} {r : Request} (h : m.Legal q (.admitReq now r)) :
    QuotaStep RedisStore.lawful q.limits keyFamily (m.books (dayString now))
      ((m.step q (.admitReq now r)).books (dayString now)) := by
  obtain ⟨⟨haccepts, hfresh⟩, hroom⟩ := h
  set op := q.rust.admitOp (q.rustReservation r) (dayString now) with hop
  have hexact : op.exact = q.rust.exact.admitOp (q.reservation r) (dayString now) :=
    rustOp_exact haccepts (dayString now)
  have hsound := haccepts.sound
  have hlegal : op.exact.Legal q.limits keyFamily := by
    refine admitOp_legal q.rust ?_ (dayString now)
    rw [hsound.reservedTotal]
    exact Int.add_nonneg hsound.prompt hsound.cap
  have hkey := @rsvKey_not_mem_ids m (dayString now) r.id hfresh
  simp only [OneMeter.step, ← hexact]
  rw [← hexact] at hroom
  rcases hr : RedisStore.reserve op.exact m.store with ⟨e | ⟨⟩, store⟩
  · have hstep := QuotaStep.denied (S := RedisStore.lawful) (x := m.books (dayString now))
      hlegal hr
    have hnone : handedOut (q.rust.exact.admitResult (q.reservation r) (.error e)) = [] := by
      cases e <;> rfl
    simp only [hnone, List.append_nil]
    exact hstep
  · have hstep := QuotaStep.admitted (S := RedisStore.lawful) (x := m.books (dayString now))
      hlegal hkey hroom hr
    simp only [OneMeter.books, List.map_append]
    rw [hexact] at hstep
    exact hstep

/-- What was reserved fits in 64 bits. -/
def OneMeter.Reserved (m : OneMeter) : Prop :=
  ∀ h ∈ m.held, 0 ≤ h.rsv.reservedTotal ∧ h.rsv.reservedTotal < 2 ^ 63

theorem OneMeter.books_settle {now : ℤ} {id usageSource : String} {prompt completion : Int64}
    (h : m.Legal q (.settle now id prompt completion usageSource)) (hres : m.Reserved) :
    QuotaStep RedisStore.lawful q.limits keyFamily (m.books (dayString now))
        ((m.step q (.settle now id prompt completion usageSource)).books (dayString now)) ∨
      m.step q (.settle now id prompt completion usageSource) = m := by
  obtain ⟨⟨hp, hc, hfits⟩, hroom⟩ := h
  simp only [OneMeter.step]
  cases hf : m.held.find? (·.rsv.id = id) with
  | none => exact .inr rfl
  | some x =>
      left
      have hx := List.mem_of_find?_eq_some hf
      have hid : x.rsv.id = id := by simpa using List.find?_some hf
      obtain ⟨hpos, hlt⟩ := hres x hx
      set delta := prompt.toInt + completion.toInt - x.rsv.reservedTotal with hdelta
      set req : SettleReq Int64 := ⟨rsvKey x.rsv.id, Quota.Metering.tokenKeys x.rsv (dayString now),
        Int64.ofInt delta, Quota.bucketTtlSecs⟩ with hreq
      -- the difference is a number of 64 bits
      have hint : (Int64.ofInt delta).toInt = delta :=
        Int64.toInt_ofInt_of_le (by omega) (by omega)
      have hexact : req.exact = Quota.Metering.settleReq x.rsv prompt.toInt completion.toInt
          (dayString now) := by
        simp only [SettleReq.exact, hreq, hint]
        rfl
      have hstep : QuotaStep RedisStore.lawful q.limits keyFamily (m.books (dayString now)) _ :=
        QuotaStep.settled (h := x.hold (dayString now)) (r := req) (List.mem_map_of_mem hx) rfl rfl
          (by show -x.rsv.reservedTotal ≤ (Int64.ofInt delta).toInt; omega)
          (fun hfinal => by rw [hexact]; exact hroom x hx hid hfinal)
      have htotal : x.rsv.reservedTotal + (Int64.ofInt delta).toInt =
          prompt.toInt + completion.toInt := by omega
      dsimp only
      rw [← hexact]
      by_cases hfinal : x.final = none
      · have hhold : (x.hold (dayString now)).final = none := hfinal
        rw [if_pos hhold] at hstep
        simp only [hfinal, if_true, OneMeter.books, closeHeld_hold]
        rw [← hid, ← htotal]
        exact hstep
      · have hhold : (x.hold (dayString now)).final ≠ none := hfinal
        rw [if_neg hhold] at hstep
        simp only [hfinal, if_false]
        exact hstep

theorem OneMeter.books_lapse (id : String) :
    QuotaStep RedisStore.lawful q.limits keyFamily (m.books day) ((m.step q (.lapse id)).books day) ∨
      m.step q (.lapse id) = m := by
  simp only [OneMeter.step]
  cases hf : m.held.find? (·.rsv.id = id) with
  | none => exact .inr rfl
  | some x =>
      left
      have hx := List.mem_of_find?_eq_some hf
      have hid : x.rsv.id = id := by simpa using List.find?_some hf
      have hstep : QuotaStep RedisStore.lawful q.limits keyFamily (m.books day) _ :=
        QuotaStep.lapsed (h := x.hold day) (List.mem_map_of_mem hx) rfl
      subst hid
      by_cases hfinal : x.final = none
      · have hhold : (x.hold day).final = none := hfinal
        rw [if_pos hhold] at hstep
        simp only [hfinal, if_true, OneMeter.books, closeHeld_hold]
        exact hstep
      · have hhold : (x.hold day).final ≠ none := hfinal
        rw [if_neg hhold] at hstep
        simp only [hfinal, if_false]
        exact hstep

theorem OneMeter.books_step {c : Call} (h : m.Legal q c) (hres : m.Reserved)
    (hday : ∀ d ∈ c.day, d = day) :
    QuotaStep RedisStore.lawful q.limits keyFamily (m.books day) ((m.step q c).books day) ∨
      m.step q c = m := by
  cases c with
  | admitReq now r =>
      obtain rfl := hday _ rfl
      exact .inl (OneMeter.books_admit h)
  | settle now id prompt completion usageSource =>
      obtain rfl := hday _ rfl
      exact OneMeter.books_settle h hres
  | lapse id => exact OneMeter.books_lapse id

theorem OneMeter.Reserved.closeHeld (hm : m.Reserved) {id : String} {total : ℤ} :
    ∀ y ∈ closeHeld (fun rsv => rsv) id total m.held,
      0 ≤ y.rsv.reservedTotal ∧ y.rsv.reservedTotal < 2 ^ 63 := by
  intro y hy
  obtain ⟨z, hz, rfl⟩ := List.mem_map.mp hy
  have hzs := hm z hz
  split_ifs <;> exact hzs

theorem OneMeter.Reserved.step (hm : m.Reserved) {c : Call} (h : m.Legal q c) :
    (m.step q c).Reserved := by
  cases c with
  | admitReq now r =>
      intro x hx
      rcases List.mem_append.mp hx with hx | hx
      · exact hm x hx
      · have hsound := h.1.1.sound
        have htotal : (q.reservation r).reservedTotal = (q.rustReservation r).reservedTotal.toInt := by
          rw [← rustReservation_exact, hsound.reservedTotal]
          rfl
        have hrsv : x.rsv = q.reservation r := by
          generalize RedisStore.reserve _ m.store = y at hx
          rcases y with ⟨(d | msg) | ⟨⟩, store⟩
          · cases hx
          · cases hx
          · obtain rfl := List.mem_singleton.mp hx
            rfl
        rw [hrsv, htotal]
        refine ⟨?_, (q.rustReservation r).reservedTotal.toInt_lt⟩
        rw [hsound.reservedTotal]
        exact Int.add_nonneg hsound.prompt hsound.cap
  | settle now id prompt completion usageSource =>
      simp only [OneMeter.step]
      cases m.held.find? (·.rsv.id = id) with
      | none => exact hm
      | some x =>
          intro y hy
          dsimp only at hy
          split_ifs at hy
          · exact hm.closeHeld y hy
          · exact hm y hy
  | lapse id =>
      simp only [OneMeter.step]
      cases m.held.find? (·.rsv.id = id) with
      | none => exact hm
      | some x =>
          intro y hy
          dsimp only at hy
          split_ifs at hy
          · exact hm.closeHeld y hy
          · exact hm y hy

theorem OneMeter.reachable {calls : List Call}
    (h : Runs.Along (OneMeter.step q) (OneMeter.Legal q) .start calls)
    (hday : ∀ c ∈ calls, ∀ d ∈ c.day, d = day) :
    ((Runs.final (OneMeter.step q) .start calls).books day).Reachable RedisStore.lawful q.limits
      keyFamily := by
  have hcalls := (Runs.along_and _ _).mpr ⟨h, Runs.along_of_forall _ hday⟩
  have hinv := Runs.final_invariant (I := fun m : OneMeter => m.Reserved ∧
    (m.books day).Reachable RedisStore.lawful q.limits keyFamily) (fun m c hm hc => ?_) ?_ hcalls
  · exact hinv.2
  · refine ⟨hm.1.step hc.1, ?_⟩
    rcases OneMeter.books_step hc.1 hm.1 hc.2 with hstep | hsame
    · exact hm.2.tail hstep
    · rw [hsame]
      exact hm.2
  · have hstart : OneMeter.start.Reserved := fun _ hx => nomatch hx
    exact ⟨hstart, Relation.ReflTransGen.refl⟩

end Ledger

/-- **One meter.**  Whichever gateways make the calls, admissions are answered alike and the server
is left alike, and if the calls are made on one day it keeps the quota ledger of that day, whichever
records expire meanwhile. -/
theorem one_meter (q : Quotas) {es : List (Branch × Call)}
    (h : Runs.Along (State.step q) (fun s e => s.view.Legal q e.2) .start es) :
    (∀ es' : List (Branch × Call), es'.map Prod.snd = es.map Prod.snd →
      (Runs.final (State.step q) .start es').view = (Runs.final (State.step q) .start es).view) ∧
    ∀ day, (∀ e ∈ es, ∀ d ∈ e.2.day, d = day) →
      QuotaLedger RedisStore.lawful q.limits keyFamily
        ((Runs.final (State.step q) .start es).view.books day) := by
  have hsound : State.start.Sound := fun _ hx => nomatch hx
  have hsim : ∀ (s : State) (e : Branch × Call), s.Sound → s.view.Legal q e.2 →
      (s.step q e).view = s.view.step q e.2 ∧ (s.step q e).Sound :=
    fun s e hs he => ⟨hs.view_step he, hs.step he⟩
  have hcalls := Runs.Along.map hsim hsound h
  refine ⟨fun es' hsame => ?_, fun day hday => ?_⟩
  · rw [Runs.final_map hsim hsound hcalls, Runs.final_map hsim hsound (by rwa [hsame]), hsame]
  · rw [Runs.final_map hsim hsound hcalls]
    refine (OneMeter.reachable hcalls fun c hc => ?_).quotaLedger
    obtain ⟨e, he, rfl⟩ := List.mem_map.mp hc
    exact hday e he

/-- A client may spend a thousand tokens a day. -/
def thousandTokens : Quotas where
  rust := ⟨some 1000, none, none, false, 1024⟩
  python := ⟨some 1000, none, none⟩
  pythonReserve := 1024
  clientTokens := rfl
  clientRequests := rfl
  providerTokens := rfl
  completionReserve := rfl

/-- A request for at most ninety tokens behind a prompt of ten. -/
def shortRequest (id : String) : Request := ⟨id, "a", "p", "m", 10, some 90⟩

/-- Each branch admits a request, and the first one is settled. -/
def twoBranches : List (Branch × Call) :=
  [(.rust, .admitReq 0 (shortRequest "1")), (.python, .admitReq 0 (shortRequest "2")),
    (.rust, .settle 0 "1" 10 40 "provider")]

theorem twoBranches_legal : Runs.Along (State.step thousandTokens)
    (fun s e => s.view.Legal thousandTokens e.2) .start twoBranches := by
  have h10 : (10 : Int64).toInt = 10 := by decide
  have h90 : (90 : Int64).toInt = 90 := by decide
  have hmax : ∀ n ∈ some (90 : Int64), 1 ≤ n.toInt := by
    intro n hn
    obtain rfl := Option.mem_some_iff.mp hn
    omega
  have hfits : max (10 : Int64).toInt 0 + max (90 : Int64).toInt 0 < 2 ^ 63 := by omega
  have haccepts : ∀ id, thousandTokens.Accepts (shortRequest id) := fun _ => ⟨hmax, hfits⟩
  refine ⟨⟨⟨haccepts "1", fun _ hx => nomatch hx⟩, ?_⟩, ⟨⟨haccepts "2", ?_⟩, ?_⟩,
    ⟨⟨by decide, by decide, by decide⟩, ?_⟩, trivial⟩
  all_goals decide +kernel

/-- Python gateways alone do the same, and the ledger holds. -/
theorem one_meter_twoBranches :
    (Runs.final (State.step thousandTokens) .start
        (twoBranches.map fun e => (.python, e.2))).view =
      (Runs.final (State.step thousandTokens) .start twoBranches).view ∧
    QuotaLedger RedisStore.lawful thousandTokens.limits keyFamily
      ((Runs.final (State.step thousandTokens) .start twoBranches).view.books (dayString 0)) := by
  obtain ⟨hbranch, hledger⟩ := one_meter thousandTokens twoBranches_legal
  refine ⟨hbranch _ rfl, hledger _ fun e he d hd => ?_⟩
  simp only [twoBranches, List.mem_cons, List.not_mem_nil, or_false] at he
  rcases he with rfl | rfl | rfl <;> exact (Option.mem_some_iff.mp hd).symm

end FirewallLLM.SharedMetering
