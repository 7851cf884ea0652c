import FirewallLLM.MeteringStore
import FirewallLLM.Substitution
import Mathlib.Data.List.Basic
import Mathlib.Data.Int.Notation

/-! # Metering

`Metering` of `metering.rs` over a store: the day of a time, the keys of the five counter
families, and the operations `admit`, `settle` and `record`.  As the store, the operations
are generic in the integers they compute with.

The clock is the whole number of seconds since the epoch that `day_string` takes from
`now_ts()`.  `ensure_ready` asks the store for a ping when the backend is fail-closed; here
the store is a state that is always reachable, so it has no part in these functions. -/

namespace FirewallLLM.Quota

/-! ### Days and keys -/

/-- `{n:0width}`: decimal digits behind the sign, padded with zeros to the width. -/
def zeroPad (width : ℕ) (n : ℤ) : List Char :=
  let sign := if n < 0 then ['-'] else []
  let digits := Nat.toDigits 10 n.natAbs
  sign ++ List.replicate (width - sign.length - digits.length) '0' ++ digits

/-- `day_string`: the UTC date `YYYYMMDD` of a time in seconds since the epoch. -/
def dayString (secs : ℤ) : String :=
  let days := secs / 86400
  let z := days + 719468
  let era := z / 146097
  let doe := z % 146097
  let yoe := (doe - doe.tdiv 1460 + doe.tdiv 36524 - doe.tdiv 146096).tdiv 365
  let y := yoe + era * 400
  let doy := doe - (365 * yoe + yoe.tdiv 4 - yoe.tdiv 100)
  let mp := (5 * doy + 2).tdiv 153
  let d := doy - (153 * mp + 2).tdiv 5 + 1
  let m := if mp < 10 then mp + 3 else mp - 9
  let year := if m ≤ 2 then y + 1 else y
  String.ofList (zeroPad 4 year ++ zeroPad 2 m ++ zeroPad 2 d)

/-- The counter of `name` in the family with this prefix on one day. -/
def bucketKey (family name day : String) : String := family ++ name ++ ":" ++ day

def cTokensKey (client day : String) : String := bucketKey "fwllm:c:tokens:" client day
def cReqKey (client day : String) : String := bucketKey "fwllm:c:req:" client day
def pTokensKey (provider day : String) : String := bucketKey "fwllm:p:tokens:" provider day
def pReqKey (provider day : String) : String := bucketKey "fwllm:p:req:" provider day
def mTokensKey (model day : String) : String := bucketKey "fwllm:m:tokens:" model day

/-- The record of a reservation. -/
def rsvKey (id : String) : String := "fwllm:rsv:" ++ id

/-! ### Reservations -/

/-- An open budget reservation. -/
structure Reservation (α : Type) where
  id : String
  client : String
  provider : String
  model : String
  promptEst : α
  completionCap : α
deriving DecidableEq, Repr

/-- `Reservation::reserved_total`. -/
def Reservation.reservedTotal {α : Type} [Add α] (rsv : Reservation α) : α :=
  rsv.promptEst + rsv.completionCap

/-- Why `admit` failed: the scope and its limit, or the message of the backend. -/
inductive MeteringError (α : Type) where
  | quotaExceeded (scope : String) (limit : α)
  | backendUnavailable (msg : String)
deriving DecidableEq, Repr

/-- The quota settings of the gateway. -/
structure Metering (α : Type) where
  clientTokensPerDay : Option α
  clientRequestsPerDay : Option α
  providerTokensPerDay : Option α
  backendFailClosed : Bool
  completionReserveTokens : α
deriving DecidableEq, Repr

def rsvTtlSecs : ℕ := 600
def bucketTtlSecs : ℕ := 60 * 60 * 48

namespace Metering

section requests
variable {α : Type} [Add α] [Sub α] [Neg α] [Max α] [OfNat α 0] [OfNat α 1] (m : Metering α)

/-- The reservation `admit` asks for: both parts are clamped at zero. -/
def newReservation (id client provider model : String) (promptEst : α)
    (completionCap : Option α) : Reservation α :=
  { id, client, provider, model
    promptEst := max promptEst 0
    completionCap := max (completionCap.getD m.completionReserveTokens) 0 }

/-- The admission request of a reservation on a day. -/
def admitOp (rsv : Reservation α) (day : String) : AdmitOp α :=
  { cTokensKey := Quota.cTokensKey rsv.client day
    cTokensLimit := m.clientTokensPerDay.getD (-1)
    cReqKey := Quota.cReqKey rsv.client day
    cReqLimit := m.clientRequestsPerDay.getD (-1)
    pTokensKey := Quota.pTokensKey rsv.provider day
    pTokensLimit := m.providerTokensPerDay.getD (-1)
    pReqKey := Quota.pReqKey rsv.provider day
    mTokensKey := Quota.mTokensKey rsv.model day
    reserve := rsv.reservedTotal
    reservationKey := rsvKey rsv.id
    reservationTtlSecs := rsvTtlSecs
    bucketTtlSecs := Quota.bucketTtlSecs }

/-- The scope and the limit that a denial reports. -/
def quotaExceeded : ReserveDenied → MeteringError α
  | .clientTokens => .quotaExceeded "tokens" (m.clientTokensPerDay.getD 0)
  | .clientRequests => .quotaExceeded "requests" (m.clientRequestsPerDay.getD 0)
  | .providerTokens => .quotaExceeded "provider_tokens" (m.providerTokensPerDay.getD 0)

/-- How the result of the store's `reserve` becomes the result of `admit`. -/
def admitResult (rsv : Reservation α) :
    Except ReserveError Unit → Except (MeteringError α) (Reservation α)
  | .ok () => .ok rsv
  | .error (.denied d) => .error (m.quotaExceeded d)
  | .error (.backend msg) => .error (.backendUnavailable msg)

end requests

section settling
variable {α : Type} [Add α] [Sub α]

/-- `token_keys`: the buckets of the day on which it is called. -/
def tokenKeys (rsv : Reservation α) (day : String) : List String :=
  [cTokensKey rsv.client day, pTokensKey rsv.provider day, mTokensKey rsv.model day]

/-- The settle request of a reservation: the difference between usage and reserve, for the
token buckets of the day of the settle. -/
def settleReq (rsv : Reservation α) (prompt completion : α) (day : String) : SettleReq α :=
  { reservationKey := rsvKey rsv.id
    tokenKeys := tokenKeys rsv day
    delta := (prompt + completion) - rsv.reservedTotal
    bucketTtlSecs := Quota.bucketTtlSecs }

end settling

section operations
variable {α σ : Type} [Add α] [Sub α] [Neg α] [Max α] [OfNat α 0] [OfNat α 1] (m : Metering α)

/-- `Metering::admit` at time `now`, drawing the reservation id `id`. -/
def admitReq (reserve : AdmitOp α → σ → Except ReserveError Unit × σ) (now : ℤ)
    (id client provider model : String) (promptEst : α) (completionCap : Option α) (s : σ) :
    Except (MeteringError α) (Reservation α) × σ :=
  let rsv := m.newReservation id client provider model promptEst completionCap
  let (result, s') := reserve (m.admitOp rsv (dayString now)) s
  (m.admitResult rsv result, s')

/-- `Metering::settle` at time `now`: the result of the store is ignored. -/
def settle (storeSettle : SettleReq α → σ → Bool × σ) (now : ℤ) (rsv : Reservation α)
    (prompt completion : α) (s : σ) : σ :=
  (storeSettle (settleReq rsv prompt completion (dayString now)) s).2

/-- `Metering::record` at time `now`: five plain increments. -/
def record (incr : String → α → σ → α × σ) (now : ℤ) (client provider model : String)
    (prompt completion : α) (s : σ) : σ :=
  let day := dayString now
  let total := prompt + completion
  let s := (incr (cTokensKey client day) total s).2
  let s := (incr (cReqKey client day) 1 s).2
  let s := (incr (pTokensKey provider day) total s).2
  let s := (incr (pReqKey provider day) 1 s).2
  (incr (mTokensKey model day) total s).2

end operations

end Metering

/-! ### Keys do not collide -/

theorem colon_not_mem_zeroPad (width : ℕ) (n : ℤ) : ':' ∉ zeroPad width n := by
  intro h
  simp only [zeroPad, List.mem_append] at h
  rcases h with (h | h) | h
  · split_ifs at h <;> simp at h
  · simp at h
  · have := Nat.isDigit_of_mem_toDigits (by decide) (by decide) h
    exact absurd this (by decide)

theorem colon_not_mem_dayString (secs : ℤ) : ':' ∉ (dayString secs).toList := by
  simp only [dayString, String.toList_ofList, List.mem_append, not_or]
  exact ⟨⟨fun h => colon_not_mem_zeroPad _ _ h, fun h => colon_not_mem_zeroPad _ _ h⟩,
    fun h => colon_not_mem_zeroPad _ _ h⟩

/-- Split at the last colon: the day of a bucket key contains none. -/
theorem bucketKey_inj {family name₁ name₂ day₁ day₂ : String} (h₁ : ':' ∉ day₁.toList)
    (h₂ : ':' ∉ day₂.toList) (h : bucketKey family name₁ day₁ = bucketKey family name₂ day₂) :
    name₁ = name₂ ∧ day₁ = day₂ := by
  have e := congrArg (fun s => s.toList.reverse) h
  simp only [bucketKey, String.toList_append, List.reverse_append, List.append_assoc] at e
  rw [show (":" : String).toList.reverse = [':'] by decide] at e
  obtain ⟨hday, hrest⟩ :=
    Substitution.append_cons_inj (by rwa [List.mem_reverse]) (by rwa [List.mem_reverse]) e
  refine ⟨String.toList_inj.mp ?_, String.toList_inj.mp (List.reverse_injective hday)⟩
  exact List.reverse_injective (List.append_cancel_right hrest)

/-! ### Families of the bucket keys -/

/-- The family of a counter key, read off its prefix. -/
def keyFamily (k : String) : Family :=
  if "fwllm:c:tokens:".toList.isPrefixOf k.toList then .clientTokens
  else if "fwllm:c:req:".toList.isPrefixOf k.toList then .clientRequests
  else if "fwllm:p:tokens:".toList.isPrefixOf k.toList then .providerTokens
  else if "fwllm:p:req:".toList.isPrefixOf k.toList then .providerRequests
  else .modelTokens

theorem keyFamily_cTokensKey (client day : String) :
    keyFamily (cTokensKey client day) = .clientTokens := by
  simp [keyFamily, cTokensKey, bucketKey]

theorem keyFamily_cReqKey (client day : String) :
    keyFamily (cReqKey client day) = .clientRequests := by
  simp [keyFamily, cReqKey, bucketKey]

theorem keyFamily_pTokensKey (provider day : String) :
    keyFamily (pTokensKey provider day) = .providerTokens := by
  simp [keyFamily, pTokensKey, bucketKey]

theorem keyFamily_pReqKey (provider day : String) :
    keyFamily (pReqKey provider day) = .providerRequests := by
  simp [keyFamily, pReqKey, bucketKey]

theorem keyFamily_mTokensKey (model day : String) :
    keyFamily (mTokensKey model day) = .modelTokens := by
  simp [keyFamily, mTokensKey, bucketKey]

theorem tokenKeys_nodup {α : Type} (rsv : Reservation α) (day : String) :
    (Metering.tokenKeys rsv day).Nodup := by
  apply List.Nodup.of_map keyFamily
  simp only [Metering.tokenKeys, List.map_cons, List.map_nil, keyFamily_cTokensKey,
    keyFamily_pTokensKey, keyFamily_mTokensKey]
  decide

theorem requestKeys_nodup {α : Type} {op : AdmitOp α} {client provider model day : String}
    (hct : op.cTokensKey = cTokensKey client day) (hcr : op.cReqKey = cReqKey client day)
    (hpt : op.pTokensKey = pTokensKey provider day) (hpr : op.pReqKey = pReqKey provider day)
    (hmt : op.mTokensKey = mTokensKey model day) : (op.tokenKeys ++ op.requestKeys).Nodup := by
  apply List.Nodup.of_map keyFamily
  simp only [AdmitOp.tokenKeys, AdmitOp.requestKeys, List.cons_append, List.nil_append,
    List.map_cons, List.map_nil, hct, hcr, hpt, hpr, hmt, keyFamily_cTokensKey, keyFamily_cReqKey,
    keyFamily_pTokensKey, keyFamily_pReqKey, keyFamily_mTokensKey]
  decide

end FirewallLLM.Quota
