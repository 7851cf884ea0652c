import FirewallLLM.Metering
import FirewallLLM.Runs
import FirewallLLM.Wrapping

/-! # Metering in 64-bit integers

The release build computes every amount and every counter in `i64`, where sums wrap, and
casts the token counts of usage reports from `u64`.  Here each call of the gateway into its
metering is run twice: in `Int64` on `InMemoryStore Int64`, and in the integers on the store
and the arguments read as integers (`exact`).

`exact_iff_inRange`: a run of calls computes throughout what the integers compute exactly
when every sum that its calls form in the integers stays below `2 ^ 63`. -/

namespace FirewallLLM.Quota

open Wrapping

/-! ### Reading machine integers -/

/-- The reservation read in the integers. -/
def Reservation.exact (rsv : Reservation Int64) : Reservation ℤ :=
  { rsv with promptEst := rsv.promptEst.toInt, completionCap := rsv.completionCap.toInt }

/-- The quota settings read in the integers. -/
def Metering.exact (m : Metering Int64) : Metering ℤ :=
  { clientTokensPerDay := m.clientTokensPerDay.map Int64.toInt
    clientRequestsPerDay := m.clientRequestsPerDay.map Int64.toInt
    providerTokensPerDay := m.providerTokensPerDay.map Int64.toInt
    backendFailClosed := m.backendFailClosed
    completionReserveTokens := m.completionReserveTokens.toInt }

/-- The admission request read in the integers. -/
def AdmitOp.exact (op : AdmitOp Int64) : AdmitOp ℤ :=
  { op with
    cTokensLimit := op.cTokensLimit.toInt
    cReqLimit := op.cReqLimit.toInt
    pTokensLimit := op.pTokensLimit.toInt
    reserve := op.reserve.toInt }

/-- The settle request read in the integers. -/
def SettleReq.exact (req : SettleReq Int64) : SettleReq ℤ := { req with delta := req.delta.toInt }

/-- An error read in the integers. -/
def MeteringError.exact : MeteringError Int64 → MeteringError ℤ
  | .quotaExceeded scope limit => .quotaExceeded scope limit.toInt
  | .backendUnavailable msg => .backendUnavailable msg

def Counters.exact (c : Counters Int64) : Counters ℤ := fun k => (c k).toInt

def InMemoryStore.exact (s : InMemoryStore Int64) : InMemoryStore ℤ := ⟨s.counters.exact, s.settled⟩

/-! ### Calls -/

/-- The store of the gateway and the reservations it has handed out. -/
structure Meter (α : Type) where
  store : InMemoryStore α
  rsvs : List (Reservation α)

def Meter.exact (x : Meter Int64) : Meter ℤ := ⟨x.store.exact, x.rsvs.map Reservation.exact⟩

/-- A call into the metering on numbers of type `α`. -/
inductive MeterCall (α : Type) where
  | admitReq (now : ℤ) (id client provider model : String) (promptEst : α) (cap : Option α)
  | settle (now : ℤ) (rsv : Reservation α) (prompt completion : α)
  | record (now : ℤ) (client provider model : String) (prompt completion : α)
deriving DecidableEq, Repr

section calls
variable {α : Type} [Add α] [Sub α] [Neg α] [Max α] [LE α] [LT α] [DecidableLE α] [DecidableLT α]
  [OfNat α 0] [OfNat α 1] (m : Metering α)

/-- The amount a call computes before it turns to the store: the reserve, the settle delta
or the recorded total. -/
def MeterCall.amount : MeterCall α → α
  | .admitReq _ id client provider model promptEst cap =>
      (m.newReservation id client provider model promptEst cap).reservedTotal
  | .settle now rsv prompt completion =>
      (Metering.settleReq rsv prompt completion (dayString now)).delta
  | .record _ _ _ _ prompt completion => prompt + completion

/-- The result of a call, where it has one, and the state after it. -/
def MeterCall.run (x : Meter α) :
    MeterCall α → Option (Except (MeteringError α) (Reservation α)) × Meter α
  | .admitReq now id client provider model promptEst cap =>
      match m.admitReq InMemoryStore.reserve now id client provider model promptEst cap x.store with
      | (.ok rsv, store) => (some (.ok rsv), ⟨store, x.rsvs ++ [rsv]⟩)
      | (.error e, store) => (some (.error e), ⟨store, x.rsvs⟩)
  | .settle now rsv prompt completion =>
      (none, ⟨Metering.settle InMemoryStore.settle now rsv prompt completion x.store, x.rsvs⟩)
  | .record now client provider model prompt completion =>
      (none, ⟨Metering.record InMemoryStore.incr now client provider model prompt completion x.store,
        x.rsvs⟩)

end calls

/-- A call as the gateway makes it: from the characters of the prompt and the `max_tokens` of a
request, or from the token counts of a usage report. -/
inductive UsageCall where
  | admitReq (now : ℤ) (id client provider model : String) (promptChars : ℕ)
      (maxTokens : Option Int64)
  | settle (now : ℤ) (rsv : Reservation Int64) (prompt completion : UInt64)
  | record (now : ℤ) (client provider model : String) (prompt completion : UInt64)
deriving DecidableEq, Repr

/-- `estimate_usage` on a text of so many characters. -/
def estimateUsage (chars : ℕ) : UInt64 := UInt64.ofNat chars / 4

/-- The call in `i64`, with the casts of the source. -/
def UsageCall.asI64 : UsageCall → MeterCall Int64
  | .admitReq now id client provider model promptChars maxTokens =>
      .admitReq now id client provider model (estimateUsage promptChars).toInt64 maxTokens
  | .settle now rsv prompt completion => .settle now rsv prompt.toInt64 completion.toInt64
  | .record now client provider model prompt completion =>
      .record now client provider model prompt.toInt64 completion.toInt64

/-- The call in the integers. -/
def UsageCall.exact : UsageCall → MeterCall ℤ
  | .admitReq now id client provider model promptChars maxTokens =>
      .admitReq now id client provider model (promptChars / 4 : ℕ) (maxTokens.map Int64.toInt)
  | .settle now rsv prompt completion => .settle now rsv.exact prompt.toNat completion.toNat
  | .record now client provider model prompt completion =>
      .record now client provider model prompt.toNat completion.toNat

/-- The effect of a call in `i64`. -/
def Meter.step (m : Metering Int64) (x : Meter Int64) (e : UsageCall) : Meter Int64 :=
  (e.asI64.run m x).2

/-- Calls as the gateway makes them: a text has less than `2 ^ 63` characters, the validated
`max_tokens` is at least 1, and a settle passes a reservation handed out before. -/
def Meter.Legal (x : Meter Int64) : UsageCall → Prop
  | .admitReq _ _ _ _ _ promptChars maxTokens => promptChars < 2 ^ 63 ∧ ∀ n ∈ maxTokens, 1 ≤ n
  | .settle _ rsv _ _ => rsv ∈ x.rsvs
  | .record .. => True

/-- What a call is said to do in any case: a reserve is not negative, an admission lowers no
counter, and a settle lowers a counter by at most its own reserve. -/
def UsageCall.Sound (m : Metering Int64) (x y : Meter Int64) : UsageCall → Prop
  | .admitReq now id client provider model promptChars maxTokens =>
      0 ≤ (UsageCall.admitReq now id client provider model promptChars maxTokens).asI64.amount m ∧
        ∀ k, x.store.counters k ≤ y.store.counters k
  | .settle _ rsv _ _ =>
      ∀ k, (x.store.counters k).toInt - rsv.reservedTotal.toInt ≤ (y.store.counters k).toInt
  | .record .. => True

/-- A call in `i64` computes what it computes in the integers. -/
structure Meter.Exact (m : Metering Int64) (x : Meter Int64) (e : UsageCall) : Prop where
  amount : (e.asI64.amount m).toInt = e.exact.amount m.exact
  result : (e.asI64.run m x).1.map (·.mapError MeteringError.exact |>.map Reservation.exact) =
    (e.exact.run m.exact x.exact).1
  state : (e.asI64.run m x).2.exact = (e.exact.run m.exact x.exact).2
  sound : e.Sound m x (x.step m e)

/-! ### The sums of a call -/

/-- The sums of the increments of a reserve. -/
def placeSums (op : AdmitOp ℤ) (c : Counters ℤ) : List ℤ :=
  op.tokenKeys.map (fun k => c k + op.reserve) ++ op.requestKeys.map (fun k => c k + 1)

/-- The sums that a reserve forms: those of the gates it comes to and, when all of them pass,
those of its increments. -/
def reserveSums (op : AdmitOp ℤ) (c : Counters ℤ) : List ℤ :=
  (if 0 ≤ op.cReqLimit then [c op.cReqKey + 1] else []) ++
  if 0 ≤ op.cReqLimit ∧ op.cReqLimit < c op.cReqKey + 1 then [] else
  (if 0 ≤ op.cTokensLimit then [c op.cTokensKey + op.reserve] else []) ++
  if 0 ≤ op.cTokensLimit ∧ op.cTokensLimit < c op.cTokensKey + op.reserve then [] else
  (if 0 ≤ op.pTokensLimit then [c op.pTokensKey + op.reserve] else []) ++
  if 0 ≤ op.pTokensLimit ∧ op.pTokensLimit < c op.pTokensKey + op.reserve then [] else
  placeSums op c

/-- The counters that `record` increments, as a request. -/
def recordOp {α : Type} [Neg α] [OfNat α 1] (client provider model day : String) (total : α) :
    AdmitOp α :=
  { cTokensKey := cTokensKey client day, cTokensLimit := -1
    cReqKey := cReqKey client day, cReqLimit := -1
    pTokensKey := pTokensKey provider day, pTokensLimit := -1
    pReqKey := pReqKey provider day, mTokensKey := mTokensKey model day
    reserve := total, reservationKey := "", reservationTtlSecs := 0, bucketTtlSecs := 0 }

/-- The sums that a call forms in the integers. -/
def MeterCall.sums (m : Metering ℤ) (s : InMemoryStore ℤ) (e : MeterCall ℤ) : List ℤ :=
  e.amount m ::
    match e with
    | .admitReq now id client provider model promptEst cap =>
        reserveSums (m.admitOp (m.newReservation id client provider model promptEst cap)
          (dayString now)) s.counters
    | .settle now rsv prompt completion =>
        if rsvKey rsv.id ∈ s.settled then []
        else (Metering.tokenKeys rsv (dayString now)).map (fun k =>
          s.counters k + (Metering.settleReq rsv prompt completion (dayString now)).delta)
    | .record now client provider model prompt completion =>
        placeSums (recordOp client provider model (dayString now) (prompt + completion)) s.counters

/-- Every sum of the call, formed in the integers, stays below `2 ^ 63`. -/
def Meter.InRange (m : Metering Int64) (x : Meter Int64) (e : UsageCall) : Prop :=
  ∀ v ∈ e.exact.sums m.exact x.store.exact, v < 2 ^ 63

/-! ### Gates and increments -/

section store
variable {op : AdmitOp Int64} {s : InMemoryStore Int64}

/-- A gate whose sum fits decides as in the integers. -/
theorem gate_iff {limit a b : Int64} (ha : 0 ≤ a.toInt) (hb : 0 ≤ b.toInt)
    (h : 0 ≤ limit.toInt → a.toInt + b.toInt < 2 ^ 63) :
    (0 ≤ limit ∧ limit < a + b) ↔ (0 ≤ limit.toInt ∧ limit.toInt < a.toInt + b.toInt) := by
  rw [Int64.le_iff_toInt_le, Int64.lt_iff_toInt_lt, Int64.toInt_zero]
  constructor
  · rintro ⟨h0, hlt⟩
    rw [toInt_add_of_lt ha hb (h h0)] at hlt
    exact ⟨h0, hlt⟩
  · rintro ⟨h0, hlt⟩
    rw [toInt_add_of_lt ha hb (h h0)]
    exact ⟨h0, hlt⟩

/-- A gate whose sum does not fit lets pass what the integers refuse. -/
theorem gate_overflow {limit a b : Int64} (ha : 0 ≤ a.toInt) (hb : 0 ≤ b.toInt)
    (hlim : 0 ≤ limit.toInt) (h : 2 ^ 63 ≤ a.toInt + b.toInt) :
    ¬ (0 ≤ limit ∧ limit < a + b) ∧ (0 ≤ limit.toInt ∧ limit.toInt < a.toInt + b.toInt) := by
  have hneg := toInt_add_neg ha hb h
  have hmax := limit.toInt_lt
  refine ⟨?_, hlim, by omega⟩
  rintro ⟨-, hlt⟩
  rw [Int64.lt_iff_toInt_lt] at hlt
  omega

theorem place_exact_iff (hnd : (op.tokenKeys ++ op.requestKeys).Nodup) {c : Counters Int64}
    (hc : ∀ k, 0 ≤ (c k).toInt) (hr : 0 ≤ op.reserve.toInt) :
    (op.place c).exact = op.exact.place c.exact ↔ ∀ v ∈ placeSums op.exact c.exact, v < 2 ^ 63 := by
  have h1 : (1 : Int64).toInt = 1 := by decide
  have hplace : ∀ k, (op.place c).exact k =
      if k ∈ op.tokenKeys then (c k + op.reserve).toInt
      else if k ∈ op.requestKeys then (c k + 1).toInt else (c k).toInt := by
    intro k
    unfold Counters.exact
    rw [AdmitOp.place_apply hnd]
    split_ifs <;> rfl
  have hexact : ∀ k, op.exact.place c.exact k =
      if k ∈ op.tokenKeys then (c k).toInt + op.reserve.toInt
      else if k ∈ op.requestKeys then (c k).toInt + 1 else (c k).toInt :=
    fun k => @AdmitOp.place_apply ℤ _ _ op.exact hnd c.exact k
  have hdisj : ∀ k ∈ op.requestKeys, k ∉ op.tokenKeys := fun k hk hk' =>
    (List.nodup_append.mp hnd).2.2 k hk' k hk rfl
  constructor
  · intro h v hv
    rcases List.mem_append.mp hv with hv | hv <;> obtain ⟨k, hk, rfl⟩ := List.mem_map.mp hv
    · have hk' : k ∈ op.tokenKeys := hk
      have e := congrFun h k
      rw [hplace, hexact, if_pos hk', if_pos hk'] at e
      exact (toInt_add_eq_iff (hc k) hr).mp e
    · have hk' : k ∈ op.requestKeys := hk
      have e := congrFun h k
      rw [hplace, hexact, if_neg (hdisj k hk'), if_neg (hdisj k hk'), if_pos hk', if_pos hk',
        ← h1] at e
      have := (toInt_add_eq_iff (hc k) (by decide)).mp e
      rwa [h1] at this
  · intro h
    funext k
    rw [hplace, hexact]
    split_ifs with ht hq
    · exact toInt_add_of_lt (hc k) hr
        (h _ (List.mem_append_left _ (List.mem_map.mpr ⟨k, ht, rfl⟩)))
    · have := h _ (List.mem_append_right _ (List.mem_map.mpr ⟨k, hq, rfl⟩))
      rw [toInt_add_of_lt (hc k) (by decide) (by rw [h1]; exact this), h1]
    · rfl

/-- The reply and the counters of a reserve, read in the integers, are those of another. -/
def Agree (x : Except ReserveError Unit × InMemoryStore Int64)
    (y : Except ReserveError Unit × InMemoryStore ℤ) : Prop := x.1 = y.1 ∧ x.2.exact = y.2

/-- A gate before a rest that does not report its denial: the sum of the gate has to fit, and
so have the sums of the rest when the gate passes. -/
theorem agree_gate {limit a b : Int64} {d : ReserveDenied} {sums : List ℤ}
    {rest : Except ReserveError Unit × InMemoryStore Int64}
    {rest' : Except ReserveError Unit × InMemoryStore ℤ} (ha : 0 ≤ a.toInt) (hb : 0 ≤ b.toInt)
    (hne : rest.1 ≠ .error (.denied d)) (hrest : Agree rest rest' ↔ ∀ v ∈ sums, v < 2 ^ 63) :
    Agree (if 0 ≤ limit ∧ limit < a + b then (.error (.denied d), s) else rest)
        (if 0 ≤ limit.toInt ∧ limit.toInt < a.toInt + b.toInt then (.error (.denied d), s.exact)
          else rest') ↔
      ∀ v ∈ (if 0 ≤ limit.toInt then [a.toInt + b.toInt] else []) ++
        (if 0 ≤ limit.toInt ∧ limit.toInt < a.toInt + b.toInt then [] else sums), v < 2 ^ 63 := by
  by_cases hov : 0 ≤ limit.toInt ∧ 2 ^ 63 ≤ a.toInt + b.toInt
  · obtain ⟨hpass, hrefuse⟩ := gate_overflow ha hb hov.1 hov.2
    rw [if_neg hpass, if_pos hrefuse]
    constructor
    · rintro ⟨h, -⟩
      exact absurd h hne
    · intro h
      have := h (a.toInt + b.toInt) (by simp [hov.1])
      omega
  · have hfit : 0 ≤ limit.toInt → a.toInt + b.toInt < 2 ^ 63 := fun h0 => by
      by_contra hge
      exact hov ⟨h0, by omega⟩
    have hhead : ∀ v ∈ (if 0 ≤ limit.toInt then [a.toInt + b.toInt] else []), v < 2 ^ 63 := by
      intro v hv
      split_ifs at hv with h0
      · rw [List.mem_singleton.mp hv]
        exact hfit h0
      · cases hv
    by_cases hH : 0 ≤ limit.toInt ∧ limit.toInt < a.toInt + b.toInt
    · rw [if_pos ((gate_iff ha hb hfit).mpr hH), if_pos hH, if_pos hH, List.append_nil]
      exact ⟨fun _ => hhead, fun _ => ⟨rfl, rfl⟩⟩
    · rw [if_neg (fun hG => hH ((gate_iff ha hb hfit).mp hG)), if_neg hH, if_neg hH, hrest]
      constructor
      · intro h v hv
        rcases List.mem_append.mp hv with hv | hv
        · exact hhead v hv
        · exact h v hv
      · exact fun h v hv => h v (List.mem_append_right _ hv)

/-- A reserve is exact when, and only when, the sums it forms fit. -/
theorem reserve_exact_iff (hnd : (op.tokenKeys ++ op.requestKeys).Nodup)
    (hc : ∀ k, 0 ≤ (s.counters k).toInt) (hr : 0 ≤ op.reserve.toInt) :
    Agree (s.reserve op) (s.exact.reserve op.exact) ↔
      ∀ v ∈ reserveSums op.exact s.exact.counters, v < 2 ^ 63 := by
  unfold InMemoryStore.reserve reserveSums
  refine agree_gate (hc _) (by decide) ?_ (agree_gate (hc _) hr ?_ (agree_gate (hc _) hr ?_ ?_))
  · split_ifs <;> simp
  · split_ifs <;> simp
  · simp
  · refine Iff.trans ?_ (place_exact_iff hnd hc hr)
    constructor
    · rintro ⟨-, h⟩
      exact congrArg InMemoryStore.counters h
    · intro h
      exact ⟨rfl, by simp only [InMemoryStore.exact, h]⟩

theorem settleCounters_exact_iff {delta : Int64} {keys : List String} (hnd : keys.Nodup)
    {c : Counters Int64} (hc : ∀ k, 0 ≤ (c k).toInt) :
    (settleCounters delta keys c).exact = settleCounters delta.toInt keys c.exact ↔
      ∀ v ∈ keys.map (fun k => c.exact k + delta.toInt), v < 2 ^ 63 := by
  have h0 : (0 : Int64).toInt = 0 := by decide
  have hmin := delta.le_toInt
  have hmax := delta.toInt_lt
  have hcode : ∀ k, (settleCounters delta keys c).exact k =
      if k ∈ keys then max (c k + delta).toInt 0 else (c k).toInt := by
    intro k
    unfold Counters.exact
    rw [settleCounters_apply delta hnd]
    split_ifs
    · rw [toInt_max, h0]
    · rfl
  have hint : ∀ k, settleCounters delta.toInt keys c.exact k =
      if k ∈ keys then max ((c k).toInt + delta.toInt) 0 else (c k).toInt :=
    fun k => settleCounters_apply delta.toInt hnd c.exact k
  constructor
  · intro h v hv
    obtain ⟨k, hk, rfl⟩ := List.mem_map.mp hv
    have e := congrFun h k
    rw [hcode, hint, if_pos hk, if_pos hk] at e
    have hlt := (c k).toInt_lt
    by_contra hge
    have hov : 2 ^ 63 ≤ (c k).toInt + delta.toInt := by simpa [Counters.exact] using hge
    have hneg : (c k + delta).toInt < 0 := by
      rw [toInt_add, wrap_of_overflow hov (by omega)]
      omega
    omega
  · intro h
    funext k
    rw [hcode, hint]
    split_ifs with hk
    · have hlt : (c k).toInt + delta.toInt < 2 ^ 63 := h _ (List.mem_map.mpr ⟨k, hk, rfl⟩)
      have := hc k
      rw [toInt_add_of_fits ⟨by omega, hlt⟩]
    · rfl

end store

/-! ### The invariant and the amounts -/

/-- Counters are not negative, and the reserves handed out are exact and not negative. -/
structure Meter.Inv (x : Meter Int64) : Prop where
  counters : ∀ k, 0 ≤ (x.store.counters k).toInt
  prompt : ∀ r ∈ x.rsvs, 0 ≤ r.promptEst.toInt
  cap : ∀ r ∈ x.rsvs, 0 ≤ r.completionCap.toInt
  total : ∀ r ∈ x.rsvs, r.promptEst.toInt + r.completionCap.toInt < 2 ^ 63

section steps
variable {m : Metering Int64} {x : Meter Int64}

theorem Meter.Inv.empty : Meter.Inv ⟨.empty, []⟩ := by
  refine ⟨fun k => ?_, ?_, ?_, ?_⟩
  · show 0 ≤ (0 : Int64).toInt
    decide
  all_goals simp

theorem reservedTotal_exact_iff {r : Reservation Int64} (hp : 0 ≤ r.promptEst.toInt)
    (hc : 0 ≤ r.completionCap.toInt) :
    r.reservedTotal.toInt = r.exact.reservedTotal ↔ r.exact.reservedTotal < 2 ^ 63 :=
  toInt_add_eq_iff hp hc

theorem toInt_estimateUsage {chars : ℕ} (h : chars < 2 ^ 63) :
    (estimateUsage chars).toInt64.toInt = (chars / 4 : ℕ) := by
  have e : (estimateUsage chars).toNat = chars / 4 := by
    unfold estimateUsage
    rw [UInt64.toNat_div, UInt64.toNat_ofNat', Nat.mod_eq_of_lt (by omega)]
    rfl
  rw [toInt_toInt64, e, wrap_eq_iff.mpr ⟨by omega, by omega⟩]

theorem newReservation_exact (m : Metering Int64) (id client provider model : String)
    (promptEst : Int64) (cap : Option Int64) :
    (m.newReservation id client provider model promptEst cap).exact =
      m.exact.newReservation id client provider model promptEst.toInt (cap.map Int64.toInt) := by
  have h0 : (0 : Int64).toInt = 0 := by decide
  simp only [Reservation.exact, Metering.newReservation, Metering.exact, toInt_max, h0]
  cases cap <;> rfl

theorem newReservation_nonneg (m : Metering Int64) (id client provider model : String)
    (promptEst : Int64) (cap : Option Int64) :
    0 ≤ (m.newReservation id client provider model promptEst cap).promptEst.toInt ∧
      0 ≤ (m.newReservation id client provider model promptEst cap).completionCap.toInt := by
  have h0 : (0 : Int64).toInt = 0 := by decide
  simp only [Metering.newReservation, toInt_max, h0]
  omega

theorem admitOp_exact {rsv : Reservation Int64} (day : String)
    (h : rsv.reservedTotal.toInt = rsv.exact.reservedTotal) :
    (m.admitOp rsv day).exact = m.exact.admitOp rsv.exact day := by
  have hlim : ∀ o : Option Int64, (o.getD (-1)).toInt = (o.map Int64.toInt).getD (-1) := by
    intro o
    cases o <;> rfl
  simp only [AdmitOp.exact, Metering.admitOp, Metering.exact, hlim, h]
  rfl

theorem amount_exact_iff (hx : x.Inv) {e : UsageCall} (hl : x.Legal e) :
    (e.asI64.amount m).toInt = e.exact.amount m.exact ↔ e.exact.amount m.exact < 2 ^ 63 := by
  cases e with
  | admitReq now id client provider model promptChars maxTokens =>
      have hnn := newReservation_nonneg m id client provider model
        (estimateUsage promptChars).toInt64 maxTokens
      simp only [UsageCall.asI64, UsageCall.exact, MeterCall.amount]
      rw [← toInt_estimateUsage hl.1, ← newReservation_exact]
      exact reservedTotal_exact_iff hnn.1 hnn.2
  | settle now rsv prompt completion =>
      have hp := hx.prompt rsv hl
      have hc := hx.cap rsv hl
      have ht := hx.total rsv hl
      have hexact := (reservedTotal_exact_iff hp hc).mpr ht
      simp only [UsageCall.asI64, UsageCall.exact, MeterCall.amount, Metering.settleReq]
      rw [toInt_sub, toInt_add, toInt_toInt64, toInt_toInt64, hexact, wrap_wrap_add, wrap_add_wrap,
        wrap_wrap_sub, wrap_eq_iff]
      simp only [Reservation.exact, Reservation.reservedTotal, Fits]
      omega
  | record now client provider model prompt completion =>
      simp only [UsageCall.asI64, UsageCall.exact, MeterCall.amount]
      rw [toInt_add, toInt_toInt64, toInt_toInt64, wrap_wrap_add, wrap_add_wrap, wrap_eq_iff]
      simp only [Fits]
      omega

/-! ### One call -/

theorem run_admit {α : Type} [Add α] [Sub α] [Neg α] [Max α] [LE α] [LT α] [DecidableLE α]
    [DecidableLT α] [OfNat α 0] [OfNat α 1] (m : Metering α) (x : Meter α) (now : ℤ)
    (id client provider model : String) (promptEst : α) (cap : Option α) :
    let rsv := m.newReservation id client provider model promptEst cap
    let r := x.store.reserve (m.admitOp rsv (dayString now))
    (MeterCall.admitReq now id client provider model promptEst cap).run m x =
      (some (m.admitResult rsv r.1),
        ⟨r.2, match r.1 with | .ok () => x.rsvs ++ [rsv] | .error _ => x.rsvs⟩) := by
  intro rsv r
  simp only [MeterCall.run, Metering.admitReq]
  rcases hr : x.store.reserve (m.admitOp rsv (dayString now)) with ⟨e | ⟨⟩, store⟩
  · cases e <;> simp only [r, hr, Metering.admitResult]
  · simp only [r, rsv, hr, Metering.admitResult]

theorem admitResult_exact (rsv : Reservation Int64) (q : Except ReserveError Unit) :
    ((m.admitResult rsv q).mapError MeteringError.exact).map Reservation.exact =
      m.exact.admitResult rsv.exact q := by
  have hlim : ∀ o : Option Int64, (o.getD 0).toInt = (o.map Int64.toInt).getD 0 := by
    intro o
    cases o <;> rfl
  rcases q with (d | msg) | ⟨⟩
  · cases d <;> simp [Metering.admitResult, Metering.quotaExceeded, Except.mapError, Except.map,
      MeteringError.exact, Metering.exact, hlim]
  · rfl
  · rfl

/-- The result of an admission tells the replies of the store apart. -/
theorem admitResult_inj {m : Metering ℤ} {rsv : Reservation ℤ} {q q' : Except ReserveError Unit}
    (h : m.admitResult rsv q = m.admitResult rsv q') : q = q' := by
  rcases q with (d | msg) | ⟨⟩ <;> rcases q' with (d' | msg') | ⟨⟩ <;>
    simp only [Metering.admitResult, reduceCtorEq, Except.error.injEq] at h ⊢
  · cases d <;> cases d' <;> simp [Metering.quotaExceeded] at h ⊢
  · cases d <;> simp [Metering.quotaExceeded] at h
  · cases d' <;> simp [Metering.quotaExceeded] at h
  · rw [MeteringError.backendUnavailable.inj h]

/-- A reserve of the integers lowers no counter. -/
theorem reserve_mono {op : AdmitOp ℤ} (hnd : (op.tokenKeys ++ op.requestKeys).Nodup)
    (hr : 0 ≤ op.reserve) (s : InMemoryStore ℤ) (k : String) :
    s.counters k ≤ (s.reserve op).2.counters k := by
  unfold InMemoryStore.reserve
  split_ifs
  · exact le_rfl
  · exact le_rfl
  · exact le_rfl
  · dsimp only
    rw [AdmitOp.place_apply hnd]
    split_ifs <;> omega

theorem admitOp_keys_nodup {α : Type} [Add α] [Neg α] [OfNat α 1] (m : Metering α)
    (rsv : Reservation α) (day : String) :
    ((m.admitOp rsv day).tokenKeys ++ (m.admitOp rsv day).requestKeys).Nodup :=
  requestKeys_nodup rfl rfl rfl rfl rfl

theorem Meter.Inv.admit_exact_iff (hx : x.Inv) {now : ℤ} {id client provider model : String}
    {promptChars : ℕ} {maxTokens : Option Int64}
    (hl : x.Legal (.admitReq now id client provider model promptChars maxTokens)) :
    x.Exact m (.admitReq now id client provider model promptChars maxTokens) ↔
      x.InRange m (.admitReq now id client provider model promptChars maxTokens) := by
  set e : UsageCall := .admitReq now id client provider model promptChars maxTokens with he
  set rsv := m.newReservation id client provider model (estimateUsage promptChars).toInt64 maxTokens
    with hrsv
  have hnn := newReservation_nonneg m id client provider model (estimateUsage promptChars).toInt64
    maxTokens
  have hread : m.exact.newReservation id client provider model (promptChars / 4 : ℕ)
      (maxTokens.map Int64.toInt) = rsv.exact := by
    rw [← toInt_estimateUsage hl.1, ← newReservation_exact]
  have hamount : (e.asI64.amount m).toInt = e.exact.amount m.exact ↔
      e.exact.amount m.exact < 2 ^ 63 := amount_exact_iff hx hl
  have hcode : e.asI64.amount m = rsv.reservedTotal := rfl
  have hint : e.exact.amount m.exact = rsv.exact.reservedTotal := by rw [← hread]; rfl
  have h0 : 0 ≤ rsv.exact.reservedTotal := Int.add_nonneg hnn.1 hnn.2
  set r := x.store.reserve (m.admitOp rsv (dayString now)) with hr
  have hrun : e.asI64.run m x = (some (m.admitResult rsv r.1),
      ⟨r.2, match r.1 with | .ok () => x.rsvs ++ [rsv] | .error _ => x.rsvs⟩) := run_admit ..
  set r' := x.store.exact.reserve (m.exact.admitOp rsv.exact (dayString now)) with hr'
  have hrun' : e.exact.run m.exact x.exact = (some (m.exact.admitResult rsv.exact r'.1),
      ⟨r'.2, match r'.1 with
        | .ok () => x.exact.rsvs ++ [rsv.exact]
        | .error _ => x.exact.rsvs⟩) := by
    rw [hr', ← hread]
    exact run_admit ..
  have hrange : x.InRange m e ↔ rsv.exact.reservedTotal < 2 ^ 63 ∧
      ∀ v ∈ reserveSums (m.exact.admitOp rsv.exact (dayString now)) x.store.exact.counters,
        v < 2 ^ 63 := by
    rw [← hint, ← hread]
    exact List.forall_mem_cons
  have hagree : rsv.reservedTotal.toInt = rsv.exact.reservedTotal → (Agree r r' ↔
      ∀ v ∈ reserveSums (m.exact.admitOp rsv.exact (dayString now)) x.store.exact.counters,
        v < 2 ^ 63) := by
    intro hsum
    rw [hr', ← admitOp_exact (dayString now) hsum]
    exact reserve_exact_iff (admitOp_keys_nodup ..) hx.counters
      (by
        rw [show (m.admitOp rsv (dayString now)).reserve = rsv.reservedTotal from rfl, hsum]
        exact h0)
  rw [hrange]
  constructor
  · intro h
    have hsum := h.amount
    rw [hcode, hint] at hsum
    refine ⟨by rw [← hint]; exact hamount.mp h.amount, (hagree hsum).mp ?_⟩
    have hres := h.result
    have hst := h.state
    rw [hrun, hrun'] at hres hst
    simp only [Option.map_some, Option.some.injEq, admitResult_exact] at hres
    exact ⟨admitResult_inj hres, congrArg Meter.store hst⟩
  · rintro ⟨hfit, hsums⟩
    have hsum : rsv.reservedTotal.toInt = rsv.exact.reservedTotal := by
      rw [← hcode, ← hint]
      exact hamount.mpr (by rw [hint]; exact hfit)
    obtain ⟨hreply, hstore⟩ := (hagree hsum).mpr hsums
    refine ⟨by rw [hcode, hint]; exact hsum, ?_, ?_, ?_, ?_⟩
    · rw [hrun, hrun', ← hreply]
      simp only [Option.map_some, admitResult_exact]
    · rw [hrun, hrun', ← hreply]
      simp only [Meter.exact, hstore]
      rcases r.1 with e | ⟨⟩ <;> simp
    · show (0 : Int64) ≤ rsv.reservedTotal
      rw [Int64.le_iff_toInt_le, hsum]
      exact h0
    · intro k
      have hmono := reserve_mono (admitOp_keys_nodup m.exact rsv.exact (dayString now)) h0
        x.store.exact k
      rw [Int64.le_iff_toInt_le]
      have hk : ((x.step m e).store.counters k).toInt = r'.2.counters k := by
        unfold Meter.step
        rw [hrun, ← hstore]
        rfl
      rw [hk]
      exact hmono

section settle
variable {α : Type} [Add α] [Sub α] [Neg α] [Max α] [LE α] [LT α] [DecidableLE α] [DecidableLT α]
  [OfNat α 0] [OfNat α 1] (m : Metering α) (x : Meter α) (now : ℤ) (rsv : Reservation α)
  (prompt completion : α)

theorem run_settle_closed (hs : rsvKey rsv.id ∈ x.store.settled) :
    (MeterCall.settle now rsv prompt completion).run m x = (none, x) := by
  simp only [MeterCall.run, Metering.settle]
  rw [InMemoryStore.settle_closed hs]

theorem run_settle_open (hs : rsvKey rsv.id ∉ x.store.settled) :
    (MeterCall.settle now rsv prompt completion).run m x =
      (none, ⟨⟨settleCounters ((MeterCall.settle now rsv prompt completion).amount m)
        (Metering.tokenKeys rsv (dayString now)) x.store.counters,
        insert (rsvKey rsv.id) x.store.settled⟩, x.rsvs⟩) := by
  simp only [MeterCall.run, MeterCall.amount, Metering.settle]
  rw [InMemoryStore.settle_open hs]
  rfl

end settle

theorem Meter.Inv.settle_exact_iff (hx : x.Inv) {now : ℤ} {rsv : Reservation Int64}
    {prompt completion : UInt64} (hl : x.Legal (.settle now rsv prompt completion)) :
    x.Exact m (.settle now rsv prompt completion) ↔
      x.InRange m (.settle now rsv prompt completion) := by
  set e : UsageCall := .settle now rsv prompt completion with he
  have hamount : (e.asI64.amount m).toInt = e.exact.amount m.exact ↔
      e.exact.amount m.exact < 2 ^ 63 := amount_exact_iff hx hl
  have hreserve := (reservedTotal_exact_iff (hx.prompt rsv hl) (hx.cap rsv hl)).mpr (hx.total rsv hl)
  have hreserve0 : 0 ≤ rsv.exact.reservedTotal := Int.add_nonneg (hx.prompt rsv hl) (hx.cap rsv hl)
  have hdelta : -rsv.exact.reservedTotal ≤ e.exact.amount m.exact := by
    simp only [he, UsageCall.exact, MeterCall.amount, Metering.settleReq]
    omega
  by_cases hs : rsvKey rsv.id ∈ x.store.settled
  · -- a settled reservation: only the delta is computed
    have hcode : e.asI64.run m x = (none, x) := run_settle_closed m x now rsv _ _ hs
    have hint : e.exact.run m.exact x.exact = (none, x.exact) :=
      run_settle_closed m.exact x.exact now rsv.exact _ _ hs
    have hrange : x.InRange m e ↔ e.exact.amount m.exact < 2 ^ 63 := by
      have hs' : rsvKey rsv.exact.id ∈ x.store.exact.settled := hs
      simp only [Meter.InRange, he, UsageCall.exact, MeterCall.sums, if_pos hs',
        List.forall_mem_singleton]
    rw [hrange, ← hamount]
    refine ⟨Meter.Exact.amount, fun h => ⟨h, by rw [hcode, hint]; rfl, by rw [hcode, hint], ?_⟩⟩
    intro k
    rw [Meter.step, hcode, hreserve]
    dsimp only
    omega
  · have hcode := run_settle_open m x now rsv prompt.toInt64 completion.toInt64 hs
    have hint : e.exact.run m.exact x.exact = (none, ⟨⟨settleCounters (e.exact.amount m.exact)
        (Metering.tokenKeys rsv (dayString now)) x.store.counters.exact,
        insert (rsvKey rsv.id) x.store.settled⟩, x.exact.rsvs⟩) :=
      run_settle_open m.exact x.exact now rsv.exact _ _ hs
    change e.asI64.run m x = _ at hcode
    have hrange : x.InRange m e ↔ e.exact.amount m.exact < 2 ^ 63 ∧
        ∀ v ∈ (Metering.tokenKeys rsv (dayString now)).map (fun k =>
          x.store.counters.exact k + e.exact.amount m.exact), v < 2 ^ 63 := by
      have hs' : rsvKey rsv.exact.id ∉ x.store.exact.settled := hs
      simp only [Meter.InRange, he, UsageCall.exact, MeterCall.sums, if_neg hs',
        List.forall_mem_cons]
      rfl
    have hloop := @settleCounters_exact_iff (e.asI64.amount m) _
      (tokenKeys_nodup rsv (dayString now)) _ hx.counters
    rw [hrange]
    constructor
    · intro h
      refine ⟨hamount.mp h.amount, ?_⟩
      rw [← h.amount]
      apply hloop.mp
      rw [h.amount]
      have hst := h.state
      rw [hcode, hint] at hst
      exact congrArg (fun y => y.store.counters) hst
    · rintro ⟨hfit, hsums⟩
      have hd := hamount.mpr hfit
      have hcount := hloop.mpr (by rw [hd]; exact hsums)
      refine ⟨hd, by rw [hcode, hint]; rfl, ?_, ?_⟩
      · rw [hcode, hint, ← hd, ← hcount]
        rfl
      · intro k
        have hk : ((x.step m e).store.counters k).toInt =
            settleCounters (e.asI64.amount m).toInt (Metering.tokenKeys rsv (dayString now))
              x.store.counters.exact k := by
          rw [← hcount, Meter.step, hcode]
          rfl
        have hval : x.store.counters.exact k = (x.store.counters k).toInt := rfl
        rw [hk, settleCounters_apply _ (tokenKeys_nodup rsv (dayString now)), hd, hreserve, hval]
        split_ifs <;> omega

theorem Meter.Inv.record_exact_iff (hx : x.Inv) {now : ℤ} {client provider model : String}
    {prompt completion : UInt64} :
    x.Exact m (.record now client provider model prompt completion) ↔
      x.InRange m (.record now client provider model prompt completion) := by
  set e : UsageCall := .record now client provider model prompt completion with he
  have hamount : (e.asI64.amount m).toInt = e.exact.amount m.exact ↔
      e.exact.amount m.exact < 2 ^ 63 := amount_exact_iff hx trivial
  have h0 : 0 ≤ e.exact.amount m.exact := Int.add_nonneg (by omega) (by omega)
  set op := recordOp client provider model (dayString now) (e.asI64.amount m) with hop
  have hcode : (e.asI64.run m x) = (none, ⟨{ x.store with counters := op.place x.store.counters },
      x.rsvs⟩) := rfl
  have hint : (e.exact.run m.exact x.exact) = (none, ⟨{ x.store.exact with
      counters := (recordOp client provider model (dayString now) (e.exact.amount m.exact)).place
        x.store.counters.exact }, x.exact.rsvs⟩) := rfl
  have hrange : x.InRange m e ↔ e.exact.amount m.exact < 2 ^ 63 ∧
      ∀ v ∈ placeSums (recordOp client provider model (dayString now) (e.exact.amount m.exact))
        x.store.counters.exact, v < 2 ^ 63 := List.forall_mem_cons
  have hread : (e.asI64.amount m).toInt = e.exact.amount m.exact → op.exact =
      recordOp client provider model (dayString now) (e.exact.amount m.exact) := by
    intro h
    rw [← h]
    rfl
  have hplace : (e.asI64.amount m).toInt = e.exact.amount m.exact →
      ((op.place x.store.counters).exact =
        (recordOp client provider model (dayString now) (e.exact.amount m.exact)).place
          x.store.counters.exact ↔
      ∀ v ∈ placeSums (recordOp client provider model (dayString now) (e.exact.amount m.exact))
        x.store.counters.exact, v < 2 ^ 63) := by
    intro h
    rw [← hread h]
    exact place_exact_iff (requestKeys_nodup rfl rfl rfl rfl rfl) hx.counters
      (by show 0 ≤ (e.asI64.amount m).toInt; rw [h]; exact h0)
  rw [hrange]
  constructor
  · intro h
    refine ⟨hamount.mp h.amount, (hplace h.amount).mp ?_⟩
    have hst := h.state
    rw [hcode, hint] at hst
    exact congrArg (fun y => y.store.counters) hst
  · rintro ⟨hfit, hsums⟩
    have hd := hamount.mpr hfit
    refine ⟨hd, by rw [hcode, hint]; rfl, ?_, trivial⟩
    rw [hcode, hint, ← (hplace hd).mpr hsums]
    rfl

theorem Meter.Inv.exact_iff (hx : x.Inv) {e : UsageCall} (hl : x.Legal e) :
    x.Exact m e ↔ x.InRange m e := by
  cases e with
  | admitReq now id client provider model promptChars maxTokens => exact hx.admit_exact_iff hl
  | settle now rsv prompt completion => exact hx.settle_exact_iff hl
  | record now client provider model prompt completion => exact hx.record_exact_iff

theorem Meter.Inv.step (hx : x.Inv) {e : UsageCall} (hl : x.Legal e) (hr : x.InRange m e) :
    (x.step m e).Inv := by
  have hexact := (hx.exact_iff hl).mpr hr
  cases e with
  | admitReq now id client provider model promptChars maxTokens =>
      set rsv := m.newReservation id client provider model (estimateUsage promptChars).toInt64
        maxTokens with hrsv
      have hnn := newReservation_nonneg m id client provider model
        (estimateUsage promptChars).toInt64 maxTokens
      have hfit : rsv.exact.reservedTotal < 2 ^ 63 :=
        (reservedTotal_exact_iff hnn.1 hnn.2).mp (hexact.amount.trans (by
          rw [newReservation_exact, toInt_estimateUsage hl.1]; rfl))
      have hmem : ∀ r ∈ (x.step m (.admitReq now id client provider model promptChars maxTokens)).rsvs,
          r ∈ x.rsvs ∨ r = rsv := by
        intro r hr
        rw [Meter.step, UsageCall.asI64, run_admit] at hr
        dsimp only at hr
        split at hr
        · simpa using hr
        · exact Or.inl hr
      refine ⟨fun k => ?_, ?_, ?_, ?_⟩
      · have := Int64.le_iff_toInt_le.mp (hexact.sound.2 k)
        exact le_trans (hx.counters k) this
      · intro r hr
        rcases hmem r hr with hr | rfl
        · exact hx.prompt r hr
        · exact hnn.1
      · intro r hr
        rcases hmem r hr with hr | rfl
        · exact hx.cap r hr
        · exact hnn.2
      · intro r hr
        rcases hmem r hr with hr | rfl
        · exact hx.total r hr
        · exact hfit
  | settle now rsv prompt completion =>
      unfold Meter.step UsageCall.asI64
      by_cases hs : rsvKey rsv.id ∈ x.store.settled
      · rw [run_settle_closed m x now rsv _ _ hs]
        exact hx
      · rw [run_settle_open m x now rsv _ _ hs]
        refine ⟨fun k => ?_, hx.prompt, hx.cap, hx.total⟩
        have h0 : (0 : Int64).toInt = 0 := by decide
        dsimp only
        rw [settleCounters_apply _ (tokenKeys_nodup rsv (dayString now))]
        split_ifs
        · rw [toInt_max, h0]
          exact le_max_right _ _
        · exact hx.counters k
  | record now client provider model prompt completion =>
      refine ⟨fun k => ?_, hx.prompt, hx.cap, hx.total⟩
      have hk := congrArg (fun y => y.store.counters k) hexact.state
      have hc : 0 ≤ x.store.counters.exact k := hx.counters k
      have htotal : (0 : ℤ) ≤ prompt.toNat + completion.toNat := by omega
      calc (0 : ℤ)
          ≤ (recordOp client provider model (dayString now)
              ((prompt.toNat : ℤ) + completion.toNat)).place x.store.counters.exact k := by
            rw [AdmitOp.place_apply (requestKeys_nodup rfl rfl rfl rfl rfl)]
            simp only [recordOp]
            split_ifs <;> omega
        _ = _ := hk.symm

end steps

/-! ### Runs -/

/-- **Quota arithmetic does not wrap** in the runs, and only in those, whose calls form sums
below `2 ^ 63`. -/
theorem exact_iff_inRange (m : Metering Int64) (calls : List UsageCall)
    (hl : Runs.Along (Meter.step m) Meter.Legal ⟨.empty, []⟩ calls) :
    Runs.Along (Meter.step m) (Meter.Exact m) ⟨.empty, []⟩ calls ↔
      Runs.Along (Meter.step m) (Meter.InRange m) ⟨.empty, []⟩ calls :=
  Runs.Along.iff_of_invariant (I := Meter.Inv) (fun _ _ hx hl => hx.exact_iff hl)
    (fun _ _ hx hl hr => hx.step hl hr) calls _ Meter.Inv.empty hl

/-- Without any quota, in 64-bit integers. -/
def noQuota64 : Metering Int64 := ⟨none, none, none, false, 4096⟩

/-- A request with a prompt of 40 characters and `max_tokens` 60, settled with 12 tokens. -/
theorem exact_one_request :
    Runs.Along (Meter.step noQuota64) (Meter.Exact noQuota64) ⟨.empty, []⟩
      [.admitReq 1788739180 "1" "alice" "p" "m" 40 (some 60),
        .settle 1788739190 ⟨"1", "alice", "p", "m", 10, 60⟩ 4 8] := by
  refine (exact_iff_inRange noQuota64 _ ?_).mpr ?_
  · refine ⟨⟨by decide, fun n hn => by cases hn; decide⟩, ?_, trivial⟩
    exact List.mem_singleton.mpr rfl
  · refine ⟨?_, ?_, trivial⟩ <;> unfold Meter.InRange <;> decide

/-- The largest `max_tokens` the validation accepts makes a negative reserve. -/
theorem reserve_wraps :
    ¬ ∀ (m : Metering Int64) (calls : List UsageCall),
      Runs.Along (Meter.step m) Meter.Legal ⟨.empty, []⟩ calls →
        Runs.Along (Meter.step m) (Meter.Exact m) ⟨.empty, []⟩ calls := by
  intro h
  have hlegal : Runs.Along (Meter.step noQuota64) Meter.Legal ⟨.empty, []⟩
      [.admitReq 1788739180 "1" "alice" "p" "m" 40 (some 9223372036854775807)] :=
    ⟨⟨by decide, fun n hn => by cases hn; decide⟩, trivial⟩
  have hneg := (h noQuota64 _ hlegal).1.sound.1
  exact absurd hneg (by decide)

end FirewallLLM.Quota
