import FirewallLLM.QuotaLedger
import FirewallLLM.MeteringOverflow

/-! # The token counter of a client

The part of a store that a token quota rests on: a reserve that the store has room for puts its
amount on the counter of the client if the sum keeps to the limit, and a settle that gives back
only lowers counters.  The amounts are the `i64` of the gateway.  Both stores are such a store:
`InMemoryStore` counts in `i64` as well and has room below `2 ^ 63`, and the scripts of
`RedisStore` count in Lua numbers and have room below `2 ^ 53`. -/

namespace FirewallLLM.Quota

open Wrapping

/-- A store that works, with what it promises about the counters of tokens. -/
structure TokenStore where
  State : Type
  empty : State
  tokens : State → String → ℤ
  reserve : AdmitOp Int64 → State → Except ReserveError Unit × State
  settle : SettleReq Int64 → State → Bool × State
  incr : String → Int64 → State → Int64 × State
  lapse : String → State → Option State
  room : State → AdmitOp ℤ → Prop
  tokens_empty : ∀ k, tokens empty k = 0
  tokens_lapse : ∀ {r s s'}, lapse r s = some s' → ∀ k, tokens s' k = tokens s k
  room_fits : ∀ {s op}, room s op → tokens s op.cTokensKey + op.reserve < 2 ^ 63
  reserve_works : ∀ op s msg, (reserve op s).1 ≠ .error (.backend msg)
  reserve_error : ∀ {op s s' e}, reserve op s = (.error e, s') → s' = s
  reserve_ok : ∀ {op s s'}, reserve op s = (.ok (), s') →
    (op.tokenKeys ++ op.requestKeys).Nodup → 0 ≤ tokens s op.cTokensKey → 0 ≤ op.reserve.toInt →
    room s op.exact →
    tokens s' op.cTokensKey = tokens s op.cTokensKey + op.reserve.toInt ∧
      (0 ≤ op.cTokensLimit.toInt → tokens s' op.cTokensKey ≤ op.cTokensLimit.toInt)
  settle_le : ∀ {req s k}, req.tokenKeys.Nodup → req.delta.toInt ≤ 0 → 0 ≤ tokens s k →
    0 ≤ tokens (settle req s).2 k ∧ tokens (settle req s).2 k ≤ tokens s k

/-! ### The in-memory store -/

section inMemory

theorem cTokensKey_mem (op : AdmitOp Int64) : op.cTokensKey ∈ op.tokenKeys := by
  simp [AdmitOp.tokenKeys]

/-- A counter goes down by a settle that gives back, but not below zero. -/
theorem toInt_settled {c delta : Int64} (hd : delta.toInt ≤ 0) (hc : 0 ≤ c.toInt) :
    0 ≤ (max (c + delta) 0).toInt ∧ (max (c + delta) 0).toInt ≤ c.toInt := by
  have hfits : Fits (c.toInt + delta.toInt) := by
    have := c.toInt_lt
    have := delta.le_toInt
    constructor <;> omega
  have h0 : (0 : Int64).toInt = 0 := by decide
  rw [toInt_max, toInt_add_of_fits hfits, h0]
  omega

def TokenStore.inMemory : TokenStore where
  State := InMemoryStore Int64
  empty := .empty
  tokens s k := (s.counters k).toInt
  reserve := InMemoryStore.reserve
  settle := InMemoryStore.settle
  incr := InMemoryStore.incr
  lapse _ _ := none
  room s op := (s.counters op.cTokensKey).toInt + op.reserve < 2 ^ 63
  tokens_empty _ := by
    show (0 : Int64).toInt = 0
    decide
  tokens_lapse h := by cases h
  room_fits h := h
  reserve_works op s msg := by
    unfold InMemoryStore.reserve
    split_ifs <;> simp
  reserve_error := InMemoryStore.reserve_error
  reserve_ok {op s s'} h hnd hc hr hfit := by
    obtain ⟨⟨-, hgate, -⟩, rfl⟩ := InMemoryStore.reserve_ok h
    have hfit' : (s.counters op.cTokensKey).toInt + op.reserve.toInt < 2 ^ 63 := hfit
    have hplace : op.place s.counters op.cTokensKey = s.counters op.cTokensKey + op.reserve := by
      rw [AdmitOp.place_apply hnd, if_pos (cTokensKey_mem op)]
    have hsum := toInt_add_of_lt hc hr hfit'
    rw [gate_iff hc hr (fun _ => hfit')] at hgate
    dsimp only
    rw [hplace, hsum]
    exact ⟨rfl, fun hlim => by omega⟩
  settle_le {req s k} hnd hd hc := by
    by_cases hs : req.reservationKey ∈ s.settled
    · rw [InMemoryStore.settle_closed hs]
      exact ⟨hc, le_rfl⟩
    · rw [InMemoryStore.settle_open hs]
      dsimp only
      rw [settleCounters_apply _ hnd]
      split_ifs
      · exact toInt_settled hd hc
      · exact ⟨hc, le_rfl⟩

end inMemory

/-! ### The Redis store -/

theorem RedisStore.reserve_works (op : AdmitOp Int64) (s : RedisStore) (msg : String) :
    (s.reserve op.exact).1 ≠ .error (.backend msg) := by
  rw [RedisStore.reserve_eq]
  split_ifs <;> simp

theorem RedisStore.reserve_tokens {op : AdmitOp Int64} {s s' : RedisStore}
    (h : s.reserve op.exact = (.ok (), s')) (hnd : (op.tokenKeys ++ op.requestKeys).Nodup) :
    s'.counters op.cTokensKey = s.counters op.cTokensKey + op.reserve.toInt ∧
      (0 ≤ op.cTokensLimit.toInt → s'.counters op.cTokensKey ≤ op.cTokensLimit.toInt) := by
  obtain ⟨hfits, rfl⟩ := RedisStore.reserve_ok h
  have hplace : op.exact.place s.counters op.cTokensKey =
      s.counters op.cTokensKey + op.reserve.toInt :=
    (@AdmitOp.place_apply ℤ _ _ op.exact hnd s.counters op.cTokensKey).trans
      (if_pos (cTokensKey_mem op))
  dsimp only
  rw [hplace]
  exact ⟨rfl, fun hlim => hfits.client hlim⟩

theorem RedisStore.settle_le {req : SettleReq Int64} {s : RedisStore} {k : String}
    (hnd : req.tokenKeys.Nodup) (hd : req.delta.toInt ≤ 0) (hc : 0 ≤ s.counters k) :
    0 ≤ (s.settle req.exact).2.counters k ∧
      (s.settle req.exact).2.counters k ≤ s.counters k := by
  unfold RedisStore.settle settleLua
  split_ifs
  · exact ⟨hc, le_rfl⟩
  · have hnd' : (req.exact.tokenKeys.take 3).Nodup := hnd.sublist (List.take_sublist 3 _)
    dsimp only
    rw [settleLua_counters, settleCounters_apply _ hnd']
    have hdelta : req.exact.delta ≤ 0 := hd
    split_ifs
    · omega
    · exact ⟨hc, le_rfl⟩

theorem RedisStore.room_fits {op : AdmitOp ℤ} {s : RedisStore}
    (h : op.Below (2 ^ 53) s.counters) :
    s.counters op.cTokensKey + op.reserve < 2 ^ 63 :=
  lt_trans h.client (by decide)

theorem RedisStore.tokens_lapse {r : String} {s s' : RedisStore} (h : some (s.lapse r) = some s')
    (k : String) : s'.counters k = s.counters k := by
  cases h
  rfl

def TokenStore.redis : TokenStore where
  State := RedisStore
  empty := .empty
  tokens s k := s.counters k
  reserve op := RedisStore.reserve op.exact
  settle req := RedisStore.settle req.exact
  incr key amount s := ((s.incr key amount.toInt).1.toInt64, (s.incr key amount.toInt).2)
  lapse r s := some (s.lapse r)
  room s op := op.Below (2 ^ 53) s.counters
  tokens_empty := RedisStore.counters_empty
  tokens_lapse := RedisStore.tokens_lapse
  room_fits := RedisStore.room_fits
  reserve_works := RedisStore.reserve_works
  reserve_error := RedisStore.lawful.reserve_error
  reserve_ok h hnd _ _ _ := RedisStore.reserve_tokens h hnd
  settle_le := RedisStore.settle_le

/-! ### The operations of the metering -/

/-- A reservation as `admit` makes it from amounts whose sum fits. -/
structure Reservation.Sound (rsv : Reservation Int64) : Prop where
  prompt : 0 ≤ rsv.promptEst.toInt
  cap : 0 ≤ rsv.completionCap.toInt
  total : rsv.promptEst.toInt + rsv.completionCap.toInt < 2 ^ 63

/-- Usage that keeps to what was reserved. -/
structure Reservation.Holds (rsv : Reservation Int64) (prompt completion : Int64) : Prop where
  prompt_nonneg : 0 ≤ prompt.toInt
  completion_nonneg : 0 ≤ completion.toInt
  total : prompt.toInt + completion.toInt ≤ rsv.promptEst.toInt + rsv.completionCap.toInt

theorem Reservation.Sound.reservedTotal {rsv : Reservation Int64} (h : rsv.Sound) :
    rsv.reservedTotal.toInt = rsv.promptEst.toInt + rsv.completionCap.toInt :=
  toInt_add_of_lt h.prompt h.cap h.total

section operations

variable {S : TokenStore} {m : Metering Int64} {s : S.State} {now : ℤ} {client : String}

/-- What `admit` sees of an amount that it may add to the counter of the client. -/
theorem TokenStore.admitReq_bounded {limit : Int64} (hm : m.clientTokensPerDay = some limit)
    (hlimit : 0 ≤ limit.toInt) {id provider model : String} {promptEst : Int64}
    {cap : Option Int64} {rsv : Reservation Int64}
    (hrsv : rsv = m.newReservation id client provider model promptEst cap)
    (h0 : 0 ≤ S.tokens s (cTokensKey client (dayString now)))
    (hle : S.tokens s (cTokensKey client (dayString now)) ≤ limit.toInt)
    (hroom : S.room s (m.exact.admitOp rsv.exact (dayString now))) :
    let r := m.admitReq S.reserve now id client provider model promptEst cap s
    (0 ≤ S.tokens r.2 (cTokensKey client (dayString now)) ∧
      S.tokens r.2 (cTokensKey client (dayString now)) ≤ limit.toInt) ∧
    (∀ rsv', r.1 = .ok rsv' → rsv' = rsv ∧ rsv.Sound) ∧
    ∀ msg, r.1 ≠ .error (.backendUnavailable msg) := by
  have hnn := newReservation_nonneg m id client provider model promptEst cap
  rw [← hrsv] at hnn
  have hclient : rsv.client = client := by rw [hrsv]; rfl
  have hfit : S.tokens s (cTokensKey client (dayString now)) +
      (rsv.promptEst.toInt + rsv.completionCap.toInt) < 2 ^ 63 := by
    rw [← hclient]
    exact S.room_fits hroom
  have hsound : rsv.Sound := ⟨hnn.1, hnn.2, by omega⟩
  have htotal := hsound.reservedTotal
  set op := m.admitOp rsv (dayString now) with hop
  have hadm : m.admitReq S.reserve now id client provider model promptEst cap s =
      (m.admitResult rsv (S.reserve op s).1, (S.reserve op s).2) := by
    rw [Metering.admitReq, ← hrsv]
  have hkey : op.cTokensKey = cTokensKey client (dayString now) := by rw [← hclient]; rfl
  have hop_limit : op.cTokensLimit = limit := by simp only [hop, Metering.admitOp, hm]; rfl
  have hop_reserve : op.reserve.toInt = rsv.promptEst.toInt + rsv.completionCap.toInt := htotal
  rw [hadm]
  dsimp only
  cases hres : S.reserve op s with
  | mk result s' =>
      cases result with
      | ok u =>
          have hnd : (op.tokenKeys ++ op.requestKeys).Nodup := admitOp_keys_nodup ..
          have hr0 : 0 ≤ op.reserve.toInt := by
            rw [hop_reserve]
            exact Int.add_nonneg hnn.1 hnn.2
          rw [← hkey] at h0 hle
          obtain ⟨hsum, hgate⟩ := S.reserve_ok hres hnd h0 hr0 (by
            rw [admitOp_exact (dayString now) htotal]
            exact hroom)
          rw [hop_limit] at hgate
          rw [← hkey]
          refine ⟨⟨by rw [hsum]; exact Int.add_nonneg h0 hr0, hgate hlimit⟩, ?_, ?_⟩
          · intro rsv' h
            cases h
            exact ⟨rfl, hsound⟩
          · intro msg h
            cases h
      | error e =>
          obtain rfl := S.reserve_error hres
          refine ⟨⟨h0, hle⟩, ?_, ?_⟩
          · intro rsv' h
            cases e <;> cases h
          · intro msg h
            cases e with
            | denied d => cases d <;> cases h
            | backend msg' => exact S.reserve_works op s' msg' (by rw [hres])

theorem TokenStore.settle_bounded {rsv : Reservation Int64} (hrsv : rsv.Sound)
    {prompt completion : Int64}
    (h : rsv.Holds prompt completion) {k : String} (h0 : 0 ≤ S.tokens s k) :
    let s' := Metering.settle S.settle now rsv prompt completion s
    0 ≤ S.tokens s' k ∧ S.tokens s' k ≤ S.tokens s k := by
  refine S.settle_le (tokenKeys_nodup rsv (dayString now)) ?_ h0
  have htotal := hrsv.reservedTotal
  obtain ⟨hp0, hd0, hle⟩ := h
  have hp1 := hrsv.prompt
  have hc1 := hrsv.cap
  have hsum : (prompt + completion).toInt = prompt.toInt + completion.toInt :=
    toInt_add_of_lt hp0 hd0 (by have := hrsv.total; omega)
  have hdelta : (prompt + completion - rsv.reservedTotal).toInt =
      (prompt + completion).toInt - rsv.reservedTotal.toInt :=
    toInt_sub_of_nonneg (by omega) (by omega)
  show (prompt + completion - rsv.reservedTotal).toInt ≤ 0
  omega

end operations

end FirewallLLM.Quota
