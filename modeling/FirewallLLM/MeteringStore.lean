import Mathlib.Data.Finset.Insert
import Mathlib.Logic.Function.Basic

/-! # The metering store

The storage backends of `metering.rs`: `InMemoryStore`, one lock section per operation, and
`RedisStore`, whose `reserve` and `settle` are the Lua scripts `ADMIT_LUA` and `SETTLE_LUA`,
each run by the server as one atomic step.

`InMemoryStore` is generic in the integers it counts with, as the two readings of the source
need both: `ℤ` is the ledger the operations describe, `Int64` the `i64` of a release build,
where `+` and `-` wrap.  Lua numbers are taken as `ℤ`, which they are below `2 ^ 53`; the results
about the scripts state that range.  A counter that is absent from the map reads as `0` everywhere
in the source, so a table of counters is a total function.

Redis has one key space.  Its counters and its reservation records are two maps here, as
`keys_never_collide` allows.  The records expire between the operations (`RedisStore.lapse`); the
buckets live for two days after their last write, and their expiry is no step of this store. -/

namespace FirewallLLM.Quota

/-- The five families of counters. -/
inductive Family where
  | clientTokens
  | clientRequests
  | providerTokens
  | providerRequests
  | modelTokens
deriving DecidableEq, Repr

/-- The families that count tokens. -/
def Family.isTokens : Family → Bool
  | clientTokens | providerTokens | modelTokens => true
  | clientRequests | providerRequests => false

/-- Which budget an atomic admission was denied by. -/
inductive ReserveDenied where
  | clientTokens
  | clientRequests
  | providerTokens
deriving DecidableEq, Repr

/-- Why a reserve failed. -/
inductive ReserveError where
  | denied (d : ReserveDenied)
  | backend (msg : String)
deriving DecidableEq, Repr

/-- Atomic admission request.  A limit below `0` means "count without gating". -/
structure AdmitOp (α : Type) where
  cTokensKey : String
  cTokensLimit : α
  cReqKey : String
  cReqLimit : α
  pTokensKey : String
  pTokensLimit : α
  pReqKey : String
  mTokensKey : String
  reserve : α
  reservationKey : String
  reservationTtlSecs : ℕ
  bucketTtlSecs : ℕ
deriving DecidableEq, Repr

/-- Idempotent settle request: applied only for an open reservation. -/
structure SettleReq (α : Type) where
  reservationKey : String
  tokenKeys : List String
  delta : α
  bucketTtlSecs : ℕ
deriving DecidableEq, Repr

/-- A table of counters; a missing key reads as `0`. -/
abbrev Counters (α : Type) := String → α

/-! ### The in-memory store -/

section inMemory
variable {α : Type} [Add α] [Max α] [LE α] [LT α] [DecidableLE α] [DecidableLT α]
  [OfNat α 0] [OfNat α 1]

/-- `*map.entry(key).or_default() += amount`. -/
def Counters.bump (c : Counters α) (key : String) (amount : α) : Counters α :=
  Function.update c key (c key + amount)

/-- The three token buckets a reserve is placed in. -/
def AdmitOp.tokenKeys (op : AdmitOp α) : List String :=
  [op.cTokensKey, op.pTokensKey, op.mTokensKey]

/-- The two request counters of a reserve. -/
def AdmitOp.requestKeys (op : AdmitOp α) : List String := [op.cReqKey, op.pReqKey]

/-- The increments of a successful reserve, in the order the source makes them. -/
def AdmitOp.place (op : AdmitOp α) (c : Counters α) : Counters α :=
  ((((c.bump op.cTokensKey op.reserve).bump op.cReqKey 1).bump op.pTokensKey op.reserve).bump
    op.pReqKey 1).bump op.mTokensKey op.reserve

/-- State of `InMemoryStore`: the counters and the reservations already settled. -/
structure InMemoryStore (α : Type) where
  counters : Counters α
  settled : Finset String

/-- `InMemoryStore::default`. -/
def InMemoryStore.empty : InMemoryStore α := ⟨fun _ => 0, ∅⟩

/-- `InMemoryStore::incr`. -/
def InMemoryStore.incr (key : String) (amount : α) (s : InMemoryStore α) : α × InMemoryStore α :=
  (s.counters key + amount, { s with counters := s.counters.bump key amount })

/-- `InMemoryStore::get`. -/
def InMemoryStore.get (key : String) (s : InMemoryStore α) : α := s.counters key

/-- `InMemoryStore::reserve`: the request gate, the two token gates, then all increments. -/
def InMemoryStore.reserve (op : AdmitOp α) (s : InMemoryStore α) :
    Except ReserveError Unit × InMemoryStore α :=
  if 0 ≤ op.cReqLimit ∧ op.cReqLimit < s.get op.cReqKey + 1 then
    (.error (.denied .clientRequests), s)
  else if 0 ≤ op.cTokensLimit ∧ op.cTokensLimit < s.get op.cTokensKey + op.reserve then
    (.error (.denied .clientTokens), s)
  else if 0 ≤ op.pTokensLimit ∧ op.pTokensLimit < s.get op.pTokensKey + op.reserve then
    (.error (.denied .providerTokens), s)
  else
    (.ok (), { s with counters := op.place s.counters })

/-- The loop of `InMemoryStore::settle`: add `delta` to every key, clamped at zero. -/
def settleCounters (delta : α) (keys : List String) (c : Counters α) : Counters α :=
  keys.foldl (fun c key => Function.update c key (max (c key + delta) 0)) c

/-- `InMemoryStore::settle`. -/
def InMemoryStore.settle (req : SettleReq α) (s : InMemoryStore α) : Bool × InMemoryStore α :=
  if req.reservationKey ∈ s.settled then (false, s)
  else
    (true, { counters := settleCounters req.delta req.tokenKeys s.counters
             settled := insert req.reservationKey s.settled })

end inMemory

/-! ### The Redis store -/

/-- What the scripts read and write: the numeric keys and the reservation records.  The server has
one space of keys; here it is two maps, since no counter has the key of a reservation
(`keys_never_collide`). -/
structure RedisStore where
  counters : Counters ℤ
  records : String → Option String

/-- An empty server. -/
def RedisStore.empty : RedisStore := ⟨fun _ => 0, fun _ => none⟩

theorem RedisStore.counters_empty (key : String) : RedisStore.empty.counters key = 0 := rfl

/-- `ADMIT_LUA`: the reply and the keys after it. -/
def admitLua (op : AdmitOp ℤ) (s : RedisStore) : (String × ℤ) × RedisStore :=
  let ct := s.counters op.cTokensKey
  let cr := s.counters op.cReqKey
  let pt := s.counters op.pTokensKey
  if op.cTokensLimit ≥ 0 ∧ ct + op.reserve > op.cTokensLimit then (("tokens", ct), s)
  else if op.cReqLimit ≥ 0 ∧ cr + 1 > op.cReqLimit then (("requests", cr), s)
  else if op.pTokensLimit ≥ 0 ∧ pt + op.reserve > op.pTokensLimit then
    (("provider_tokens", pt), s)
  else
    (("ok", op.reserve),
      { counters := op.place s.counters
        records := Function.update s.records op.reservationKey (some "open") })

/-- `RedisStore::reserve`: how the reply of the script is read. -/
def RedisStore.reserve (op : AdmitOp ℤ) (s : RedisStore) : Except ReserveError Unit × RedisStore :=
  match admitLua op s with
  | ((status, _), s') =>
    (if status = "ok" then .ok ()
     else if status = "requests" then .error (.denied .clientRequests)
     else if status = "provider_tokens" then .error (.denied .providerTokens)
     else .error (.denied .clientTokens), s')

/-- `SETTLE_LUA`. -/
def settleLua (req : SettleReq ℤ) (s : RedisStore) : ℤ × RedisStore :=
  if s.records req.reservationKey ≠ some "open" then (0, s)
  else
    (1, { counters := (req.tokenKeys.take 3).foldl (fun c key =>
            let v := c key + req.delta
            Function.update c key (if v < 0 then 0 else v)) s.counters
          records := Function.update s.records req.reservationKey (some "settled") })

/-- `RedisStore::settle`; the script gets the three token keys of the request. -/
def RedisStore.settle (req : SettleReq ℤ) (s : RedisStore) : Bool × RedisStore :=
  let (applied, s') := settleLua req s
  (applied == 1, s')

/-- The record of a reservation expires, open or settled: `EX` of `ADMIT_LUA`, kept by `KEEPTTL`. -/
def RedisStore.lapse (key : String) (s : RedisStore) : RedisStore :=
  { s with records := Function.update s.records key none }

/-- `RedisStore::incr`: `INCRBY`. -/
def RedisStore.incr (key : String) (amount : ℤ) (s : RedisStore) : ℤ × RedisStore :=
  (s.counters key + amount, { s with counters := s.counters.bump key amount })

/-! ### Reading the counters back -/

section reading
variable {α : Type}

@[simp] theorem Counters.bump_apply [Add α] (c : Counters α) (key k : String) (amount : α) :
    c.bump key amount k = if k = key then c key + amount else c k := by
  simp [Counters.bump, Function.update_apply]

/-- Without repeated keys a reserve moves each of its five counters once. -/
theorem AdmitOp.place_apply [Add α] [OfNat α 1] {op : AdmitOp α}
    (hnd : (op.tokenKeys ++ op.requestKeys).Nodup) (c : Counters α) (k : String) :
    op.place c k = if k ∈ op.tokenKeys then c k + op.reserve
      else if k ∈ op.requestKeys then c k + 1 else c k := by
  simp only [tokenKeys, requestKeys, List.cons_append, List.nil_append, List.nodup_cons,
    List.mem_cons, List.not_mem_nil, or_false, not_or] at hnd
  obtain ⟨⟨h12, h13, h14, h15⟩, ⟨h23, h24, h25⟩, ⟨h34, h35⟩, h45, -⟩ := hnd
  simp only [place, Counters.bump_apply, tokenKeys, requestKeys, List.mem_cons, List.not_mem_nil,
    or_false]
  by_cases h1 : k = op.cTokensKey
  · subst h1; simp [h12, h13, h14, h15]
  · by_cases h2 : k = op.pTokensKey
    · subst h2; simp [h1, h23, h24, h25]
    · by_cases h3 : k = op.mTokensKey
      · subst h3; simp [h1, h2, h34, h35]
      · by_cases h4 : k = op.cReqKey
        · subst h4; simp [h1, h2, h3, h45]
        · by_cases h5 : k = op.pReqKey
          · subst h5; simp [h1, h2, h3, h4]
          · simp [h1, h2, h3, h4, h5]

theorem settleCounters_of_not_mem [Add α] [Max α] [OfNat α 0] (delta : α) {keys : List String}
    {k : String} (hk : k ∉ keys) (c : Counters α) : settleCounters delta keys c k = c k := by
  induction keys generalizing c with
  | nil => rfl
  | cons key keys ih =>
      rw [List.mem_cons, not_or] at hk
      obtain ⟨hne, hrest⟩ := hk
      have := ih hrest (Function.update c key (max (c key + delta) 0))
      rw [Function.update_of_ne hne] at this
      exact this

theorem settleCounters_apply [Add α] [Max α] [OfNat α 0] (delta : α) {keys : List String}
    (hnd : keys.Nodup) (c : Counters α) (k : String) :
    settleCounters delta keys c k = if k ∈ keys then max (c k + delta) 0 else c k := by
  induction keys generalizing c with
  | nil => simp [settleCounters]
  | cons key keys ih =>
      obtain ⟨hkey, hnd'⟩ := List.nodup_cons.mp hnd
      have e : settleCounters delta (key :: keys) c =
          settleCounters delta keys (Function.update c key (max (c key + delta) 0)) := rfl
      rw [e]
      by_cases hk : k = key
      · subst hk
        rw [settleCounters_of_not_mem delta hkey, if_pos List.mem_cons_self, Function.update_self]
      · rw [ih hnd', Function.update_of_ne hk]
        simp [hk]

theorem InMemoryStore.settle_closed [Add α] [Max α] [OfNat α 0] {req : SettleReq α}
    {s : InMemoryStore α}
    (h : req.reservationKey ∈ s.settled) : s.settle req = (false, s) := if_pos h

theorem InMemoryStore.settle_open [Add α] [Max α] [OfNat α 0] {req : SettleReq α}
    {s : InMemoryStore α}
    (h : req.reservationKey ∉ s.settled) :
    s.settle req = (true, { counters := settleCounters req.delta req.tokenKeys s.counters
                            settled := insert req.reservationKey s.settled }) := if_neg h

end reading

/-- The script clamps with a comparison where the in-memory loop takes a maximum. -/
theorem settleLua_counters (req : SettleReq ℤ) (c : Counters ℤ) :
    (req.tokenKeys.take 3).foldl (fun c key =>
        let v := c key + req.delta
        Function.update c key (if v < 0 then 0 else v)) c =
      settleCounters req.delta (req.tokenKeys.take 3) c := by
  unfold settleCounters
  congr 1
  funext c key
  have : (if c key + req.delta < 0 then 0 else c key + req.delta) = max (c key + req.delta) 0 := by
    split_ifs <;> omega
  simp only [this]

end FirewallLLM.Quota
