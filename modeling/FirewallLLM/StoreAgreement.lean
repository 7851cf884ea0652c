import FirewallLLM.Runs
import FirewallLLM.TokenStore

/-! # The two metering stores side by side

`InMemoryStore` counts in `i64` and remembers what it has settled; the scripts of `RedisStore`
count in Lua numbers and remember what is open.  Here the same operations are run on both, and
`stores_agree_iff` says from the history of the reservations when every reply and every counter
is the same.

Lua numbers hold the integers up to `2 ^ 53` exactly, and in this range (`Exact`) the scripts
count in `ℤ`.  A limit may lie outside of it: rounding moves no limit past an exact sum. -/

namespace FirewallLLM.Quota

open Wrapping

/-- An operation of the gateway on its store. -/
inductive StoreOp where
  | reserve (op : AdmitOp Int64)
  | settle (req : SettleReq Int64)

/-- What the gateway gets back. -/
inductive StoreReply where
  | reserved (result : Except ReserveError Unit)
  | settled (applied : Bool)

def InMemoryStore.run (s : InMemoryStore Int64) : StoreOp → StoreReply × InMemoryStore Int64
  | .reserve op => (.reserved (s.reserve op).1, (s.reserve op).2)
  | .settle req => (.settled (s.settle req).1, (s.settle req).2)

def RedisStore.run (s : RedisStore) : StoreOp → StoreReply × RedisStore
  | .reserve op => (.reserved (s.reserve op.exact).1, (s.reserve op.exact).2)
  | .settle req => (.settled (s.settle req.exact).1, (s.settle req.exact).2)

/-! ### Numbers that both count alike -/

/-- The integers that a Lua number holds. -/
def Exact (x : ℤ) : Prop := -2 ^ 53 ≤ x ∧ x ≤ 2 ^ 53

instance (x : ℤ) : Decidable (Exact x) := inferInstanceAs (Decidable (_ ∧ _))

theorem Exact.fits {x : ℤ} (h : Exact x) : Fits x := by
  obtain ⟨hlow, hhigh⟩ := h
  constructor <;> omega

/-- The increments of a reserve, in the order of the source. -/
def AdmitOp.increments {α : Type} [OfNat α 1] (op : AdmitOp α) : List (String × α) :=
  [(op.cTokensKey, op.reserve), (op.cReqKey, 1), (op.pTokensKey, op.reserve), (op.pReqKey, 1),
    (op.mTokensKey, op.reserve)]

theorem AdmitOp.place_eq {α : Type} [Add α] [OfNat α 1] (op : AdmitOp α) (c : Counters α) :
    op.place c = op.increments.foldl (fun c i => c.bump i.1 i.2) c := rfl

/-- Every increment finds and leaves an exact number. -/
def Room : Counters ℤ → List (String × ℤ) → Prop
  | _, [] => True
  | c, i :: is => Exact (c i.1) ∧ Exact (c i.1 + i.2) ∧ Room (c.bump i.1 i.2) is

/-- So does every step of the loop of a settle. -/
def SettleRoom (delta : ℤ) : Counters ℤ → List String → Prop
  | _, [] => True
  | c, key :: keys => Exact (c key) ∧ Exact (c key + delta) ∧
      SettleRoom delta (Function.update c key (max (c key + delta) 0)) keys

theorem exact_bump {c : Counters Int64} {key : String} {amount : Int64}
    (h : Exact (c.exact key + amount.toInt)) :
    (c.bump key amount).exact = c.exact.bump key amount.toInt := by
  funext k
  simp only [Counters.exact, Counters.bump_apply]
  split_ifs
  · exact toInt_add_of_fits h.fits
  · rfl

theorem exact_increments {c : Counters Int64} {is : List (String × Int64)}
    (h : Room c.exact (is.map fun i => (i.1, i.2.toInt))) :
    (is.foldl (fun c i => c.bump i.1 i.2) c).exact =
      (is.map fun i => (i.1, i.2.toInt)).foldl (fun c i => c.bump i.1 i.2) c.exact := by
  induction is generalizing c with
  | nil => rfl
  | cons i is ih =>
      obtain ⟨-, hsum, hrest⟩ := h
      rw [← exact_bump hsum] at hrest
      rw [List.map_cons, List.foldl_cons, List.foldl_cons, ih hrest, exact_bump hsum]

theorem increments_exact (op : AdmitOp Int64) :
    op.exact.increments = op.increments.map fun i => (i.1, i.2.toInt) := rfl

theorem exact_place {op : AdmitOp Int64} {c : Counters Int64}
    (h : Room c.exact op.exact.increments) : (op.place c).exact = op.exact.place c.exact := by
  rw [AdmitOp.place_eq, AdmitOp.place_eq, increments_exact]
  exact exact_increments (increments_exact op ▸ h)

theorem exact_settleCounters {delta : Int64} {keys : List String} {c : Counters Int64}
    (h : SettleRoom delta.toInt c.exact keys) :
    (settleCounters delta keys c).exact = settleCounters delta.toInt keys c.exact := by
  induction keys generalizing c with
  | nil => rfl
  | cons key keys ih =>
      obtain ⟨-, hsum, hrest⟩ := h
      have hkey : Counters.exact (Function.update c key (max (c key + delta) 0)) =
          Function.update c.exact key (max (c.exact key + delta.toInt) 0) := by
        funext k
        simp only [Counters.exact, Function.update_apply]
        split_ifs
        · have h0 : (0 : Int64).toInt = 0 := by decide
          rw [toInt_max, toInt_add_of_fits hsum.fits, h0]
        · rfl
      rw [← hkey] at hrest
      exact (ih hrest).trans (congrArg _ hkey)

/-! ### Side by side -/

/-- What became of a reservation. -/
inductive Standing where
  | unknown
  | opened
  | settled
  | reopened
deriving DecidableEq, Repr

/-- After an admission under its key. -/
def Standing.admitted : Standing → Standing
  | unknown | opened => opened
  | settled | reopened => reopened

/-- The two stores, and what has become of the reservations. -/
structure Twins where
  memory : InMemoryStore Int64
  redis : RedisStore
  standing : String → Standing

namespace Twins

/-- Both stores with the same counters, and no reservation yet. -/
def start (c : Counters Int64) : Twins :=
  ⟨⟨c, ∅⟩, ⟨c.exact, fun _ => none⟩, fun _ => .unknown⟩

/-- The requests of the client are used up. -/
def RequestsBroken (t : Twins) (op : AdmitOp Int64) : Prop :=
  0 ≤ op.cReqLimit.toInt ∧ op.cReqLimit.toInt < t.redis.counters op.cReqKey + 1

/-- The tokens of the client do not suffice. -/
def TokensBroken (t : Twins) (op : AdmitOp Int64) : Prop :=
  0 ≤ op.cTokensLimit.toInt ∧
    op.cTokensLimit.toInt < t.redis.counters op.cTokensKey + op.reserve.toInt

/-- Those of the provider do not. -/
def ProviderBroken (t : Twins) (op : AdmitOp Int64) : Prop :=
  0 ≤ op.pTokensLimit.toInt ∧
    op.pTokensLimit.toInt < t.redis.counters op.pTokensKey + op.reserve.toInt

instance (t : Twins) (op : AdmitOp Int64) : Decidable (t.RequestsBroken op) :=
  inferInstanceAs (Decidable (_ ∧ _))

instance (t : Twins) (op : AdmitOp Int64) : Decidable (t.TokensBroken op) :=
  inferInstanceAs (Decidable (_ ∧ _))

instance (t : Twins) (op : AdmitOp Int64) : Decidable (t.ProviderBroken op) :=
  inferInstanceAs (Decidable (_ ∧ _))

/-- A limit of the operation is broken. -/
def Broken (t : Twins) (op : AdmitOp Int64) : Prop :=
  t.RequestsBroken op ∨ t.TokensBroken op ∨ t.ProviderBroken op

instance (t : Twins) (op : AdmitOp Int64) : Decidable (t.Broken op) :=
  inferInstanceAs (Decidable (_ ∨ _))

/-- The operation is run on both. -/
def step (t : Twins) (e : StoreOp) : Twins where
  memory := (t.memory.run e).2
  redis := (t.redis.run e).2
  standing := match e with
    | .reserve op =>
        if t.Broken op then t.standing
        else Function.update t.standing op.reservationKey (t.standing op.reservationKey).admitted
    | .settle req => Function.update t.standing req.reservationKey .settled

/-- Both give the same reply and are left with the same counters. -/
def Agree (t : Twins) (e : StoreOp) : Prop :=
  (t.memory.run e).1 = (t.redis.run e).1 ∧
    ∀ k, ((t.memory.run e).2.counters k).toInt = (t.redis.run e).2.counters k

/-- The numbers of an operation are exact, and a settle names its three token keys. -/
def InRange (t : Twins) : StoreOp → Prop
  | .reserve op => Exact op.reserve.toInt ∧
      (∀ i ∈ op.exact.increments, Exact (t.redis.counters i.1 + i.2)) ∧
      Room t.redis.counters op.exact.increments
  | .settle req => req.tokenKeys.length = 3 ∧ Exact req.delta.toInt ∧
      SettleRoom req.delta.toInt t.redis.counters req.tokenKeys

/-- A reserve does not break both limits of the client, and what is settled was opened once. -/
def Plain (t : Twins) : StoreOp → Prop
  | .reserve op => ¬ (t.RequestsBroken op ∧ t.TokensBroken op)
  | .settle req => t.standing req.reservationKey = .opened ∨
      t.standing req.reservationKey = .settled

/-! ### The invariant -/

/-- What the two stores know of a reservation. -/
def Known (t : Twins) (key : String) : Prop :=
  match t.standing key with
  | .unknown => key ∉ t.memory.settled ∧ t.redis.records key = none
  | .opened => key ∉ t.memory.settled ∧ t.redis.records key = some "open"
  | .settled => key ∈ t.memory.settled ∧ t.redis.records key = some "settled"
  | .reopened => key ∈ t.memory.settled ∧ t.redis.records key = some "open"

structure Inv (t : Twins) : Prop where
  counters : t.redis.counters = t.memory.counters.exact
  known : ∀ key, t.Known key

theorem inv_start (c : Counters Int64) : (start c).Inv :=
  ⟨rfl, fun key => ⟨Finset.notMem_empty key, rfl⟩⟩

/-! ### A reserve -/

section Reserve

variable {t : Twins} {op : AdmitOp Int64}

theorem limit_iff {limit used need : Int64} (h : Exact (used.toInt + need.toInt)) :
    (0 ≤ limit ∧ limit < used + need) ↔
      0 ≤ limit.toInt ∧ limit.toInt < used.toInt + need.toInt := by
  rw [Int64.le_iff_toInt_le, Int64.lt_iff_toInt_lt, toInt_add_of_fits h.fits]
  rfl

theorem memory_reserve (h : t.Inv) (hr : t.InRange (.reserve op)) :
    t.memory.reserve op =
      if t.RequestsBroken op then (.error (.denied .clientRequests), t.memory)
      else if t.TokensBroken op then (.error (.denied .clientTokens), t.memory)
      else if t.ProviderBroken op then (.error (.denied .providerTokens), t.memory)
      else (.ok (), { t.memory with counters := op.place t.memory.counters }) := by
  obtain ⟨-, hsums, -⟩ := hr
  simp only [h.counters, AdmitOp.increments, List.forall_mem_cons] at hsums
  obtain ⟨htokens, hrequests, hprovider, -⟩ := hsums
  have hreq : (0 ≤ op.cReqLimit ∧ op.cReqLimit < t.memory.get op.cReqKey + 1) ↔
      t.RequestsBroken op := by
    rw [RequestsBroken, h.counters]
    exact @limit_iff op.cReqLimit (t.memory.counters op.cReqKey) 1 hrequests
  have htok : (0 ≤ op.cTokensLimit ∧
      op.cTokensLimit < t.memory.get op.cTokensKey + op.reserve) ↔ t.TokensBroken op := by
    rw [TokensBroken, h.counters]
    exact limit_iff htokens
  have hprov : (0 ≤ op.pTokensLimit ∧
      op.pTokensLimit < t.memory.get op.pTokensKey + op.reserve) ↔ t.ProviderBroken op := by
    rw [ProviderBroken, h.counters]
    exact limit_iff hprovider
  simp only [InMemoryStore.reserve, hreq, htok, hprov]

/-- The gates of the script come in another order. -/
theorem redis_reserve (t : Twins) (op : AdmitOp Int64) :
    t.redis.reserve op.exact =
      if t.TokensBroken op then (.error (.denied .clientTokens), t.redis)
      else if t.RequestsBroken op then (.error (.denied .clientRequests), t.redis)
      else if t.ProviderBroken op then (.error (.denied .providerTokens), t.redis)
      else (.ok (), { counters := op.exact.place t.redis.counters
                      records := Function.update t.redis.records op.reservationKey
                        (some "open") }) :=
  RedisStore.reserve_eq op.exact t.redis

/-- Both stores deny, and for the same budget unless both limits of the client are broken; or
both place the reserve. -/
theorem reserve_cases (h : t.Inv) (hr : t.InRange (.reserve op)) :
    (t.Broken op ∧ ∃ d d', t.memory.reserve op = (.error (.denied d), t.memory) ∧
      t.redis.reserve op.exact = (.error (.denied d'), t.redis) ∧
      (d = d' ↔ ¬ (t.RequestsBroken op ∧ t.TokensBroken op))) ∨
    (¬ t.Broken op ∧
      t.memory.reserve op = (.ok (), { t.memory with counters := op.place t.memory.counters }) ∧
      t.redis.reserve op.exact = (.ok (), ⟨op.exact.place t.redis.counters,
        Function.update t.redis.records op.reservationKey (some "open")⟩)) := by
  rw [memory_reserve h hr, redis_reserve]
  by_cases hreq : t.RequestsBroken op
  · refine .inl ⟨.inl hreq, .clientRequests, ?_⟩
    by_cases htok : t.TokensBroken op
    · exact ⟨.clientTokens, if_pos hreq, if_pos htok, by simp [hreq, htok]⟩
    · exact ⟨.clientRequests, if_pos hreq, by rw [if_neg htok, if_pos hreq], by simp [htok]⟩
  · by_cases htok : t.TokensBroken op
    · exact .inl ⟨.inr (.inl htok), .clientTokens, .clientTokens, by rw [if_neg hreq, if_pos htok],
        if_pos htok, by simp [hreq]⟩
    · by_cases hprov : t.ProviderBroken op
      · refine .inl ⟨.inr (.inr hprov), .providerTokens, .providerTokens, ?_, ?_, by simp [hreq]⟩
        · rw [if_neg hreq, if_neg htok, if_pos hprov]
        · rw [if_neg htok, if_neg hreq, if_pos hprov]
      · refine .inr ⟨by simp [Broken, hreq, htok, hprov], ?_, ?_⟩
        · rw [if_neg hreq, if_neg htok, if_neg hprov]
        · rw [if_neg htok, if_neg hreq, if_neg hprov]

theorem placed_exact (h : t.Inv) (hr : t.InRange (.reserve op)) :
    op.exact.place t.redis.counters = (op.place t.memory.counters).exact := by
  obtain ⟨-, -, hroom⟩ := hr
  rw [h.counters] at hroom ⊢
  exact (exact_place hroom).symm

theorem reserve_agree_iff (h : t.Inv) (hr : t.InRange (.reserve op)) :
    t.Agree (.reserve op) ↔ t.Plain (.reserve op) := by
  simp only [Agree, Plain, InMemoryStore.run, RedisStore.run, StoreReply.reserved.injEq]
  rcases reserve_cases h hr with ⟨-, d, d', hmem, hred, hiff⟩ | ⟨hnone, hmem, hred⟩
  · rw [hmem, hred, ← hiff, h.counters]
    simp [Counters.exact]
  · rw [hmem, hred, placed_exact h hr]
    refine iff_of_true ⟨rfl, fun k => rfl⟩ ?_
    rintro ⟨hreq, -⟩
    exact hnone (.inl hreq)

/-- Whatever the replies are, the stores keep in step. -/
theorem Inv.reserve (h : t.Inv) (hr : t.InRange (.reserve op)) :
    (t.step (.reserve op)).Inv := by
  rcases reserve_cases h hr with ⟨hbroken, d, d', hmem, hred, -⟩ | ⟨hnone, hmem, hred⟩
  · have hstep : t.step (.reserve op) = t := by
      simp only [step, InMemoryStore.run, RedisStore.run, hmem, hred]
      rw [if_pos hbroken]
    rw [hstep]
    exact h
  · have hstep : t.step (.reserve op) = ⟨⟨op.place t.memory.counters, t.memory.settled⟩,
        ⟨op.exact.place t.redis.counters,
          Function.update t.redis.records op.reservationKey (some "open")⟩,
        Function.update t.standing op.reservationKey
          (t.standing op.reservationKey).admitted⟩ := by
      simp only [step, InMemoryStore.run, RedisStore.run, hmem, hred]
      rw [if_neg hnone]
    rw [hstep]
    refine ⟨placed_exact h hr, fun key => ?_⟩
    have hknown := h.known key
    unfold Known at hknown ⊢
    by_cases hkey : key = op.reservationKey
    · subst hkey
      simp only [Function.update_self]
      cases hstand : t.standing op.reservationKey with
      | unknown =>
          rw [hstand] at hknown
          exact ⟨hknown.1, trivial⟩
      | opened =>
          rw [hstand] at hknown
          exact ⟨hknown.1, trivial⟩
      | settled =>
          rw [hstand] at hknown
          exact ⟨hknown.1, trivial⟩
      | reopened =>
          rw [hstand] at hknown
          exact ⟨hknown.1, trivial⟩
    · simp only [Function.update_of_ne hkey]
      exact hknown

end Reserve

/-! ### A settle -/

section Settle

variable {t : Twins} {req : SettleReq Int64}

theorem redis_settle (t : Twins) (hkeys : req.tokenKeys.length = 3) :
    t.redis.settle req.exact =
      if t.redis.records req.reservationKey = some "open" then
        (true, ⟨settleCounters req.delta.toInt req.tokenKeys t.redis.counters,
          Function.update t.redis.records req.reservationKey (some "settled")⟩)
      else (false, t.redis) := by
  have htake : req.exact.tokenKeys.take 3 = req.tokenKeys := List.take_of_length_le (by
    show req.tokenKeys.length ≤ 3
    omega)
  unfold RedisStore.settle settleLua
  rw [settleLua_counters, htake]
  by_cases hopen : t.redis.records req.reservationKey = some "open"
  · have hclosed : ¬ t.redis.records req.exact.reservationKey ≠ some "open" := not_not.mpr hopen
    rw [if_neg hclosed, if_pos hopen]
    rfl
  · have hclosed : t.redis.records req.exact.reservationKey ≠ some "open" := hopen
    rw [if_pos hclosed, if_neg hopen]
    rfl

theorem settled_exact (h : t.Inv) (hr : t.InRange (.settle req)) :
    settleCounters req.delta.toInt req.tokenKeys t.redis.counters =
      (settleCounters req.delta req.tokenKeys t.memory.counters).exact := by
  obtain ⟨-, -, hroom⟩ := hr
  rw [h.counters] at hroom ⊢
  exact (exact_settleCounters hroom).symm

theorem settle_cases (h : t.Inv) (hr : t.InRange (.settle req)) :
    (t.standing req.reservationKey = .opened ∧
      t.memory.settle req = (true, ⟨settleCounters req.delta req.tokenKeys t.memory.counters,
        insert req.reservationKey t.memory.settled⟩) ∧
      t.redis.settle req.exact =
        (true, ⟨(settleCounters req.delta req.tokenKeys t.memory.counters).exact,
          Function.update t.redis.records req.reservationKey (some "settled")⟩)) ∨
    (t.standing req.reservationKey = .settled ∧ t.memory.settle req = (false, t.memory) ∧
      t.redis.settle req.exact = (false, t.redis)) ∨
    (¬ t.Plain (.settle req) ∧ (t.memory.settle req).1 ≠ (t.redis.settle req.exact).1) := by
  have hknown := h.known req.reservationKey
  rw [redis_settle t hr.1, settled_exact h hr]
  unfold Known at hknown
  unfold Plain
  cases hstand : t.standing req.reservationKey with
  | unknown =>
      rw [hstand] at hknown
      obtain ⟨hfresh, hrecord⟩ := hknown
      refine .inr (.inr ⟨by simp [hstand], ?_⟩)
      rw [InMemoryStore.settle_open hfresh, hrecord]
      simp
  | opened =>
      rw [hstand] at hknown
      obtain ⟨hfresh, hrecord⟩ := hknown
      exact .inl ⟨rfl, InMemoryStore.settle_open hfresh, if_pos hrecord⟩
  | settled =>
      rw [hstand] at hknown
      obtain ⟨hdone, hrecord⟩ := hknown
      refine .inr (.inl ⟨rfl, InMemoryStore.settle_closed hdone, ?_⟩)
      rw [hrecord]
      exact if_neg (by decide)
  | reopened =>
      rw [hstand] at hknown
      obtain ⟨hdone, hrecord⟩ := hknown
      refine .inr (.inr ⟨by simp [hstand], ?_⟩)
      rw [InMemoryStore.settle_closed hdone, if_pos hrecord]
      simp

theorem settle_agree_iff (h : t.Inv) (hr : t.InRange (.settle req)) :
    t.Agree (.settle req) ↔ t.Plain (.settle req) := by
  simp only [Agree, InMemoryStore.run, RedisStore.run, StoreReply.settled.injEq]
  rcases settle_cases h hr with ⟨hstand, hmem, hred⟩ | ⟨hstand, hmem, hred⟩ | ⟨hplain, hne⟩
  · rw [hmem, hred]
    exact iff_of_true ⟨rfl, fun k => rfl⟩ (.inl hstand)
  · rw [hmem, hred, h.counters]
    exact iff_of_true ⟨rfl, fun k => rfl⟩ (.inr hstand)
  · exact iff_of_false (fun hagree => hne hagree.1) hplain

theorem Inv.settle (h : t.Inv) (hr : t.InRange (.settle req)) (hp : t.Plain (.settle req)) :
    (t.step (.settle req)).Inv := by
  simp only [step, InMemoryStore.run, RedisStore.run]
  rcases settle_cases h hr with ⟨-, hmem, hred⟩ | ⟨hstand, hmem, hred⟩ | ⟨hplain, -⟩
  · rw [hmem, hred]
    refine ⟨rfl, fun key => ?_⟩
    have hknown := h.known key
    unfold Known at hknown ⊢
    by_cases hkey : key = req.reservationKey
    · subst hkey
      simp
    · simpa [Function.update_of_ne hkey, hkey] using hknown
  · rw [hmem, hred, ← hstand, Function.update_eq_self]
    exact h
  · exact absurd hp hplain

end Settle

/-! ### Runs -/

theorem step_agree_iff {t : Twins} {e : StoreOp} (h : t.Inv) (hr : t.InRange e) :
    t.Agree e ↔ t.Plain e := by
  cases e with
  | reserve op => exact reserve_agree_iff h hr
  | settle req => exact settle_agree_iff h hr

theorem Inv.step {t : Twins} {e : StoreOp} (h : t.Inv) (hr : t.InRange e) (hp : t.Plain e) :
    (t.step e).Inv := by
  cases e with
  | reserve op => exact h.reserve hr
  | settle req => exact h.settle hr hp

/-- **On the same counters the two stores give the same replies and counters throughout a run
exactly when no reserve breaks both limits of the client and every reservation that is settled
has been opened, and not again after it was settled.** -/
theorem stores_agree_iff (c : Counters Int64) (es : List StoreOp)
    (hrange : Runs.Along step InRange (start c) es) :
    Runs.Along step Agree (start c) es ↔ Runs.Along step Plain (start c) es :=
  Runs.Along.iff_of_invariant (fun _ _ => step_agree_iff) (fun _ _ => Inv.step) es (start c)
    (inv_start c) hrange

/-! ### Small runs -/

/-- A reserve of 40 tokens by one client with limits for it. -/
def sampleReserve (cTokensLimit cReqLimit : Int64) : AdmitOp Int64 where
  cTokensKey := "ct"
  cTokensLimit := cTokensLimit
  cReqKey := "cr"
  cReqLimit := cReqLimit
  pTokensKey := "pt"
  pTokensLimit := -1
  pReqKey := "pr"
  mTokensKey := "mt"
  reserve := 40
  reservationKey := "r"
  reservationTtlSecs := 600
  bucketTtlSecs := 172800

/-- Its settlement at 30 tokens. -/
def sampleSettle : SettleReq Int64 := ⟨"r", ["ct", "pt", "mt"], -10, 172800⟩

/-- A request that is admitted and settled, twice for one, and one that has no token left. -/
def sampleOps : List StoreOp :=
  [.reserve (sampleReserve 50 (-1)), .settle sampleSettle, .settle sampleSettle,
    .reserve (sampleReserve 50 (-1))]

instance decidableRoom : (c : Counters ℤ) → (is : List (String × ℤ)) → Decidable (Room c is)
  | _, [] => inferInstanceAs (Decidable True)
  | c, i :: is =>
      have : Decidable (Room (c.bump i.1 i.2) is) := decidableRoom _ is
      inferInstanceAs (Decidable (_ ∧ _ ∧ _))

instance decidableSettleRoom (delta : ℤ) :
    (c : Counters ℤ) → (keys : List String) → Decidable (SettleRoom delta c keys)
  | _, [] => inferInstanceAs (Decidable True)
  | c, key :: keys =>
      have : Decidable (SettleRoom delta (Function.update c key (max (c key + delta) 0)) keys) :=
        decidableSettleRoom delta _ keys
      inferInstanceAs (Decidable (_ ∧ _ ∧ _))

instance (t : Twins) : (e : StoreOp) → Decidable (t.InRange e)
  | .reserve _ => inferInstanceAs (Decidable (_ ∧ _ ∧ _))
  | .settle _ => inferInstanceAs (Decidable (_ ∧ _ ∧ _))

instance (t : Twins) : (e : StoreOp) → Decidable (t.Plain e)
  | .reserve _ => inferInstanceAs (Decidable (¬ _))
  | .settle _ => inferInstanceAs (Decidable (_ ∨ _))

theorem stores_agree_sample : Runs.Along step Agree (start fun _ => 0) sampleOps :=
  (stores_agree_iff (fun _ => 0) sampleOps (by decide)).mpr (by decide)

/-- The in-memory store applies a settle for a reservation that was never opened. -/
theorem stores_differ : ¬ ∀ (c : Counters Int64) (es : List StoreOp),
    Runs.Along step Agree (start c) es := by
  intro h
  have hone : Runs.Along step Agree (start fun _ => 0) [.settle sampleSettle] := h _ _
  have hplain := (step_agree_iff (inv_start _) (by decide)).mp hone.1
  exact absurd hplain (by decide)

end Twins

end FirewallLLM.Quota
