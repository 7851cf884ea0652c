import FirewallLLM.Ledger
import FirewallLLM.MeteringOverflow
import Mathlib.Logic.Relation

/-! # The quota ledger

Both backends keep the same ledger, as long as they count exactly: below `2 ^ 63` in the `i64`
of the in-memory store, below `2 ^ 53` in the Lua numbers of the scripts.  `LawfulStore` says what
one reserve and one settle on amounts in `i64` may do to the counters, read in the integers, and
to the set of open reservations; `InMemoryStore.lawful` and `RedisStore.lawful` prove it of the
two implementations.  Over any lawful store, `QuotaStep` runs reserves with distinct reservation
keys, settles of earlier reserves and expiries of reservation records in any order and keeps,
next to the store, the book of the reservations admitted so far.

`quota_ledger`: in every reachable state the gated counters are within their limits, a
denial changes nothing, every token counter is exactly what the book owes to it, the clamp
at zero has nothing to discard, and a second settle is ignored. -/

namespace FirewallLLM.Quota

open Ledger (Hold charged ids close)
open Wrapping

/-! ### Admissions and limits -/

/-- The configured limits of a store; below `0` means "no limit". -/
structure Limits where
  clientTokens : ℤ
  clientRequests : ℤ
  providerTokens : ℤ
deriving DecidableEq, Repr

namespace AdmitOp
variable (op : AdmitOp ℤ)

/-- Every gate of `op` passes on the counters `c`. -/
structure Fits (c : Counters ℤ) : Prop where
  requests : 0 ≤ op.cReqLimit → c op.cReqKey + 1 ≤ op.cReqLimit
  client : 0 ≤ op.cTokensLimit → c op.cTokensKey + op.reserve ≤ op.cTokensLimit
  provider : 0 ≤ op.pTokensLimit → c op.pTokensKey + op.reserve ≤ op.pTokensLimit

/-- Every gated counter of `op` is at or below its limit. -/
structure WithinLimits (c : Counters ℤ) : Prop where
  requests : 0 ≤ op.cReqLimit → c op.cReqKey ≤ op.cReqLimit
  client : 0 ≤ op.cTokensLimit → c op.cTokensKey ≤ op.cTokensLimit
  provider : 0 ≤ op.pTokensLimit → c op.pTokensKey ≤ op.pTokensLimit

/-- An admission as the gateway makes it: the configured limits, a key of every family, and
a sum of two non-negative amounts as its reserve. -/
structure Legal (lim : Limits) (fam : String → Family) : Prop where
  cTokensLimit : op.cTokensLimit = lim.clientTokens
  cReqLimit : op.cReqLimit = lim.clientRequests
  pTokensLimit : op.pTokensLimit = lim.providerTokens
  cTokens : fam op.cTokensKey = .clientTokens
  cReq : fam op.cReqKey = .clientRequests
  pTokens : fam op.pTokensKey = .providerTokens
  pReq : fam op.pReqKey = .providerRequests
  mTokens : fam op.mTokensKey = .modelTokens
  reserve : 0 ≤ op.reserve

/-- The counters that the reserve raises stay below the bound. -/
def Below (bound : ℤ) (c : Counters ℤ) : Prop := ∀ v ∈ placeSums op c, v < bound

instance (bound : ℤ) (c : Counters ℤ) : Decidable (op.Below bound c) :=
  inferInstanceAs (Decidable (∀ v ∈ placeSums op c, v < bound))

/-- The hold that a successful reserve enters into the book. -/
def hold : Hold String String :=
  { id := op.reservationKey, keys := op.tokenKeys, held := op.reserve, final := none }

variable {op} {lim : Limits} {fam : String → Family}

theorem Legal.keys_nodup (h : op.Legal lim fam) : (op.tokenKeys ++ op.requestKeys).Nodup := by
  apply List.Nodup.of_map fam
  simp only [tokenKeys, requestKeys, List.cons_append, List.nil_append, List.map_cons, List.map_nil,
    h.cTokens, h.cReq, h.pTokens, h.pReq, h.mTokens]
  decide

theorem Legal.tokenKeys_nodup (h : op.Legal lim fam) : op.tokenKeys.Nodup :=
  h.keys_nodup.of_append_left

theorem Legal.isTokens_of_mem (h : op.Legal lim fam) {k : String} (hk : k ∈ op.tokenKeys) :
    (fam k).isTokens = true := by
  simp only [tokenKeys, List.mem_cons, List.not_mem_nil, or_false] at hk
  rcases hk with rfl | rfl | rfl
  · rw [h.cTokens]; rfl
  · rw [h.pTokens]; rfl
  · rw [h.mTokens]; rfl

theorem Legal.not_isTokens_of_mem (h : op.Legal lim fam) {k : String} (hk : k ∈ op.requestKeys) :
    (fam k).isTokens = false := by
  simp only [requestKeys, List.mem_cons, List.not_mem_nil, or_false] at hk
  rcases hk with rfl | rfl
  · rw [h.cReq]; rfl
  · rw [h.pReq]; rfl

theorem Legal.place_tokens (h : op.Legal lim fam) (c : Counters ℤ) {k : String}
    (hk : (fam k).isTokens = true) :
    op.place c k = c k + (if k ∈ op.tokenKeys then op.reserve else 0) := by
  have hreq : k ∉ op.requestKeys := fun hmem => by
    rw [h.not_isTokens_of_mem hmem] at hk; cases hk
  rw [place_apply h.keys_nodup, if_neg hreq]
  split_ifs <;> simp

theorem Legal.place_requests (h : op.Legal lim fam) (c : Counters ℤ) {k : String}
    (hk : fam k = .clientRequests) :
    op.place c k = c k + (if k = op.cReqKey then 1 else 0) := by
  have htok : k ∉ op.tokenKeys := fun hmem => by
    have := h.isTokens_of_mem hmem; rw [hk] at this; cases this
  have hp : k ≠ op.pReqKey := fun e => by rw [e, h.pReq] at hk; cases hk
  rw [place_apply h.keys_nodup, if_neg htok]
  by_cases hc : k = op.cReqKey <;> simp [requestKeys, hc, hp]

theorem Below.client {bound : ℤ} {c : Counters ℤ} (h : op.Below bound c) :
    c op.cTokensKey + op.reserve < bound := h _ (by simp [placeSums, tokenKeys])

theorem Below.provider {bound : ℤ} {c : Counters ℤ} (h : op.Below bound c) :
    c op.pTokensKey + op.reserve < bound := h _ (by simp [placeSums, tokenKeys])

theorem Below.requests {bound : ℤ} {c : Counters ℤ} (h : op.Below bound c) :
    c op.cReqKey + 1 < bound := h _ (by simp [placeSums, requestKeys])

theorem place_nonneg (hnd : (op.tokenKeys ++ op.requestKeys).Nodup) {c : Counters ℤ}
    (hc : ∀ k, 0 ≤ c k) (hr : 0 ≤ op.reserve) (k : String) : 0 ≤ op.place c k := by
  have := hc k
  rw [place_apply hnd]
  split_ifs <;> omega

end AdmitOp

/-- The counters that the settle moves stay below the bound. -/
def SettleReq.Below (bound : ℤ) (req : SettleReq ℤ) (c : Counters ℤ) : Prop :=
  ∀ k ∈ req.tokenKeys, c k + req.delta < bound

instance (bound : ℤ) (req : SettleReq ℤ) (c : Counters ℤ) : Decidable (req.Below bound c) :=
  inferInstanceAs (Decidable (∀ k ∈ req.tokenKeys, c k + req.delta < bound))

theorem settleCounters_nonneg {delta : ℤ} {keys : List String} (hnd : keys.Nodup)
    {c : Counters ℤ} (hc : ∀ k, 0 ≤ c k) (k : String) : 0 ≤ settleCounters delta keys c k := by
  rw [settleCounters_apply delta hnd]
  split_ifs
  · exact le_max_right _ _
  · exact hc k

/-! ### What a store promises -/

/-- A store whose reserves and settles are atomic steps, with the reservations it takes as
open and as settled.  It counts exactly below `bound`.  The record of a reservation may expire,
where the store has records that do. -/
structure LawfulStore where
  State : Type
  empty : State
  bound : ℤ
  counter : State → Counters ℤ
  reserve : AdmitOp Int64 → State → Except ReserveError Unit × State
  settle : SettleReq Int64 → State → Bool × State
  lapse : String → State → Option State
  isOpen : State → String → Prop
  isSettled : State → String → Prop
  bound_pos : 0 < bound
  bound_le : bound ≤ 2 ^ 63
  counter_empty : ∀ k, counter empty k = 0
  settled_empty : ∀ r, ¬ isSettled empty r
  reserve_error : ∀ {op s s' e}, reserve op s = (.error e, s') → s' = s
  reserve_ok : ∀ {op s s'}, reserve op s = (.ok (), s') →
    (op.tokenKeys ++ op.requestKeys).Nodup → (∀ k, 0 ≤ counter s k) → 0 ≤ op.reserve.toInt →
    op.exact.Below bound (counter s) →
    op.exact.Fits (counter s) ∧ counter s' = op.exact.place (counter s)
  reserve_open : ∀ {op s s'}, reserve op s = (.ok (), s') → ¬ isSettled s op.reservationKey →
    isOpen s' op.reservationKey ∧ ¬ isSettled s' op.reservationKey
  reserve_frame : ∀ {op s s' r}, reserve op s = (.ok (), s') → r ≠ op.reservationKey →
    (isOpen s' r ↔ isOpen s r) ∧ (isSettled s' r ↔ isSettled s r)
  settle_open : ∀ {req s}, isOpen s req.reservationKey → req.tokenKeys.length = 3 →
    req.tokenKeys.Nodup → (∀ k, 0 ≤ counter s k) → req.exact.Below bound (counter s) →
    counter (settle req s).2 = settleCounters req.delta.toInt req.tokenKeys (counter s)
  settle_closes : ∀ req s, ¬ isOpen (settle req s).2 req.reservationKey
  settle_frame : ∀ {req s r}, r ≠ req.reservationKey →
    (isOpen (settle req s).2 r ↔ isOpen s r) ∧ (isSettled (settle req s).2 r ↔ isSettled s r)
  settle_closed : ∀ {req s}, ¬ isOpen s req.reservationKey → settle req s = (false, s)
  lapse_counter : ∀ {r s s'}, lapse r s = some s' → counter s' = counter s
  lapse_closes : ∀ {r s s'}, lapse r s = some s' → ¬ isOpen s' r ∧ ¬ isSettled s' r
  lapse_frame : ∀ {r s s' r'}, lapse r s = some s' → r' ≠ r →
    (isOpen s' r' ↔ isOpen s r') ∧ (isSettled s' r' ↔ isSettled s r')

/-! ### The in-memory store -/

section inMemory
variable {op : AdmitOp Int64} {s s' : InMemoryStore Int64}

theorem InMemoryStore.reserve_ok (h : s.reserve op = (.ok (), s')) :
    (¬ (0 ≤ op.cReqLimit ∧ op.cReqLimit < s.counters op.cReqKey + 1) ∧
      ¬ (0 ≤ op.cTokensLimit ∧ op.cTokensLimit < s.counters op.cTokensKey + op.reserve) ∧
      ¬ (0 ≤ op.pTokensLimit ∧ op.pTokensLimit < s.counters op.pTokensKey + op.reserve)) ∧
    s' = { s with counters := op.place s.counters } := by
  unfold InMemoryStore.reserve InMemoryStore.get at h
  split_ifs at h with h1 h2 h3
  · cases h
  · cases h
  · cases h
  · exact ⟨⟨h1, h2, h3⟩, (Prod.mk.inj h).2.symm⟩

theorem InMemoryStore.reserve_error {e : ReserveError} (h : s.reserve op = (.error e, s')) :
    s' = s := by
  unfold InMemoryStore.reserve at h
  split_ifs at h <;> first | exact (Prod.mk.inj h).2.symm | cases h

/-- Sums that fit are gated as in the integers. -/
theorem InMemoryStore.fits_of_reserve_ok (h : s.reserve op = (.ok (), s'))
    (hc : ∀ k, 0 ≤ s.counters.exact k) (hr : 0 ≤ op.reserve.toInt)
    (hb : op.exact.Below (2 ^ 63) s.counters.exact) : op.exact.Fits s.counters.exact := by
  have h1 : (1 : Int64).toInt = 1 := by decide
  obtain ⟨hq, ht, hp⟩ := (InMemoryStore.reserve_ok h).1
  have hreq : s.counters.exact op.cReqKey + 1 < 2 ^ 63 := hb.requests
  have hct : s.counters.exact op.cTokensKey + op.reserve.toInt < 2 ^ 63 := hb.client
  have hpt : s.counters.exact op.pTokensKey + op.reserve.toInt < 2 ^ 63 := hb.provider
  rw [gate_iff (hc op.cReqKey) (by decide) (fun _ => by rw [h1]; exact hreq), h1] at hq
  rw [gate_iff (hc op.cTokensKey) hr (fun _ => hct)] at ht
  rw [gate_iff (hc op.pTokensKey) hr (fun _ => hpt)] at hp
  exact ⟨fun h0 => not_lt.mp fun hlt => hq ⟨h0, hlt⟩, fun h0 => not_lt.mp fun hlt => ht ⟨h0, hlt⟩,
    fun h0 => not_lt.mp fun hlt => hp ⟨h0, hlt⟩⟩

end inMemory

/-- The in-memory store takes a reservation as open until its first settle, and forgets none. -/
def InMemoryStore.lawful : LawfulStore where
  State := InMemoryStore Int64
  empty := .empty
  bound := 2 ^ 63
  counter s := s.counters.exact
  reserve := InMemoryStore.reserve
  settle := InMemoryStore.settle
  lapse _ _ := none
  isOpen s r := r ∉ s.settled
  isSettled s r := r ∈ s.settled
  bound_pos := by decide
  bound_le := le_rfl
  counter_empty _ := by
    show (0 : Int64).toInt = 0
    decide
  settled_empty _ := by simp [InMemoryStore.empty]
  reserve_error := InMemoryStore.reserve_error
  reserve_ok h hnd hc hr hb := by
    refine ⟨InMemoryStore.fits_of_reserve_ok h hc hr hb, ?_⟩
    rw [(InMemoryStore.reserve_ok h).2]
    exact (place_exact_iff hnd hc hr).mpr hb
  reserve_open h hs := by rw [(InMemoryStore.reserve_ok h).2]; exact ⟨hs, hs⟩
  reserve_frame h _ := by rw [(InMemoryStore.reserve_ok h).2]; exact ⟨Iff.rfl, Iff.rfl⟩
  settle_open {req s} ho _ hnd hc hb := by
    rw [InMemoryStore.settle_open ho]
    refine (settleCounters_exact_iff hnd hc).mpr fun v hv => ?_
    obtain ⟨k, hk, rfl⟩ := List.mem_map.mp hv
    exact hb k hk
  settle_closes req s := by
    unfold InMemoryStore.settle
    split_ifs with h
    · exact not_not.mpr h
    · exact not_not.mpr (Finset.mem_insert_self _ _)
  settle_frame {req s r} hr := by
    unfold InMemoryStore.settle
    split_ifs
    · exact ⟨Iff.rfl, Iff.rfl⟩
    · simp [Finset.mem_insert, hr]
  settle_closed hs := InMemoryStore.settle_closed (not_not.mp hs)
  lapse_counter h := by cases h
  lapse_closes h := by cases h
  lapse_frame h := by cases h

/-! ### The Redis store -/

/-- The reply of the script, read as a result: the token gate comes first. -/
theorem RedisStore.reserve_eq (op : AdmitOp ℤ) (s : RedisStore) :
    s.reserve op =
      if 0 ≤ op.cTokensLimit ∧ op.cTokensLimit < s.counters op.cTokensKey + op.reserve then
        (.error (.denied .clientTokens), s)
      else if 0 ≤ op.cReqLimit ∧ op.cReqLimit < s.counters op.cReqKey + 1 then
        (.error (.denied .clientRequests), s)
      else if 0 ≤ op.pTokensLimit ∧ op.pTokensLimit < s.counters op.pTokensKey + op.reserve then
        (.error (.denied .providerTokens), s)
      else
        (.ok (), { counters := op.place s.counters
                   records := Function.update s.records op.reservationKey (some "open") }) := by
  simp only [RedisStore.reserve, admitLua, ge_iff_le, gt_iff_lt]
  split_ifs <;> simp_all

theorem RedisStore.reserve_ok {op : AdmitOp ℤ} {s s' : RedisStore}
    (h : s.reserve op = (.ok (), s')) :
    op.Fits s.counters ∧
      s' = { counters := op.place s.counters
             records := Function.update s.records op.reservationKey (some "open") } := by
  rw [RedisStore.reserve_eq] at h
  split_ifs at h with h1 h2 h3
  · cases h
  · cases h
  · cases h
  · refine ⟨⟨fun h0 => ?_, fun h0 => ?_, fun h0 => ?_⟩, (Prod.mk.inj h).2.symm⟩ <;> omega

theorem RedisStore.reserve_error {op : AdmitOp ℤ} {s s' : RedisStore} {e : ReserveError}
    (h : s.reserve op = (.error e, s')) : s' = s := by
  rw [RedisStore.reserve_eq] at h
  split_ifs at h <;> first | exact (Prod.mk.inj h).2.symm | cases h

/-- The Redis store takes a reservation as open while its record says so. -/
def RedisStore.lawful : LawfulStore where
  State := RedisStore
  empty := .empty
  bound := 2 ^ 53
  counter := RedisStore.counters
  reserve op := RedisStore.reserve op.exact
  settle req := RedisStore.settle req.exact
  lapse r s := some (s.lapse r)
  isOpen s r := s.records r = some "open"
  isSettled s r := s.records r = some "settled"
  bound_pos := by decide
  bound_le := by decide
  counter_empty := RedisStore.counters_empty
  settled_empty _ := by simp [RedisStore.empty]
  reserve_error := RedisStore.reserve_error
  reserve_ok h _ _ _ _ := by
    obtain ⟨hfits, rfl⟩ := RedisStore.reserve_ok h
    exact ⟨hfits, rfl⟩
  reserve_open {op s s'} h _ := by
    have hkey : op.exact.reservationKey = op.reservationKey := rfl
    rw [(RedisStore.reserve_ok h).2]
    simp [hkey]
  reserve_frame {op s s' r} h hr := by
    have hr' : r ≠ op.exact.reservationKey := hr
    rw [(RedisStore.reserve_ok h).2]
    simp [Function.update_of_ne hr']
  settle_open {req s} ho hl _ _ _ := by
    have e : req.exact.tokenKeys.take 3 = req.tokenKeys := List.take_of_length_le (le_of_eq hl)
    have ho' : s.records req.exact.reservationKey = some "open" := ho
    have hc := settleLua_counters req.exact s.counters
    simp only [RedisStore.settle, settleLua, ho', ne_eq, not_true_eq_false, if_false]
    rw [hc, e]
    rfl
  settle_closes req s := by
    have hkey : req.exact.reservationKey = req.reservationKey := rfl
    unfold RedisStore.settle settleLua
    split_ifs with h
    · exact h
    · simp [hkey]
  settle_frame {req s r} hr := by
    have hr' : r ≠ req.exact.reservationKey := hr
    unfold RedisStore.settle settleLua
    split_ifs
    · exact ⟨Iff.rfl, Iff.rfl⟩
    · simp [Function.update_of_ne hr']
  settle_closed {req s} hs := by
    have hs' : s.records req.exact.reservationKey ≠ some "open" := hs
    simp [RedisStore.settle, settleLua, hs']
  lapse_counter h := by cases h; rfl
  lapse_closes h := by cases h; simp [RedisStore.lapse]
  lapse_frame {r s s' r'} h hr := by cases h; simp [RedisStore.lapse, Function.update_of_ne hr]

/-! ### The store and its book -/

section balance
variable (S : LawfulStore) (fam : String → Family)

/-- The counters of the store are what the book owes, and the store takes exactly the open
holds of the book as open. -/
structure Balanced (store : S.State) (book : List (Hold String String)) : Prop where
  nodup : (ids book).Nodup
  keysNodup : ∀ h ∈ book, h.keys.Nodup
  keysLength : ∀ h ∈ book, h.keys.length = 3
  keysTokens : ∀ h ∈ book, ∀ k ∈ h.keys, (fam k).isTokens = true
  nonneg : ∀ h ∈ book, 0 ≤ h.charge
  solvent : ∀ k, 0 ≤ S.counter store k
  counters : ∀ k, (fam k).isTokens = true → S.counter store k = charged book k
  opened : ∀ h ∈ book, h.final = none → S.isOpen store h.id
  closed : ∀ h ∈ book, h.final ≠ none → ¬ S.isOpen store h.id
  fresh : ∀ r, r ∉ ids book → ¬ S.isSettled store r

variable {S fam}

theorem Balanced.empty : Balanced S fam S.empty [] where
  nodup := List.nodup_nil
  keysNodup := by simp
  keysLength := by simp
  keysTokens := by simp
  nonneg := by simp
  solvent k := by rw [S.counter_empty]
  counters k _ := by rw [S.counter_empty, Ledger.charged_nil]
  opened := by simp
  closed := by simp
  fresh r _ := S.settled_empty r

/-- A successful reserve with a new reservation key enters its hold into the book. -/
theorem Balanced.admitReq {lim : Limits} {store store' : S.State} {book : List (Hold String String)}
    {op : AdmitOp Int64} (hb : Balanced S fam store book) (hop : op.exact.Legal lim fam)
    (hnew : op.reservationKey ∉ ids book) (hsums : op.exact.Below S.bound (S.counter store))
    (h : S.reserve op store = (.ok (), store')) :
    Balanced S fam store' (book ++ [op.exact.hold]) := by
  have hopen := S.reserve_open h (hb.fresh _ hnew)
  have hcounter := (S.reserve_ok h hop.keys_nodup hb.solvent hop.reserve hsums).2
  have hframe : ∀ g ∈ book, g.id ≠ op.reservationKey := fun g hg e => by
    rw [← e] at hnew
    exact hnew (Ledger.mem_ids hg)
  have hmem : ∀ g, g ∈ book ++ [op.exact.hold] → g ∈ book ∨ g = op.exact.hold := fun g hg => by
    simpa using hg
  refine ⟨?_, ?_, ?_, ?_, ?_, ?_, ?_, ?_, ?_, ?_⟩
  · simp only [ids, List.map_append, List.map_cons, List.map_nil]
    refine List.nodup_append.mpr ⟨hb.nodup, List.nodup_singleton _, ?_⟩
    rintro a ha b hb' rfl
    have e : a = op.reservationKey := List.mem_singleton.mp hb'
    rw [e] at ha
    exact hnew ha
  · rintro g hg
    rcases hmem g hg with hg | rfl
    · exact hb.keysNodup g hg
    · exact hop.tokenKeys_nodup
  · rintro g hg
    rcases hmem g hg with hg | rfl
    · exact hb.keysLength g hg
    · rfl
  · rintro g hg
    rcases hmem g hg with hg | rfl
    · exact hb.keysTokens g hg
    · exact fun k hk => hop.isTokens_of_mem hk
  · rintro g hg
    rcases hmem g hg with hg | rfl
    · exact hb.nonneg g hg
    · exact hop.reserve
  · intro k
    rw [hcounter]
    exact AdmitOp.place_nonneg hop.keys_nodup hb.solvent hop.reserve k
  · intro k hk
    rw [hcounter, hop.place_tokens _ hk, hb.counters k hk, Ledger.charged_append,
      Ledger.charged_cons, Ledger.charged_nil, add_zero]
    rfl
  · rintro g hg hf
    rcases hmem g hg with hg | rfl
    · exact (S.reserve_frame h (hframe g hg)).1.mpr (hb.opened g hg hf)
    · exact hopen.1
  · rintro g hg hf
    rcases hmem g hg with hg | rfl
    · exact mt (S.reserve_frame h (hframe g hg)).1.mp (hb.closed g hg hf)
    · exact absurd rfl hf
  · intro r hr
    simp only [ids, List.map_append, List.map_cons, List.map_nil, List.mem_append,
      List.mem_singleton, not_or] at hr
    rw [(S.reserve_frame h hr.2).2]
    exact hb.fresh r hr.1

/-- On a balanced store the clamp of a settle never acts: giving back at most the reserve
leaves every bucket of the hold non-negative. -/
theorem Balanced.unclamped {store : S.State} {book : List (Hold String String)}
    (hb : Balanced S fam store book) {h : Hold String String} (hm : h ∈ book)
    (hf : h.final = none) {delta : ℤ} (hd : -h.held ≤ delta) {k : String} (hk : k ∈ h.keys) :
    0 ≤ S.counter store k + delta := by
  rw [hb.counters k (hb.keysTokens h hm k hk)]
  have hc : h.charge = h.held := by simp [Hold.charge, hf]
  exact Ledger.charged_sub_nonneg hb.nonneg hm hk (by rw [hc]; exact hd)

/-- An event that closes a hold and changes no other one keeps the balance when the counters it
leaves are the ones the closed book owes. -/
theorem Balanced.closing {store store' : S.State} {book : List (Hold String String)}
    (hb : Balanced S fam store book) {h : Hold String String} (hm : h ∈ book) {a : ℤ} (ha : 0 ≤ a)
    (hsolvent : ∀ k, 0 ≤ S.counter store' k)
    (hcount : ∀ k, (fam k).isTokens = true → S.counter store' k = charged (close h.id a book) k)
    (hclosed : ¬ S.isOpen store' h.id)
    (hframe : ∀ r ≠ h.id, (S.isOpen store' r ↔ S.isOpen store r) ∧
      (S.isSettled store' r ↔ S.isSettled store r)) :
    Balanced S fam store' (close h.id a book) := by
  have hback : ∀ {g}, g ∈ Ledger.close h.id a book →
      ∃ g₀ ∈ book, g.id = g₀.id ∧ g.keys = g₀.keys ∧
        (g₀.id ≠ h.id → g = g₀) ∧ (g₀.id = h.id → g.final ≠ none) := by
    intro g hg
    obtain ⟨g₀, hg₀, rfl⟩ := Ledger.mem_close.mp hg
    refine ⟨g₀, hg₀, ?_⟩
    by_cases e : g₀.id = h.id <;> simp [e]
  refine ⟨by rw [Ledger.ids_close]; exact hb.nodup, ?_, ?_, ?_, ?_, hsolvent, hcount, ?_, ?_, ?_⟩
  · intro g hg
    obtain ⟨g₀, hg₀, -, e, -⟩ := hback hg
    rw [e]; exact hb.keysNodup g₀ hg₀
  · intro g hg
    obtain ⟨g₀, hg₀, -, e, -⟩ := hback hg
    rw [e]; exact hb.keysLength g₀ hg₀
  · intro g hg
    obtain ⟨g₀, hg₀, -, e, -⟩ := hback hg
    rw [e]; exact hb.keysTokens g₀ hg₀
  · exact Ledger.charge_nonneg_close hb.nonneg ha
  · intro g hg hgf
    obtain ⟨g₀, hg₀, e, -, hother, hlast⟩ := hback hg
    by_cases hne : g₀.id = h.id
    · exact absurd hgf (hlast hne)
    · rw [e]
      rw [hother hne] at hgf
      exact (hframe _ hne).1.mpr (hb.opened g₀ hg₀ hgf)
  · intro g hg hgf
    obtain ⟨g₀, hg₀, e, -, hother, -⟩ := hback hg
    by_cases hne : g₀.id = h.id
    · rw [e, hne]; exact hclosed
    · rw [e]
      rw [hother hne] at hgf
      exact mt (hframe _ hne).1.mp (hb.closed g₀ hg₀ hgf)
  · intro r hr
    rw [Ledger.ids_close] at hr
    have hne : r ≠ h.id := fun e => hr (by rw [e]; exact Ledger.mem_ids hm)
    rw [(hframe r hne).2]
    exact hb.fresh r hr

/-- The first settle of a hold, under any keys, closes it in the book when the counters it
leaves are the ones the closed book owes. -/
theorem Balanced.close {store : S.State} {book : List (Hold String String)}
    (hb : Balanced S fam store book) {h : Hold String String} (hm : h ∈ book)
    (hf : h.final = none) {req : SettleReq Int64} (hid : req.reservationKey = h.id)
    (hlen : req.tokenKeys.length = 3) (hnd : req.tokenKeys.Nodup)
    (hsums : req.exact.Below S.bound (S.counter store)) {a : ℤ} (ha : 0 ≤ a)
    (hcount : ∀ k, (fam k).isTokens = true →
      S.counter (S.settle req store).2 k = charged (close h.id a book) k) :
    Balanced S fam (S.settle req store).2 (close h.id a book) := by
  have hopen : S.isOpen store req.reservationKey := by rw [hid]; exact hb.opened h hm hf
  refine hb.closing hm ha (fun k => ?_) hcount (by rw [← hid]; exact S.settle_closes req store)
    (fun r hr => S.settle_frame (by rw [hid]; exact hr))
  rw [S.settle_open hopen hlen hnd hb.solvent hsums]
  exact settleCounters_nonneg hnd hb.solvent k

theorem Balanced.settle {store : S.State} {book : List (Hold String String)}
    (hb : Balanced S fam store book) {h : Hold String String} (hm : h ∈ book)
    (hf : h.final = none) {req : SettleReq Int64} (hid : req.reservationKey = h.id)
    (hkeys : req.tokenKeys = h.keys) (hd : -h.held ≤ req.delta.toInt)
    (hsums : req.exact.Below S.bound (S.counter store)) :
    Balanced S fam (S.settle req store).2 (Ledger.close h.id (h.held + req.delta.toInt) book) := by
  have hopen : S.isOpen store req.reservationKey := by rw [hid]; exact hb.opened h hm hf
  have hlen : req.tokenKeys.length = 3 := by rw [hkeys]; exact hb.keysLength h hm
  have hnd : req.tokenKeys.Nodup := by rw [hkeys]; exact hb.keysNodup h hm
  have hc : h.charge = h.held := by simp [Hold.charge, hf]
  refine hb.close hm hf hid hlen hnd hsums (by omega) (fun k hk => ?_)
  rw [S.settle_open hopen hlen hnd hb.solvent hsums, settleCounters_apply _ hnd,
    Ledger.charged_close hb.nodup hm, ← hb.counters k hk, hkeys, hc]
  split_ifs with hmem
  · have := hb.unclamped hm hf hd hmem
    omega
  · rw [add_zero]

theorem Balanced.resettle {store : S.State} {book : List (Hold String String)}
    (hb : Balanced S fam store book) {h : Hold String String} (hm : h ∈ book)
    (hf : h.final ≠ none) {req : SettleReq Int64} (hid : req.reservationKey = h.id) :
    S.settle req store = (false, store) :=
  S.settle_closed (by rw [hid]; exact hb.closed h hm hf)

theorem Balanced.lapse_closed {store store' : S.State} {book : List (Hold String String)}
    (hb : Balanced S fam store book) {r : String} (hl : S.lapse r store = some store')
    (hclosed : ∀ h ∈ book, h.id = r → h.final ≠ none) : Balanced S fam store' book := by
  have hcounter := S.lapse_counter hl
  refine ⟨hb.nodup, hb.keysNodup, hb.keysLength, hb.keysTokens, hb.nonneg, ?_, ?_, ?_, ?_, ?_⟩
  · intro k
    rw [hcounter]
    exact hb.solvent k
  · intro k hk
    rw [hcounter]
    exact hb.counters k hk
  · intro g hg hgf
    have hne : g.id ≠ r := fun e => hclosed g hg e hgf
    exact (S.lapse_frame hl hne).1.mpr (hb.opened g hg hgf)
  · intro g hg hgf
    by_cases hne : g.id = r
    · rw [hne]
      exact (S.lapse_closes hl).1
    · exact mt (S.lapse_frame hl hne).1.mp (hb.closed g hg hgf)
  · intro r' hr'
    by_cases hne : r' = r
    · rw [hne]
      exact (S.lapse_closes hl).2
    · rw [(S.lapse_frame hl hne).2]
      exact hb.fresh r' hr'

/-- A hold whose record expires is closed with its reserve. -/
theorem Balanced.lapse {store store' : S.State} {book : List (Hold String String)}
    (hb : Balanced S fam store book) {h : Hold String String} (hm : h ∈ book)
    (hl : S.lapse h.id store = some store') :
    Balanced S fam store' (if h.final = none then Ledger.close h.id h.held book else book) := by
  by_cases hf : h.final = none
  · have hcounter := S.lapse_counter hl
    have hc : h.charge = h.held := by simp [Hold.charge, hf]
    rw [if_pos hf]
    refine hb.closing hm (by rw [← hc]; exact hb.nonneg h hm)
      (fun k => by rw [hcounter]; exact hb.solvent k) (fun k hk => ?_)
      (S.lapse_closes hl).1 (fun r hr => S.lapse_frame hl hr)
    rw [hcounter, Ledger.charged_close hb.nodup hm, hc, sub_self, ite_self, add_zero]
    exact hb.counters k hk
  · rw [if_neg hf]
    refine hb.lapse_closed hl fun g hg e => ?_
    rw [List.inj_on_of_nodup_map hb.nodup hg hm e]
    exact hf

end balance

/-! ### Runs -/

section runs
variable (S : LawfulStore) (lim : Limits) (fam : String → Family)

/-- A store together with the book of the reservations admitted so far. -/
structure Books where
  store : S.State
  book : List (Hold String String)

/-- One atomic operation of any client, with sums that the store counts exactly: a reserve under
a reservation key that no earlier admission used, or a settle that names the reservation and the
token keys of an admitted reserve and takes back at most that reserve.  Between the operations
the record of a reservation may expire: an open one then stays charged with its reserve. -/
inductive QuotaStep : Books S → Books S → Prop
  | admitted {x : Books S} {op : AdmitOp Int64} {store' : S.State} :
      op.exact.Legal lim fam → op.reservationKey ∉ ids x.book →
      op.exact.Below S.bound (S.counter x.store) → S.reserve op x.store = (.ok (), store') →
      QuotaStep x ⟨store', x.book ++ [op.exact.hold]⟩
  | denied {x : Books S} {op : AdmitOp Int64} {e : ReserveError} {store' : S.State} :
      op.exact.Legal lim fam → S.reserve op x.store = (.error e, store') →
      QuotaStep x ⟨store', x.book⟩
  | settled {x : Books S} {h : Hold String String} {r : SettleReq Int64} :
      h ∈ x.book → r.reservationKey = h.id → r.tokenKeys = h.keys → -h.held ≤ r.delta.toInt →
      (h.final = none → r.exact.Below S.bound (S.counter x.store)) →
      QuotaStep x ⟨(S.settle r x.store).2,
        if h.final = none then close h.id (h.held + r.delta.toInt) x.book else x.book⟩
  | lapsed {x : Books S} {h : Hold String String} {store' : S.State} :
      h ∈ x.book → S.lapse h.id x.store = some store' →
      QuotaStep x ⟨store', if h.final = none then close h.id h.held x.book else x.book⟩

/-- Reachable from the empty store. -/
def Books.Reachable (x : Books S) : Prop :=
  Relation.ReflTransGen (QuotaStep S lim fam) ⟨S.empty, []⟩ x

/-- What the quota ledger promises of one state. -/
structure QuotaLedger (x : Books S) : Prop where
  /-- A successful reserve leaves every gated counter at or below its limit. -/
  withinLimits : ∀ op store', op.exact.Legal lim fam →
    op.exact.Below S.bound (S.counter x.store) → S.reserve op x.store = (.ok (), store') →
    op.exact.WithinLimits (S.counter store')
  /-- The request counter of a client is at or below its limit. -/
  requests : ∀ k, fam k = .clientRequests → 0 ≤ lim.clientRequests →
    S.counter x.store k ≤ lim.clientRequests
  /-- A denied reserve leaves every counter unchanged. -/
  denied : ∀ op e store', S.reserve op x.store = (.error e, store') →
    ∀ k, S.counter store' k = S.counter x.store k
  /-- A token counter is the open reserves plus the actual usage of the settled ones. -/
  balance : ∀ k, (fam k).isTokens = true → S.counter x.store k = charged x.book k
  /-- The clamp at zero never discards anything. -/
  unclamped : ∀ h ∈ x.book, h.final = none → ∀ delta, -h.held ≤ delta →
    ∀ k ∈ h.keys, 0 ≤ S.counter x.store k + delta
  /-- Settling the same reservation again changes nothing. -/
  resettle : ∀ h ∈ x.book, h.final ≠ none → ∀ req : SettleReq Int64, req.reservationKey = h.id →
    S.settle req x.store = (false, x.store)

variable {S lim fam}

theorem reserve_withinLimits {op : AdmitOp Int64} {store store' : S.State}
    (hop : op.exact.Legal lim fam) (hc : ∀ k, 0 ≤ S.counter store k)
    (hsums : op.exact.Below S.bound (S.counter store))
    (h : S.reserve op store = (.ok (), store')) : op.exact.WithinLimits (S.counter store') := by
  obtain ⟨hfit, hcounter⟩ := S.reserve_ok h hop.keys_nodup hc hop.reserve hsums
  have hct : (fam op.exact.cTokensKey).isTokens = true := by rw [hop.cTokens]; rfl
  have hpt : (fam op.exact.pTokensKey).isTokens = true := by rw [hop.pTokens]; rfl
  rw [hcounter]
  refine ⟨fun h0 => ?_, fun h0 => ?_, fun h0 => ?_⟩
  · rw [hop.place_requests _ hop.cReq, if_pos rfl]
    exact hfit.requests h0
  · rw [hop.place_tokens _ hct, if_pos (by simp [AdmitOp.tokenKeys])]
    exact hfit.client h0
  · rw [hop.place_tokens _ hpt, if_pos (by simp [AdmitOp.tokenKeys])]
    exact hfit.provider h0

theorem Balanced.settle_requests {store : S.State} {book : List (Hold String String)}
    (hb : Balanced S fam store book) {h : Hold String String} (hm : h ∈ book)
    {req : SettleReq Int64} (hid : req.reservationKey = h.id) (hkeys : req.tokenKeys = h.keys)
    (hsums : h.final = none → req.exact.Below S.bound (S.counter store))
    {k : String} (hk : (fam k).isTokens = false) :
    S.counter (S.settle req store).2 k = S.counter store k := by
  by_cases hf : h.final = none
  · have hopen : S.isOpen store req.reservationKey := by rw [hid]; exact hb.opened h hm hf
    have hlen : req.tokenKeys.length = 3 := by rw [hkeys]; exact hb.keysLength h hm
    have hnd : req.tokenKeys.Nodup := by rw [hkeys]; exact hb.keysNodup h hm
    rw [S.settle_open hopen hlen hnd hb.solvent (hsums hf), settleCounters_of_not_mem]
    intro hmem
    rw [hkeys] at hmem
    rw [hb.keysTokens h hm k hmem] at hk
    cases hk
  · rw [hb.resettle hm hf hid]

/-- What every step keeps: the books balance and the request counters respect their limit. -/
theorem QuotaStep.preserves {x y : Books S} (hs : QuotaStep S lim fam x y)
    (hb : Balanced S fam x.store x.book)
    (hr : ∀ k, fam k = .clientRequests → 0 ≤ lim.clientRequests →
      S.counter x.store k ≤ lim.clientRequests) :
    Balanced S fam y.store y.book ∧ ∀ k, fam k = .clientRequests → 0 ≤ lim.clientRequests →
      S.counter y.store k ≤ lim.clientRequests := by
  cases hs with
  | @admitted op store' hop hnew hsums h =>
      obtain ⟨hfit, hcounter⟩ := S.reserve_ok h hop.keys_nodup hb.solvent hop.reserve hsums
      refine ⟨hb.admitReq hop hnew hsums h, fun k hk h0 => ?_⟩
      rw [hcounter, hop.place_requests _ hk]
      split_ifs with e
      · have := hfit.requests (by rw [hop.cReqLimit]; exact h0)
        rw [e, ← hop.cReqLimit]
        exact this
      · have := hr k hk h0
        omega
  | denied _ h =>
      rw [S.reserve_error h]
      exact ⟨hb, hr⟩
  | @settled h req hm hid hkeys hd hsums =>
      refine ⟨?_, fun k hk h0 => ?_⟩
      · by_cases hf : h.final = none
        · rw [if_pos hf]
          exact hb.settle hm hf hid hkeys hd (hsums hf)
        · rw [if_neg hf, hb.resettle hm hf hid]
          exact hb
      · have hk' : (fam k).isTokens = false := by rw [hk]; rfl
        dsimp only
        rw [hb.settle_requests hm hid hkeys hsums hk']
        exact hr k hk h0
  | @lapsed h store' hm hl =>
      refine ⟨hb.lapse hm hl, fun k hk h0 => ?_⟩
      dsimp only
      rw [S.lapse_counter hl]
      exact hr k hk h0

theorem Books.Reachable.balanced {x : Books S} (h : x.Reachable S lim fam) :
    Balanced S fam x.store x.book ∧ ∀ k, fam k = .clientRequests → 0 ≤ lim.clientRequests →
      S.counter x.store k ≤ lim.clientRequests := by
  induction h with
  | refl => exact ⟨Balanced.empty, fun k _ h0 => by rw [S.counter_empty]; exact h0⟩
  | tail _ hs ih => exact hs.preserves ih.1 ih.2

/-- Over any lawful store the ledger holds in every reachable state. -/
theorem Books.Reachable.quotaLedger {x : Books S} (h : x.Reachable S lim fam) :
    QuotaLedger S lim fam x where
  withinLimits _ _ hop hsums hok := reserve_withinLimits hop h.balanced.1.solvent hsums hok
  requests := h.balanced.2
  denied _ _ _ herr k := by rw [S.reserve_error herr]
  balance := h.balanced.1.counters
  unclamped _ hm hf _ hd _ hk := h.balanced.1.unclamped hm hf hd hk
  resettle _ hm hf _ hid := h.balanced.1.resettle hm hf hid

end runs

/-! ### The ledger of both backends -/

/-- **The quota ledger** holds in every reachable state of the in-memory store and of the
Redis store. -/
theorem quota_ledger (lim : Limits) (fam : String → Family) :
    (∀ x : Books InMemoryStore.lawful, x.Reachable InMemoryStore.lawful lim fam →
      QuotaLedger InMemoryStore.lawful lim fam x) ∧
    (∀ x : Books RedisStore.lawful, x.Reachable RedisStore.lawful lim fam →
      QuotaLedger RedisStore.lawful lim fam x) :=
  ⟨fun _ h => h.quotaLedger, fun _ h => h.quotaLedger⟩

/-- A request of client `a` that reserves so many tokens under this reservation key. -/
def sampleOp (reservationKey : String) (reserve : Int64) : AdmitOp Int64 where
  cTokensKey := "fwllm:c:tokens:a:20260906"
  cTokensLimit := -1
  cReqKey := "fwllm:c:req:a:20260906"
  cReqLimit := 2
  pTokensKey := "fwllm:p:tokens:p:20260906"
  pTokensLimit := -1
  pReqKey := "fwllm:p:req:p:20260906"
  mTokensKey := "fwllm:m:tokens:m:20260906"
  reserve
  reservationKey
  reservationTtlSecs := 600
  bucketTtlSecs := 172800

/-- The families of the keys of `sampleOp`. -/
def sampleFamily (k : String) : Family :=
  if k = "fwllm:c:tokens:a:20260906" then .clientTokens
  else if k = "fwllm:c:req:a:20260906" then .clientRequests
  else if k = "fwllm:p:tokens:p:20260906" then .providerTokens
  else if k = "fwllm:p:req:p:20260906" then .providerRequests
  else .modelTokens

theorem sampleOp_legal (reservationKey : String) {reserve : Int64} (h : 0 ≤ reserve.toInt) :
    (sampleOp reservationKey reserve).exact.Legal ⟨-1, 2, -1⟩ sampleFamily := by
  constructor
  case reserve => exact h
  all_goals rfl

/-- The settle of `sampleOp` with this difference. -/
def sampleSettle (reservationKey : String) (delta : Int64) : SettleReq Int64 :=
  ⟨reservationKey, (sampleOp reservationKey 0).tokenKeys, delta, 172800⟩

/-- A request that reserved 150 tokens and used 40, in memory; and one on Redis that reserved 150
tokens and is settled after its record expired. -/
theorem quota_ledger_one_request :
    QuotaLedger InMemoryStore.lawful ⟨-1, 2, -1⟩ sampleFamily
      ⟨((InMemoryStore.empty.reserve (sampleOp "fwllm:rsv:1" 150)).2.settle
          (sampleSettle "fwllm:rsv:1" (-110))).2,
        close "fwllm:rsv:1" 40 [(sampleOp "fwllm:rsv:1" 150).exact.hold]⟩ ∧
    QuotaLedger RedisStore.lawful ⟨-1, 2, -1⟩ sampleFamily
      ⟨(((RedisStore.empty.reserve (sampleOp "fwllm:rsv:1" 150).exact).2.lapse "fwllm:rsv:1").settle
          (sampleSettle "fwllm:rsv:1" (-110)).exact).2,
        close "fwllm:rsv:1" 150 [(sampleOp "fwllm:rsv:1" 150).exact.hold]⟩ := by
  have hop := sampleOp_legal "fwllm:rsv:1" (by decide : 0 ≤ (150 : Int64).toInt)
  constructor
  · apply (quota_ledger ⟨-1, 2, -1⟩ sampleFamily).1
    refine Relation.ReflTransGen.tail (Relation.ReflTransGen.single
      (QuotaStep.admitted hop (by simp [ids]) (by decide) rfl)) ?_
    exact QuotaStep.settled (h := (sampleOp "fwllm:rsv:1" 150).exact.hold)
      (r := sampleSettle "fwllm:rsv:1" (-110)) (by simp) rfl rfl (by decide) (fun _ => by decide)
  · apply (quota_ledger ⟨-1, 2, -1⟩ sampleFamily).2
    refine Relation.ReflTransGen.tail (Relation.ReflTransGen.tail (Relation.ReflTransGen.single
      (QuotaStep.admitted hop (by simp [ids]) (by decide) rfl))
      (QuotaStep.lapsed (h := (sampleOp "fwllm:rsv:1" 150).exact.hold) (by simp) rfl)) ?_
    exact QuotaStep.settled
      (h := { (sampleOp "fwllm:rsv:1" 150).exact.hold with final := some 150 })
      (r := sampleSettle "fwllm:rsv:1" (-110)) (by decide) rfl rfl (by decide) (fun h => by cases h)

/-- Two reserves of `2 ^ 62` tokens wrap the counter of their client. -/
theorem quota_ledger_wraps :
    let first := InMemoryStore.empty.reserve (sampleOp "fwllm:rsv:1" 4611686018427387904)
    let second := first.2.reserve (sampleOp "fwllm:rsv:2" 4611686018427387904)
    ((sampleOp "fwllm:rsv:1" 4611686018427387904).exact.Legal ⟨-1, 2, -1⟩ sampleFamily ∧
      (sampleOp "fwllm:rsv:2" 4611686018427387904).exact.Legal ⟨-1, 2, -1⟩ sampleFamily ∧
      first.1 = .ok () ∧ second.1 = .ok ()) ∧
    ¬ ∀ k, (sampleFamily k).isTokens = true → (second.2.counters k).toInt =
      charged [(sampleOp "fwllm:rsv:1" 4611686018427387904).exact.hold,
        (sampleOp "fwllm:rsv:2" 4611686018427387904).exact.hold] k := by
  intro first second
  refine ⟨⟨sampleOp_legal _ (by decide), sampleOp_legal _ (by decide), by decide, by decide⟩, ?_⟩
  intro h
  exact absurd (h "fwllm:c:tokens:a:20260906" rfl) (by decide)

end FirewallLLM.Quota
