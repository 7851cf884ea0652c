import FirewallLLM.MeteringDays
import FirewallLLM.PyGateway
import FirewallLLM.StoreAgreement

/-! # Metering of the Python gateway

`Metering` of `metering.py` has two ways to admit and to settle.  Where the backend runs
scripts, `ADMIT_LUA` and `SETTLE_LUA` do both, and these are the scripts of the Rust gateway;
elsewhere `_admit_fallback` and `_settle_fallback` do it under a lock, with plain commands and
the reservations kept in the process.

Here both ways are taken side by side, each with a server of its own.  The calls of a process
come one after the other, on days that are an argument, and the ids are those that `uuid4`
hands out. -/

namespace FirewallLLM.Py.Metering

open Quota

/-- The limits of `quotas`. -/
structure Quotas where
  clientTokensPerDay : Option ℤ
  clientRequestsPerDay : Option ℤ
  providerTokensPerDay : Option ℤ
deriving DecidableEq, Repr

/-- The limits that are set. -/
def Quotas.limits (q : Quotas) : List ℤ :=
  [q.clientTokensPerDay, q.clientRequestsPerDay, q.providerTokensPerDay].reduceOption

/-- `QuotaExceeded`. -/
structure QuotaExceeded where
  message : String
  limit : ℤ
  scope : String
deriving DecidableEq, Repr

/-- What is published. -/
inductive Event where
  | quotaExceeded (client provider scope : String) (limit : Option ℤ)
  | tokensSpent (client provider model : String) (totalTokens : ℤ) (usageSource : String)
deriving DecidableEq, Repr

/-- The first part of `_reservation_keys`. -/
def reservationKeys (rsv : Reservation) (day : String) : List String :=
  [cTokensKey rsv.client day, cReqKey rsv.client day, pTokensKey rsv.provider day,
    pReqKey rsv.provider day, mTokensKey rsv.model day]

/-- The reservation that `admit` asks for. -/
def newReservation (id client provider model : String) (promptEst completionCap : ℤ) :
    Reservation :=
  ⟨id, client, provider, model, max 0 promptEst, max 0 completionCap⟩

/-- The exception and its event. -/
def exceeded (rsv : Reservation) (scope : String) (used : ℤ) (limit : Option ℤ) :
    Except QuotaExceeded Reservation × List Event :=
  let shown := (limit.map toString).getD "None"
  (.error ⟨s!"daily {scope} quota exceeded ({used}/{shown})", limit.getD 0, scope⟩,
    [.quotaExceeded rsv.client rsv.provider scope limit])

/-! ### With scripts -/

/-- `_limit` -/
def limit (value : Option ℤ) : ℤ := value.getD (-1)

/-- The keys and arguments of `ADMIT_LUA`. -/
def admitArgs (q : Quotas) (rsv : Reservation) (day : String) : AdmitOp ℤ where
  cTokensKey := cTokensKey rsv.client day
  cTokensLimit := limit q.clientTokensPerDay
  cReqKey := cReqKey rsv.client day
  cReqLimit := limit q.clientRequestsPerDay
  pTokensKey := pTokensKey rsv.provider day
  pTokensLimit := limit q.providerTokensPerDay
  pReqKey := pReqKey rsv.provider day
  mTokensKey := mTokensKey rsv.model day
  reserve := rsv.reservedTotal
  reservationKey := rsvKey rsv.id
  reservationTtlSecs := rsvTtlSecs
  bucketTtlSecs := bucketTtlSecs

/-- `_raise_for_admit_result`, and the return of `admit`. -/
def admitResult (q : Quotas) (rsv : Reservation) (result : String × ℤ) :
    Except QuotaExceeded Reservation × List Event :=
  if result.1 = "ok" then (.ok rsv, [])
  else if result.1 = "tokens" then exceeded rsv "tokens" result.2 q.clientTokensPerDay
  else if result.1 = "requests" then exceeded rsv "requests" result.2 q.clientRequestsPerDay
  else exceeded rsv "provider_tokens" result.2 q.providerTokensPerDay

/-- `admit` over a backend with scripts. -/
def admitScript (q : Quotas) (rsv : Reservation) (day : String) (s : RedisStore) :
    (Except QuotaExceeded Reservation × List Event) × RedisStore :=
  (admitResult q rsv (admitLua (admitArgs q rsv day) s).1, (admitLua (admitArgs q rsv day) s).2)

/-- The keys and arguments of `SETTLE_LUA`. -/
def settleArgs (rsv : Reservation) (delta : ℤ) (day : String) : SettleReq ℤ :=
  ⟨rsvKey rsv.id, [cTokensKey rsv.client day, pTokensKey rsv.provider day,
    mTokensKey rsv.model day], delta, bucketTtlSecs⟩

/-- The event of a settle that was applied. -/
def spent (rsv : Reservation) (total : ℤ) (usageSource : String) (applied : Bool) : List Event :=
  if applied then [.tokensSpent rsv.client rsv.provider rsv.model total usageSource] else []

/-- `settle` over a backend with scripts. -/
def settleScript (rsv : Reservation) (prompt completion : ℤ) (usageSource day : String)
    (s : RedisStore) : List Event × RedisStore :=
  let r := settleLua (settleArgs rsv ((prompt + completion) - rsv.reservedTotal) day) s
  (spent rsv (prompt + completion) usageSource (r.1 == 1), r.2)

/-! ### Without -/

/-- The counters of the server, `_fallback_open` and `_fallback_settled`. -/
structure Fallback where
  counters : Counters ℤ
  fallbackOpen : String → Option Reservation
  fallbackSettled : Finset String

/-- `_admit_fallback` -/
def admitFallback (q : Quotas) (rsv : Reservation) (day : String) (s : Fallback) :
    (Except QuotaExceeded Reservation × List Event) × Fallback :=
  let ctok := s.counters (cTokensKey rsv.client day)
  let creq := s.counters (cReqKey rsv.client day)
  let ptok := s.counters (pTokensKey rsv.provider day)
  let checks := [("tokens", ctok, q.clientTokensPerDay), ("requests", creq, q.clientRequestsPerDay),
    ("provider_tokens", ptok, q.providerTokensPerDay)]
  let broken := fun (check : String × ℤ × Option ℤ) =>
    let need := if check.1 = "requests" then 1 else rsv.reservedTotal
    check.2.2.any (fun limit => limit < check.2.1 + need)
  match checks.find? broken with
  | some check => (exceeded rsv check.1 check.2.1 check.2.2, s)
  | none =>
      let c := s.counters.bump (cTokensKey rsv.client day) rsv.reservedTotal
      let c := c.bump (cReqKey rsv.client day) 1
      let c := c.bump (pTokensKey rsv.provider day) rsv.reservedTotal
      let c := c.bump (pReqKey rsv.provider day) 1
      let c := c.bump (mTokensKey rsv.model day) rsv.reservedTotal
      ((.ok rsv, []), { s with
        counters := c, fallbackOpen := Function.update s.fallbackOpen rsv.id (some rsv) })

/-- `_settle_fallback` -/
def settleApplied (rsv : Reservation) (delta : ℤ) (day : String) (s : Fallback) :
    Bool × Fallback :=
  if rsv.id ∈ s.fallbackSettled ∨ s.fallbackOpen rsv.id = none then (false, s)
  else
    (true, {
      counters := [cTokensKey rsv.client day, pTokensKey rsv.provider day,
        mTokensKey rsv.model day].foldl
          (fun c key => Function.update c key (max 0 (c key + delta))) s.counters
      fallbackOpen := Function.update s.fallbackOpen rsv.id none
      fallbackSettled := insert rsv.id s.fallbackSettled })

/-- `settle` over a backend without scripts. -/
def settleFallback (rsv : Reservation) (prompt completion : ℤ) (usageSource day : String)
    (s : Fallback) : List Event × Fallback :=
  let r := settleApplied rsv ((prompt + completion) - rsv.reservedTotal) day s
  (spent rsv (prompt + completion) usageSource r.1, r.2)

/-! ### The gates of the two ways -/

section Gates

variable (q : Quotas) (rsv : Reservation) (day : String)

/-- The gate of a limit in the script. -/
def ScriptBroken (value : Option ℤ) (needed : ℤ) : Prop :=
  0 ≤ limit value ∧ limit value < needed

instance (value : Option ℤ) (needed : ℤ) : Decidable (ScriptBroken value needed) :=
  inferInstanceAs (Decidable (_ ∧ _))

/-- The gate of a limit without one. -/
def FallbackBroken (value : Option ℤ) (needed : ℤ) : Prop := ∃ limit ∈ value, limit < needed

instance (value : Option ℤ) (needed : ℤ) : Decidable (FallbackBroken value needed) :=
  inferInstanceAs (Decidable (∃ limit ∈ value, _))

theorem scriptBroken_iff {value : Option ℤ} (h : ∀ limit ∈ value, 0 ≤ limit) (needed : ℤ) :
    ScriptBroken value needed ↔ FallbackBroken value needed := by
  unfold ScriptBroken FallbackBroken limit
  cases value with
  | none => simp
  | some limit => simpa using fun _ => h limit rfl

theorem admitLua_eq (s : RedisStore) : admitLua (admitArgs q rsv day) s =
    if ScriptBroken q.clientTokensPerDay
        (s.counters (cTokensKey rsv.client day) + rsv.reservedTotal) then
      (("tokens", s.counters (cTokensKey rsv.client day)), s)
    else if ScriptBroken q.clientRequestsPerDay (s.counters (cReqKey rsv.client day) + 1) then
      (("requests", s.counters (cReqKey rsv.client day)), s)
    else if ScriptBroken q.providerTokensPerDay
        (s.counters (pTokensKey rsv.provider day) + rsv.reservedTotal) then
      (("provider_tokens", s.counters (pTokensKey rsv.provider day)), s)
    else (("ok", rsv.reservedTotal), ⟨(admitArgs q rsv day).place s.counters,
      Function.update s.records (rsvKey rsv.id) (some "open")⟩) := rfl

theorem admitScript_eq (s : RedisStore) : admitScript q rsv day s =
    if ScriptBroken q.clientTokensPerDay
        (s.counters (cTokensKey rsv.client day) + rsv.reservedTotal) then
      (exceeded rsv "tokens" (s.counters (cTokensKey rsv.client day)) q.clientTokensPerDay, s)
    else if ScriptBroken q.clientRequestsPerDay (s.counters (cReqKey rsv.client day) + 1) then
      (exceeded rsv "requests" (s.counters (cReqKey rsv.client day)) q.clientRequestsPerDay, s)
    else if ScriptBroken q.providerTokensPerDay
        (s.counters (pTokensKey rsv.provider day) + rsv.reservedTotal) then
      (exceeded rsv "provider_tokens" (s.counters (pTokensKey rsv.provider day))
        q.providerTokensPerDay, s)
    else ((.ok rsv, []), ⟨(admitArgs q rsv day).place s.counters,
      Function.update s.records (rsvKey rsv.id) (some "open")⟩) := by
  rw [admitScript, admitLua_eq]
  split_ifs <;> rfl

theorem find?_three {α : Type} (p : α → Bool) (a b c : α) : [a, b, c].find? p =
    if p a = true then some a else if p b = true then some b
      else if p c = true then some c else none := by
  simp only [List.find?_cons, List.find?_nil]
  cases p a <;> cases p b <;> cases p c <;> rfl

theorem admitFallback_eq (s : Fallback) : admitFallback q rsv day s =
    if FallbackBroken q.clientTokensPerDay
        (s.counters (cTokensKey rsv.client day) + rsv.reservedTotal) then
      (exceeded rsv "tokens" (s.counters (cTokensKey rsv.client day)) q.clientTokensPerDay, s)
    else if FallbackBroken q.clientRequestsPerDay (s.counters (cReqKey rsv.client day) + 1) then
      (exceeded rsv "requests" (s.counters (cReqKey rsv.client day)) q.clientRequestsPerDay, s)
    else if FallbackBroken q.providerTokensPerDay
        (s.counters (pTokensKey rsv.provider day) + rsv.reservedTotal) then
      (exceeded rsv "provider_tokens" (s.counters (pTokensKey rsv.provider day))
        q.providerTokensPerDay, s)
    else ((.ok rsv, []), { s with
      counters := (admitArgs q rsv day).place s.counters
      fallbackOpen := Function.update s.fallbackOpen rsv.id (some rsv) }) := by
  have hany : ∀ (value : Option ℤ) (needed : ℤ),
      value.any (fun limit => limit < needed) = true ↔ FallbackBroken value needed := by
    intro value needed
    simp [Option.any_eq_true, FallbackBroken]
  have htokens : ¬ "tokens" = "requests" := by decide
  have hprovider : ¬ "provider_tokens" = "requests" := by decide
  simp only [admitFallback, find?_three, if_neg htokens, if_neg hprovider, if_true, hany]
  split_ifs <;> rfl

end Gates

/-! ### Both -/

/-- A call of one process. -/
inductive Call where
  | admitReq (day id client provider model : String) (promptEst completionCap : ℤ)
  | settle (day : String) (rsv : Reservation) (prompt completion : ℤ) (usageSource : String)

/-- The two servers and what the process knows. -/
structure Paths where
  scripted : RedisStore
  fallback : Fallback

namespace Paths

/-- The same counters, and no reservation. -/
def start (c : Counters ℤ) : Paths := ⟨⟨c, fun _ => none⟩, ⟨c, fun _ => none, ∅⟩⟩

/-- What a call returns and publishes. -/
abbrev Outcome := Except QuotaExceeded (Option Reservation) × List Event

def runScript (q : Quotas) (s : RedisStore) : Call → Outcome × RedisStore
  | .admitReq day id client provider model promptEst completionCap =>
      let r := admitScript q (newReservation id client provider model promptEst completionCap) day s
      ((r.1.1.map some, r.1.2), r.2)
  | .settle day rsv prompt completion usageSource =>
      let r := settleScript rsv prompt completion usageSource day s
      ((.ok none, r.1), r.2)

def runFallback (q : Quotas) (s : Fallback) : Call → Outcome × Fallback
  | .admitReq day id client provider model promptEst completionCap =>
      let r := admitFallback q (newReservation id client provider model promptEst completionCap)
        day s
      ((r.1.1.map some, r.1.2), r.2)
  | .settle day rsv prompt completion usageSource =>
      let r := settleFallback rsv prompt completion usageSource day s
      ((.ok none, r.1), r.2)

def step (q : Quotas) (p : Paths) (call : Call) : Paths :=
  ⟨(runScript q p.scripted call).2, (runFallback q p.fallback call).2⟩

/-- The same outcome, and the same counters after it. -/
def Agree (q : Quotas) (p : Paths) (call : Call) : Prop :=
  (runScript q p.scripted call).1 = (runFallback q p.fallback call).1 ∧
    ∀ k, (runScript q p.scripted call).2.counters k = (runFallback q p.fallback call).2.counters k

/-- The id of an admission is new to the process, and the numbers are those that a script holds
exactly. -/
def Legal (q : Quotas) (p : Paths) : Call → Prop
  | .admitReq day id client provider model promptEst completionCap =>
      let rsv := newReservation id client provider model promptEst completionCap
      let increments := (admitArgs q rsv day).increments
      id ∉ p.fallback.fallbackSettled ∧ p.fallback.fallbackOpen id = none ∧
        Exact rsv.reservedTotal ∧ Room p.scripted.counters increments ∧
        ∀ i ∈ increments, Exact (p.scripted.counters i.1 + i.2)
  | .settle day rsv prompt completion _ =>
      let delta := (prompt + completion) - rsv.reservedTotal
      Exact delta ∧ SettleRoom delta p.scripted.counters (settleArgs rsv delta day).tokenKeys

/-! ### The invariant -/

/-- A reservation is open on both ways or on neither. -/
structure Inv (p : Paths) : Prop where
  counters : p.scripted.counters = p.fallback.counters
  opened : ∀ id, p.fallback.fallbackOpen id ≠ none →
    p.scripted.records (rsvKey id) = some "open" ∧ id ∉ p.fallback.fallbackSettled
  closed : ∀ id, p.fallback.fallbackOpen id = none →
    p.scripted.records (rsvKey id) ≠ some "open"

theorem inv_start (c : Counters ℤ) : (start c).Inv :=
  ⟨rfl, fun _ h => absurd rfl h, fun _ _ => Option.some_ne_none _ ∘ Eq.symm⟩

section Steps

variable {q : Quotas} {p : Paths}

/-- Where no limit is negative both ways deny for the same limit, or both reserve. -/
theorem admit_cases (h : p.Inv) (hq : ∀ limit ∈ q.limits, 0 ≤ limit) (rsv : Reservation)
    (day : String) :
    (∃ scope used limit,
      admitScript q rsv day p.scripted = (exceeded rsv scope used limit, p.scripted) ∧
      admitFallback q rsv day p.fallback = (exceeded rsv scope used limit, p.fallback)) ∨
    (admitScript q rsv day p.scripted =
        ((.ok rsv, []), ⟨(admitArgs q rsv day).place p.fallback.counters,
          Function.update p.scripted.records (rsvKey rsv.id) (some "open")⟩) ∧
      admitFallback q rsv day p.fallback = ((.ok rsv, []), { p.fallback with
        counters := (admitArgs q rsv day).place p.fallback.counters
        fallbackOpen := Function.update p.fallback.fallbackOpen rsv.id (some rsv) })) := by
  have htokens : ∀ limit ∈ q.clientTokensPerDay, 0 ≤ limit := fun limit hlimit =>
    hq limit (List.reduceOption_mem_iff.mpr (hlimit ▸ List.mem_cons_self))
  have hrequests : ∀ limit ∈ q.clientRequestsPerDay, 0 ≤ limit := fun limit hlimit =>
    hq limit (List.reduceOption_mem_iff.mpr
      (List.mem_cons_of_mem _ (hlimit ▸ List.mem_cons_self)))
  have hprovider : ∀ limit ∈ q.providerTokensPerDay, 0 ≤ limit := fun limit hlimit =>
    hq limit (List.reduceOption_mem_iff.mpr
      (List.mem_cons_of_mem _ (List.mem_cons_of_mem _ (hlimit ▸ List.mem_cons_self))))
  rw [admitScript_eq, admitFallback_eq, h.counters]
  simp only [scriptBroken_iff htokens, scriptBroken_iff hrequests, scriptBroken_iff hprovider]
  split_ifs
  · exact .inl ⟨_, _, _, rfl, rfl⟩
  · exact .inl ⟨_, _, _, rfl, rfl⟩
  · exact .inl ⟨_, _, _, rfl, rfl⟩
  · exact .inr ⟨rfl, rfl⟩

theorem settle_counters (delta : ℤ) (keys : List String) (c : Counters ℤ) :
    keys.foldl (fun c key => Function.update c key (max 0 (c key + delta))) c =
      settleCounters delta keys c := by
  unfold settleCounters
  simp only [max_comm]

theorem settle_cases (h : p.Inv) (rsv : Reservation) (delta : ℤ) (day : String) :
    (settleLua (settleArgs rsv delta day) p.scripted = (0, p.scripted) ∧
      settleApplied rsv delta day p.fallback = (false, p.fallback)) ∨
    (settleLua (settleArgs rsv delta day) p.scripted =
        (1, ⟨settleCounters delta (settleArgs rsv delta day).tokenKeys p.fallback.counters,
          Function.update p.scripted.records (rsvKey rsv.id) (some "settled")⟩) ∧
      settleApplied rsv delta day p.fallback =
        (true, ⟨settleCounters delta (settleArgs rsv delta day).tokenKeys p.fallback.counters,
          Function.update p.fallback.fallbackOpen rsv.id none,
          insert rsv.id p.fallback.fallbackSettled⟩)) := by
  unfold settleLua settleApplied
  rw [settle_counters, settleLua_counters, h.counters]
  by_cases hopen : p.fallback.fallbackOpen rsv.id = none
  · have hrecord : p.scripted.records (settleArgs rsv delta day).reservationKey ≠ some "open" :=
      h.closed rsv.id hopen
    rw [if_pos hrecord, if_pos (.inr hopen)]
    exact .inl ⟨rfl, rfl⟩
  · obtain ⟨hrecord, hfresh⟩ := h.opened rsv.id hopen
    have hrecord' : ¬ p.scripted.records (settleArgs rsv delta day).reservationKey ≠
        some "open" := not_not.mpr hrecord
    rw [if_neg hrecord', if_neg (not_or.mpr ⟨hfresh, hopen⟩)]
    exact .inr ⟨rfl, rfl⟩

/-- Without negative limits every call agrees. -/
theorem agree_of_inv (h : p.Inv) (hq : ∀ limit ∈ q.limits, 0 ≤ limit) (call : Call) :
    Agree q p call := by
  cases call with
  | admitReq day id client provider model promptEst completionCap =>
      simp only [Agree, runScript, runFallback]
      rcases admit_cases h hq (newReservation id client provider model promptEst completionCap)
        day with ⟨scope, used, limit, hs, hf⟩ | ⟨hs, hf⟩
      · rw [hs, hf, h.counters]
        exact ⟨rfl, fun k => rfl⟩
      · rw [hs, hf]
        exact ⟨rfl, fun k => rfl⟩
  | settle day rsv prompt completion usageSource =>
      simp only [Agree, runScript, runFallback, settleScript, settleFallback]
      rcases settle_cases h rsv (prompt + completion - rsv.reservedTotal) day with
        ⟨hs, hf⟩ | ⟨hs, hf⟩
      · rw [hs, hf, h.counters]
        exact ⟨rfl, fun k => rfl⟩
      · rw [hs, hf]
        exact ⟨rfl, fun k => rfl⟩

theorem Inv.step (h : p.Inv) (hq : ∀ limit ∈ q.limits, 0 ≤ limit) {call : Call}
    (hl : Legal q p call) : (p.step q call).Inv := by
  cases call with
  | admitReq day id client provider model promptEst completionCap =>
      obtain ⟨hfresh, -⟩ := hl
      simp only [Paths.step, runScript, runFallback]
      rcases admit_cases h hq (newReservation id client provider model promptEst completionCap)
        day with ⟨scope, used, limit, hs, hf⟩ | ⟨hs, hf⟩
      · rw [hs, hf]
        exact ⟨h.counters, h.opened, h.closed⟩
      · rw [hs, hf]
        refine ⟨rfl, fun id' => ?_, fun id' => ?_⟩
        · by_cases hid : id' = id
          · subst hid
            exact fun _ => ⟨Function.update_self .., hfresh⟩
          · have hkey : rsvKey id' ≠ rsvKey id := fun hkey => hid (rsvKey_inj.mp hkey)
            simpa [newReservation, Function.update_of_ne hid, Function.update_of_ne hkey]
              using h.opened id'
        · by_cases hid : id' = id
          · subst hid
            simp [newReservation]
          · have hkey : rsvKey id' ≠ rsvKey id := fun hkey => hid (rsvKey_inj.mp hkey)
            simpa [newReservation, Function.update_of_ne hid, Function.update_of_ne hkey]
              using h.closed id'
  | settle day rsv prompt completion usageSource =>
      simp only [Paths.step, runScript, runFallback, settleScript, settleFallback]
      rcases settle_cases h rsv (prompt + completion - rsv.reservedTotal) day with
        ⟨hs, hf⟩ | ⟨hs, hf⟩
      · rw [hs, hf]
        exact ⟨h.counters, h.opened, h.closed⟩
      · rw [hs, hf]
        refine ⟨rfl, fun id' => ?_, fun id' => ?_⟩
        · by_cases hid : id' = rsv.id
          · subst hid
            simp
          · have hkey : rsvKey id' ≠ rsvKey rsv.id := fun hkey => hid (rsvKey_inj.mp hkey)
            simpa [Function.update_of_ne hid, Function.update_of_ne hkey, hid] using h.opened id'
        · by_cases hid : id' = rsv.id
          · subst hid
            simp
          · have hkey : rsvKey id' ≠ rsvKey rsv.id := fun hkey => hid (rsvKey_inj.mp hkey)
            simpa [Function.update_of_ne hid, Function.update_of_ne hkey] using h.closed id'

end Steps

/-! ### A negative limit -/

section Negative

/-- Counters at which a request for no tokens needs nothing. -/
def idle : Counters ℤ := fun k => if k = cReqKey "c" "20260906" then -1 else 0

/-- Such a request. -/
def idleCall : Call := .admitReq "20260906" "id" "c" "p" "m" 0 0

theorem legal_idle (q : Quotas) : Legal q (start idle) idleCall := by
  have hfree : Legal ⟨none, none, none⟩ (start idle) idleCall :=
    ⟨Finset.notMem_empty _, rfl, by decide, by decide, by decide⟩
  exact hfree

/-- For the script a negative limit is no limit, and without it everything is denied. -/
theorem not_agree_idle {q : Quotas} {limit : ℤ} (hmem : limit ∈ q.limits) (hneg : limit < 0) :
    ¬ Agree q (start idle) idleCall := by
  have hscript : ∀ value, ¬ ScriptBroken value 0 := fun value hb => by
    obtain ⟨hlow, hhigh⟩ := hb
    omega
  have hbroken : FallbackBroken q.clientTokensPerDay 0 ∨
      FallbackBroken q.clientRequestsPerDay 0 ∨ FallbackBroken q.providerTokensPerDay 0 := by
    have hlimit := List.reduceOption_mem_iff.mp hmem
    simp only [List.mem_cons, List.not_mem_nil, or_false] at hlimit
    rcases hlimit with h | h | h
    · exact .inl ⟨limit, h.symm, hneg⟩
    · exact .inr (.inl ⟨limit, h.symm, hneg⟩)
    · exact .inr (.inr ⟨limit, h.symm, hneg⟩)
  set rsv := newReservation "id" "c" "p" "m" 0 0 with hrsv
  have htokens : idle (cTokensKey rsv.client "20260906") + rsv.reservedTotal = 0 := by decide
  have hrequests : idle (cReqKey rsv.client "20260906") + 1 = 0 := by decide
  have hprovider : idle (pTokensKey rsv.provider "20260906") + rsv.reservedTotal = 0 := by decide
  have hok : (admitScript q rsv "20260906" (start idle).scripted).1.1 = .ok rsv := by
    rw [admitScript_eq]
    simp only [start, htokens, hrequests, hprovider, if_neg (hscript _)]
  have herror : (admitFallback q rsv "20260906" (start idle).fallback).1.1 ≠ .ok rsv := by
    rw [admitFallback_eq]
    simp only [start, htokens, hrequests, hprovider]
    split_ifs with h1 h2 h3
    · exact fun h => by cases h
    · exact fun h => by cases h
    · exact fun h => by cases h
    · exact absurd hbroken (by simp [h1, h2, h3])
  intro hagree
  have hsame : Except.map some (admitScript q rsv "20260906" (start idle).scripted).1.1 =
      Except.map some (admitFallback q rsv "20260906" (start idle).fallback).1.1 :=
    congrArg Prod.fst hagree.1
  rw [hok] at hsame
  cases hfallback : (admitFallback q rsv "20260906" (start idle).fallback).1.1 with
  | error exc =>
      rw [hfallback] at hsame
      cases hsame
  | ok rsv' =>
      rw [hfallback] at hsame herror
      exact herror (congrArg _ (Option.some.inj (Except.ok.inj hsame)).symm)

end Negative

/-- **The two ways give the same outcomes and counters in every run of a process exactly when no
limit is negative.** -/
theorem fallback_agrees_iff (q : Quotas) :
    (∀ (c : Counters ℤ) (calls : List Call), Runs.Along (step q) (Legal q) (start c) calls →
      Runs.Along (step q) (Agree q) (start c) calls) ↔ ∀ limit ∈ q.limits, 0 ≤ limit := by
  constructor
  · intro h limit hmem
    by_contra hneg
    have hone : Runs.Along (step q) (Agree q) (start idle) [idleCall] :=
      h idle [idleCall] ⟨legal_idle q, trivial⟩
    exact not_agree_idle hmem (not_le.mp hneg) hone.1
  · intro hq c calls hlegal
    exact Runs.Along.of_invariant
      (fun p call (hinv : p.Inv) hl => ⟨agree_of_inv hinv hq call, hinv.step hq hl⟩)
      (inv_start c) hlegal

/-- A limit of `-1`, which the configuration accepts, is no limit for the script only. -/
theorem fallback_differs : ¬ ∀ (q : Quotas) (c : Counters ℤ) (calls : List Call),
    Runs.Along (step q) (Legal q) (start c) calls →
      Runs.Along (step q) (Agree q) (start c) calls := by
  intro h
  have hlegal : Legal ⟨some (-1), none, none⟩ (start fun _ => 0) idleCall :=
    ⟨Finset.notMem_empty _, rfl, by decide, by decide, by decide⟩
  have hone := h ⟨some (-1), none, none⟩ (fun _ => 0) [idleCall] ⟨hlegal, trivial⟩
  exact absurd hone.1.1 (by decide)

end Paths

end FirewallLLM.Py.Metering
