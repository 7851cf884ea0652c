import FirewallLLM.PyRouterStore

/-! # The engine over any store

`PolicyEngine` of `policy.py` with its store as a parameter (`RouterStateStore`), and the two
stores.  No operation of a store fails, so that `_safe` has no part in it.  The clock reading of a
call is also the time at which Redis executes its commands (`RedisClock`).

`memory_step`: over `InMemoryRouterStore` this is the engine of `PyRouter`. -/

namespace FirewallLLM.Py

open Dlp (Text)
open RedisMap (Server)
open Routing (Builtins RoutingRule RoutingConfig Call severities)
open Routing.Builtins (lt le add sub zero round seconds)

/-- `RouterStateStore`; the operations that depend on the time get the clock reading. -/
structure RouterStateStore (S F : Type) where
  getOverride : S → F → Option (String × F)
  setOverride : S → String → F → S
  clearOverride : S → S
  blockSource : S → String → F → S
  isBlocked : S → F → String → Bool × S
  incrTokens : S → F → String → ℤ → S
  getTokens : S → F → String → ℤ

/-! ### The two stores -/

section Stores

variable {F : Type} [Builtins F]

/-- The operations of `InMemoryRouterStore`. -/
def memory : RouterStateStore (InMemoryRouterStore F) F where
  getOverride s _ := s.override
  setOverride s provider untilTs := { s with override := some (provider, untilTs) }
  clearOverride s := { s with override := none }
  blockSource s client untilTs :=
    { s with blocked := Function.update s.blocked client (some untilTs) }
  isBlocked s now client := (lt now ((s.blocked client).getD zero), s)
  incrTokens s now provider amount :=
    { s with
      tokens := Function.update s.tokens (provider, PolicyEngine.day now)
        (s.tokens (provider, PolicyEngine.day now) + amount) }
  getTokens s now provider := s.tokens (provider, PolicyEngine.day now)

/-- The time of a clock reading in milliseconds. -/
structure RedisClock (F : Type) [Builtins F] where
  millis : F → ℤ
  seconds_eq : ∀ x, seconds x = millis x / 1000

/-- `_day` -/
def dayOf (now : F) : String := Quota.dayString (seconds now)

/-- The operations of `RedisRouterStore`. -/
def redis (codec : FloatCodec F) (clock : RedisClock F) : RouterStateStore Server F where
  getOverride r now := RedisRouterStore.getOverride codec r (clock.millis now)
  setOverride r provider untilTs := RedisRouterStore.setOverride codec r provider untilTs
  clearOverride r := RedisRouterStore.clearOverride r
  blockSource r client untilTs := RedisRouterStore.blockSource codec r client untilTs
  isBlocked r now client := RedisRouterStore.isBlocked codec r (clock.millis now) client now
  incrTokens r now provider amount :=
    RedisRouterStore.incrTokens r (clock.millis now) provider (dayOf now) amount
  getTokens r now provider := RedisRouterStore.getTokens r (clock.millis now) provider (dayOf now)

end Stores

/-! ### The engine -/

/-- `PolicyEngine` with a store. -/
structure StoreEngine (S F : Type) where
  routing : RoutingConfig F
  store : S
  attackTimes : String → List F

/-- What a call returns or raises. -/
inductive Outcome where
  /-- Of `on_event`. -/
  | event (raised : Option Exn)
  | resolved (result : Except Exn (String × String))

namespace StoreEngine

variable {S F : Type} [Builtins F] (ops : RouterStateStore S F)

/-- `on_event` for `tokens_spent`. -/
def onTokensSpent (e : StoreEngine S F) (now : F) (provider : String) (amount : ℤ) :
    StoreEngine S F :=
  { e with store := ops.incrTokens e.store now provider amount }

/-- The attacks of a client within the window, and this one. -/
def recentAttacks (e : StoreEngine S F) (now window : F) (client : String) : List F :=
  (e.attackTimes client).filter (fun ts => le (sub now window) ts) ++ [now]

/-- Block the source of an attack for a while. -/
def blockSource (e : StoreEngine S F) (now : F) (client : String) : StoreEngine S F × Option Exn :=
  if e.routing.attackFailover.blockSource && client ≠ "" then
    match PolicyEngine.toFloat e.routing.attackFailover.blockTtlSeconds with
    | .ok ttl => ({ e with store := ops.blockSource e.store client (add now ttl) }, none)
    | .error exc => (e, some exc)
  else (e, none)

/-- Put the provider of the failover in front for a while. -/
def switchProvider (e : StoreEngine S F) (now : F) : StoreEngine S F × Option Exn :=
  match truthyName e.routing.attackFailover.switchTo with
  | some target =>
      match PolicyEngine.toFloat e.routing.attackFailover.cooldownSeconds with
      | .ok cooldown => ({ e with store := ops.setOverride e.store target (add now cooldown) }, none)
      | .error exc => (e, some exc)
  | none => (e, none)

/-- `on_event` for `attack_detected`, with the exception that it raises. -/
def onAttackDetected (e : StoreEngine S F) (now : F) (severity client : String) :
    StoreEngine S F × Option Exn :=
  let af := e.routing.attackFailover
  if !af.enabled then (e, none)
  else match severities.lookup severity, severities.lookup af.minSeverity with
  | some rank, some minRank =>
      if rank < minRank then (e, none)
      else match PolicyEngine.toFloat af.windowSeconds with
      | .error exc => (e, some exc)
      | .ok window =>
          if (e.recentAttacks now window client).length < af.count then
            ({ e with
              attackTimes := Function.update e.attackTimes client
                (e.recentAttacks now window client) }, none)
          else match blockSource ops { e with
              attackTimes := Function.update e.attackTimes client [] } now client with
          | (e, some exc) => (e, some exc)
          | (e, none) => e.switchProvider ops now
  | _, _ => (e, some (.other "KeyError" severity))

/-- `_chain_candidates`: an override that has not expired comes first, one that has is cleared. -/
def chainCandidates (e : StoreEngine S F) (now : F) : List String × StoreEngine S F :=
  match ops.getOverride e.store now with
  | some (provider, untilTs) =>
      if lt now untilTs then (provider :: e.routing.chain.filter (· ≠ provider), e)
      else (e.routing.chain, { e with store := ops.clearOverride e.store })
  | none => (e.routing.chain, e)

/-- `_violates_rule`. -/
def violatesRule (e : StoreEngine S F) (now : F) (provider : String) (rule : RoutingRule F) :
    Except Exn Bool :=
  if (truthyName rule.when.provider).any (· ≠ provider) then pure false
  else match rule.when.providerTokensToday with
  | some threshold => do
      let value ← PolicyEngine.toFloat (ops.getTokens e.store now provider)
      pure (threshold.matches value)
  | none => pure true

/-- The rules that a provider violates. -/
def violating (e : StoreEngine S F) (now : F) (provider : String) :
    List (RoutingRule F) → Except Exn (List (RoutingRule F))
  | [] => pure []
  | rule :: rules => do
      let violates ← e.violatesRule ops now provider rule
      let rest ← e.violating now provider rules
      pure (if violates then rule :: rest else rest)

/-- The body of the loop over the candidates: a provider, or `continue`. -/
def turn (e : StoreEngine S F) (now : F) (candidates : List String) (candidate : String) :
    Except Exn (Option String) := do
  match ← e.violating ops now candidate e.routing.rules with
  | [] => pure (some candidate)
  | rule :: _ =>
      match truthyName rule.action.switchTo with
      | some switchTo => if switchTo ∈ candidates then pure none else pure (some switchTo)
      -- the end of the loop body, with or without `next_in_chain`
      | none => pure none

/-- The loop over the candidates. -/
def loop (e : StoreEngine S F) (now : F) (requestedModel : String) (candidates : List String) :
    Except Exn (String × String) :=
  match candidates.findSomeM? (e.turn ops now candidates) with
  | .ok (some provider) => .ok (provider, e.routing.concrete requestedModel provider)
  | .ok none => .error (.quotaExceeded
      s!"all providers in chain {Builtins.repr F candidates} exceeded budget/rules")
  | .error exc => .error exc

/-- `resolve`. -/
def resolve (e : StoreEngine S F) (now : F) (requestedModel clientId : String) :
    Except Exn (String × String) × StoreEngine S F :=
  let (blocked, store) := ops.isBlocked e.store now clientId
  if blocked then
    (.error (.blocked "request source is temporarily blocked" "blocked_source"),
      { e with store := store })
  else
    let (candidates, e) := StoreEngine.chainCandidates ops { e with store := store } now
    (e.loop ops now requestedModel candidates, e)

/-- A call of the engine, with its clock reading. -/
def step (e : StoreEngine S F) : Call F ℤ → Outcome × StoreEngine S F
  | .usage now provider totalTokens => (.event none, e.onTokensSpent ops now provider totalTokens)
  | .attack now severity client =>
      let (e, raised) := e.onAttackDetected ops now severity client
      (.event raised, e)
  | .resolve now requestedModel clientId =>
      let (result, e) := e.resolve ops now requestedModel clientId
      (.resolved result, e)

/-- What the calls of a run return or raise. -/
def outcomes (e : StoreEngine S F) : List (Call F ℤ) → List Outcome
  | [] => []
  | call :: calls => (e.step ops call).1 :: outcomes (e.step ops call).2 calls

end StoreEngine

/-! ### Over the store in memory -/

section Memory

variable {F : Type} [Builtins F]

/-- The engine of `PyRouter` as one with a store. -/
def PolicyEngine.overMemory (e : PolicyEngine F) : StoreEngine (InMemoryRouterStore F) F :=
  ⟨e.routing, e.store, e.attackTimes⟩

namespace PolicyEngine

variable (e : PolicyEngine F) (now : F)

theorem overMemory_blockSource (client : String) :
    e.overMemory.blockSource memory now client =
      ((e.blockSource now client).1.overMemory, (e.blockSource now client).2) := by
  unfold StoreEngine.blockSource blockSource overMemory
  dsimp only
  split_ifs
  · cases (toFloat e.routing.attackFailover.blockTtlSeconds : Except Exn F) <;> rfl
  · rfl

theorem overMemory_switchProvider :
    e.overMemory.switchProvider memory now =
      ((e.switchProvider now).1.overMemory, (e.switchProvider now).2) := by
  unfold StoreEngine.switchProvider switchProvider overMemory
  dsimp only
  cases truthyName e.routing.attackFailover.switchTo with
  | none => rfl
  | some target =>
      dsimp only
      cases (toFloat e.routing.attackFailover.cooldownSeconds : Except Exn F) <;> rfl

theorem overMemory_onAttackDetected (severity client : String) :
    e.overMemory.onAttackDetected memory now severity client =
      ((e.onAttackDetected now severity client).1.overMemory,
        (e.onAttackDetected now severity client).2) := by
  have hrouting : e.overMemory.routing = e.routing := rfl
  have hrecent : ∀ window, e.overMemory.recentAttacks now window client =
      e.recentAttacks now window client := fun _ => rfl
  unfold StoreEngine.onAttackDetected onAttackDetected
  rw [hrouting]
  dsimp only
  split_ifs with henabled
  · rfl
  · cases severities.lookup severity with
    | none => rfl
    | some rank =>
        cases severities.lookup e.routing.attackFailover.minSeverity with
        | none => rfl
        | some minRank =>
            dsimp only
            split_ifs with hrank
            · rfl
            · cases (toFloat e.routing.attackFailover.windowSeconds : Except Exn F) with
              | error exc => rfl
              | ok window =>
                  dsimp only
                  rw [hrecent]
                  split_ifs with hcount
                  · rfl
                  · have hblock := overMemory_blockSource
                      { e with attackTimes := Function.update e.attackTimes client [] } now client
                    dsimp only [overMemory] at hblock ⊢
                    rw [hblock]
                    cases blockSource
                        { e with attackTimes := Function.update e.attackTimes client [] } now
                        client with
                    | mk e' raised =>
                        cases raised with
                        | some exc => rfl
                        | none => exact overMemory_switchProvider e' now

theorem overMemory_chainCandidates :
    e.overMemory.chainCandidates memory now =
      (e.chainCandidates now, (e.expireOverride now).overMemory) := by
  unfold StoreEngine.chainCandidates chainCandidates expireOverride
  dsimp only [overMemory, memory]
  cases e.store.override with
  | none => rfl
  | some pair =>
      dsimp only
      split_ifs <;> rfl

theorem overMemory_violating (provider : String) (rules : List (RoutingRule F)) :
    e.overMemory.violating memory now provider rules = e.violating now provider rules := by
  induction rules with
  | nil => rfl
  | cons rule rules ih =>
      rw [StoreEngine.violating, violating, ih]
      rfl

theorem expireOverride_routing : (e.expireOverride now).routing = e.routing := by
  unfold expireOverride
  split
  · split_ifs <;> rfl
  · rfl

theorem expireOverride_tokens : (e.expireOverride now).store.tokens = e.store.tokens := by
  unfold expireOverride
  split
  · split_ifs <;> rfl
  · rfl

theorem expireOverride_violating (provider : String) (rules : List (RoutingRule F)) :
    (e.expireOverride now).violating now provider rules = e.violating now provider rules := by
  induction rules with
  | nil => rfl
  | cons rule rules ih =>
      rw [violating, violating, ih]
      unfold violatesRule
      rw [expireOverride_tokens]

/-- The loop does not depend on whether an expired override is still there. -/
theorem overMemory_turn (candidate : String) :
    (e.expireOverride now).overMemory.turn memory now (e.chainCandidates now) candidate =
      e.turn now candidate := by
  have hrules : (e.expireOverride now).overMemory.routing.rules = e.routing.rules :=
    congrArg RoutingConfig.rules (expireOverride_routing e now)
  unfold StoreEngine.turn turn
  rewrite [overMemory_violating, expireOverride_violating, hrules]
  cases e.violating now candidate e.routing.rules with
  | error exc => rfl
  | ok rules => cases rules <;> rfl

theorem overMemory_resolve (requestedModel clientId : String) :
    e.overMemory.resolve memory now requestedModel clientId =
      ((e.resolve now requestedModel clientId).1,
        (e.resolve now requestedModel clientId).2.overMemory) := by
  have hblocked : memory.isBlocked e.overMemory.store now clientId =
      (e.isBlocked now clientId, e.store) := rfl
  have hstate : (⟨e.overMemory.routing, e.store, e.overMemory.attackTimes⟩ :
      StoreEngine (InMemoryRouterStore F) F) = e.overMemory := rfl
  have hrouting : (e.expireOverride now).overMemory.routing = e.routing :=
    expireOverride_routing e now
  unfold StoreEngine.resolve resolve
  rw [hblocked]
  dsimp only
  by_cases h : e.isBlocked now clientId = true
  · rw [if_pos h, if_pos h]
    rfl
  · rw [if_neg h, if_neg h]
    rw [hstate, overMemory_chainCandidates]
    dsimp only
    unfold StoreEngine.loop
    rewrite [funext (overMemory_turn e now), hrouting]
    cases (e.chainCandidates now).findSomeM? (e.turn now) with
    | error exc => rfl
    | ok provider => cases provider <;> rfl

/-- What a call returns or raises. -/
def outcome (e : PolicyEngine F) : Call F ℤ → Outcome
  | .usage _ _ _ => .event none
  | .attack now severity client => .event (e.onAttackDetected now severity client).2
  | .resolve now requestedModel clientId =>
      .resolved (e.resolve now requestedModel clientId).1

/-- **The engine over the store in memory is the engine of `PyRouter`.** -/
theorem memory_step (call : Call F ℤ) :
    e.overMemory.step memory call = (e.outcome call, (e.step call).overMemory) := by
  cases call with
  | usage now provider totalTokens => rfl
  | attack now severity client =>
      rw [StoreEngine.step, overMemory_onAttackDetected]
      rfl
  | resolve now requestedModel clientId =>
      rw [StoreEngine.step, overMemory_resolve]
      rfl

end PolicyEngine

end Memory

end FirewallLLM.Py
