import FirewallLLM.PyValue
import FirewallLLM.Router

/-! # The Python router

`PolicyEngine` of `policy.py` over `InMemoryRouterStore`, with the configuration of `Router`.
Integers are unbounded, an empty name counts as none, and an operation raises where Python
does: a severity that is not in the table, or an integer that is too large for `float`.

The store never fails, so that `_safe` has no part in it.  The clock stands still during a call.
A reading is its timestamp, and it is not before 1970; the day that `strftime` prints is given by
its number. -/

namespace FirewallLLM.Py

open Routing (Builtins Threshold RoutingRule RoutingConfig Call severities)
open Routing.Builtins (lt le add sub zero round fits seconds)

/-- `InMemoryRouterStore`. -/
structure InMemoryRouterStore (F : Type) where
  override : Option (String × F)
  blocked : String → Option F
  tokens : String × ℤ → ℤ

/-- `PolicyEngine`. -/
structure PolicyEngine (F : Type) where
  routing : RoutingConfig F
  store : InMemoryRouterStore F
  attackTimes : String → List F

/-- A name that is given and not empty. -/
def truthyName (name : Option String) : Option String := name.filter (· ≠ "")

namespace PolicyEngine

variable {F : Type} [Builtins F]

/-- `__init__`. -/
def new (routing : RoutingConfig F) : PolicyEngine F where
  routing
  store := ⟨none, fun _ => none, fun _ => 0⟩
  attackTimes := fun _ => []

/-- `validate_routing`. -/
def validateRouting (routing : RoutingConfig F) (knownProviders : List String) :
    Except String Unit :=
  match routing.defaultChain.find? (· ∉ knownProviders) with
  | some name => .error s!"routing.default_chain references unknown provider '{name}'"
  | none => match truthyName routing.attackFailover.switchTo with
      | some switchTo =>
          if switchTo ∉ knownProviders then
            .error s!"attack_failover.switch_to references unknown provider '{switchTo}'"
          else .ok ()
      | none => .ok ()

/-- `_day`, as the number of the day. -/
def day (now : F) : ℤ := seconds now / 86400

/-- `float(n)`. -/
def toFloat (n : ℤ) : Except Exn F :=
  if fits F n then .ok (round n) else .error (.other "OverflowError" "int too large to convert to float")

/-- `on_event` for `tokens_spent`. -/
def onTokensSpent (e : PolicyEngine F) (now : F) (provider : String) (amount : ℤ) :
    PolicyEngine F :=
  { e with
    store := { e.store with
      tokens := Function.update e.store.tokens (provider, day now)
        (e.store.tokens (provider, day now) + amount) } }

/-- The attacks of a client within the window, and this one. -/
def recentAttacks (e : PolicyEngine F) (now window : F) (client : String) : List F :=
  (e.attackTimes client).filter (fun ts => le (sub now window) ts) ++ [now]

/-- Block the source of an attack for a while. -/
def blockSource (e : PolicyEngine F) (now : F) (client : String) :
    PolicyEngine F × Option Exn :=
  if e.routing.attackFailover.blockSource && client ≠ "" then
    match toFloat e.routing.attackFailover.blockTtlSeconds with
    | .ok ttl =>
        ({ e with
          store := { e.store with
            blocked := Function.update e.store.blocked client (some (add now ttl)) } }, none)
    | .error exc => (e, some exc)
  else (e, none)

/-- Put the provider of the failover in front for a while. -/
def switchProvider (e : PolicyEngine F) (now : F) : PolicyEngine F × Option Exn :=
  match truthyName e.routing.attackFailover.switchTo with
  | some target =>
      match toFloat e.routing.attackFailover.cooldownSeconds with
      | .ok cooldown =>
          ({ e with store := { e.store with override := some (target, add now cooldown) } }, none)
      | .error exc => (e, some exc)
  | none => (e, none)

/-- `on_event` for `attack_detected`, with the exception that it raises. -/
def onAttackDetected (e : PolicyEngine F) (now : F) (severity client : String) :
    PolicyEngine F × Option Exn :=
  let af := e.routing.attackFailover
  if !af.enabled then (e, none)
  else match severities.lookup severity, severities.lookup af.minSeverity with
  | some rank, some minRank =>
      if rank < minRank then (e, none)
      else match toFloat af.windowSeconds with
      | .error exc => (e, some exc)
      | .ok window =>
          if (e.recentAttacks now window client).length < af.count then
            ({ e with
              attackTimes := Function.update e.attackTimes client
                (e.recentAttacks now window client) }, none)
          else match { e with
              attackTimes := Function.update e.attackTimes client [] }.blockSource now client with
          | (e, some exc) => (e, some exc)
          | (e, none) => e.switchProvider now
  | _, _ => (e, some (.other "KeyError" severity))

/-- `is_blocked`. -/
def isBlocked (e : PolicyEngine F) (now : F) (clientId : String) : Bool :=
  lt now ((e.store.blocked clientId).getD zero)

/-- `_chain_candidates`: the candidates, an override that has not expired first. -/
def chainCandidates (e : PolicyEngine F) (now : F) : List String :=
  match e.store.override with
  | some (provider, untilTs) =>
      if lt now untilTs then provider :: e.routing.chain.filter (· ≠ provider)
      else e.routing.chain
  | none => e.routing.chain

/-- What `_chain_candidates` leaves of the store. -/
def expireOverride (e : PolicyEngine F) (now : F) : PolicyEngine F :=
  match e.store.override with
  | some (_, untilTs) =>
      if lt now untilTs then e else { e with store := { e.store with override := none } }
  | none => e

/-- `_violates_rule`. -/
def violatesRule (e : PolicyEngine F) (now : F) (provider : String) (rule : RoutingRule F) :
    Except Exn Bool :=
  if (truthyName rule.when.provider).any (· ≠ provider) then pure false
  else match rule.when.providerTokensToday with
  | some threshold => do
      let value ← toFloat (e.store.tokens (provider, day now))
      pure (threshold.matches value)
  | none => pure true

/-- The rules that a provider violates. -/
def violating (e : PolicyEngine F) (now : F) (provider : String) :
    List (RoutingRule F) → Except Exn (List (RoutingRule F))
  | [] => pure []
  | rule :: rules => do
      let violates ← e.violatesRule now provider rule
      let rest ← e.violating now provider rules
      pure (if violates then rule :: rest else rest)

/-- The body of the loop over the candidates: a provider, or `continue`. -/
def turn (e : PolicyEngine F) (now : F) (candidate : String) : Except Exn (Option String) := do
  match ← e.violating now candidate e.routing.rules with
  | [] => pure (some candidate)
  | rule :: _ =>
      match truthyName rule.action.switchTo with
      | some switchTo =>
          if switchTo ∈ e.chainCandidates now then pure none else pure (some switchTo)
      -- the end of the loop body, with or without `next_in_chain`
      | none => pure none

/-- `resolve`. -/
def resolve (e : PolicyEngine F) (now : F) (requestedModel clientId : String) :
    Except Exn (String × String) × PolicyEngine F :=
  if e.isBlocked now clientId then
    (.error (.blocked "request source is temporarily blocked" "blocked_source"), e)
  else
    let candidates := e.chainCandidates now
    (match candidates.findSomeM? (e.turn now) with
      | .ok (some provider) => .ok (provider, e.routing.concrete requestedModel provider)
      | .ok none => .error (.quotaExceeded
          s!"all providers in chain {Builtins.repr F candidates} exceeded budget/rules")
      | .error exc => .error exc,
      e.expireOverride now)

/-- A call of the engine, with its clock reading. -/
def step (e : PolicyEngine F) : Call F ℤ → PolicyEngine F
  | .usage now provider totalTokens => e.onTokensSpent now provider totalTokens
  | .attack now severity client => (e.onAttackDetected now severity client).1
  | .resolve now requestedModel clientId => (e.resolve now requestedModel clientId).2

end PolicyEngine

/-- The engine that `create_app` starts with, or its `ConfigError`; the providers section is
given in the order of the file. -/
def createRouter {F : Type} [Builtins F] (routing : RoutingConfig F) (providers : List String) :
    Except String (PolicyEngine F) :=
  let routing := if routing.defaultChain = [] ∧ providers ≠ [] then
      { routing with defaultChain := providers }
    else routing
  match PolicyEngine.validateRouting routing providers with
  | .error msg => .error msg
  | .ok () => .ok (PolicyEngine.new routing)

end FirewallLLM.Py
