import FirewallLLM.ChatCompletions
import Mathlib.Data.List.Destutter
import Mathlib.Data.List.Sort

/-! # The router

`PolicyEngine` of `router.rs`: the provider of a request is the first candidate of the chain
that violates no rule, unless the first violated rule of an earlier candidate switches to
another provider.  Usage is counted per provider and day, and attacks block their source and
put another provider in front of the chain for a while.

Times and counters are compared as 64-bit floats, which are a parameter.  The clock readings
come with the calls.

`within_budget_iff`: the provider that answers violates no rule, and none answers when all are
exhausted, exactly when a switch leads to a provider that violates no rule. -/

namespace FirewallLLM.Routing

open Chat (RoutingError)

/-! ### Configuration -/

/-- What the two languages compute with 64-bit floats, and how they print a list of names.
`round` is the conversion of an integer, `fits` says whether Python converts it at all, and
`seconds` cuts the fraction off. -/
class Builtins (F : Type) where
  lt : F → F → Bool
  le : F → F → Bool
  add : F → F → F
  sub : F → F → F
  zero : F
  round : ℤ → F
  fits : ℤ → Bool
  seconds : F → ℤ
  debug : List String → String
  repr : List String → String
  fits_of_natAbs_le : ∀ n : ℤ, n.natAbs ≤ 2 ^ 64 → fits n = true

open Builtins (lt le add sub zero round seconds debug)

/-- Floats without NaN are ordered. -/
class Ordered (F : Type) [Builtins F] : Prop where
  le_refl : ∀ a : F, le a a = true
  le_trans : ∀ a b c : F, le a b = true → le b c = true → le a c = true
  lt_eq : ∀ a b : F, lt a b = !le b a

/-- `Threshold`. -/
structure Threshold (F : Type) where
  gt : Option F
  gte : Option F
  lt : Option F
  lte : Option F

/-- `Threshold::matches`. -/
def Threshold.matches {F : Type} [Builtins F] (t : Threshold F) (value : F) : Bool :=
  t.gt.all (fun x => Builtins.lt x value) && t.gte.all (fun x => Builtins.le x value) &&
    t.lt.all (fun x => Builtins.lt value x) && t.lte.all (fun x => Builtins.le value x)

/-- `RuleCondition`. -/
structure RuleCondition (F : Type) where
  provider : Option String
  providerTokensToday : Option (Threshold F)

/-- `RuleAction`. -/
structure RuleAction where
  nextInChain : Bool
  switchTo : Option String

/-- `RoutingRule`; its name is not read. -/
structure RoutingRule (F : Type) where
  when : RuleCondition F
  action : RuleAction

/-- `AttackFailoverConfig`. -/
structure AttackFailoverConfig where
  enabled : Bool
  count : ℤ
  windowSeconds : ℤ
  minSeverity : String
  switchTo : Option String
  blockSource : Bool
  blockTtlSeconds : ℤ
  cooldownSeconds : ℤ

/-- `RoutingConfig`. -/
structure RoutingConfig (F : Type) where
  defaultChain : List String
  modelMapping : List (String × List (String × String))
  rules : List (RoutingRule F)
  attackFailover : AttackFailoverConfig
  stateStore : String

/-- `SEVERITY`. -/
def severities : List (String × ℕ) := [("low", 0), ("medium", 1), ("high", 2), ("critical", 3)]

/-- `severity_rank`. -/
def severityRank (name : String) : ℕ := (severities.lookup name).getD 0

/-! ### The engine -/

/-- `PolicyEngine`. -/
structure PolicyEngine (F : Type) where
  routing : RoutingConfig F
  overrideProvider : Option String
  overrideUntil : F
  blockedSources : String → Option F
  attackTimes : String → List F
  providerTokens : String × String → Int64

variable {F : Type} [Builtins F]

/-- The chain to try: `default_chain`, or one provider called `default`. -/
def RoutingConfig.chain (routing : RoutingConfig F) : List String :=
  if routing.defaultChain = [] then ["default"] else routing.defaultChain

/-- The name of the requested model at a provider. -/
def RoutingConfig.concrete (routing : RoutingConfig F) (requestedModel provider : String) :
    String :=
  ((routing.modelMapping.lookup requestedModel).bind (·.lookup provider)).getD requestedModel

namespace PolicyEngine

/-- `new`. -/
def new (routing : RoutingConfig F) : PolicyEngine F where
  routing
  overrideProvider := none
  overrideUntil := zero
  blockedSources := fun _ => none
  attackTimes := fun _ => []
  providerTokens := fun _ => 0

/-- `validate_routing`. -/
def validateRouting (routing : RoutingConfig F) (knownProviders : List String) :
    Except String Unit :=
  match routing.defaultChain.find? (· ∉ knownProviders) with
  | some name => .error s!"routing.default_chain references unknown provider '{name}'"
  | none => match routing.attackFailover.switchTo with
      | some switchTo =>
          if switchTo ∉ knownProviders then
            .error s!"attack_failover.switch_to references unknown provider '{switchTo}'"
          else .ok ()
      | none => .ok ()

/-- The day of a clock reading. -/
def day (now : F) : String := Quota.dayString (seconds now)

/-- `record_tokens`. -/
def recordTokens (e : PolicyEngine F) (provider : String) (totalTokens : Int64) (day : String) :
    PolicyEngine F :=
  { e with
    providerTokens := Function.update e.providerTokens (provider, day)
      (e.providerTokens (provider, day) + totalTokens) }

/-- `record_tokens_today`. -/
def recordTokensToday (e : PolicyEngine F) (now : F) (provider : String) (totalTokens : Int64) :
    PolicyEngine F :=
  e.recordTokens provider totalTokens (day now)

/-- The attacks of a client within the window, and this one. -/
def recentAttacks (e : PolicyEngine F) (now : F) (client : String) : List F :=
  (e.attackTimes client).filter
    (fun ts => le (sub now (round e.routing.attackFailover.windowSeconds)) ts) ++ [now]

/-- Block the source of an attack for a while. -/
def blockSource (e : PolicyEngine F) (now : F) (client : String) : PolicyEngine F :=
  if e.routing.attackFailover.blockSource && client ≠ "" then
    { e with
      blockedSources := Function.update e.blockedSources client
        (some (add now (round e.routing.attackFailover.blockTtlSeconds))) }
  else e

/-- Put the provider of the failover in front for a while. -/
def switchProvider (e : PolicyEngine F) (now : F) : PolicyEngine F :=
  match e.routing.attackFailover.switchTo with
  | some target =>
      { e with
        overrideProvider := some target
        overrideUntil := add now (round e.routing.attackFailover.cooldownSeconds) }
  | none => e

/-- `on_attack_detected`. -/
def onAttackDetected (e : PolicyEngine F) (now : F) (severity client : String) :
    PolicyEngine F :=
  let af := e.routing.attackFailover
  if !af.enabled || severityRank severity < severityRank af.minSeverity then e
  else if (e.recentAttacks now client).length < af.count then
    { e with attackTimes := Function.update e.attackTimes client (e.recentAttacks now client) }
  else ({ e with attackTimes := Function.update e.attackTimes client [] }.blockSource now
    client).switchProvider now

/-- `provider_tokens_today`. -/
def providerTokensToday (e : PolicyEngine F) (provider day : String) : F :=
  round (e.providerTokens (provider, day)).toInt

/-- `violates_rule`. -/
def violatesRule (e : PolicyEngine F) (provider : String) (rule : RoutingRule F) (day : String) :
    Bool :=
  rule.when.provider.all (· = provider) &&
    rule.when.providerTokensToday.all (·.matches (e.providerTokensToday provider day))

/-- The rules that a provider violates. -/
def violating (e : PolicyEngine F) (day provider : String) : List (RoutingRule F) :=
  e.routing.rules.filter (fun rule => e.violatesRule provider rule day)

/-- The source of a request is blocked. -/
def isBlocked (e : PolicyEngine F) (now : F) (clientId : String) : Bool :=
  lt now ((e.blockedSources clientId).getD zero)

/-- The candidates, an override that has not expired first. -/
def candidates (e : PolicyEngine F) (now : F) : List String :=
  match e.overrideProvider with
  | some provider =>
      if lt now e.overrideUntil then (provider :: e.routing.chain).destutter (· ≠ ·)
      else e.routing.chain
  | none => e.routing.chain

/-- An override whose cooldown has expired is forgotten. -/
def expireOverride (e : PolicyEngine F) (now : F) : PolicyEngine F :=
  if lt now e.overrideUntil then e else { e with overrideProvider := none }

/-- The loop over the candidates. -/
def pick (e : PolicyEngine F) (day : String) : List String → Option String
  | [] => none
  | candidate :: rest =>
      match e.violating day candidate with
      | [] => some candidate
      | rule :: _ =>
          match rule.action.switchTo with
          | some switchTo => some switchTo
          -- the end of the loop body, with or without `next_in_chain`
          | none => if rule.action.nextInChain then e.pick day rest else e.pick day rest

/-- `resolve`. -/
def resolve (e : PolicyEngine F) (now : F) (requestedModel clientId : String) :
    Except RoutingError (String × String) × PolicyEngine F :=
  if e.isBlocked now clientId then
    (.error (.blocked "request source is temporarily blocked"), e)
  else
    match e.pick (day now) (e.candidates now) with
    | some provider => (.ok (provider, e.routing.concrete requestedModel provider),
        e.expireOverride now)
    | none => (.error (.budgetExhausted
        s!"all providers in chain {debug F (e.candidates now)} exceeded budget/rules"),
        e.expireOverride now)

end PolicyEngine

/-- The names of the providers section in the order of the map. -/
def sortedNames (providers : List String) : List String := providers.insertionSort (· ≤ ·)

/-- An empty chain is filled with all providers. -/
def RoutingConfig.fill (routing : RoutingConfig F) (names : List String) : RoutingConfig F :=
  if routing.defaultChain = [] then { routing with defaultChain := names } else routing

/-- The engine that `AppState::build` starts with, or its panic; the providers section is given
in the order of the file. -/
def AppState.buildRouter (routing : RoutingConfig F) (providers : List String) :
    Except String (PolicyEngine F) :=
  let known := sortedNames providers
  let routing := routing.fill known
  if routing.stateStore = "redis" then
    .error ("routing.state_store = 'redis' is not supported by the Rust gateway: " ++
      "use 'memory' (single process) or the Python gateway for shared routing state")
  else match PolicyEngine.validateRouting routing known with
  | .error msg => .error msg
  | .ok () => .ok (PolicyEngine.new routing)

/-- A call of the engine, with its clock reading; `N` are the integers of the language. -/
inductive Call (F N : Type) where
  | usage (now : F) (provider : String) (totalTokens : N)
  | attack (now : F) (severity client : String)
  | resolve (now : F) (requestedModel clientId : String)

def PolicyEngine.step (e : PolicyEngine F) : Call F Int64 → PolicyEngine F
  | .usage now provider totalTokens => e.recordTokensToday now provider totalTokens
  | .attack now severity client => e.onAttackDetected now severity client
  | .resolve now requestedModel clientId => (e.resolve now requestedModel clientId).2

/-! ### The loop -/

namespace PolicyEngine

variable {e : PolicyEngine F} {now : F} {d : String}

/-- A provider violates a rule. -/
def Exhausted (e : PolicyEngine F) (day provider : String) : Prop :=
  ∃ rule ∈ e.routing.rules, e.violatesRule provider rule day = true

/-- The first rule that a candidate violates has no `switch_to`. -/
def PassedOver (e : PolicyEngine F) (day candidate : String) : Prop :=
  ∃ rule rest, e.violating day candidate = rule :: rest ∧ rule.action.switchTo = none

/-- The first rule that a candidate violates switches to another provider. -/
def Diverts (e : PolicyEngine F) (day candidate provider : String) : Prop :=
  ∃ rule rest, e.violating day candidate = rule :: rest ∧ rule.action.switchTo = some provider

/-- The loop takes a switch: the first candidate that is not passed over is diverted. -/
def SwitchesTo (e : PolicyEngine F) (now : F) (provider : String) : Prop :=
  ∃ passed candidate rest, e.candidates now = passed ++ candidate :: rest ∧
    (∀ c ∈ passed, e.PassedOver (day now) c) ∧ e.Diverts (day now) candidate provider

/-- The providers that a request can be led to: the candidates and the switches. -/
def reachable (e : PolicyEngine F) (now : F) : List String :=
  e.candidates now ++ e.routing.rules.filterMap (·.action.switchTo)

theorem violating_eq_nil_iff {p : String} : e.violating d p = [] ↔ ¬ e.Exhausted d p := by
  unfold violating Exhausted
  simp only [List.filter_eq_nil_iff, not_exists, not_and]

theorem mem_rules_of_violating {p : String} {rule : RoutingRule F} {rest : List (RoutingRule F)}
    (h : e.violating d p = rule :: rest) : rule ∈ e.routing.rules :=
  (List.mem_filter.mp (h ▸ List.mem_cons_self : rule ∈ e.violating d p)).1

theorem Diverts.mem_reachable {c p : String} (h : e.Diverts d c p) (now : F) :
    p ∈ e.reachable now := by
  obtain ⟨rule, rest, hviol, hswitch⟩ := h
  refine List.mem_append_right _ (List.mem_filterMap.mpr ⟨rule, mem_rules_of_violating hviol, ?_⟩)
  exact hswitch

/-- What the loop does with one candidate. -/
def turn (e : PolicyEngine F) (day candidate : String) : Option String :=
  match e.violating day candidate with
  | [] => some candidate
  | rule :: _ => rule.action.switchTo

theorem turn_eq_none_iff {c : String} : e.turn d c = none ↔ e.PassedOver d c := by
  unfold turn PassedOver
  cases hviol : e.violating d c with
  | nil => simp
  | cons rule rest => simp

theorem turn_eq_some_iff {c p : String} :
    e.turn d c = some p ↔ (¬ e.Exhausted d c ∧ c = p) ∨ e.Diverts d c p := by
  rw [← violating_eq_nil_iff]
  unfold turn Diverts
  cases hviol : e.violating d c with
  | nil => simp
  | cons rule rest => simp

theorem pick_eq_findSome? (e : PolicyEngine F) (d : String) (candidates : List String) :
    e.pick d candidates = candidates.findSome? (e.turn d) := by
  induction candidates with
  | nil => rfl
  | cons candidate rest ih =>
      rw [pick, List.findSome?_cons, turn]
      cases e.violating d candidate with
      | nil => rfl
      | cons rule rules =>
          cases hswitch : rule.action.switchTo with
          | none => simpa only [hswitch, ite_self] using ih
          | some switchTo => simp only [hswitch]

/-- How the loop finds a provider: as a candidate, or by a switch. -/
theorem pick_eq_some_iff {p : String} :
    e.pick (day now) (e.candidates now) = some p ↔
      (∃ passed rest, e.candidates now = passed ++ p :: rest ∧
        (∀ c ∈ passed, e.PassedOver (day now) c) ∧ ¬ e.Exhausted (day now) p) ∨
      e.SwitchesTo now p := by
  rw [pick_eq_findSome?, List.findSome?_eq_some_iff]
  simp only [turn_eq_none_iff, turn_eq_some_iff]
  constructor
  · rintro ⟨passed, c, rest, hc, ⟨hfree, rfl⟩ | hdiv, hpassed⟩
    · exact .inl ⟨passed, rest, hc, hpassed, hfree⟩
    · exact .inr ⟨passed, c, rest, hc, hpassed, hdiv⟩
  · rintro (⟨passed, rest, hc, hpassed, hfree⟩ | ⟨passed, c, rest, hc, hpassed, hdiv⟩)
    · exact ⟨passed, p, rest, hc, .inl ⟨hfree, rfl⟩, hpassed⟩
    · exact ⟨passed, c, rest, hc, .inr hdiv, hpassed⟩

theorem resolve_of_blocked {client : String} (h : e.isBlocked now client = true)
    (model : String) : (e.resolve now model client).1 =
      .error (.blocked "request source is temporarily blocked") := by
  rw [resolve, if_pos h]

/-- A request of a client that is not blocked is answered by the provider that the loop finds. -/
theorem resolve_eq_ok_iff {client model p m : String} (h : ¬ e.isBlocked now client = true) :
    (e.resolve now model client).1 = .ok (p, m) ↔
      e.pick (day now) (e.candidates now) = some p ∧ e.routing.concrete model p = m := by
  rw [resolve, if_neg h]
  cases e.pick (day now) (e.candidates now) with
  | none => simp
  | some provider =>
      simp only [Except.ok.injEq, Prod.mk.injEq, Option.some.injEq]
      constructor
      · rintro ⟨rfl, rfl⟩
        exact ⟨rfl, rfl⟩
      · rintro ⟨rfl, rfl⟩
        exact ⟨rfl, rfl⟩

theorem resolve_exhausted_iff {client : String} (h : ¬ e.isBlocked now client = true)
    (model : String) : (∃ msg, (e.resolve now model client).1 = .error (.budgetExhausted msg)) ↔
      e.pick (day now) (e.candidates now) = none := by
  rw [resolve, if_neg h]
  cases e.pick (day now) (e.candidates now) with
  | none => simp
  | some provider => simp

/-- **The provider that answers violates no rule, and none answers when every reachable one
violates a rule, exactly when the switch that the loop takes leads to a provider that violates
no rule; a blocked source is refused before its budget is looked at.** -/
theorem within_budget_iff (e : PolicyEngine F) (now : F) (model client : String) :
    ((∀ p m, (e.resolve now model client).1 = .ok (p, m) → ¬ e.Exhausted (day now) p) ∧
      ((∀ p ∈ e.reachable now, e.Exhausted (day now) p) →
        ∃ msg, (e.resolve now model client).1 = .error (.budgetExhausted msg))) ↔
    if e.isBlocked now client then ∃ p ∈ e.reachable now, ¬ e.Exhausted (day now) p
    else ∀ p, e.SwitchesTo now p → ¬ e.Exhausted (day now) p := by
  split_ifs with hblocked
  · simp only [resolve_of_blocked hblocked, reduceCtorEq, Except.error.injEq, false_imp_iff,
      implies_true, exists_const, true_and, imp_false, not_forall, exists_prop]
  · simp only [resolve_eq_ok_iff hblocked, resolve_exhausted_iff hblocked]
    constructor
    · rintro ⟨hserved, -⟩ p hp
      exact hserved p _ ⟨pick_eq_some_iff.mpr (.inr hp), rfl⟩
    · intro hswitch
      have hserved : ∀ p, e.pick (day now) (e.candidates now) = some p →
          ¬ e.Exhausted (day now) p := by
        intro p hp
        rcases pick_eq_some_iff.mp hp with ⟨-, -, -, -, hfree⟩ | hp
        · exact hfree
        · exact hswitch p hp
      refine ⟨fun p m hp => hserved p hp.1, fun hall => ?_⟩
      -- a provider that is found is reachable
      rw [Option.eq_none_iff_forall_ne_some]
      intro p hp
      refine hserved p hp (hall p ?_)
      rcases pick_eq_some_iff.mp hp with ⟨passed, rest, hc, -⟩ | ⟨-, c, -, -, -, hdiv⟩
      · exact List.mem_append_left _ (hc ▸ by simp)
      · exact hdiv.mem_reachable now

end PolicyEngine

/-! ### Two exhausted budgets -/

/-- Integers behave as floats do while they are small; the names are printed without escapes. -/
instance integers : Builtins ℤ where
  lt a b := a < b
  le a b := a ≤ b
  add a b := a + b
  sub a b := a - b
  zero := 0
  round n := n
  fits _ := true
  seconds t := t
  debug names := "[" ++ ", ".intercalate (names.map (fun name => "\"" ++ name ++ "\"")) ++ "]"
  repr names := "[" ++ ", ".intercalate (names.map (fun name => "'" ++ name ++ "'")) ++ "]"
  fits_of_natAbs_le _ _ := rfl

instance orderedIntegers : Ordered ℤ where
  le_refl a := by simp [le]
  le_trans a b c hab hbc := by
    simp only [le, decide_eq_true_eq] at *
    omega
  lt_eq a b := by
    simp only [lt, le]
    rcases lt_or_ge a b with h | h <;> simp [h, Int.not_le.mpr]

/-- The attack failover of a configuration that has none. -/
def noFailover : AttackFailoverConfig := ⟨false, 3, 300, "high", none, true, 600, 300⟩

/-- A provider may spend five tokens a day. -/
def budgetRule (provider : String) (action : RuleAction) : RoutingRule ℤ :=
  ⟨⟨some provider, some ⟨none, some 5, none, none⟩⟩, action⟩

/-- Two providers, each with a budget; the first one switches to the second. -/
def twoBudgets : RoutingConfig ℤ where
  defaultChain := ["primary", "backup"]
  modelMapping := []
  rules := [budgetRule "primary" ⟨false, some "backup"⟩, budgetRule "backup" ⟨true, none⟩]
  attackFailover := noFailover
  stateStore := "memory"

/-- Both have spent their budget. -/
def bothSpent : PolicyEngine ℤ :=
  [Call.usage 0 "primary" 5, .usage 0 "backup" 5].foldl PolicyEngine.step
    (PolicyEngine.new twoBudgets)

theorem serves_exhausted :
    (∀ p ∈ bothSpent.reachable 0, bothSpent.Exhausted (PolicyEngine.day (0 : ℤ)) p) ∧
      (bothSpent.resolve 0 "m" "c").1 = .ok ("backup", "m") := by
  refine ⟨?_, rfl⟩
  have hreach : bothSpent.reachable 0 = ["primary", "backup", "backup"] := rfl
  rw [hreach]
  simp only [List.forall_mem_cons, List.not_mem_nil, false_imp_iff, implies_true, and_true]
  refine ⟨⟨budgetRule "primary" ⟨false, some "backup"⟩, .head _, rfl⟩,
    ⟨budgetRule "backup" ⟨true, none⟩, .tail _ (.head _), rfl⟩,
    ⟨budgetRule "backup" ⟨true, none⟩, .tail _ (.head _), rfl⟩⟩

end FirewallLLM.Routing
