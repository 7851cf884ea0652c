import FirewallLLM.PyRouter
import FirewallLLM.Runs

/-! # The providers that the routers return

Both engines check at startup that the chain and the attack failover name configured providers.
`Known` says what this check is worth in every later state; the switches of the rules are not
checked.  `configured_iff`: a provider that is returned is configured unless the loop takes a
switch of a rule to a name that is not, or there is no provider at all. -/

namespace FirewallLLM

open Routing (Builtins RoutingConfig RoutingRule Call)

variable {F : Type} [Builtins F]

/-! ### The Rust engine -/

namespace Routing.PolicyEngine

variable {e : PolicyEngine F} {providers : List String} {now : F}

/-- What the startup check is worth: the names that do not come from rules are configured. -/
structure Known (providers : List String) (e : PolicyEngine F) : Prop where
  chain : ∀ p ∈ e.routing.defaultChain, p ∈ providers
  filled : e.routing.defaultChain = [] → providers = []
  failover : ∀ p, e.routing.attackFailover.switchTo = some p → p ∈ providers
  override : ∀ p, e.overrideProvider = some p → p ∈ providers

omit [Builtins F] in
theorem known_of_validateRouting {routing : RoutingConfig F} {known : List String}
    (h : validateRouting routing known = .ok ()) :
    (∀ p ∈ routing.defaultChain, p ∈ known) ∧
      ∀ p, routing.attackFailover.switchTo = some p → p ∈ known := by
  unfold validateRouting at h
  cases hfind : routing.defaultChain.find? (· ∉ known) with
  | some name =>
      rw [hfind] at h
      cases h
  | none =>
      rw [hfind] at h
      refine ⟨fun p hp => ?_, fun p hp => ?_⟩
      · simpa using List.find?_eq_none.mp hfind p hp
      · by_contra hnot
        simp only [hp, if_pos hnot] at h
        cases h

theorem mem_sortedNames {p : String} : p ∈ sortedNames providers ↔ p ∈ providers :=
  (List.perm_insertionSort _ providers).mem_iff

theorem sortedNames_eq_nil_iff : sortedNames providers = [] ↔ providers = [] := by
  rw [← List.length_eq_zero_iff, sortedNames, List.length_insertionSort, List.length_eq_zero_iff]

omit [Builtins F] in
theorem fill_eq_nil {routing : RoutingConfig F} {names : List String}
    (h : (routing.fill names).defaultChain = []) : names = [] := by
  unfold RoutingConfig.fill at h
  split_ifs at h with hnil
  · exact h
  · exact absurd h hnil

theorem buildRouter_eq_ok {routing : RoutingConfig F}
    (h : AppState.buildRouter routing providers = .ok e) :
    e = new (routing.fill (sortedNames providers)) ∧
      validateRouting (routing.fill (sortedNames providers)) (sortedNames providers) = .ok () := by
  unfold AppState.buildRouter at h
  dsimp only at h
  split_ifs at h
  cases hvalid : validateRouting (routing.fill (sortedNames providers))
      (sortedNames providers) with
  | error msg =>
      rw [hvalid] at h
      cases h
  | ok u =>
      rw [hvalid] at h
      cases h
      exact ⟨rfl, rfl⟩

theorem known_buildRouter {routing : RoutingConfig F}
    (h : AppState.buildRouter routing providers = .ok e) : e.Known providers := by
  obtain ⟨rfl, hvalid⟩ := buildRouter_eq_ok h
  obtain ⟨hchain, hfailover⟩ := known_of_validateRouting hvalid
  exact ⟨fun p hp => mem_sortedNames.mp (hchain p hp),
    fun hnil => sortedNames_eq_nil_iff.mp (fill_eq_nil hnil),
    fun p hp => mem_sortedNames.mp (hfailover p hp), fun p hp => by cases hp⟩

theorem Known.blockSource (h : e.Known providers) (now : F) (client : String) :
    (e.blockSource now client).Known providers := by
  unfold PolicyEngine.blockSource
  split_ifs
  · exact ⟨h.chain, h.filled, h.failover, h.override⟩
  · exact h

theorem Known.switchProvider (h : e.Known providers) (now : F) :
    (e.switchProvider now).Known providers := by
  unfold PolicyEngine.switchProvider
  cases hswitch : e.routing.attackFailover.switchTo with
  | none => exact h
  | some target =>
      refine ⟨h.chain, h.filled, h.failover, ?_⟩
      rintro p ⟨⟩
      exact h.failover _ hswitch

theorem Known.onAttackDetected (h : e.Known providers) (now : F) (severity client : String) :
    (e.onAttackDetected now severity client).Known providers := by
  unfold PolicyEngine.onAttackDetected
  dsimp only
  split_ifs
  · exact h
  · exact ⟨h.chain, h.filled, h.failover, h.override⟩
  · refine Known.switchProvider (Known.blockSource ?_ now client) now
    exact ⟨h.chain, h.filled, h.failover, h.override⟩

theorem resolve_state (e : PolicyEngine F) (now : F) (model client : String) :
    (e.resolve now model client).2 = e ∨ (e.resolve now model client).2 = e.expireOverride now := by
  unfold resolve
  split_ifs
  · exact .inl rfl
  · cases e.pick (day now) (e.candidates now) with
    | none => exact .inr rfl
    | some p => exact .inr rfl

theorem Known.expireOverride (h : e.Known providers) (now : F) :
    (e.expireOverride now).Known providers := by
  unfold PolicyEngine.expireOverride
  split_ifs
  · exact h
  · exact ⟨h.chain, h.filled, h.failover, fun p hp => by cases hp⟩

theorem Known.step (h : e.Known providers) (c : Call F Int64) : (e.step c).Known providers := by
  cases c with
  | usage now provider totalTokens => exact ⟨h.chain, h.filled, h.failover, h.override⟩
  | attack now severity client => exact h.onAttackDetected now severity client
  | resolve now model client =>
      rcases resolve_state e now model client with hs | hs
      · rw [PolicyEngine.step, hs]
        exact h
      · rw [PolicyEngine.step, hs]
        exact h.expireOverride now

theorem Known.run (h : e.Known providers) (calls : List (Call F Int64)) :
    (Runs.final PolicyEngine.step e calls).Known providers := by
  induction calls generalizing e with
  | nil => exact h
  | cons c calls ih => exact ih (h.step c)

theorem mem_candidates {c : String} (h : c ∈ e.candidates now) :
    c ∈ e.routing.chain ∨ e.overrideProvider = some c := by
  unfold candidates at h
  cases hov : e.overrideProvider with
  | none =>
      rw [hov] at h
      exact .inl h
  | some p =>
      rw [hov] at h
      simp only at h
      split_ifs at h
      · rcases List.mem_cons.mp ((List.destutter_sublist _ _).subset h) with rfl | hc
        · exact .inr rfl
        · exact .inl hc
      · exact .inl h

theorem Known.mem_candidates (h : e.Known providers) {c : String} (hc : c ∈ e.candidates now) :
    c ∈ providers ∨ providers = [] ∧ c = "default" := by
  rcases PolicyEngine.mem_candidates hc with hchain | hov
  · unfold RoutingConfig.chain at hchain
    split_ifs at hchain with hnil
    · exact .inr ⟨h.filled hnil, List.mem_singleton.mp hchain⟩
    · exact .inl (h.chain c hchain)
  · exact .inl (h.override c hov)

theorem Known.candidates_of_nil (h : e.Known []) : e.candidates now = ["default"] := by
  have hchain : e.routing.chain = ["default"] :=
    if_pos (List.eq_nil_iff_forall_not_mem.mpr (fun p hp => by cases h.chain p hp))
  cases hov : e.overrideProvider with
  | none =>
      unfold candidates
      rw [hov]
      exact hchain
  | some p => cases h.override p hov

/-- The switch that the loop takes leads to a configured provider, and the provider `default`
of an empty configuration is exhausted. -/
def LeadsToConfigured (e : PolicyEngine F) (providers : List String) (now : F) : Prop :=
  (∀ p, e.SwitchesTo now p → p ∈ providers) ∧
    (providers = [] → e.Exhausted (day now) "default")

/-- When the provider that is returned is a configured one. -/
theorem Known.resolve_iff (h : e.Known providers) (now : F) (model client : String) :
    (∀ p m, (e.resolve now model client).1 = .ok (p, m) → p ∈ providers) ↔
      (e.isBlocked now client = false → e.LeadsToConfigured providers now) := by
  cases hblocked : e.isBlocked now client with
  | true => simp [resolve_of_blocked hblocked]
  | false =>
      simp only [resolve_eq_ok_iff (Bool.eq_false_iff.mp hblocked), forall_const]
      constructor
      · intro hok
        refine ⟨fun p hp => hok p _ ⟨pick_eq_some_iff.mpr (.inr hp), rfl⟩, fun hnil => ?_⟩
        subst hnil
        by_contra hfree
        have hpick : e.pick (day now) (e.candidates now) = some "default" :=
          pick_eq_some_iff.mpr (.inl ⟨[], [], h.candidates_of_nil, by simp, hfree⟩)
        cases hok "default" _ ⟨hpick, rfl⟩
      · rintro ⟨hswitch, hdefault⟩ p m ⟨hp, -⟩
        rcases pick_eq_some_iff.mp hp with ⟨passed, rest, hc, -, hfree⟩ | hp
        · have hcand : p ∈ e.candidates now := hc ▸ by simp
          rcases h.mem_candidates hcand with hmem | ⟨hnil, rfl⟩
          · exact hmem
          · exact absurd (hdefault hnil) hfree
        · exact hswitch p hp

end Routing.PolicyEngine

/-! ### The Python engine -/

namespace Py.PolicyEngine

variable {e : PolicyEngine F} {providers : List String} {now : F}

/-- A provider violates no rule. -/
def Free (e : PolicyEngine F) (now : F) (provider : String) : Prop :=
  e.violating now provider e.routing.rules = .ok []

/-- The first rule that a candidate violates switches to another provider. -/
def Diverts (e : PolicyEngine F) (now : F) (candidate provider : String) : Prop :=
  ∃ rule rest, e.violating now candidate e.routing.rules = .ok (rule :: rest) ∧
    truthyName rule.action.switchTo = some provider

/-- The first rule that a candidate violates has no `switch_to`, or one to a candidate. -/
def PassedOver (e : PolicyEngine F) (now : F) (candidate : String) : Prop :=
  ∃ rule rest, e.violating now candidate e.routing.rules = .ok (rule :: rest) ∧
    ∀ p, truthyName rule.action.switchTo = some p → p ∈ e.chainCandidates now

/-- The loop takes a switch: the first candidate that is not passed over is diverted. -/
def SwitchesTo (e : PolicyEngine F) (now : F) (provider : String) : Prop :=
  ∃ passed candidate rest, e.chainCandidates now = passed ++ candidate :: rest ∧
    (∀ c ∈ passed, e.PassedOver now c) ∧ e.Diverts now candidate provider ∧
    provider ∉ e.chainCandidates now

theorem turn_of_error {c : String} {exc : Exn}
    (h : e.violating now c e.routing.rules = .error exc) : e.turn now c = .error exc := by
  rw [turn, h]
  rfl

theorem turn_of_nil {c : String} (h : e.violating now c e.routing.rules = .ok []) :
    e.turn now c = .ok (some c) := by
  rw [turn, h]
  rfl

/-- The first violated rule: its switch, unless that is a candidate. -/
theorem turn_of_cons {c : String} {rule : RoutingRule F} {rest : List (RoutingRule F)}
    (h : e.violating now c e.routing.rules = .ok (rule :: rest)) :
    e.turn now c =
      .ok ((truthyName rule.action.switchTo).filter (· ∉ e.chainCandidates now)) := by
  rw [turn, h]
  cases htarget : truthyName rule.action.switchTo with
  | none => simp [bind, Except.bind, pure, Except.pure, htarget]
  | some p =>
      by_cases hmem : p ∈ e.chainCandidates now <;>
        simp [bind, Except.bind, pure, Except.pure, htarget, hmem, Option.filter]

theorem turn_eq_none_iff {c : String} : e.turn now c = .ok none ↔ e.PassedOver now c := by
  unfold PassedOver
  rcases hviol : e.violating now c e.routing.rules with exc | ⟨_ | ⟨rule, rest⟩⟩
  · simp [turn_of_error hviol]
  · simp [turn_of_nil hviol]
  · simp [turn_of_cons hviol]

theorem turn_eq_some_iff {c p : String} : e.turn now c = .ok (some p) ↔
    (e.Free now c ∧ c = p) ∨ (e.Diverts now c p ∧ p ∉ e.chainCandidates now) := by
  unfold Free Diverts
  rcases hviol : e.violating now c e.routing.rules with exc | ⟨_ | ⟨rule, rest⟩⟩
  · simp [turn_of_error hviol]
  · simp [turn_of_nil hviol]
  · simp [turn_of_cons hviol]

/-- The loop returns what the first turn that is no `continue` returns. -/
theorem findSomeM?_eq_ok_some_iff {α β ε : Type} {f : α → Except ε (Option β)} {l : List α}
    {b : β} : l.findSomeM? f = .ok (some b) ↔
      ∃ passed a rest, l = passed ++ a :: rest ∧ (∀ x ∈ passed, f x = .ok none) ∧
        f a = .ok (some b) := by
  induction l with
  | nil => simp [pure, Except.pure]
  | cons x l ih =>
      rw [List.findSomeM?_cons]
      constructor
      · intro h
        rcases hx : f x with exc | ⟨_ | b'⟩
        · simp [hx, bind, Except.bind] at h
        · simp only [hx, bind, Except.bind] at h
          obtain ⟨passed, a, rest, rfl, hpassed, ha⟩ := ih.mp h
          exact ⟨x :: passed, a, rest, rfl, List.forall_mem_cons.mpr ⟨hx, hpassed⟩, ha⟩
        · simp only [hx, bind, Except.bind, pure, Except.pure] at h
          cases h
          exact ⟨[], x, l, rfl, by simp, hx⟩
      · rintro ⟨passed, a, rest, hl, hpassed, ha⟩
        cases passed with
        | nil =>
            cases hl
            simp [ha, bind, Except.bind, pure, Except.pure]
        | cons y passed =>
            cases hl
            obtain ⟨hx, hpassed⟩ := List.forall_mem_cons.mp hpassed
            simp only [hx, bind, Except.bind]
            exact ih.mpr ⟨passed, a, rest, rfl, hpassed, ha⟩

theorem loop_eq_some_iff {p : String} :
    (e.chainCandidates now).findSomeM? (e.turn now) = .ok (some p) ↔
      (∃ passed rest, e.chainCandidates now = passed ++ p :: rest ∧
        (∀ c ∈ passed, e.PassedOver now c) ∧ e.Free now p) ∨ e.SwitchesTo now p := by
  rw [findSomeM?_eq_ok_some_iff]
  simp only [turn_eq_none_iff, turn_eq_some_iff]
  constructor
  · rintro ⟨passed, c, rest, hc, hpassed, ⟨hfree, rfl⟩ | hdiv⟩
    · exact .inl ⟨passed, rest, hc, hpassed, hfree⟩
    · exact .inr ⟨passed, c, rest, hc, hpassed, hdiv⟩
  · rintro (⟨passed, rest, hc, hpassed, hfree⟩ | ⟨passed, c, rest, hc, hpassed, hdiv⟩)
    · exact ⟨passed, p, rest, hc, hpassed, .inl ⟨hfree, rfl⟩⟩
    · exact ⟨passed, c, rest, hc, hpassed, .inr hdiv⟩

theorem resolve_of_blocked {client : String} (h : e.isBlocked now client = true)
    (model : String) : (e.resolve now model client).1 =
      .error (.blocked "request source is temporarily blocked" "blocked_source") := by
  rw [resolve, if_pos h]

theorem resolve_eq_ok_iff {client model p m : String} (h : ¬ e.isBlocked now client = true) :
    (e.resolve now model client).1 = .ok (p, m) ↔
      (e.chainCandidates now).findSomeM? (e.turn now) = .ok (some p) ∧
        e.routing.concrete model p = m := by
  rw [resolve, if_neg h]
  dsimp only
  rcases (e.chainCandidates now).findSomeM? (e.turn now) with exc | ⟨_ | q⟩
  · simp
  · simp
  · simp only [Except.ok.injEq, Prod.mk.injEq, Option.some.injEq]
    constructor
    · rintro ⟨rfl, rfl⟩
      exact ⟨rfl, rfl⟩
    · rintro ⟨rfl, rfl⟩
      exact ⟨rfl, rfl⟩

/-- What the startup check is worth: the names that do not come from rules are configured. -/
structure Known (providers : List String) (e : PolicyEngine F) : Prop where
  chain : ∀ p ∈ e.routing.defaultChain, p ∈ providers
  filled : e.routing.defaultChain = [] → providers = []
  failover : ∀ p, truthyName e.routing.attackFailover.switchTo = some p → p ∈ providers
  override : ∀ p untilTs, e.store.override = some (p, untilTs) → p ∈ providers

omit [Builtins F] in
theorem known_of_validateRouting {routing : RoutingConfig F} {known : List String}
    (h : validateRouting routing known = .ok ()) :
    (∀ p ∈ routing.defaultChain, p ∈ known) ∧
      ∀ p, truthyName routing.attackFailover.switchTo = some p → p ∈ known := by
  unfold validateRouting at h
  cases hfind : routing.defaultChain.find? (· ∉ known) with
  | some name =>
      rw [hfind] at h
      cases h
  | none =>
      rw [hfind] at h
      refine ⟨fun p hp => ?_, fun p hp => ?_⟩
      · simpa using List.find?_eq_none.mp hfind p hp
      · by_contra hnot
        simp only [hp, if_pos hnot] at h
        cases h

theorem createRouter_eq_ok {routing : RoutingConfig F}
    (h : createRouter routing providers = .ok e) :
    e = new (routing.fill providers) ∧
      validateRouting (routing.fill providers) providers = .ok () := by
  have hfill : (if routing.defaultChain = [] ∧ providers ≠ [] then
      { routing with defaultChain := providers } else routing) = routing.fill providers := by
    unfold RoutingConfig.fill
    by_cases hnil : routing.defaultChain = []
    · by_cases hprov : providers = []
      · rw [if_neg (by simp [hprov]), if_pos hnil, hprov, ← hnil]
      · rw [if_pos ⟨hnil, hprov⟩, if_pos hnil]
    · rw [if_neg (by simp [hnil]), if_neg hnil]
  unfold createRouter at h
  dsimp only at h
  rw [hfill] at h
  cases hvalid : validateRouting (routing.fill providers) providers with
  | error msg =>
      rw [hvalid] at h
      cases h
  | ok u =>
      rw [hvalid] at h
      cases h
      exact ⟨rfl, rfl⟩

theorem known_createRouter {routing : RoutingConfig F}
    (h : createRouter routing providers = .ok e) : e.Known providers := by
  obtain ⟨rfl, hvalid⟩ := createRouter_eq_ok h
  obtain ⟨hchain, hfailover⟩ := known_of_validateRouting hvalid
  exact ⟨hchain, Routing.PolicyEngine.fill_eq_nil, hfailover, fun p untilTs hp => by cases hp⟩

theorem Known.blockSource (h : e.Known providers) (now : F) (client : String) :
    (e.blockSource now client).1.Known providers := by
  unfold PolicyEngine.blockSource
  split_ifs
  · cases toFloat (F := F) e.routing.attackFailover.blockTtlSeconds with
    | ok ttl => exact ⟨h.chain, h.filled, h.failover, h.override⟩
    | error exc => exact h
  · exact h

theorem Known.switchProvider (h : e.Known providers) (now : F) :
    (e.switchProvider now).1.Known providers := by
  unfold PolicyEngine.switchProvider
  cases hswitch : truthyName e.routing.attackFailover.switchTo with
  | none => exact h
  | some target =>
      dsimp only
      cases toFloat (F := F) e.routing.attackFailover.cooldownSeconds with
      | error exc => exact h
      | ok cooldown =>
          refine ⟨h.chain, h.filled, h.failover, ?_⟩
          rintro p untilTs ⟨⟩
          exact h.failover _ hswitch

theorem Known.onAttackDetected (h : e.Known providers) (now : F) (severity client : String) :
    (e.onAttackDetected now severity client).1.Known providers := by
  unfold PolicyEngine.onAttackDetected
  dsimp only
  split_ifs
  · exact h
  · split
    · split_ifs
      · exact h
      · split
        · exact h
        · split_ifs
          · exact ⟨h.chain, h.filled, h.failover, h.override⟩
          · have hclear : Known providers { e with
                attackTimes := Function.update e.attackTimes client [] } :=
              ⟨h.chain, h.filled, h.failover, h.override⟩
            have hblock := hclear.blockSource now client
            split
            · next heq =>
                rw [heq] at hblock
                exact hblock
            · next heq =>
                rw [heq] at hblock
                exact hblock.switchProvider now
    · exact h

theorem Known.expireOverride (h : e.Known providers) (now : F) :
    (e.expireOverride now).Known providers := by
  unfold PolicyEngine.expireOverride
  split
  · split_ifs
    · exact h
    · exact ⟨h.chain, h.filled, h.failover, fun p untilTs hp => by cases hp⟩
  · exact h

theorem Known.step (h : e.Known providers) (c : Call F ℤ) : (e.step c).Known providers := by
  cases c with
  | usage now provider totalTokens => exact ⟨h.chain, h.filled, h.failover, h.override⟩
  | attack now severity client => exact h.onAttackDetected now severity client
  | resolve now model client =>
      unfold PolicyEngine.step PolicyEngine.resolve
      dsimp only
      split_ifs
      · exact h
      · exact h.expireOverride now

theorem Known.run (h : e.Known providers) (calls : List (Call F ℤ)) :
    (Runs.final PolicyEngine.step e calls).Known providers := by
  induction calls generalizing e with
  | nil => exact h
  | cons c calls ih => exact ih (h.step c)

theorem mem_chainCandidates {c : String} (h : c ∈ e.chainCandidates now) :
    c ∈ e.routing.chain ∨ ∃ untilTs, e.store.override = some (c, untilTs) := by
  unfold chainCandidates at h
  rcases hov : e.store.override with _ | ⟨p, untilTs⟩
  · rw [hov] at h
    exact .inl h
  · rw [hov] at h
    dsimp only at h
    split_ifs at h
    · rcases List.mem_cons.mp h with rfl | hc
      · exact .inr ⟨untilTs, rfl⟩
      · exact .inl (List.mem_filter.mp hc).1
    · exact .inl h

theorem Known.mem_candidates (h : e.Known providers) {c : String}
    (hc : c ∈ e.chainCandidates now) : c ∈ providers ∨ providers = [] ∧ c = "default" := by
  rcases mem_chainCandidates hc with hchain | ⟨untilTs, hov⟩
  · unfold RoutingConfig.chain at hchain
    split_ifs at hchain with hnil
    · exact .inr ⟨h.filled hnil, List.mem_singleton.mp hchain⟩
    · exact .inl (h.chain c hchain)
  · exact .inl (h.override c untilTs hov)

theorem Known.candidates_of_nil (h : e.Known []) : e.chainCandidates now = ["default"] := by
  have hchain : e.routing.chain = ["default"] :=
    if_pos (List.eq_nil_iff_forall_not_mem.mpr (fun p hp => by cases h.chain p hp))
  rcases hov : e.store.override with _ | ⟨p, untilTs⟩
  · unfold chainCandidates
    rw [hov]
    exact hchain
  · cases h.override p untilTs hov

/-- The switch that the loop takes leads to a configured provider, and the provider `default`
of an empty configuration is not free. -/
def LeadsToConfigured (e : PolicyEngine F) (providers : List String) (now : F) : Prop :=
  (∀ p, e.SwitchesTo now p → p ∈ providers) ∧ (providers = [] → ¬ e.Free now "default")

theorem Known.resolve_iff (h : e.Known providers) (now : F) (model client : String) :
    (∀ p m, (e.resolve now model client).1 = .ok (p, m) → p ∈ providers) ↔
      (e.isBlocked now client = false → e.LeadsToConfigured providers now) := by
  cases hblocked : e.isBlocked now client with
  | true => simp [resolve_of_blocked hblocked]
  | false =>
      simp only [resolve_eq_ok_iff (Bool.eq_false_iff.mp hblocked), forall_const]
      constructor
      · intro hok
        refine ⟨fun p hp => hok p _ ⟨loop_eq_some_iff.mpr (.inr hp), rfl⟩, fun hnil hfree => ?_⟩
        subst hnil
        cases hok "default" _ ⟨loop_eq_some_iff.mpr
          (.inl ⟨[], [], h.candidates_of_nil, by simp, hfree⟩), rfl⟩
      · rintro ⟨hswitch, hdefault⟩ p m ⟨hp, -⟩
        rcases loop_eq_some_iff.mp hp with ⟨passed, rest, hc, -, hfree⟩ | hp
        · have hcand : p ∈ e.chainCandidates now := hc ▸ by simp
          rcases h.mem_candidates hcand with hmem | ⟨hnil, rfl⟩
          · exact hmem
          · exact absurd hfree (hdefault hnil)
        · exact hswitch p hp

end Py.PolicyEngine

/-! ### Every call -/

open Runs (final)

/-- **After any calls, both engines return a configured provider exactly when the switch that
their loop takes leads to one.** -/
theorem configured_iff (routing : RoutingConfig F) (providers : List String) (now : F)
    (model client : String) :
    (∀ (e₀ : Routing.PolicyEngine F) (calls : List (Call F Int64)),
      Routing.AppState.buildRouter routing providers = .ok e₀ →
      ((∀ p m, ((final Routing.PolicyEngine.step e₀ calls).resolve now model client).1 =
          .ok (p, m) → p ∈ providers) ↔
        ((final Routing.PolicyEngine.step e₀ calls).isBlocked now client = false →
          (final Routing.PolicyEngine.step e₀ calls).LeadsToConfigured providers now))) ∧
    ∀ (e₀ : Py.PolicyEngine F) (calls : List (Call F ℤ)),
      Py.createRouter routing providers = .ok e₀ →
      ((∀ p m, ((final Py.PolicyEngine.step e₀ calls).resolve now model client).1 =
          .ok (p, m) → p ∈ providers) ↔
        ((final Py.PolicyEngine.step e₀ calls).isBlocked now client = false →
          (final Py.PolicyEngine.step e₀ calls).LeadsToConfigured providers now)) :=
  ⟨fun _ calls h => ((Routing.PolicyEngine.known_buildRouter h).run calls).resolve_iff now model
      client,
    fun _ calls h => ((Py.PolicyEngine.known_createRouter h).run calls).resolve_iff now model
      client⟩

/-- One provider with a budget, and a switch to a name that is not configured. -/
def strayRouting : RoutingConfig ℤ where
  defaultChain := []
  modelMapping := []
  rules := [Routing.budgetRule "primary" ⟨false, some "ghost"⟩]
  attackFailover := Routing.noFailover
  stateStore := "memory"

/-- The engines after five tokens. -/
def strayEngine : Routing.PolicyEngine ℤ :=
  final Routing.PolicyEngine.step (.new (strayRouting.fill ["primary"])) [.usage 0 "primary" 5]

def strayPyEngine : Py.PolicyEngine ℤ :=
  final Py.PolicyEngine.step (.new (strayRouting.fill ["primary"])) [.usage 0 "primary" 5]

theorem returns_unconfigured :
    (Routing.AppState.buildRouter strayRouting ["primary"] =
        .ok (.new (strayRouting.fill ["primary"])) ∧
      (strayEngine.resolve 0 "m" "c").1 = .ok ("ghost", "m")) ∧
    Py.createRouter strayRouting ["primary"] = .ok (.new (strayRouting.fill ["primary"])) ∧
      (strayPyEngine.resolve 0 "m" "c").1 = .ok ("ghost", "m") :=
  ⟨⟨rfl, rfl⟩, rfl, rfl⟩

/-- The first provider has spent its budget and switches to the second. -/
def oneSpent : Routing.PolicyEngine ℤ :=
  final Routing.PolicyEngine.step (.new Routing.twoBudgets) [.usage 0 "primary" 5]

theorem configured_switch :
    ∀ p m, (oneSpent.resolve 0 "m" "c").1 = .ok (p, m) → p ∈ ["primary", "backup"] := by
  refine ((configured_iff Routing.twoBudgets ["primary", "backup"] 0 "m" "c").1
    (.new Routing.twoBudgets) [.usage 0 "primary" 5] rfl).mpr (fun _ => ⟨?_, by simp⟩)
  rintro p ⟨passed, c, rest, -, -, hdiv⟩
  have hmem : p ∈ ["primary", "backup", "backup"] := hdiv.mem_reachable 0
  simpa using hmem

end FirewallLLM
