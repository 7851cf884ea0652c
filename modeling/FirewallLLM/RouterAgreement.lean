import FirewallLLM.CivilDays
import FirewallLLM.RouterProviders

/-! # The two routers agree

Both engines get the same calls.  `Same` relates their states, and every call keeps it
(`Same.step`).  What is left is the loop over the candidates: the Rust loop returns the switch of
the first candidate that it does not pass over, where the Python loop goes on if the switch names
a candidate.

`agree_iff`: over runs with a chain that does not depend on the order of the map, without empty
names and without overflow, both engines agree at every call exactly when, wherever the Rust loop
switches to a candidate, the Python loop ends with it, too. -/

namespace FirewallLLM.Agreement

open Routing (Builtins RoutingConfig RoutingRule Call severities sortedNames)

variable {F : Type} [Builtins F]

/-! ### Walking over candidates -/

section Walk

variable {α β : Type}

theorem findSome?_destutter' [DecidableEq α] (f : α → Option β) (a : α) (l : List α) :
    (l.destutter' (· ≠ ·) a).findSome? f = (a :: l).findSome? f := by
  induction l generalizing a with
  | nil => rfl
  | cons b l ih =>
      by_cases hab : a = b
      · subst hab
        rw [List.destutter'_cons_neg _ (by simp), ih]
        cases ha : f a with
        | none => simp only [List.findSome?_cons, ha]
        | some c => simp only [List.findSome?_cons, ha]
      · rw [List.destutter'_cons_pos _ hab, List.findSome?_cons, ih, ← List.findSome?_cons]

theorem findSome?_cons_filter [DecidableEq α] (f : α → Option β) (a : α) (l : List α) :
    (a :: l.filter (· ≠ a)).findSome? f = (a :: l).findSome? f := by
  rw [List.findSome?_cons, List.findSome?_cons]
  cases ha : f a with
  | some b => rfl
  | none =>
      dsimp only
      induction l with
      | nil => rfl
      | cons b l ih =>
          by_cases hb : b = a
          · subst hb
            rw [List.filter_cons_of_neg (by simp), ih, List.findSome?_cons, ha]
          · rw [List.filter_cons_of_pos (by simpa using hb), List.findSome?_cons,
              List.findSome?_cons, ih]

end Walk

/-! ### Configurations -/

/-- A configuration that both languages can read: the integers are unsigned words, and the
severity is one of the four. -/
structure Readable (routing : RoutingConfig F) : Prop where
  count : 0 ≤ routing.attackFailover.count ∧ routing.attackFailover.count < 2 ^ 64
  window : 0 ≤ routing.attackFailover.windowSeconds ∧
    routing.attackFailover.windowSeconds < 2 ^ 64
  blockTtl : 0 ≤ routing.attackFailover.blockTtlSeconds ∧
    routing.attackFailover.blockTtlSeconds < 2 ^ 64
  cooldown : 0 ≤ routing.attackFailover.cooldownSeconds ∧
    routing.attackFailover.cooldownSeconds < 2 ^ 64
  severity : (severities.lookup routing.attackFailover.minSeverity).isSome = true

/-- No name that a rule or the failover gives is empty. -/
structure NamesGiven (routing : RoutingConfig F) : Prop where
  conditions : ∀ rule ∈ routing.rules, rule.when.provider ≠ some ""
  actions : ∀ rule ∈ routing.rules, rule.action.switchTo ≠ some ""
  failover : routing.attackFailover.switchTo ≠ some ""

theorem truthyName_eq {name : Option String} (h : name ≠ some "") : Py.truthyName name = name := by
  cases name with
  | none => rfl
  | some s =>
      have hs : s ≠ "" := fun hs => h (congrArg some hs)
      simp [Py.truthyName, Option.filter, hs]

theorem toFloat_eq {n : ℤ} (h0 : -2 ^ 63 ≤ n) (h1 : n < 2 ^ 64) :
    Py.PolicyEngine.toFloat n = .ok (Builtins.round n : F) := by
  have hfits : Builtins.fits F n = true := Builtins.fits_of_natAbs_le n (by omega)
  unfold Py.PolicyEngine.toFloat
  rw [if_pos hfits]

/-! ### Related states -/

/-- Both engines know the same. -/
structure Same (r : Routing.PolicyEngine F) (p : Py.PolicyEngine F) : Prop where
  routing : p.routing = r.routing
  override : p.store.override = r.overrideProvider.map (·, r.overrideUntil)
  blocked : p.store.blocked = r.blockedSources
  attackTimes : p.attackTimes = r.attackTimes
  tokens : ∀ (name : String) (t : ℤ), p.store.tokens (name, t / 86400) =
    (r.providerTokens (name, Quota.dayString t)).toInt
  readable : Readable r.routing
  names : NamesGiven r.routing

/-- The same call for the Python engine. -/
def toPy : Call F Int64 → Call F ℤ
  | .usage now provider totalTokens => .usage now provider totalTokens.toInt
  | .attack now severity client => .attack now severity client
  | .resolve now model client => .resolve now model client

/-- The counter of a usage does not overflow, and the severity of an attack is one of the four. -/
def Regular (r : Routing.PolicyEngine F) : Call F Int64 → Prop
  | .usage now provider totalTokens =>
      -2 ^ 63 ≤ (r.providerTokens (provider, Routing.PolicyEngine.day now)).toInt +
          totalTokens.toInt ∧
        (r.providerTokens (provider, Routing.PolicyEngine.day now)).toInt +
          totalTokens.toInt < 2 ^ 63
  | .attack _ severity _ => (severities.lookup severity).isSome = true
  | .resolve .. => True

section Steps

variable {r : Routing.PolicyEngine F} {p : Py.PolicyEngine F}

theorem Same.usage (h : Same r p) (now : F) (provider : String) (n : Int64)
    (hn : Regular r (.usage now provider n)) :
    Same (r.recordTokensToday now provider n) (p.onTokensSpent now provider n.toInt) := by
  refine ⟨h.routing, h.override, h.blocked, h.attackTimes, fun name t => ?_, h.readable, h.names⟩
  obtain ⟨hlow, hhigh⟩ := hn
  have hadd : (r.providerTokens (provider, Routing.PolicyEngine.day now) + n).toInt =
      (r.providerTokens (provider, Routing.PolicyEngine.day now)).toInt + n.toInt := by
    rw [Int64.toInt_add]
    exact Int.bmod_eq_of_le (by omega) (by omega)
  have hkey : ((name, t / 86400) = (provider, Py.PolicyEngine.day now)) ↔
      (name, Quota.dayString t) = (provider, Routing.PolicyEngine.day now) := by
    rw [Prod.mk.injEq, Prod.mk.injEq, Routing.PolicyEngine.day, Quota.dayString_inj,
      Py.PolicyEngine.day]
  unfold Routing.PolicyEngine.recordTokensToday Routing.PolicyEngine.recordTokens
    Py.PolicyEngine.onTokensSpent
  simp only [Function.update_apply, hkey]
  split_ifs with heq
  · rw [hadd, Py.PolicyEngine.day, h.tokens, Routing.PolicyEngine.day]
  · exact h.tokens name t

theorem Same.blockSource (h : Same r p) (now : F) (client : String) :
    ∃ p', p.blockSource now client = (p', none) ∧ Same (r.blockSource now client) p' := by
  obtain ⟨h0, h1⟩ := h.readable.blockTtl
  unfold Py.PolicyEngine.blockSource Routing.PolicyEngine.blockSource
  rw [h.routing, toFloat_eq (by omega) h1]
  dsimp only
  split_ifs
  · refine ⟨_, rfl, rfl, h.override, ?_, h.attackTimes, h.tokens, h.readable, h.names⟩
    rw [h.blocked]
  · exact ⟨_, rfl, h⟩

theorem Same.switchProvider (h : Same r p) (now : F) :
    ∃ p', p.switchProvider now = (p', none) ∧ Same (r.switchProvider now) p' := by
  obtain ⟨h0, h1⟩ := h.readable.cooldown
  unfold Py.PolicyEngine.switchProvider Routing.PolicyEngine.switchProvider
  rw [h.routing, truthyName_eq h.names.failover, toFloat_eq (by omega) h1]
  cases r.routing.attackFailover.switchTo with
  | none => exact ⟨_, rfl, h⟩
  | some target =>
      exact ⟨_, rfl, rfl, rfl, h.blocked, h.attackTimes, h.tokens, h.readable, h.names⟩

omit [Builtins F] in
theorem Same.setAttackTimes (h : Same r p) (times : String → List F) :
    Same { r with attackTimes := times } { p with attackTimes := times } :=
  ⟨h.routing, h.override, h.blocked, rfl, h.tokens, h.readable, h.names⟩

theorem Same.attack (h : Same r p) (now : F) (severity client : String)
    (hs : (severities.lookup severity).isSome = true) :
    Same (r.onAttackDetected now severity client) (p.onAttackDetected now severity client).1 := by
  obtain ⟨h0, h1⟩ := h.readable.window
  obtain ⟨rank, hrank⟩ := Option.isSome_iff_exists.mp hs
  obtain ⟨minRank, hmin⟩ := Option.isSome_iff_exists.mp h.readable.severity
  have hrecent : p.recentAttacks now (Builtins.round r.routing.attackFailover.windowSeconds)
      client = r.recentAttacks now client := by
    rw [Py.PolicyEngine.recentAttacks, Routing.PolicyEngine.recentAttacks, h.attackTimes]
  unfold Py.PolicyEngine.onAttackDetected Routing.PolicyEngine.onAttackDetected
  simp only [h.routing, Routing.severityRank, hrank, hmin, Option.getD_some, h.attackTimes,
    toFloat_eq (by omega) h1, hrecent]
  cases r.routing.attackFailover.enabled with
  | false => exact h
  | true =>
      simp only [Bool.not_true, Bool.false_or, decide_eq_true_eq, Bool.false_eq_true, if_false]
      split_ifs
      · exact h
      · have hset := h.setAttackTimes
          (Function.update r.attackTimes client (r.recentAttacks now client))
        rw [h.routing] at hset
        exact hset
      · have hclear := h.setAttackTimes (Function.update r.attackTimes client [])
        rw [h.routing] at hclear
        obtain ⟨p', hp', hblock⟩ := hclear.blockSource now client
        obtain ⟨p'', hp'', hswitch⟩ := hblock.switchProvider now
        rw [hp']
        dsimp only
        rw [hp'']
        exact hswitch

theorem Same.expireOverride (h : Same r p) (now : F) :
    Same (r.expireOverride now) (p.expireOverride now) := by
  have hov := h.override
  unfold Py.PolicyEngine.expireOverride Routing.PolicyEngine.expireOverride
  cases hr : r.overrideProvider with
  | none =>
      rw [hr] at hov
      simp only [hov, Option.map_none]
      split_ifs
      · exact h
      · exact ⟨h.routing, hov, h.blocked, h.attackTimes, h.tokens, h.readable, h.names⟩
  | some q =>
      rw [hr] at hov
      simp only [hov, Option.map_some]
      split_ifs
      · exact h
      · exact ⟨h.routing, rfl, h.blocked, h.attackTimes, h.tokens, h.readable, h.names⟩

theorem Same.isBlocked (h : Same r p) (now : F) (client : String) :
    p.isBlocked now client = r.isBlocked now client := by
  rw [Py.PolicyEngine.isBlocked, Routing.PolicyEngine.isBlocked, h.blocked]

/-- Every regular call keeps the relation. -/
theorem Same.step (h : Same r p) {c : Call F Int64} (hc : Regular r c) :
    Same (r.step c) (p.step (toPy c)) := by
  cases c with
  | usage now provider totalTokens => exact h.usage now provider totalTokens hc
  | attack now severity client => exact h.attack now severity client hc
  | resolve now model client =>
      unfold Routing.PolicyEngine.step Py.PolicyEngine.step toPy Routing.PolicyEngine.resolve
        Py.PolicyEngine.resolve
      dsimp only
      rw [h.isBlocked]
      split_ifs
      · exact h
      · cases r.pick (Routing.PolicyEngine.day now) (r.candidates now) with
        | none => exact h.expireOverride now
        | some q => exact h.expireOverride now

end Steps

/-! ### The loops -/

section Loops

open Routing.PolicyEngine (day)

variable {r : Routing.PolicyEngine F} {p : Py.PolicyEngine F} {now : F}

theorem Same.violatesRule (h : Same r p) (now : F) (c : String) {rule : RoutingRule F}
    (hrule : rule ∈ r.routing.rules) :
    p.violatesRule now c rule = .ok (r.violatesRule c rule (day now)) := by
  have htokens : p.store.tokens (c, Py.PolicyEngine.day now) =
      (r.providerTokens (c, day now)).toInt := h.tokens c (Builtins.seconds now)
  have hfloat := @toFloat_eq F _ (r.providerTokens (c, day now)).toInt
    (Int64.le_toInt _) (by have := Int64.toInt_lt (r.providerTokens (c, day now)); omega)
  unfold Py.PolicyEngine.violatesRule Routing.PolicyEngine.violatesRule
    Routing.PolicyEngine.providerTokensToday
  rw [truthyName_eq (h.names.conditions rule hrule), htokens, hfloat]
  cases hprovider : rule.when.provider with
  | none => cases rule.when.providerTokensToday <;> simp [bind, Except.bind, pure, Except.pure]
  | some q =>
      by_cases hq : q = c
      · cases rule.when.providerTokensToday <;> simp [hq, bind, Except.bind, pure, Except.pure]
      · simp [hq, pure, Except.pure]

theorem Same.violating (h : Same r p) (now : F) (c : String) :
    p.violating now c p.routing.rules = .ok (r.violating (day now) c) := by
  have key : ∀ rules : List (RoutingRule F), (∀ rule ∈ rules, rule ∈ r.routing.rules) →
      p.violating now c rules =
        .ok (rules.filter (fun rule => r.violatesRule c rule (day now))) := by
    intro rules hrules
    induction rules with
    | nil => rfl
    | cons rule rules ih =>
        obtain ⟨hrule, hrest⟩ := List.forall_mem_cons.mp hrules
        rw [Py.PolicyEngine.violating, h.violatesRule now c hrule, ih hrest, List.filter_cons]
        rfl
  rw [h.routing]
  exact key _ (fun _ hrule => hrule)

theorem Same.free_iff (h : Same r p) {c : String} :
    p.Free now c ↔ ¬ r.Exhausted (day now) c := by
  rw [Py.PolicyEngine.Free, h.violating, ← Routing.PolicyEngine.violating_eq_nil_iff,
    Except.ok.injEq]

theorem Same.diverts_iff (h : Same r p) {c target : String} :
    p.Diverts now c target ↔ r.Diverts (day now) c target := by
  unfold Py.PolicyEngine.Diverts Routing.PolicyEngine.Diverts
  simp only [h.violating, Except.ok.injEq]
  refine exists_congr fun rule => exists_congr fun rest => and_congr_right fun hviol => ?_
  rw [truthyName_eq (h.names.actions rule
    (Routing.PolicyEngine.mem_rules_of_violating hviol))]

/-- What the Rust loop passes over, the Python loop passes over. -/
theorem Same.passedOver (h : Same r p) {c : String} (hc : r.PassedOver (day now) c) :
    p.PassedOver now c := by
  obtain ⟨rule, rest, hviol, hswitch⟩ := hc
  refine ⟨rule, rest, by rw [h.violating, hviol], fun q hq => ?_⟩
  rw [hswitch] at hq
  cases hq

theorem Same.findSome?_candidates (h : Same r p) (now : F) {β : Type} (f : String → Option β) :
    (r.candidates now).findSome? f = (p.chainCandidates now).findSome? f := by
  have hov := h.override
  unfold Routing.PolicyEngine.candidates Py.PolicyEngine.chainCandidates
  cases hr : r.overrideProvider with
  | none =>
      rw [hr] at hov
      rw [hov, h.routing]
      rfl
  | some q =>
      rw [hr] at hov
      simp only [hov, Option.map_some, h.routing]
      split_ifs
      · rw [List.destutter_cons', findSome?_destutter', findSome?_cons_filter]
      · rfl

/-- Where the Rust loop takes a switch to a candidate, the Python loop ends with this candidate:
it comes later, it is free, and all between are passed over. -/
def MeetsSwitch (r : Routing.PolicyEngine F) (p : Py.PolicyEngine F) (now : F)
    (candidates : List String) : Prop :=
  ∀ passed c rest target, candidates = passed ++ c :: rest →
    (∀ x ∈ passed, r.PassedOver (day now) x) → r.Diverts (day now) c target →
    target ∈ p.chainCandidates now →
    ∃ between after, rest = between ++ target :: after ∧
      (∀ x ∈ between, p.PassedOver now x) ∧ p.Free now target

theorem meetsSwitch_of_passedOver {c : String} {rest : List String}
    (hc : r.PassedOver (day now) c) :
    MeetsSwitch r p now (c :: rest) ↔ MeetsSwitch r p now rest := by
  obtain ⟨rule, rules, hviol, hswitch⟩ := hc
  constructor
  · intro hm passed c' rest' target hl hpassed
    exact hm (c :: passed) c' rest' target (by rw [hl, List.cons_append])
      (List.forall_mem_cons.mpr ⟨⟨rule, rules, hviol, hswitch⟩, hpassed⟩)
  · rintro hm (_ | ⟨x, passed⟩) c' rest' target hl hpassed hdiv
    · obtain ⟨rule', rules', hviol', hswitch'⟩ := hdiv
      cases hl
      cases hviol.symm.trans hviol'
      cases hswitch.symm.trans hswitch'
    · cases hl
      exact hm passed c' rest' target rfl (List.forall_mem_cons.mp hpassed).2 hdiv

theorem meetsSwitch_of_not_exhausted {c : String} {rest : List String}
    (hc : ¬ r.Exhausted (day now) c) : MeetsSwitch r p now (c :: rest) := by
  have hnil := Routing.PolicyEngine.violating_eq_nil_iff.mpr hc
  rintro (_ | ⟨x, passed⟩) c' rest' target hl hpassed hdiv
  · obtain ⟨rule, rules, hviol, -⟩ := hdiv
    cases hl
    cases hnil.symm.trans hviol
  · obtain ⟨rule, rules, hviol, -⟩ := (List.forall_mem_cons.mp hpassed).1
    cases hl
    cases hnil.symm.trans hviol

theorem meetsSwitch_of_diverts {c target : String} {rest : List String}
    (hc : r.Diverts (day now) c target) :
    MeetsSwitch r p now (c :: rest) ↔ (target ∈ p.chainCandidates now →
      ∃ between after, rest = between ++ target :: after ∧
        (∀ x ∈ between, p.PassedOver now x) ∧ p.Free now target) := by
  obtain ⟨rule, rules, hviol, hswitch⟩ := hc
  constructor
  · intro hm
    exact hm [] c rest target rfl (by simp) ⟨rule, rules, hviol, hswitch⟩
  · rintro hm (_ | ⟨x, passed⟩) c' rest' target' hl hpassed hdiv
    · obtain ⟨rule', rules', hviol', hswitch'⟩ := hdiv
      cases hl
      cases hviol.symm.trans hviol'
      cases hswitch.symm.trans hswitch'
      exact hm
    · obtain ⟨rule', rules', hviol', hswitch'⟩ := (List.forall_mem_cons.mp hpassed).1
      cases hl
      cases hviol.symm.trans hviol'
      cases hswitch.symm.trans hswitch'

theorem Same.loop_iff (h : Same r p) (now : F) (candidates : List String) :
    candidates.findSomeM? (p.turn now) = .ok (candidates.findSome? (r.turn (day now))) ↔
      MeetsSwitch r p now candidates := by
  induction candidates with
  | nil =>
      refine iff_of_true rfl ?_
      intro passed c rest target hl
      simp at hl
  | cons c rest ih =>
      rw [List.findSomeM?_cons, List.findSome?_cons]
      cases hturn : r.turn (day now) c with
      | none =>
          have hpassed := Routing.PolicyEngine.turn_eq_none_iff.mp hturn
          rw [Py.PolicyEngine.turn_eq_none_iff.mpr (h.passedOver hpassed),
            meetsSwitch_of_passedOver hpassed]
          exact ih
      | some q =>
          rcases Routing.PolicyEngine.turn_eq_some_iff.mp hturn with ⟨hfree, rfl⟩ | hdiv
          · rw [Py.PolicyEngine.turn_eq_some_iff.mpr (.inl ⟨h.free_iff.mpr hfree, rfl⟩)]
            exact iff_of_true rfl (meetsSwitch_of_not_exhausted hfree)
          · rw [meetsSwitch_of_diverts hdiv]
            by_cases hmem : q ∈ p.chainCandidates now
            · -- the Python loop goes on
              have hskip : p.PassedOver now c := by
                obtain ⟨rule, rules, hviol, hswitch⟩ := h.diverts_iff.mpr hdiv
                refine ⟨rule, rules, hviol, fun q' hq' => ?_⟩
                cases hswitch.symm.trans hq'
                exact hmem
              rw [Py.PolicyEngine.turn_eq_none_iff.mpr hskip]
              refine Iff.trans Py.PolicyEngine.findSomeM?_eq_ok_some_iff ?_
              simp only [Py.PolicyEngine.turn_eq_none_iff, Py.PolicyEngine.turn_eq_some_iff, hmem,
                not_true_eq_false, and_false, or_false, forall_const]
              constructor
              · rintro ⟨between, a, after, hrest, hbetween, hfree, rfl⟩
                exact ⟨between, after, hrest, hbetween, hfree⟩
              · rintro ⟨between, after, hrest, hbetween, hfree⟩
                exact ⟨between, q, after, hrest, hbetween, hfree, rfl⟩
            · rw [Py.PolicyEngine.turn_eq_some_iff.mpr (.inr ⟨h.diverts_iff.mpr hdiv, hmem⟩)]
              exact iff_of_true rfl (fun hmem' => absurd hmem' hmem)

end Loops

/-! ### Runs -/

/-- Both engines. -/
abbrev Both (F : Type) := Routing.PolicyEngine F × Py.PolicyEngine F

/-- The same provider and concrete model, or both blocked, or both exhausted. -/
def SameOutcome : Except Chat.RoutingError (String × String) →
    Except Py.Exn (String × String) → Prop
  | .ok routed, .ok routed' => routed = routed'
  | .error (.blocked _), .error (.blocked _ _) => True
  | .error (.budgetExhausted _), .error (.quotaExceeded _) => True
  | _, _ => False

def step (s : Both F) (c : Call F Int64) : Both F := (s.1.step c, s.2.step (toPy c))

/-- The engines resolve a request alike. -/
def Agree (s : Both F) : Call F Int64 → Prop
  | .resolve now model client =>
      SameOutcome (s.1.resolve now model client).1 (s.2.resolve now model client).1
  | _ => True

/-- The client is blocked, or the Python loop ends with the switch of the Rust loop. -/
def EndsAlike (s : Both F) : Call F Int64 → Prop
  | .resolve now _ client => s.1.isBlocked now client = false →
      MeetsSwitch s.1 s.2 now (s.2.chainCandidates now)
  | _ => True

section Runs

open Routing.PolicyEngine (day)
open Runs (Along)

theorem Same.loop_ok {r : Routing.PolicyEngine F} {p : Py.PolicyEngine F} (h : Same r p) (now : F)
    (candidates : List String) : ∃ found, candidates.findSomeM? (p.turn now) = .ok found := by
  induction candidates with
  | nil => exact ⟨none, rfl⟩
  | cons c rest ih =>
      have hviol := h.violating now c
      rw [List.findSomeM?_cons]
      cases hrules : r.violating (day now) c with
      | nil =>
          rw [hrules] at hviol
          rw [Py.PolicyEngine.turn_of_nil hviol]
          exact ⟨some c, rfl⟩
      | cons rule rules =>
          rw [hrules] at hviol
          rw [Py.PolicyEngine.turn_of_cons hviol]
          cases (Py.truthyName rule.action.switchTo).filter (· ∉ p.chainCandidates now) with
          | none => exact ih
          | some q => exact ⟨some q, rfl⟩

/-- The outcomes agree exactly when the loops end alike. -/
theorem Same.sameOutcome_iff {r : Routing.PolicyEngine F} {p : Py.PolicyEngine F} (h : Same r p)
    {now : F} (model : String) {client : String} (hblocked : ¬ r.isBlocked now client = true) :
    SameOutcome (r.resolve now model client).1 (p.resolve now model client).1 ↔
      (p.chainCandidates now).findSomeM? (p.turn now) =
        .ok ((p.chainCandidates now).findSome? (r.turn (day now))) := by
  obtain ⟨found, hfound⟩ := h.loop_ok now (p.chainCandidates now)
  rw [Routing.PolicyEngine.resolve, Py.PolicyEngine.resolve, h.isBlocked, if_neg hblocked,
    if_neg hblocked, Routing.PolicyEngine.pick_eq_findSome?, h.findSome?_candidates, h.routing]
  dsimp only
  rw [hfound]
  cases (p.chainCandidates now).findSome? (r.turn (day now)) with
  | none =>
      cases found with
      | none => simp [SameOutcome]
      | some q => simp [SameOutcome]
  | some q =>
      cases found with
      | none => simp [SameOutcome]
      | some q' =>
          simp only [SameOutcome, Prod.mk.injEq, Except.ok.injEq, Option.some.injEq]
          constructor
          · rintro ⟨rfl, -⟩
            rfl
          · rintro rfl
            exact ⟨rfl, rfl⟩

theorem Same.agree_call_iff {s : Both F} (h : Same s.1 s.2) (c : Call F Int64) :
    Agree s c ↔ EndsAlike s c := by
  cases c with
  | usage now provider totalTokens => exact Iff.rfl
  | attack now severity client => exact Iff.rfl
  | resolve now model client =>
      by_cases hblocked : s.1.isBlocked now client = true
      · refine iff_of_true ?_ (fun hfalse => ?_)
        · rw [Agree, Routing.PolicyEngine.resolve_of_blocked hblocked,
            Py.PolicyEngine.resolve_of_blocked (h.isBlocked now client ▸ hblocked)]
          trivial
        · cases hblocked.symm.trans hfalse
      · rw [Agree, h.sameOutcome_iff model hblocked, h.loop_iff, EndsAlike,
          Bool.eq_false_iff]
        exact ⟨fun hm _ => hm, fun hm => hm hblocked⟩

/-- Both engines start alike if the chain does not depend on the order of the map. -/
theorem same_start {routing : RoutingConfig F} {providers : List String} {s : Both F}
    (hr : Routing.AppState.buildRouter routing providers = .ok s.1)
    (hp : Py.createRouter routing providers = .ok s.2) (hread : Readable routing)
    (hnames : NamesGiven routing)
    (horder : routing.defaultChain ≠ [] ∨ providers.Pairwise (· ≤ ·)) : Same s.1 s.2 := by
  obtain ⟨hr, -⟩ := Routing.PolicyEngine.buildRouter_eq_ok hr
  obtain ⟨hp, -⟩ := Py.PolicyEngine.createRouter_eq_ok hp
  have hfill : routing.fill providers = routing.fill (sortedNames providers) := by
    rcases horder with hchain | hsorted
    · rw [RoutingConfig.fill, RoutingConfig.fill, if_neg hchain, if_neg hchain]
    · rw [sortedNames, hsorted.insertionSort_eq]
  have hread' : Readable (routing.fill (sortedNames providers)) := by
    unfold RoutingConfig.fill
    split_ifs
    · exact ⟨hread.count, hread.window, hread.blockTtl, hread.cooldown, hread.severity⟩
    · exact hread
  have hnames' : NamesGiven (routing.fill (sortedNames providers)) := by
    unfold RoutingConfig.fill
    split_ifs
    · exact ⟨hnames.conditions, hnames.actions, hnames.failover⟩
    · exact hnames
  rw [hr, hp, hfill]
  exact ⟨rfl, rfl, rfl, rfl, fun _ _ => rfl, hread', hnames'⟩

/-- **The two routers agree at every resolve of a run exactly when, wherever the Rust loop
switches to a candidate, the Python loop ends with it.** -/
theorem agree_iff (routing : RoutingConfig F) (providers : List String) (s : Both F)
    (calls : List (Call F Int64))
    (hr : Routing.AppState.buildRouter routing providers = .ok s.1)
    (hp : Py.createRouter routing providers = .ok s.2) (hread : Readable routing)
    (hnames : NamesGiven routing)
    (horder : routing.defaultChain ≠ [] ∨ providers.Pairwise (· ≤ ·))
    (hregular : Along step (fun s c => Regular s.1 c) s calls) :
    Along step Agree s calls ↔ Along step EndsAlike s calls := by
  refine Along.iff_of_invariant (fun s c h _ => Same.agree_call_iff h c) (fun s c h hc _ => ?_) calls s
    (same_start hr hp hread hnames horder) hregular
  exact h.step hc

/-- Both engines over the two budgets. -/
def twoBudgetEngines : Both ℤ := (.new Routing.twoBudgets, .new Routing.twoBudgets)

/-- The first budget is spent: both engines switch. -/
theorem ends_alike_one_spent :
    Along step EndsAlike twoBudgetEngines [.usage 0 "primary" 5, .resolve 0 "m" "c"] := by
  refine (agree_iff Routing.twoBudgets ["primary", "backup"] twoBudgetEngines _ rfl rfl
    ⟨by decide, by decide, by decide, by decide, rfl⟩
    ⟨by decide, by decide, by decide⟩ (.inl (by decide)) ?_).mp ?_
  · exact ⟨⟨by decide, by decide⟩, trivial, trivial⟩
  · exact ⟨trivial, rfl, trivial⟩

/-- A chain that is derived from the providers section. -/
def derivedChain : RoutingConfig ℤ where
  defaultChain := []
  modelMapping := []
  rules := []
  attackFailover := Routing.noFailover
  stateStore := "memory"

/-- The engines for a providers section that is not in the order of the names. -/
def derivedEngines : Both ℤ :=
  (.new (derivedChain.fill ["alpha", "zeta"]), .new (derivedChain.fill ["zeta", "alpha"]))

theorem engines_disagree :
    (Routing.AppState.buildRouter derivedChain ["zeta", "alpha"] = .ok derivedEngines.1 ∧
      Py.createRouter derivedChain ["zeta", "alpha"] = .ok derivedEngines.2 ∧
      ¬ Agree derivedEngines (.resolve 0 "m" "c")) ∧
    ¬ Along step Agree twoBudgetEngines
      [.usage 0 "primary" 5, .usage 0 "backup" 5, .resolve 0 "m" "c"] := by
  refine ⟨⟨rfl, rfl, ?_⟩, ?_⟩
  · intro h
    have hroutes : ("alpha", "m") = ("zeta", "m") := h
    exact absurd hroutes (by decide)
  · rintro ⟨-, -, hfalse, -⟩
    exact hfalse

end Runs

end FirewallLLM.Agreement
