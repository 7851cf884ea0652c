import FirewallLLM.RouterStores

/-! # A store that fails

`_safe` of `policy.py` puts a default in the place of what a failing operation of the store would
have returned: no override, no block, and the count zero.  A budget rule that the count zero
satisfies is then applied, although nothing has been read.

`resolve_dead_iff`: with every operation failing `resolve` answers as if the budget rules were not
there exactly when, at the first candidate to which they make a difference, the one side switches
to the provider to which the other one comes at a later candidate. -/

namespace FirewallLLM

/-! ### First answers -/

section FirstAnswers

variable {α β : Type} {f g : α → Option β}

/-- The first answer along the list is `b`. -/
def LeadsTo (f : α → Option β) (l : List α) (b : β) : Prop :=
  ∃ skipped a rest, l = skipped ++ a :: rest ∧ f a = some b ∧ ∀ x ∈ skipped, f x = none

/-- At the first place where the answers differ, one of the two has none, and comes to the answer
of the other later. -/
def Harmless (f g : α → Option β) (l : List α) : Prop :=
  ∀ skipped a rest, l = skipped ++ a :: rest → (∀ x ∈ skipped, f x = none ∧ g x = none) →
    f a = g a ∨ ∃ b, (f a = none ∧ g a = some b ∧ LeadsTo f rest b) ∨
      (g a = none ∧ f a = some b ∧ LeadsTo g rest b)

theorem leadsTo_iff {l : List α} {b : β} : LeadsTo f l b ↔ l.findSome? f = some b :=
  List.findSome?_eq_some_iff.symm

theorem harmless_nil : Harmless f g [] := by
  intro skipped a rest hsplit
  cases skipped <;> cases hsplit

theorem harmless_cons {x : α} {l : List α} :
    Harmless f g (x :: l) ↔
      (f x = g x ∨ ∃ b, (f x = none ∧ g x = some b ∧ LeadsTo f l b) ∨
        (g x = none ∧ f x = some b ∧ LeadsTo g l b)) ∧
      (f x = none → g x = none → Harmless f g l) := by
  constructor
  · intro h
    refine ⟨h [] x l rfl fun y hy => absurd hy List.not_mem_nil, fun hf hg => ?_⟩
    intro skipped a rest hsplit hskipped
    have hall : ∀ y ∈ x :: skipped, f y = none ∧ g y = none := by
      intro y hy
      rcases List.mem_cons.mp hy with rfl | hy
      · exact ⟨hf, hg⟩
      · exact hskipped y hy
    exact h (x :: skipped) a rest (congrArg (List.cons x) hsplit) hall
  · rintro ⟨hhead, htail⟩ skipped a rest hsplit hskipped
    cases skipped with
    | nil =>
        obtain ⟨rfl, rfl⟩ := List.cons.inj hsplit
        exact hhead
    | cons y skipped =>
        obtain ⟨rfl, rfl⟩ := List.cons.inj hsplit
        obtain ⟨hf, hg⟩ := hskipped x List.mem_cons_self
        exact htail hf hg skipped a rest rfl fun z hz => hskipped z (List.mem_cons_of_mem x hz)

/-- Two searches have the same result exactly when their differences are harmless. -/
theorem findSome?_eq_iff (l : List α) : l.findSome? f = l.findSome? g ↔ Harmless f g l := by
  induction l with
  | nil => exact iff_of_true rfl harmless_nil
  | cons x l ih =>
      rw [List.findSome?_cons, List.findSome?_cons, harmless_cons]
      cases hf : f x with
      | none =>
          cases hg : g x with
          | none => simpa using ih
          | some b => simp [leadsTo_iff]
      | some a =>
          cases hg : g x with
          | none => simp [leadsTo_iff, eq_comm]
          | some b => simp

end FirstAnswers

namespace Py

open Routing (Builtins RoutingRule RoutingConfig Threshold)
open Routing.Builtins (round)

/-! ### Operations that fail -/

/-- `RouterStateStore` with operations that may raise. -/
structure FallibleStore (S F : Type) where
  getOverride : S → F → Except Exn (Option (String × F))
  setOverride : S → String → F → Except Exn Unit × S
  clearOverride : S → Except Exn Unit × S
  blockSource : S → String → F → Except Exn Unit × S
  isBlocked : S → F → String → Except Exn Bool × S
  incrTokens : S → F → String → ℤ → Except Exn Unit × S
  getTokens : S → F → String → Except Exn ℤ

/-- `_safe`. -/
def safe {α : Type} (result : Except Exn α) (default : α) : α :=
  match result with
  | .ok value => value
  | .error _ => default

namespace FallibleStore

variable {S F : Type}

/-- The operations as `PolicyEngine` calls them. -/
def guarded (ops : FallibleStore S F) : RouterStateStore S F where
  getOverride s now := safe (ops.getOverride s now) none
  setOverride s provider untilTs := (ops.setOverride s provider untilTs).2
  clearOverride s := (ops.clearOverride s).2
  blockSource s client untilTs := (ops.blockSource s client untilTs).2
  isBlocked s now client :=
    (safe (ops.isBlocked s now client).1 false, (ops.isBlocked s now client).2)
  incrTokens s now provider amount := (ops.incrTokens s now provider amount).2
  getTokens s now provider := safe (ops.getTokens s now provider) 0

/-- Every operation raises. -/
structure Dead (ops : FallibleStore S F) : Prop where
  getOverride : ∀ s now, ∃ exc, ops.getOverride s now = .error exc
  setOverride : ∀ s provider untilTs, ∃ exc, (ops.setOverride s provider untilTs).1 = .error exc
  clearOverride : ∀ s, ∃ exc, (ops.clearOverride s).1 = .error exc
  blockSource : ∀ s client untilTs, ∃ exc, (ops.blockSource s client untilTs).1 = .error exc
  isBlocked : ∀ s now client, ∃ exc, (ops.isBlocked s now client).1 = .error exc
  incrTokens : ∀ s now provider amount,
    ∃ exc, (ops.incrTokens s now provider amount).1 = .error exc
  getTokens : ∀ s now provider, ∃ exc, ops.getTokens s now provider = .error exc

end FallibleStore

/-- The client is not blocked, and there is no override. -/
structure RouterStateStore.Vacant {S F : Type} (ops : RouterStateStore S F) (s : S) (now : F)
    (client : String) : Prop where
  unblocked : (ops.isBlocked s now client).1 = false
  noOverride : ops.getOverride (ops.isBlocked s now client).2 now = none

namespace FallibleStore.Dead

variable {S F : Type} {ops : FallibleStore S F}

theorem vacant (h : ops.Dead) (s : S) (now : F) (client : String) :
    ops.guarded.Vacant s now client := by
  constructor
  · obtain ⟨exc, hexc⟩ := h.isBlocked s now client
    dsimp only [guarded]
    rw [hexc, safe]
  · obtain ⟨exc, hexc⟩ := h.getOverride (ops.isBlocked s now client).2 now
    dsimp only [guarded]
    rw [hexc, safe]

theorem guarded_getTokens (h : ops.Dead) (s : S) (now : F) (provider : String) :
    ops.guarded.getTokens s now provider = 0 := by
  obtain ⟨exc, hexc⟩ := h.getTokens s now provider
  dsimp only [guarded]
  rw [hexc, safe]

end FallibleStore.Dead

/-! ### The rules -/

namespace Budgets

variable {F : Type}

/-- The rule is about the provider. -/
def names (rule : RoutingRule F) (provider : String) : Bool :=
  !(truthyName rule.when.provider).any (· ≠ provider)

/-- The rule has no condition on the tokens of the day. -/
def unbudgeted (rule : RoutingRule F) : Bool := rule.when.providerTokensToday.isNone

/-- What the rules that count make of a candidate: it serves, another provider does, or the next
candidate is tried. -/
def verdict (routing : RoutingConfig F) (counts : RoutingRule F → Bool) (candidate : String) :
    Option String :=
  match routing.rules.find? (fun rule => names rule candidate && counts rule) with
  | none => some candidate
  | some rule => (truthyName rule.action.switchTo).filter (· ∉ routing.chain)

/-- The configuration without the rules about the tokens of the day. -/
def withoutBudgets (routing : RoutingConfig F) : RoutingConfig F :=
  { routing with rules := routing.rules.filter unbudgeted }

theorem verdict_withoutBudgets (routing : RoutingConfig F) (candidate : String) :
    verdict (withoutBudgets routing) (fun _ => true) candidate =
      verdict routing unbudgeted candidate := by
  have hfind : (routing.rules.filter unbudgeted).find? (fun rule => names rule candidate && true) =
      routing.rules.find? (fun rule => names rule candidate && unbudgeted rule) := by
    rw [List.find?_filter]
    congr 1
    funext rule
    rw [Bool.and_true, Bool.and_comm, Bool.decide_and, Bool.decide_eq_true, Bool.decide_eq_true]
  unfold verdict withoutBudgets
  dsimp only
  rw [hfind]
  rfl

variable [Builtins F]

/-- The rule has no condition on the tokens of the day that the count zero does not satisfy. -/
def zeroSatisfies (rule : RoutingRule F) : Bool :=
  rule.when.providerTokensToday.all (·.matches (round 0))

/-- The answer for the provider that serves. -/
def answer (routing : RoutingConfig F) (requestedModel : String) :
    Option String → Except Exn (String × String)
  | some provider => .ok (provider, routing.concrete requestedModel provider)
  | none => .error (.quotaExceeded
      s!"all providers in chain {Builtins.repr F routing.chain} exceeded budget/rules")

theorem answer_injective (routing : RoutingConfig F) (requestedModel : String) :
    Function.Injective (answer routing requestedModel) := by
  intro a b h
  cases a <;> cases b <;> cases h <;> rfl

end Budgets

/-! ### The engine -/

namespace StoreEngine

open Budgets

variable {S F : Type} [Builtins F] {ops : RouterStateStore S F} {e : StoreEngine S F} {now : F}
  {counts : RoutingRule F → Bool}

theorem violatesRule_zero (hzero : ∀ s now provider, ops.getTokens s now provider = 0)
    (provider : String) (rule : RoutingRule F) :
    e.violatesRule ops now provider rule = .ok (names rule provider && zeroSatisfies rule) := by
  have hfloat : (PolicyEngine.toFloat 0 : Except Exn F) = .ok (round 0) := by
    unfold PolicyEngine.toFloat
    rw [if_pos (Builtins.fits_of_natAbs_le 0 (Nat.zero_le _))]
  unfold violatesRule names zeroSatisfies
  rw [hzero, hfloat]
  cases (truthyName rule.when.provider).any (· ≠ provider) with
  | true => rfl
  | false => cases rule.when.providerTokensToday <;> rfl

theorem violatesRule_unbudgeted {rule : RoutingRule F} (hrule : unbudgeted rule = true)
    (provider : String) :
    e.violatesRule ops now provider rule = .ok (names rule provider && true) := by
  have hnone : rule.when.providerTokensToday = none := Option.isNone_iff_eq_none.mp hrule
  unfold violatesRule names
  rw [hnone]
  cases (truthyName rule.when.provider).any (· ≠ provider) <;> rfl

theorem violating_eq {provider : String} {rules : List (RoutingRule F)}
    (hrules : ∀ rule ∈ rules,
      e.violatesRule ops now provider rule = .ok (names rule provider && counts rule)) :
    e.violating ops now provider rules =
      .ok (rules.filter fun rule => names rule provider && counts rule) := by
  induction rules with
  | nil => rfl
  | cons rule rules ih =>
      have hrest := ih fun r hr => hrules r (List.mem_cons_of_mem rule hr)
      rw [violating, hrules rule List.mem_cons_self, hrest, List.filter_cons]
      rfl

theorem turn_eq {candidate : String} (hrules : ∀ rule ∈ e.routing.rules,
      e.violatesRule ops now candidate rule = .ok (names rule candidate && counts rule)) :
    e.turn ops now e.routing.chain candidate = .ok (verdict e.routing counts candidate) := by
  have hhead := List.head?_filter (p := fun rule => names rule candidate && counts rule)
    (l := e.routing.rules)
  unfold turn verdict
  rw [violating_eq hrules, ← hhead]
  cases e.routing.rules.filter (fun rule => names rule candidate && counts rule) with
  | nil => rfl
  | cons rule rules =>
      cases htarget : truthyName rule.action.switchTo with
      | none => simp [htarget, bind, Except.bind, pure, Except.pure]
      | some target =>
          by_cases hmem : target ∈ e.routing.chain <;>
            simp [htarget, hmem, bind, Except.bind, pure, Except.pure, Option.filter]

theorem loop_eq {requestedModel : String} (hrules : ∀ candidate, ∀ rule ∈ e.routing.rules,
      e.violatesRule ops now candidate rule = .ok (names rule candidate && counts rule)) :
    e.loop ops now requestedModel e.routing.chain =
      answer e.routing requestedModel (e.routing.chain.findSome? (verdict e.routing counts)) := by
  have hfound : ∀ candidates : List String,
      candidates.findSomeM? (e.turn ops now e.routing.chain) =
        .ok (candidates.findSome? (verdict e.routing counts)) := by
    intro candidates
    induction candidates with
    | nil => rfl
    | cons candidate candidates ih =>
        rw [List.findSomeM?_cons, turn_eq (hrules candidate), List.findSome?_cons]
        cases verdict e.routing counts candidate with
        | none => exact ih
        | some provider => rfl
  unfold loop
  rw [hfound]
  cases e.routing.chain.findSome? (verdict e.routing counts) <;> rfl

theorem resolve_vacant {client requestedModel : String} (h : ops.Vacant e.store now client) :
    (e.resolve ops now requestedModel client).1 =
      StoreEngine.loop ops { e with store := (ops.isBlocked e.store now client).2 } now
        requestedModel e.routing.chain := by
  unfold resolve chainCandidates
  dsimp only
  rw [h.unblocked, h.noOverride]
  rfl

/-! ### The decision without a store -/

variable {S' : Type} {ops' : RouterStateStore S' F} {e' : StoreEngine S' F}

/-- With every operation failing the rules that the count zero satisfies decide. -/
theorem resolve_dead {ops : FallibleStore S F} (hdead : ops.Dead) (requestedModel client : String) :
    (e.resolve ops.guarded now requestedModel client).1 =
      answer e.routing requestedModel
        (e.routing.chain.findSome? (verdict e.routing zeroSatisfies)) := by
  rw [resolve_vacant (hdead.vacant e.store now client)]
  exact loop_eq (e := { e with store := (ops.guarded.isBlocked e.store now client).2 })
    fun candidate rule _ => violatesRule_zero hdead.guarded_getTokens candidate rule

theorem resolve_withoutBudgets {routing : RoutingConfig F}
    (hrouting : e.routing = withoutBudgets routing) {client : String}
    (hvacant : ops.Vacant e.store now client) (requestedModel : String) :
    (e.resolve ops now requestedModel client).1 =
      answer routing requestedModel (routing.chain.findSome? (verdict routing unbudgeted)) := by
  have hrules : ∀ candidate, ∀ rule ∈ e.routing.rules,
      StoreEngine.violatesRule ops { e with store := (ops.isBlocked e.store now client).2 } now
        candidate rule = .ok (names rule candidate && true) := by
    intro candidate rule hrule
    rw [hrouting] at hrule
    exact violatesRule_unbudgeted (List.of_mem_filter hrule) candidate
  rw [resolve_vacant hvacant,
    loop_eq (e := { e with store := (ops.isBlocked e.store now client).2 }) hrules, hrouting,
    funext (verdict_withoutBudgets routing)]
  rfl

/-- **A dead store is as good as no budget rules exactly when the rules that the count zero
satisfies change no provider.** -/
theorem resolve_dead_iff {ops : FallibleStore S F} (hdead : ops.Dead)
    (hrouting : e'.routing = withoutBudgets e.routing) {requestedModel client : String}
    (hvacant : ops'.Vacant e'.store now client) :
    (e.resolve ops.guarded now requestedModel client).1 =
        (e'.resolve ops' now requestedModel client).1 ↔
      Harmless (verdict e.routing zeroSatisfies) (verdict e.routing unbudgeted)
        e.routing.chain := by
  rw [resolve_dead hdead, resolve_withoutBudgets hrouting hvacant]
  exact (answer_injective e.routing requestedModel).eq_iff.trans (findSome?_eq_iff _)

/-! ### Two budgets -/

/-- A store that cannot be reached. -/
def unreachable : FallibleStore Unit ℤ where
  getOverride _ _ := .error (.other "ConnectionError" "")
  setOverride s _ _ := (.error (.other "ConnectionError" ""), s)
  clearOverride s := (.error (.other "ConnectionError" ""), s)
  blockSource s _ _ := (.error (.other "ConnectionError" ""), s)
  isBlocked s _ _ := (.error (.other "ConnectionError" ""), s)
  incrTokens s _ _ _ := (.error (.other "ConnectionError" ""), s)
  getTokens _ _ _ := .error (.other "ConnectionError" "")

theorem dead_unreachable : unreachable.Dead where
  getOverride _ _ := ⟨_, rfl⟩
  setOverride _ _ _ := ⟨_, rfl⟩
  clearOverride _ := ⟨_, rfl⟩
  blockSource _ _ _ := ⟨_, rfl⟩
  isBlocked _ _ _ := ⟨_, rfl⟩
  incrTokens _ _ _ _ := ⟨_, rfl⟩
  getTokens _ _ _ := ⟨_, rfl⟩

/-- A primary provider with a rule on the tokens of its day, and a backup. -/
def budgeted (threshold : Threshold ℤ) : RoutingConfig ℤ where
  defaultChain := ["primary", "backup"]
  modelMapping := []
  rules := [⟨⟨some "primary", some threshold⟩, ⟨true, none⟩⟩]
  attackFailover := Routing.noFailover
  stateStore := "redis"

/-- A budget for which the count must be above one. -/
theorem resolve_dead_above :
    ((⟨budgeted ⟨some 1, none, none, none⟩, (), fun _ => []⟩ : StoreEngine Unit ℤ).resolve
        unreachable.guarded 0 "m" "alice").1 =
      ((PolicyEngine.new (withoutBudgets (budgeted ⟨some 1, none, none, none⟩))).overMemory.resolve
        memory 0 "m" "alice").1 :=
  (resolve_dead_iff dead_unreachable rfl ⟨by decide, rfl⟩).mpr
    ((findSome?_eq_iff _).mp (by decide))

/-- A rule for a count below ten is applied to a count that nobody could read. -/
theorem unread_count_decides :
    ¬ ∀ (routing : RoutingConfig ℤ) (requestedModel client : String),
      ((⟨routing, (), fun _ => []⟩ : StoreEngine Unit ℤ).resolve unreachable.guarded 0
          requestedModel client).1 =
        ((PolicyEngine.new (withoutBudgets routing)).overMemory.resolve memory 0
          requestedModel client).1 := by
  intro h
  have hbelow := h (budgeted ⟨none, none, some 10, none⟩) "m" "alice"
  rw [resolve_dead dead_unreachable, resolve_withoutBudgets rfl ⟨by decide, rfl⟩] at hbelow
  exact absurd (answer_injective _ _ hbelow) (by decide)

end StoreEngine

end Py

end FirewallLLM
