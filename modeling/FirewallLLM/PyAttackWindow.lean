import FirewallLLM.AttackWindow

/-! # Attack failover of the Python router

The engine of `policy.py` keeps the same book as the Rust engine.  A severity that is not in the
table raises and changes nothing.

`sliding_window`: after every run of either engine, the next attack triggers, the next request is
refused, and the override is the first candidate, exactly when the history says so.  The readings
are from 1970 on: both engines compare the clock with a default of zero for a client without a
block, so that before 1970 every client is refused (`blocked_before_epoch`). -/

namespace FirewallLLM.Py

open Routing (Builtins Exact Book Call RoutingConfig AttackFailoverConfig Legal severities history)
open Routing.Builtins (lt add zero fits)

/-- The severity of an attack is known and qualifies. -/
def reaches (af : AttackFailoverConfig) (severity : String) : Bool :=
  match severities.lookup severity, severities.lookup af.minSeverity with
  | some rank, some minRank => minRank ≤ rank
  | _, _ => false

namespace PolicyEngine

variable {F : Type} [Ring F] [LinearOrder F] [Builtins F]

/-- The provider that is in front of the chain. -/
def front (e : PolicyEngine F) (now : F) : Option String :=
  e.store.override.bind (fun o => if lt now o.2 then some o.1 else none)

/-- What the engine does on a trigger. -/
def trigger (e : PolicyEngine F) (now : F) (client : String) : PolicyEngine F :=
  (({ e with attackTimes := Function.update e.attackTimes client [] }.blockSource now
    client).1.switchProvider now).1

/-- What the engine does on an attack that does not trigger. -/
def note (e : PolicyEngine F) (now : F) (client : String) : PolicyEngine F :=
  { e with
    attackTimes := Function.update e.attackTimes client
      (e.recentAttacks now (Builtins.round e.routing.attackFailover.windowSeconds) client) }

/-- The engine does at `now` what the history says. -/
structure Slides (e : PolicyEngine F) (h : List (SlidingWindow.Event F String)) (now : F) : Prop where
  attack : ∀ severity client, (e.onAttackDetected now severity client).1 =
    if reaches e.routing.attackFailover severity then
      if (e.routing.attackFailover.window F).fires now
          ((e.routing.attackFailover.window F).since client h) then e.trigger now client
      else e.note now client
    else e
  refused : ∀ model client,
    (∃ msg code, (e.resolve now model client).1 = .error (.blocked msg code)) ↔
      e.routing.attackFailover.Blocks h now client
  front : ∀ target, truthyName e.routing.attackFailover.switchTo = some target →
    (e.routing.attackFailover.Overrides h now →
      e.chainCandidates now = target :: e.routing.chain.filter (· ≠ target)) ∧
    (¬ e.routing.attackFailover.Overrides h now → e.chainCandidates now = e.routing.chain)

/-- The book of the engine. -/
def book (e : PolicyEngine F) : Book F where
  times := e.attackTimes
  blocked := fun client t => e.isBlocked t client = true
  front := e.front

variable {e : PolicyEngine F} {now : F} {client : String}

omit [Ring F] [LinearOrder F] in
theorem chainCandidates_eq (e : PolicyEngine F) (now : F) :
    e.chainCandidates now = (e.front now).elim e.routing.chain
      (fun provider => provider :: e.routing.chain.filter (· ≠ provider)) := by
  unfold chainCandidates front
  cases e.store.override with
  | none => rfl
  | some o => cases hlt : lt now o.2 <;> simp [hlt]

variable [Exact F]

theorem toFloat_eq (n : ℤ) : (toFloat n : Except Exn F) = .ok (n : F) := by
  unfold toFloat
  rw [if_pos (Exact.fits_eq n), Exact.round_eq]

theorem recentAttacks_eq (e : PolicyEngine F) (now : F) (client : String) :
    e.recentAttacks now (Builtins.round e.routing.attackFailover.windowSeconds) client =
      (e.routing.attackFailover.window F).within now (e.attackTimes client) ++ [now] := by
  unfold recentAttacks SlidingWindow.within AttackFailoverConfig.window
  simp only [Exact.le_eq, Exact.sub_eq, Exact.round_eq]

theorem blockSource_eq (e : PolicyEngine F) (now : F) (client : String) :
    e.blockSource now client = ({ e with
      store := { e.store with
        blocked := if e.routing.attackFailover.blockSource && client ≠ "" then
            Function.update e.store.blocked client
              (some (now + (e.routing.attackFailover.blockTtlSeconds : F)))
          else e.store.blocked } }, none) := by
  unfold blockSource
  rw [toFloat_eq]
  split_ifs
  · simp only [Exact.add_eq]
  · rfl

theorem switchProvider_eq (e : PolicyEngine F) (now : F) :
    e.switchProvider now = ({ e with
      store := { e.store with
        override := (truthyName e.routing.attackFailover.switchTo).elim e.store.override
          (fun target => some (target,
            now + (e.routing.attackFailover.cooldownSeconds : F))) } }, none) := by
  unfold switchProvider
  rw [toFloat_eq]
  cases truthyName e.routing.attackFailover.switchTo with
  | none => rfl
  | some target => simp only [Exact.add_eq, Option.elim_some]

/-- An attack is noted, or it triggers. -/
theorem onAttackDetected_eq (henabled : e.routing.attackFailover.enabled = true)
    (now : F) (severity client : String) :
    (e.onAttackDetected now severity client).1 =
      if reaches e.routing.attackFailover severity then
        if (e.routing.attackFailover.window F).fires now (e.attackTimes client) then
          e.trigger now client
        else e.note now client
      else e := by
  have hfires : (e.routing.attackFailover.window F).fires now (e.attackTimes client) =
      !decide ((e.recentAttacks now (Builtins.round e.routing.attackFailover.windowSeconds)
        client).length < e.routing.attackFailover.count) := by
    rw [SlidingWindow.fires, recentAttacks_eq, List.length_append, ← decide_not]
    congr 1
    simp [AttackFailoverConfig.window]
  unfold onAttackDetected reaches trigger note
  dsimp only
  rw [hfires, henabled, toFloat_eq, ← Exact.round_eq]
  cases severities.lookup severity with
  | none => rfl
  | some rank =>
      cases severities.lookup e.routing.attackFailover.minSeverity with
      | none => rfl
      | some minRank =>
          by_cases hrank : rank < minRank
          · simp [hrank, Nat.not_le.mpr hrank]
          · by_cases hcount : ((e.recentAttacks now
                (Builtins.round e.routing.attackFailover.windowSeconds) client).length : ℤ) <
                e.routing.attackFailover.count
            · simp [hrank, Nat.not_lt.mp hrank, hcount]
            · simp [hrank, Nat.not_lt.mp hrank, hcount, blockSource_eq, switchProvider_eq]

theorem book_note (e : PolicyEngine F) (now : F) (client : String) :
    (e.note now client).book = e.book.note e.routing.attackFailover now client := by
  unfold note book Book.note
  rw [recentAttacks_eq]
  rfl

theorem book_trigger (e : PolicyEngine F) (now : F) (client : String) :
    (e.trigger now client).book = e.book.trigger e.routing.attackFailover
      (truthyName e.routing.attackFailover.switchTo) now client := by
  have hblocked : (fun c t => lt t (((if e.routing.attackFailover.blockSource && client ≠ "" then
        Function.update e.store.blocked client
          (some (now + (e.routing.attackFailover.blockTtlSeconds : F)))
        else e.store.blocked) c).getD zero) = true) =
      if e.routing.attackFailover.blockSource && client ≠ "" then
        Function.update (fun c t => e.isBlocked t c = true) client
          (fun t => t < now + (e.routing.attackFailover.blockTtlSeconds : F))
      else fun c t => e.isBlocked t c = true := by
    split_ifs
    · funext c t
      by_cases hc : c = client
      · subst hc
        simp [Exact.lt_eq]
      · rw [Function.update_of_ne hc, Function.update_of_ne hc]
        rfl
    · rfl
  unfold trigger
  rw [blockSource_eq, switchProvider_eq]
  unfold Book.trigger book
  dsimp only
  rw [← hblocked]
  cases truthyName e.routing.attackFailover.switchTo with
  | none => rfl
  | some target =>
      congr 1
      funext t
      simp [front, Exact.lt_eq]

theorem routing_trigger (e : PolicyEngine F) (now : F) (client : String) :
    (e.trigger now client).routing = e.routing := by
  unfold trigger
  rw [blockSource_eq, switchProvider_eq]

theorem front_expireOverride (e : PolicyEngine F) {now t : F} (ht : now ≤ t) :
    (e.expireOverride now).front t = e.front t := by
  unfold expireOverride front
  cases hover : e.store.override with
  | none => simp only [hover]
  | some o =>
      simp only [Exact.lt_eq, decide_eq_true_eq]
      split_ifs with hnow
      · rw [hover]
      · have hlt : ¬ t < o.2 := fun hlt => hnow (ht.trans_lt hlt)
        simp [hlt]

/-! ### Refusals -/

/-- Without overflow no rule raises. -/
theorem violating_ok (e : PolicyEngine F) (now : F) (provider : String)
    (rules : List (Routing.RoutingRule F)) : ∃ l, e.violating now provider rules = .ok l := by
  induction rules with
  | nil => exact ⟨[], rfl⟩
  | cons rule rules ih =>
      obtain ⟨l, hl⟩ := ih
      have hrule : ∃ b, e.violatesRule now provider rule = .ok b := by
        unfold violatesRule
        split_ifs
        · exact ⟨_, rfl⟩
        · cases rule.when.providerTokensToday with
          | none => exact ⟨_, rfl⟩
          | some threshold =>
              dsimp only
              rw [toFloat_eq]
              exact ⟨_, rfl⟩
      obtain ⟨b, hb⟩ := hrule
      refine ⟨if b then rule :: l else l, ?_⟩
      rw [violating, hb, hl]
      rfl

theorem turn_ok (e : PolicyEngine F) (now : F) (candidate : String) :
    ∃ o, e.turn now candidate = .ok o := by
  obtain ⟨l, hl⟩ := e.violating_ok now candidate e.routing.rules
  unfold turn
  rw [hl]
  cases l with
  | nil => exact ⟨_, rfl⟩
  | cons rule rest =>
      cases hswitch : truthyName rule.action.switchTo with
      | none => exact ⟨none, by simp [bind, Except.bind, hswitch, pure, Except.pure]⟩
      | some switchTo =>
          by_cases hmem : switchTo ∈ e.chainCandidates now
          · exact ⟨none, by simp [bind, Except.bind, hswitch, hmem, pure, Except.pure]⟩
          · exact ⟨some switchTo, by simp [bind, Except.bind, hswitch, hmem, pure, Except.pure]⟩

theorem findSomeM?_ok (e : PolicyEngine F) (now : F) (candidates : List String) :
    ∃ o, candidates.findSomeM? (e.turn now) = .ok o := by
  induction candidates with
  | nil => exact ⟨none, rfl⟩
  | cons candidate rest ih =>
      obtain ⟨o, ho⟩ := e.turn_ok now candidate
      rw [List.findSomeM?_cons, ho]
      cases o with
      | none => exact ih
      | some provider => exact ⟨some provider, rfl⟩

theorem resolve_blocked_iff (e : PolicyEngine F) (now : F) (model client : String) :
    (∃ msg code, (e.resolve now model client).1 = .error (.blocked msg code)) ↔
      e.isBlocked now client = true := by
  obtain ⟨o, ho⟩ := e.findSomeM?_ok now (e.chainCandidates now)
  unfold resolve
  split_ifs with hblocked
  · simp [hblocked]
  · dsimp only
    rw [ho]
    cases o with
    | none => simp [hblocked]
    | some provider => simp [hblocked]

omit [Ring F] [LinearOrder F] [Exact F] in
theorem resolve_snd (e : PolicyEngine F) (now : F) (model client : String) :
    (e.resolve now model client).2 = e ∨
      (e.resolve now model client).2 = e.expireOverride now := by
  unfold resolve
  split_ifs
  · exact .inl rfl
  · exact .inr rfl

/-! ### Runs -/

variable [IsStrictOrderedRing F] {routing : RoutingConfig F} {calls : List (Call F ℤ)}

theorem keeps_run (henabled : routing.attackFailover.enabled = true) (hlegal : Legal calls now) :
    (calls.foldl step (new routing)).routing = routing ∧
      (calls.foldl step (new routing)).book.Keeps routing.attackFailover
        (truthyName routing.attackFailover.switchTo)
        (history (reaches routing.attackFailover) calls) now := by
  induction hlegal with
  | nil =>
      refine ⟨rfl, Book.keeps_nil _ _ _ rfl (fun client t ht => ?_) rfl⟩
      simpa [book, isBlocked, new, Exact.lt_eq, Exact.zero_eq] using ht
  | @snoc calls now call hlegal hle ih =>
      obtain ⟨hroute, hkeeps⟩ := ih
      rw [List.foldl_append, List.foldl_cons, List.foldl_nil]
      generalize calls.foldl step (new routing) = e at *
      subst hroute
      cases call with
      | usage t provider totalTokens =>
          rw [Routing.history_other rfl]
          exact ⟨rfl, hkeeps.mono hle rfl rfl (fun _ _ => rfl)⟩
      | attack t severity client =>
          rw [Routing.history_attack, step, onAttackDetected_eq henabled]
          have hfires := hkeeps.fires_eq hle client
          cases reaches e.routing.attackFailover severity with
          | false => exact ⟨rfl, hkeeps.mono hle rfl rfl (fun _ _ => rfl)⟩
          | true =>
              rw [if_pos rfl, if_pos rfl]
              split_ifs with hf
              · rw [book_trigger, routing_trigger]
                exact ⟨rfl, hkeeps.trigger hle (hfires.symm.trans hf)⟩
              · rw [book_note]
                exact ⟨rfl, hkeeps.note hle (hfires.symm.trans (Bool.eq_false_iff.mpr hf))⟩
      | resolve t model client =>
          rw [Routing.history_other rfl, step]
          rcases e.resolve_snd t model client with h | h
          · rw [h]
            exact ⟨rfl, hkeeps.mono hle rfl rfl (fun _ _ => rfl)⟩
          · rw [h]
            refine ⟨?_, hkeeps.mono hle ?_ ?_ (fun t' ht' => e.front_expireOverride ht')⟩
            all_goals
              unfold expireOverride
              cases e.store.override with
              | none => rfl
              | some o =>
                  dsimp only
                  split_ifs <;> rfl

theorem Slides.of_keeps (henabled : e.routing.attackFailover.enabled = true)
    {h : List (SlidingWindow.Event F String)} {past : F} (hkeeps : e.book.Keeps e.routing.attackFailover
      (truthyName e.routing.attackFailover.switchTo) h past) (hle : past ≤ now) :
    e.Slides h now where
  attack := fun severity client => by
    rw [onAttackDetected_eq henabled, ← hkeeps.fires_eq hle client]
    rfl
  refused := fun model client => by
    rw [resolve_blocked_iff, ← hkeeps.blocks_iff hle client]
    rfl
  front := fun target htarget => by
    have hfront := fun p => hkeeps.front now p hle
    rw [htarget] at hfront
    rw [chainCandidates_eq]
    constructor
    · intro hover
      have hp : e.front now = some target := (hfront target).mpr ⟨rfl, hover⟩
      rw [hp, Option.elim_some]
    · intro hover
      have hp : e.front now = none :=
        Option.eq_none_iff_forall_ne_some.mpr fun p hp => hover ((hfront p).mp hp).2
      rw [hp, Option.elim_none]

end PolicyEngine

end FirewallLLM.Py

namespace FirewallLLM.Routing

variable {F : Type} [Builtins F] [Ring F] [LinearOrder F] [IsStrictOrderedRing F] [Exact F]

/-- **Both engines are the sliding window: after every run, an attack triggers, a request is
refused and the override is the first candidate exactly when the history of the qualifying
attacks says so, and the block of a client depends on its own attacks only.** -/
theorem sliding_window (routing : RoutingConfig F)
    (henabled : routing.attackFailover.enabled = true) :
    (∀ (calls : List (Call F Int64)) (past now : F), Legal calls past → past ≤ now →
      (calls.foldl PolicyEngine.step (PolicyEngine.new routing)).routing = routing ∧
      (calls.foldl PolicyEngine.step (PolicyEngine.new routing)).Slides
        (history routing.attackFailover.reaches calls) now) ∧
    (∀ (calls : List (Call F ℤ)) (past now : F), Legal calls past → past ≤ now →
      (calls.foldl Py.PolicyEngine.step (Py.PolicyEngine.new routing)).routing = routing ∧
      (calls.foldl Py.PolicyEngine.step (Py.PolicyEngine.new routing)).Slides
        (history (Py.reaches routing.attackFailover) calls) now) ∧
    ∀ (h : List (SlidingWindow.Event F String)) (now : F) (client : String),
      routing.attackFailover.Blocks h now client ↔
        routing.attackFailover.Blocks (h.filter (·.key = client)) now client := by
  refine ⟨fun calls past now hlegal hle => ?_, fun calls past now hlegal hle => ?_,
    fun h now client => ?_⟩
  · obtain ⟨hroute, hkeeps⟩ := PolicyEngine.keeps_run henabled hlegal
    generalize calls.foldl PolicyEngine.step (PolicyEngine.new routing) = e at *
    subst hroute
    exact ⟨rfl, .of_keeps henabled hkeeps hle⟩
  · obtain ⟨hroute, hkeeps⟩ := Py.PolicyEngine.keeps_run henabled hlegal
    generalize calls.foldl Py.PolicyEngine.step (Py.PolicyEngine.new routing) = e at *
    subst hroute
    exact ⟨rfl, .of_keeps henabled hkeeps hle⟩
  · rw [AttackFailoverConfig.Blocks, AttackFailoverConfig.Blocks, SlidingWindow.triggers_own]

/-! ### Two attacks at the ends of the window -/

instance exactIntegers : Exact ℤ where
  lt_eq _ _ := rfl
  le_eq _ _ := rfl
  add_eq _ _ := rfl
  sub_eq _ _ := rfl
  zero_eq := rfl
  round_eq _ := rfl
  fits_eq _ := rfl

/-- Two attacks within ten seconds block their source for twenty and switch for five. -/
def twoAttacks : RoutingConfig ℤ where
  defaultChain := ["primary", "backup"]
  modelMapping := []
  rules := []
  attackFailover := ⟨true, 2, 10, "high", some "backup", true, 20, 5⟩
  stateStore := "memory"

/-- The second attack comes when the first one is just within the window. -/
def atTheEdge {N : Type} : List (Call ℤ N) := [.attack 5 "high" "c", .attack 15 "critical" "c"]

theorem legal_atTheEdge {N : Type} : Legal (atTheEdge : List (Call ℤ N)) 15 :=
  .snoc (.snoc .nil (by decide : (0 : ℤ) ≤ 5)) (by decide : (5 : ℤ) ≤ 15)

/-- The last second of the block, and the first one after it. -/
theorem blocked_atTheEdge :
    ((∃ msg, (((atTheEdge.foldl PolicyEngine.step (PolicyEngine.new twoAttacks)).resolve 34 "m"
        "c").1 = .error (.blocked msg))) ↔
      twoAttacks.attackFailover.Blocks (history twoAttacks.attackFailover.reaches
        (atTheEdge : List (Call ℤ Int64))) 34 "c") ∧
    ((∃ msg code, (((atTheEdge.foldl Py.PolicyEngine.step
        (Py.PolicyEngine.new twoAttacks)).resolve 35 "m" "c").1 = .error (.blocked msg code))) ↔
      twoAttacks.attackFailover.Blocks (history (Py.reaches twoAttacks.attackFailover)
        (atTheEdge : List (Call ℤ ℤ))) 35 "c") := by
  obtain ⟨hrust, hpy, -⟩ := sliding_window twoAttacks rfl
  exact ⟨(hrust atTheEdge 15 34 legal_atTheEdge (by decide)).2.refused "m" "c",
    (hpy atTheEdge 15 35 legal_atTheEdge (by decide)).2.refused "m" "c"⟩

/-- A second before 1970 a client without an attack is refused. -/
theorem blocked_before_epoch :
    ¬ ∀ (routing : RoutingConfig ℤ), routing.attackFailover.enabled = true →
      ∀ (calls : List (Call ℤ Int64)) (now : ℤ) (model client : String),
        (calls.map Call.time ++ [now]).Pairwise (· ≤ ·) →
        ((∃ msg, ((calls.foldl PolicyEngine.step (PolicyEngine.new routing)).resolve now model
            client).1 = .error (.blocked msg)) ↔
          routing.attackFailover.Blocks (history routing.attackFailover.reaches calls) now
            client) := by
  intro h
  obtain ⟨-, -, t, ht, -⟩ := (h twoAttacks rfl [] (-1) "m" "c" (List.pairwise_singleton _ _)).mp
    ⟨_, rfl⟩
  cases ht

end FirewallLLM.Routing
