import FirewallLLM.PyRouter
import FirewallLLM.SlidingWindow
import Mathlib.Algebra.Order.Ring.Int

/-! # Attack failover as a sliding window

`SlidingWindow` says which attacks of a history trigger.  Both engines keep the attacks of each
client, the time until which it is blocked and the time until which the override is in force;
`Book` is what these come to, and `Book.Keeps` relates it to the history.  Times are exact, start
at 1970 and do not decrease.

`keeps_run`: the book of the Rust engine is right after every run. -/

namespace FirewallLLM.Routing

open SlidingWindow (Event Later Chronological)
open Builtins (lt le add sub zero fits)

/-- Times are computed without rounding. -/
class Exact (F : Type) [Builtins F] [Ring F] [LinearOrder F] : Prop where
  lt_eq : ∀ a b : F, lt a b = decide (a < b)
  le_eq : ∀ a b : F, le a b = decide (a ≤ b)
  add_eq : ∀ a b : F, add a b = a + b
  sub_eq : ∀ a b : F, sub a b = a - b
  zero_eq : (zero : F) = 0
  round_eq : ∀ n : ℤ, Builtins.round n = (n : F)
  fits_eq : ∀ n : ℤ, fits F n = true

/-! ### Histories -/

/-- The clock reading of a call. -/
def Call.time {F N : Type} : Call F N → F
  | .usage now _ _ => now
  | .attack now _ _ => now
  | .resolve now _ _ => now

/-- An attack whose severity qualifies is an event of its client. -/
def Call.event {F N : Type} (qualifies : String → Bool) : Call F N → Option (Event F String)
  | .attack now severity client => if qualifies severity then some ⟨now, client⟩ else none
  | _ => none

/-- The events of a run, the newest first. -/
def history {F N : Type} (qualifies : String → Bool) (calls : List (Call F N)) :
    List (Event F String) :=
  calls.reverse.filterMap (Call.event qualifies)

/-- The clock counts from 1970 and never goes back; `now` is its last reading. -/
inductive Legal {F N : Type} [Ring F] [LinearOrder F] : List (Call F N) → F → Prop
  | nil : Legal [] 0
  | snoc {calls : List (Call F N)} {now : F} {call : Call F N} :
      Legal calls now → now ≤ call.time → Legal (calls ++ [call]) call.time

theorem history_attack {F N : Type} (qualifies : String → Bool) (calls : List (Call F N)) (now : F)
    (severity client : String) : history qualifies (calls ++ [.attack now severity client]) =
      if qualifies severity then ⟨now, client⟩ :: history qualifies calls
      else history qualifies calls := by
  unfold history
  rw [List.reverse_append, List.reverse_singleton, List.singleton_append, List.filterMap_cons,
    Call.event]
  cases qualifies severity <;> rfl

theorem history_other {F N : Type} {qualifies : String → Bool} {call : Call F N}
    (h : call.event qualifies = none) (calls : List (Call F N)) :
    history qualifies (calls ++ [call]) = history qualifies calls := by
  unfold history
  rw [List.reverse_append, List.reverse_singleton, List.singleton_append, List.filterMap_cons, h]

variable {F : Type} [Ring F] [LinearOrder F]

/-- The window of a configuration. -/
def AttackFailoverConfig.window (F : Type) [Ring F] (af : AttackFailoverConfig) :
    SlidingWindow F :=
  ⟨af.count, af.windowSeconds⟩

/-- Some trigger of the client happened less than the block's lifetime ago. -/
def AttackFailoverConfig.Blocks (af : AttackFailoverConfig) (h : List (Event F String))
    (now : F) (client : String) : Prop :=
  af.blockSource = true ∧ client ≠ "" ∧
    ∃ s ∈ (af.window F).triggers client h, s ≤ now ∧ now < s + af.blockTtlSeconds

/-- The last trigger of any client happened less than the cooldown ago. -/
def AttackFailoverConfig.Overrides (af : AttackFailoverConfig) (h : List (Event F String))
    (now : F) : Prop :=
  ∃ s, ((af.window F).allTriggers h).head? = some s ∧ now < s + af.cooldownSeconds

/-! ### The book of an engine -/

/-- What an engine keeps about attacks: their times, the blocks, and the provider that is in
front of the chain. -/
structure Book (F : Type) where
  times : String → List F
  blocked : String → F → Prop
  front : F → Option String

namespace Book

/-- A trigger clears the times, blocks its source and puts the target in front. -/
def trigger (b : Book F) (af : AttackFailoverConfig) (target : Option String) (now : F)
    (client : String) : Book F where
  times := Function.update b.times client []
  blocked :=
    if af.blockSource && client ≠ "" then
      Function.update b.blocked client (fun t => t < now + af.blockTtlSeconds)
    else b.blocked
  front := match target with
    | some provider => fun t => if t < now + af.cooldownSeconds then some provider else none
    | none => b.front

/-- An attack that does not trigger is noted. -/
def note (b : Book F) (af : AttackFailoverConfig) (now : F) (client : String) : Book F :=
  { b with
    times := Function.update b.times client ((af.window F).within now (b.times client) ++ [now]) }

/-- The book is right about the history from `now` on. -/
structure Keeps (b : Book F) (af : AttackFailoverConfig) (target : Option String)
    (h : List (Event F String)) (now : F) : Prop where
  ordered : Chronological h
  past : Later now h
  tracks : (af.window F).Tracks h b.times
  blocked : ∀ client t, now ≤ t → (b.blocked client t ↔ af.blockSource = true ∧ client ≠ "" ∧
    ∃ s, ((af.window F).triggers client h).head? = some s ∧ t < s + af.blockTtlSeconds)
  front : ∀ t provider, now ≤ t →
    (b.front t = some provider ↔ target = some provider ∧ af.Overrides h t)

variable {b b' : Book F} {af : AttackFailoverConfig} {target : Option String}
  {h : List (Event F String)} {now now' : F} {client : String}

theorem Keeps.mono (hb : b.Keeps af target h now) (hnow : now ≤ now')
    (htimes : b'.times = b.times) (hblocked : b'.blocked = b.blocked)
    (hfront : ∀ t, now' ≤ t → b'.front t = b.front t) : b'.Keeps af target h now' where
  ordered := hb.ordered
  past := fun a ha => (hb.past a ha).trans hnow
  tracks := htimes ▸ hb.tracks
  blocked := fun client t ht => by rw [hblocked, hb.blocked client t (hnow.trans ht)]
  front := fun t provider ht => by rw [hfront t ht, hb.front t provider (hnow.trans ht)]

theorem Keeps.fires_eq (hb : b.Keeps af target h now) (hnow : now ≤ now') (client : String) :
    (af.window F).fires now' (b.times client) =
      (af.window F).fires now' ((af.window F).since client h) :=
  hb.tracks.fires_eq (fun a ha => (hb.past a ha).trans hnow) client

variable [IsStrictOrderedRing F]

theorem Keeps.blocks_iff (hb : b.Keeps af target h now) (hnow : now ≤ now') (client : String) :
    b.blocked client now' ↔ af.Blocks h now' client := by
  have hpast : Later now' h := fun a ha => (hb.past a ha).trans hnow
  rw [hb.blocked client now' hnow, AttackFailoverConfig.Blocks,
    SlidingWindow.exists_trigger_iff hb.ordered hpast]

theorem Keeps.cons (hb : b.Keeps af target h now) (hnow : now ≤ now') (client : String) :
    Chronological (⟨now', client⟩ :: h) ∧ Later now' (⟨now', client⟩ :: h) ∧
      (af.window F).Tracks (⟨now', client⟩ :: h)
        (Function.update b.times client ((af.window F).keep now' (b.times client))) := by
  have hpast : Later now' h := fun a ha => (hb.past a ha).trans hnow
  refine ⟨List.pairwise_cons.mpr ⟨hpast, hb.ordered⟩, List.forall_mem_cons.mpr ⟨le_rfl, hpast⟩, ?_⟩
  exact SlidingWindow.Tracks.cons (a := ⟨now', client⟩) hb.tracks hpast

theorem Keeps.note (hb : b.Keeps af target h now) (hnow : now ≤ now')
    (hfires : (af.window F).fires now' ((af.window F).since client h) = false) :
    (b.note af now' client).Keeps af target (⟨now', client⟩ :: h) now' := by
  obtain ⟨hord, hpast, htr⟩ := hb.cons hnow client
  rw [SlidingWindow.keep, hb.fires_eq hnow, hfires, if_neg Bool.false_ne_true] at htr
  refine ⟨hord, hpast, htr, fun c t ht => ?_, fun t provider ht => ?_⟩
  · rw [SlidingWindow.triggers, hfires, Bool.and_false, if_neg Bool.false_ne_true]
    exact hb.blocked c t (hnow.trans ht)
  · rw [AttackFailoverConfig.Overrides, SlidingWindow.allTriggers, hfires,
      if_neg Bool.false_ne_true]
    exact hb.front t provider (hnow.trans ht)

theorem keeps_nil (b : Book F) (af : AttackFailoverConfig) (target : Option String)
    (htimes : b.times = fun _ => []) (hblocked : ∀ client t, 0 ≤ t → ¬ b.blocked client t)
    (hfront : b.front = fun _ => none) : b.Keeps af target [] 0 where
  ordered := List.Pairwise.nil
  past := by simp [Later]
  tracks := htimes ▸ SlidingWindow.Tracks.nil
  blocked := fun client t ht => by simp [hblocked client t ht, SlidingWindow.triggers]
  front := fun t provider _ => by
    simp [hfront, AttackFailoverConfig.Overrides, SlidingWindow.allTriggers]

theorem Keeps.trigger (hb : b.Keeps af target h now) (hnow : now ≤ now')
    (hfires : (af.window F).fires now' ((af.window F).since client h) = true) :
    (b.trigger af target now' client).Keeps af target (⟨now', client⟩ :: h) now' := by
  obtain ⟨hord, hpast, htr⟩ := hb.cons hnow client
  rw [SlidingWindow.keep, hb.fires_eq hnow, hfires, if_pos rfl] at htr
  refine ⟨hord, hpast, htr, fun c t ht => ?_, fun t provider ht => ?_⟩
  · rw [SlidingWindow.triggers, hfires, Bool.and_true]
    unfold Book.trigger
    dsimp only
    have hold := hb.blocked c t (hnow.trans ht)
    by_cases hc : client = c
    · subst hc
      by_cases hblock : (af.blockSource && client ≠ "") = true
      · obtain ⟨hsource, hempty⟩ := (Bool.and_eq_true _ _).mp hblock
        have hne : client ≠ "" := of_decide_eq_true hempty
        simp [hsource, hne]
      · rw [if_neg hblock, hold]
        rw [Bool.and_eq_true, decide_eq_true_eq] at hblock
        constructor
        · rintro ⟨hsource, hne, -⟩
          exact absurd ⟨hsource, hne⟩ hblock
        · rintro ⟨hsource, hne, -⟩
          exact absurd ⟨hsource, hne⟩ hblock
    · have hne : ¬ decide (client = c) = true := by simpa using hc
      rw [if_neg hne, ← hold]
      split_ifs
      · rw [Function.update_of_ne (fun h => hc h.symm)]
      · exact Iff.rfl
  · rw [AttackFailoverConfig.Overrides, SlidingWindow.allTriggers, hfires, if_pos rfl]
    unfold Book.trigger
    dsimp only
    cases target with
    | none =>
        have hold := hb.front t provider (hnow.trans ht)
        simpa using hold
    | some p =>
        by_cases hlt : t < now' + af.cooldownSeconds
        · simp [hlt]
        · simp [hlt]

end Book

/-! ### The Rust engine -/

/-- The severity of an attack qualifies. -/
def AttackFailoverConfig.reaches (af : AttackFailoverConfig) (severity : String) : Bool :=
  severityRank af.minSeverity ≤ severityRank severity

namespace PolicyEngine

variable [Builtins F]

/-- The provider that is in front of the chain. -/
def front (e : PolicyEngine F) (now : F) : Option String :=
  if lt now e.overrideUntil then e.overrideProvider else none

/-- What the engine does on a trigger. -/
def trigger (e : PolicyEngine F) (now : F) (client : String) : PolicyEngine F :=
  ({ e with attackTimes := Function.update e.attackTimes client [] }.blockSource now
    client).switchProvider now

/-- What the engine does on an attack that does not trigger. -/
def note (e : PolicyEngine F) (now : F) (client : String) : PolicyEngine F :=
  { e with attackTimes := Function.update e.attackTimes client (e.recentAttacks now client) }

/-- The engine does at `now` what the history says. -/
structure Slides (e : PolicyEngine F) (h : List (Event F String)) (now : F) : Prop where
  attack : ∀ severity client, e.onAttackDetected now severity client =
    if e.routing.attackFailover.reaches severity then
      if (e.routing.attackFailover.window F).fires now
          ((e.routing.attackFailover.window F).since client h) then e.trigger now client
      else e.note now client
    else e
  refused : ∀ model client, (∃ msg, (e.resolve now model client).1 = .error (.blocked msg)) ↔
    e.routing.attackFailover.Blocks h now client
  front : ∀ target, e.routing.attackFailover.switchTo = some target →
    (e.routing.attackFailover.Overrides h now →
      e.candidates now = (target :: e.routing.chain).destutter (· ≠ ·)) ∧
    (¬ e.routing.attackFailover.Overrides h now → e.candidates now = e.routing.chain)

/-- The book of the engine. -/
def book (e : PolicyEngine F) : Book F where
  times := e.attackTimes
  blocked := fun client t => e.isBlocked t client = true
  front := e.front

variable {e : PolicyEngine F} {now : F} {client : String}

omit [Ring F] [LinearOrder F] in
theorem candidates_eq (e : PolicyEngine F) (now : F) :
    e.candidates now = (e.front now).elim e.routing.chain
      (fun provider => (provider :: e.routing.chain).destutter (· ≠ ·)) := by
  unfold candidates front
  cases e.overrideProvider with
  | none => simp
  | some provider => cases lt now e.overrideUntil <;> simp

omit [Ring F] [LinearOrder F] in
theorem resolve_blocked_iff (e : PolicyEngine F) (now : F) (model client : String) :
    (∃ msg, (e.resolve now model client).1 = .error (.blocked msg)) ↔
      e.isBlocked now client = true := by
  unfold resolve
  split_ifs with hblocked
  · simp [hblocked]
  · cases e.pick (day now) (e.candidates now) with
    | none => simp [hblocked]
    | some provider => simp [hblocked]

variable [Exact F]

theorem recentAttacks_eq (e : PolicyEngine F) (now : F) (client : String) :
    e.recentAttacks now client =
      (e.routing.attackFailover.window F).within now (e.attackTimes client) ++ [now] := by
  unfold recentAttacks SlidingWindow.within AttackFailoverConfig.window
  simp only [Exact.le_eq, Exact.sub_eq, Exact.round_eq]

/-- An attack is noted, or it triggers. -/
theorem onAttackDetected_eq (henabled : e.routing.attackFailover.enabled = true)
    (now : F) (severity client : String) :
    e.onAttackDetected now severity client =
      if e.routing.attackFailover.reaches severity then
        if (e.routing.attackFailover.window F).fires now (e.attackTimes client) then
          e.trigger now client
        else e.note now client
      else e := by
  have hfires : (e.routing.attackFailover.window F).fires now (e.attackTimes client) =
      !decide ((e.recentAttacks now client).length < e.routing.attackFailover.count) := by
    rw [SlidingWindow.fires, recentAttacks_eq, List.length_append, ← decide_not]
    congr 1
    simp [AttackFailoverConfig.window]
  unfold onAttackDetected AttackFailoverConfig.reaches trigger note
  dsimp only
  rw [hfires, henabled]
  by_cases hrank : severityRank severity < severityRank e.routing.attackFailover.minSeverity
  · simp [hrank, Nat.not_le.mpr hrank]
  · by_cases hcount : ((e.recentAttacks now client).length : ℤ) <
        e.routing.attackFailover.count
    · simp [hrank, Nat.not_lt.mp hrank, hcount]
    · simp [hrank, Nat.not_lt.mp hrank, hcount]

theorem book_note (e : PolicyEngine F) (now : F) (client : String) :
    (e.note now client).book = e.book.note e.routing.attackFailover now client := by
  unfold note book Book.note
  rw [recentAttacks_eq]
  rfl

omit [Ring F] [LinearOrder F] [Exact F] in
theorem blockSource_eq (e : PolicyEngine F) (now : F) (client : String) :
    e.blockSource now client = { e with
      blockedSources := if e.routing.attackFailover.blockSource && client ≠ "" then
          Function.update e.blockedSources client
            (some (add now (Builtins.round e.routing.attackFailover.blockTtlSeconds)))
        else e.blockedSources } := by
  unfold blockSource
  split_ifs <;> rfl

theorem book_trigger (e : PolicyEngine F) (now : F) (client : String) :
    (e.trigger now client).book = e.book.trigger e.routing.attackFailover
      e.routing.attackFailover.switchTo now client := by
  have hblocked : (fun c t => lt t (((if e.routing.attackFailover.blockSource && client ≠ "" then
        Function.update e.blockedSources client
          (some (add now (Builtins.round e.routing.attackFailover.blockTtlSeconds)))
        else e.blockedSources) c).getD zero) = true) =
      if e.routing.attackFailover.blockSource && client ≠ "" then
        Function.update (fun c t => e.isBlocked t c = true) client
          (fun t => t < now + (e.routing.attackFailover.blockTtlSeconds : F))
      else fun c t => e.isBlocked t c = true := by
    split_ifs
    · funext c t
      by_cases hc : c = client
      · subst hc
        simp [Exact.lt_eq, Exact.add_eq, Exact.round_eq]
      · rw [Function.update_of_ne hc, Function.update_of_ne hc]
        rfl
    · rfl
  unfold trigger
  rw [blockSource_eq]
  unfold switchProvider Book.trigger book
  dsimp only
  rw [← hblocked]
  cases e.routing.attackFailover.switchTo with
  | none => rfl
  | some target =>
      congr 1
      funext t
      simp [front, Exact.lt_eq, Exact.add_eq, Exact.round_eq]

omit [Ring F] [LinearOrder F] [Exact F] in
theorem routing_trigger (e : PolicyEngine F) (now : F) (client : String) :
    (e.trigger now client).routing = e.routing := by
  unfold trigger
  rw [blockSource_eq]
  unfold switchProvider
  dsimp only
  cases e.routing.attackFailover.switchTo <;> rfl

theorem front_expireOverride (e : PolicyEngine F) {now t : F} (ht : now ≤ t) :
    (e.expireOverride now).front t = e.front t := by
  unfold expireOverride front
  simp only [Exact.lt_eq, decide_eq_true_eq]
  split_ifs with hnow hlt hlt
  · rfl
  · rfl
  · exact absurd (ht.trans_lt hlt) hnow
  · rfl

omit [Ring F] [LinearOrder F] [Exact F] in
theorem resolve_snd (e : PolicyEngine F) (now : F) (model client : String) :
    (e.resolve now model client).2 = e ∨
      (e.resolve now model client).2 = e.expireOverride now := by
  unfold resolve
  split_ifs
  · exact .inl rfl
  · right
    cases e.pick (day now) (e.candidates now) <;> rfl

variable [IsStrictOrderedRing F] {routing : RoutingConfig F} {calls : List (Call F Int64)}

/-- **The book is right after every run.** -/
theorem keeps_run (henabled : routing.attackFailover.enabled = true) (hlegal : Legal calls now) :
    (calls.foldl step (new routing)).routing = routing ∧
      (calls.foldl step (new routing)).book.Keeps routing.attackFailover
        routing.attackFailover.switchTo (history routing.attackFailover.reaches calls) now := by
  induction hlegal with
  | nil =>
      refine ⟨rfl, Book.keeps_nil _ _ _ rfl (fun client t ht => ?_) ?_⟩
      · simpa [book, isBlocked, new, Exact.lt_eq, Exact.zero_eq] using ht
      · funext t
        simp [book, front, new]
  | @snoc calls now call hlegal hle ih =>
      obtain ⟨hroute, hkeeps⟩ := ih
      rw [List.foldl_append, List.foldl_cons, List.foldl_nil]
      generalize calls.foldl step (new routing) = e at *
      subst hroute
      cases call with
      | usage t provider totalTokens =>
          rw [history_other rfl]
          exact ⟨rfl, hkeeps.mono hle rfl rfl (fun _ _ => rfl)⟩
      | attack t severity client =>
          rw [history_attack, step, onAttackDetected_eq henabled]
          have hfires := hkeeps.fires_eq hle client
          cases e.routing.attackFailover.reaches severity with
          | false => exact ⟨rfl, hkeeps.mono hle rfl rfl (fun _ _ => rfl)⟩
          | true =>
              rw [if_pos rfl, if_pos rfl]
              split_ifs with hf
              · rw [book_trigger, routing_trigger]
                exact ⟨rfl, hkeeps.trigger hle (hfires.symm.trans hf)⟩
              · rw [book_note]
                exact ⟨rfl, hkeeps.note hle (hfires.symm.trans (Bool.eq_false_iff.mpr hf))⟩
      | resolve t model client =>
          rw [history_other rfl, step]
          rcases e.resolve_snd t model client with h | h
          · rw [h]
            exact ⟨rfl, hkeeps.mono hle rfl rfl (fun _ _ => rfl)⟩
          · rw [h]
            refine ⟨?_, hkeeps.mono hle ?_ ?_ (fun t' ht' => e.front_expireOverride ht')⟩
            all_goals
              unfold expireOverride
              split_ifs <;> rfl

theorem Slides.of_keeps (henabled : e.routing.attackFailover.enabled = true)
    {h : List (Event F String)} {past : F} (hkeeps : e.book.Keeps e.routing.attackFailover
      e.routing.attackFailover.switchTo h past) (hle : past ≤ now) : e.Slides h now where
  attack := fun severity client => by
    rw [onAttackDetected_eq henabled, ← hkeeps.fires_eq hle client]
    rfl
  refused := fun model client => by
    rw [resolve_blocked_iff, ← hkeeps.blocks_iff hle client]
    rfl
  front := fun target htarget => by
    have hfront := fun p => hkeeps.front now p hle
    rw [htarget] at hfront
    rw [candidates_eq]
    constructor
    · intro hover
      have hp : e.front now = some target := (hfront target).mpr ⟨rfl, hover⟩
      rw [hp, Option.elim_some]
    · intro hover
      have hp : e.front now = none :=
        Option.eq_none_iff_forall_ne_some.mpr fun p hp => hover ((hfront p).mp hp).2
      rw [hp, Option.elim_none]

end PolicyEngine

end FirewallLLM.Routing
