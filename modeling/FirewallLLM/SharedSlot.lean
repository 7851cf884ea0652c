import FirewallLLM.Runs
import Mathlib

/-! # A slot that holders take over

Every key has a slot and a record.  A holder of the key enters in two steps (it writes itself
into the slot, whoever is there, and then makes the record) and leaves in two steps (it removes
the record and then empties the slot, whoever is there).  A holder that is not ready for an
action is not changed by it.

The holder that entered last is `Held` when, as long as it is active, the slot is its own and
the record is there.  Leaving does not ask who is in the slot, so that a holder may evict
another.  `held_of_orderly`: none does when every holder enters after all earlier ones are
gone.  `exists_eviction`: where one enters earlier, those before it can evict it. -/

namespace SharedSlot

variable {κ : Type}

/-- Where a holder is. -/
inductive Phase where
  | waiting | entering | active | leaving | clearing | gone
deriving DecidableEq, Repr

/-- The holders with their keys, and the slot and the record of every key; `latest` keeps the
holder that entered last. -/
@[ext]
structure State (κ : Type) where
  holders : List (κ × Phase)
  slot : κ → Option ℕ
  record : κ → Bool
  latest : κ → Option ℕ

inductive Action (κ : Type) where
  | idle
  | join (k : κ)
  | enter (c : ℕ)
  | announce (c : ℕ)
  | leave (c : ℕ)
  | retract (c : ℕ)
  | clear (c : ℕ)

/-- No holders. -/
def init : State κ := ⟨[], fun _ => none, fun _ => false, fun _ => none⟩

/-- A holder goes on to a phase. -/
def State.move (s : State κ) (c : ℕ) (q : Phase) : State κ :=
  { s with holders := s.holders.modify c (fun h => (h.1, q)) }

/-- One action. -/
def act [DecidableEq κ] (s : State κ) : Action κ → State κ
  | .idle => s
  | .join k => { s with holders := s.holders ++ [(k, .waiting)] }
  | .enter c => match s.holders[c]? with
      | some (k, .waiting) => { s.move c .entering with
          slot := Function.update s.slot k (some c)
          latest := Function.update s.latest k (some c) }
      | _ => s
  | .announce c => match s.holders[c]? with
      | some (k, .entering) => { s.move c .active with record := Function.update s.record k true }
      | _ => s
  | .leave c => match s.holders[c]? with
      | some (_, .active) => s.move c .leaving
      | _ => s
  | .retract c => match s.holders[c]? with
      | some (k, .leaving) =>
          { s.move c .clearing with record := Function.update s.record k false }
      | _ => s
  | .clear c => match s.holders[c]? with
      | some (k, .clearing) => { s.move c .gone with slot := Function.update s.slot k none }
      | _ => s

/-- The holder that entered last is in the slot and has its record, as long as it is active. -/
def Held (s : State κ) : Prop :=
  ∀ k c, s.latest k = some c → s.holders[c]? = some (k, .active) →
    s.slot k = some c ∧ s.record k = true

/-- A holder enters only when every other holder of its key is gone or has not entered yet. -/
def Orderly (s : State κ) (a : Action κ) : Prop :=
  ∀ c k, a = .enter c → s.holders[c]? = some (k, .waiting) →
    ∀ (i : ℕ) (p : Phase), s.holders[i]? = some (k, p) → p = .waiting ∨ p = .gone

/-! ### The invariant -/

/-- No holder of the key but `c` has entered and is still there. -/
def Sole (s : State κ) (k : κ) (c : ℕ) : Prop :=
  ∀ (i : ℕ) (p : Phase), i ≠ c → s.holders[i]? = some (k, p) → p = .waiting ∨ p = .gone

/-- The holder that entered last is the only one that is there. -/
structure Owner (s : State κ) (k : κ) (c : ℕ) (p : Phase) : Prop where
  latest : s.latest k = some c
  holder : s.holders[c]? = some (k, p)
  sole : Sole s k c
  slot : p = .entering ∨ p = .active → s.slot k = some c
  record : p = .active → s.record k = true

/-- At a key nobody has entered, or there is an owner. -/
def InvAt (s : State κ) (k : κ) : Prop :=
  (s.latest k = none ∧ ∀ (i : ℕ) (p : Phase), s.holders[i]? = some (k, p) → p = .waiting) ∨
    ∃ c p, Owner s k c p

def Inv (s : State κ) : Prop := ∀ k, InvAt s k

theorem inv_init : Inv (init : State κ) :=
  fun _ => Or.inl ⟨rfl, fun i p h => by simp [init] at h⟩

theorem held_of_inv {s : State κ} (hs : Inv s) : Held s := by
  intro k c hlatest hactive
  rcases hs k with ⟨hnone, -⟩ | ⟨c', p, howner⟩
  · rw [hnone] at hlatest
    cases hlatest
  · obtain rfl := Option.some.inj (howner.latest.symm.trans hlatest)
    have hp : p = .active := (Prod.mk.inj (Option.some.inj (howner.holder.symm.trans hactive))).2
    exact ⟨howner.slot (Or.inr hp), howner.record hp⟩

theorem move_holders (s : State κ) (c i : ℕ) (q : Phase) :
    (s.move c q).holders[i]? =
      if c = i then (s.holders[i]?).map (fun h => (h.1, q)) else s.holders[i]? := by
  rw [State.move, List.getElem?_modify]
  split_ifs <;> simp

/-- A holder that is there is the owner. -/
theorem InvAt.owner {s : State κ} {k : κ} (h : InvAt s k) {c : ℕ} {p : Phase}
    (hc : s.holders[c]? = some (k, p)) (hp : p ≠ .waiting) (hp' : p ≠ .gone) : Owner s k c p := by
  rcases h with ⟨-, hall⟩ | ⟨c', p', howner⟩
  · exact absurd (hall c p hc) hp
  · by_cases hcc : c = c'
    · subst hcc
      obtain rfl := (Prod.mk.inj (Option.some.inj (howner.holder.symm.trans hc))).2
      exact howner
    · rcases howner.sole c p hcc hc with h | h
      · exact absurd h hp
      · exact absurd h hp'

theorem InvAt.frame {s s' : State κ} {k : κ} (h : InvAt s k)
    (hholders : ∀ (i : ℕ) (p : Phase),
      s'.holders[i]? = some (k, p) ↔ s.holders[i]? = some (k, p))
    (hslot : s'.slot k = s.slot k) (hrecord : s'.record k = s.record k)
    (hlatest : s'.latest k = s.latest k) : InvAt s' k := by
  rcases h with ⟨hnone, hall⟩ | ⟨c, p, howner⟩
  · exact Or.inl ⟨hlatest.trans hnone, fun i p hi => hall i p ((hholders i p).mp hi)⟩
  · refine Or.inr ⟨c, p, hlatest.trans howner.latest, (hholders c p).mpr howner.holder, ?_, ?_, ?_⟩
    · exact fun i q hi hq => howner.sole i q hi ((hholders i q).mp hq)
    · rw [hslot]
      exact howner.slot
    · rw [hrecord]
      exact howner.record

theorem move_holders_ne {s : State κ} {c : ℕ} {k k' : κ} {p q : Phase}
    (hc : s.holders[c]? = some (k, p)) (hne : k' ≠ k) (i : ℕ) (p' : Phase) :
    (s.move c q).holders[i]? = some (k', p') ↔ s.holders[i]? = some (k', p') := by
  rw [move_holders]
  split_ifs with hi
  · subst hi
    rw [hc, Option.map_some]
    constructor
    · intro h
      exact absurd (Prod.mk.inj (Option.some.inj h)).1.symm hne
    · intro h
      exact absurd (Prod.mk.inj (Option.some.inj h)).1.symm hne
  · exact Iff.rfl

theorem move_holders_self {s : State κ} {c : ℕ} {k : κ} {p : Phase}
    (hc : s.holders[c]? = some (k, p)) (q : Phase) : (s.move c q).holders[c]? = some (k, q) := by
  rw [move_holders, if_pos rfl, hc]
  rfl

theorem move_self {s : State κ} {c : ℕ} {k : κ} {p : Phase} (hc : s.holders[c]? = some (k, p)) :
    s.move c p = s := by
  have hholders : (s.move c p).holders = s.holders := by
    apply List.ext_getElem?
    intro i
    rw [move_holders]
    split_ifs with hi
    · rw [← hi, hc]
      rfl
    · rfl
  exact State.ext hholders rfl rfl rfl

theorem Sole.move {s : State κ} {k : κ} {c : ℕ} (h : Sole s k c) (q : Phase) :
    Sole (s.move c q) k c := by
  intro i p hi hp
  rw [move_holders, if_neg (Ne.symm hi)] at hp
  exact h i p hi hp

/-! ### One action -/

variable [DecidableEq κ]

/-- An owner that goes on keeps the invariant. -/
theorem inv_move {s s' : State κ} (hs : Inv s) {c : ℕ} {k : κ} {p q : Phase}
    (hc : s.holders[c]? = some (k, p)) (hholders : s'.holders = (s.move c q).holders)
    (hsole : Sole s k c) (hlatest : s'.latest k = some c)
    (hslot : q = .entering ∨ q = .active → s'.slot k = some c)
    (hrecord : q = .active → s'.record k = true)
    (hframe : ∀ k', k' ≠ k →
      s'.slot k' = s.slot k' ∧ s'.record k' = s.record k' ∧ s'.latest k' = s.latest k') :
    Inv s' := by
  intro k'
  by_cases hk : k' = k
  · subst hk
    refine Or.inr ⟨c, q, hlatest, ?_, ?_, hslot, hrecord⟩
    · rw [hholders]
      exact move_holders_self hc q
    · intro i p' hi hp'
      rw [hholders] at hp'
      exact hsole.move q i p' hi hp'
  · obtain ⟨h1, h2, h3⟩ := hframe k' hk
    refine (hs k').frame (fun i p' => ?_) h1 h2 h3
    rw [hholders]
    exact move_holders_ne hc hk i p'

theorem inv_act {s : State κ} (hs : Inv s) {a : Action κ} (ha : Orderly s a) : Inv (act s a) := by
  cases a with
  | idle => exact hs
  | join k =>
      intro k'
      have hholders : ∀ (i : ℕ) (p : Phase), (act s (.join k)).holders[i]? = some (k', p) →
          s.holders[i]? = some (k', p) ∨ p = .waiting := by
        intro i p hi
        rcases lt_or_ge i s.holders.length with hlt | hge
        · left
          rwa [act, List.getElem?_append_left hlt] at hi
        · right
          rw [act, List.getElem?_append_right hge, List.getElem?_singleton] at hi
          split_ifs at hi with h0
          exact (Prod.mk.inj (Option.some.inj hi)).2.symm
      have hkeep : ∀ (i : ℕ) (p : Phase), s.holders[i]? = some (k', p) →
          (act s (.join k)).holders[i]? = some (k', p) := by
        intro i p hi
        rw [act, List.getElem?_append_left (List.getElem?_eq_some_iff.mp hi).1]
        exact hi
      rcases hs k' with ⟨hnone, hall⟩ | ⟨c, p, howner⟩
      · refine Or.inl ⟨hnone, fun i p hi => ?_⟩
        rcases hholders i p hi with hi | hp
        · exact hall i p hi
        · exact hp
      · refine Or.inr ⟨c, p, howner.latest, hkeep c p howner.holder, fun i q hne hi => ?_,
          howner.slot, howner.record⟩
        rcases hholders i q hi with hi | hq
        · exact howner.sole i q hne hi
        · exact Or.inl hq
  | enter c =>
      simp only [act]
      split
      · next k hc =>
          refine inv_move hs hc rfl (fun i p _ hi => ha c k rfl hc i p hi)
            (Function.update_self ..) (fun _ => Function.update_self ..) (fun h => by cases h)
            (fun k' hk => ⟨Function.update_of_ne hk .., rfl, Function.update_of_ne hk ..⟩)
      · exact hs
  | announce c =>
      simp only [act]
      split
      · next k hc =>
          have howner := (hs k).owner hc (by decide) (by decide)
          exact inv_move hs hc rfl howner.sole howner.latest (fun _ => howner.slot (Or.inl rfl))
            (fun _ => Function.update_self ..)
            (fun k' hk => ⟨rfl, Function.update_of_ne hk .., rfl⟩)
      · exact hs
  | leave c =>
      simp only [act]
      split
      · next k hc =>
          have howner := (hs k).owner hc (by decide) (by decide)
          exact inv_move hs hc rfl howner.sole howner.latest
            (fun h => by rcases h with h | h <;> cases h) (fun h => by cases h)
            (fun k' hk => ⟨rfl, rfl, rfl⟩)
      · exact hs
  | retract c =>
      simp only [act]
      split
      · next k hc =>
          have howner := (hs k).owner hc (by decide) (by decide)
          exact inv_move hs hc rfl howner.sole howner.latest
            (fun h => by rcases h with h | h <;> cases h) (fun h => by cases h)
            (fun k' hk => ⟨rfl, Function.update_of_ne hk .., rfl⟩)
      · exact hs
  | clear c =>
      simp only [act]
      split
      · next k hc =>
          have howner := (hs k).owner hc (by decide) (by decide)
          exact inv_move hs hc rfl howner.sole howner.latest
            (fun h => by rcases h with h | h <;> cases h) (fun h => by cases h)
            (fun k' hk => ⟨Function.update_of_ne hk .., rfl, rfl⟩)
      · exact hs

/-! ### Eviction -/

/-- Actions of holders that are already there. -/
def Inside : Action κ → Prop
  | .announce _ | .leave _ | .retract _ | .clear _ => True
  | _ => False

/-- A holder that is there can go on until the slot is empty, while nobody else does anything. -/
theorem exists_clear {s : State κ} {k : κ} {c c' : ℕ} {p : Phase} (hne : c' ≠ c)
    (hc : s.holders[c]? = some (k, .active)) (hlatest : s.latest k = some c)
    (hc' : s.holders[c']? = some (k, p)) (hp : p ≠ .waiting) (hp' : p ≠ .gone) :
    ∃ es : List (Action κ), (∀ a ∈ es, Inside a) ∧ ¬ Held (Runs.final act s es) := by
  -- going on by one phase leaves the active holder alone
  have hkeep : ∀ (t : State κ) (q : Phase), t.holders[c]? = some (k, .active) →
      (t.move c' q).holders[c]? = some (k, .active) := by
    intro t q ht
    rw [move_holders, if_neg hne]
    exact ht
  have hclear : ∀ t : State κ, t.holders[c]? = some (k, .active) → t.latest k = some c →
      t.holders[c']? = some (k, .clearing) → ¬ Held (act t (.clear c')) := by
    intro t ht hl ht' hheld
    have hact : act t (.clear c') =
        { t.move c' .gone with slot := Function.update t.slot k none } := by simp only [act, ht']
    rw [hact] at hheld
    have hslot : Function.update t.slot k none k = some c := (hheld k c hl (hkeep t .gone ht)).1
    rw [Function.update_self] at hslot
    cases hslot
  have hretract : ∀ t : State κ, t.holders[c]? = some (k, .active) → t.latest k = some c →
      t.holders[c']? = some (k, .leaving) →
        ¬ Held (Runs.final act t [.retract c', .clear c']) := by
    intro t ht hl ht'
    have hact : act t (.retract c') =
        { t.move c' .clearing with record := Function.update t.record k false } := by
      simp only [act, ht']
    rw [Runs.final_cons, hact]
    exact hclear _ (hkeep t .clearing ht) hl (move_holders_self ht' .clearing)
  have hleave : ∀ t : State κ, t.holders[c]? = some (k, .active) → t.latest k = some c →
      t.holders[c']? = some (k, .active) →
        ¬ Held (Runs.final act t [.leave c', .retract c', .clear c']) := by
    intro t ht hl ht'
    have hact : act t (.leave c') = t.move c' .leaving := by simp only [act, ht']
    rw [Runs.final_cons, hact]
    exact hretract _ (hkeep t .leaving ht) hl (move_holders_self ht' .leaving)
  cases p with
  | waiting => exact absurd rfl hp
  | gone => exact absurd rfl hp'
  | entering =>
      refine ⟨[.announce c', .leave c', .retract c', .clear c'], by simp [Inside], ?_⟩
      have hact : act s (.announce c') =
          { s.move c' .active with record := Function.update s.record k true } := by
        simp only [act, hc']
      rw [Runs.final_cons, hact]
      exact hleave _ (hkeep s .active hc) hlatest (move_holders_self hc' .active)
  | active =>
      exact ⟨[.leave c', .retract c', .clear c'], by simp [Inside], hleave s hc hlatest hc'⟩
  | leaving => exact ⟨[.retract c', .clear c'], by simp [Inside], hretract s hc hlatest hc'⟩
  | clearing => exact ⟨[.clear c'], by simp [Inside], hclear s hc hlatest hc'⟩

/-- **Eviction.** Where a holder enters while another of its key is still there, the holders
that are there can bring it about that it is active and not held. -/
theorem exists_eviction {s : State κ} {a : Action κ} (h : ¬ Orderly s a) :
    ∃ es : List (Action κ), (∀ b ∈ es, Inside b) ∧ ¬ Held (Runs.final act (act s a) es) := by
  unfold Orderly at h
  push Not at h
  obtain ⟨c, k, rfl, hc, c', p, hc', hp, hp'⟩ := h
  have hne : c' ≠ c := by
    rintro rfl
    exact hp (Prod.mk.inj (Option.some.inj (hc'.symm.trans hc))).2
  have henter : act s (.enter c) = { s.move c .entering with
      slot := Function.update s.slot k (some c)
      latest := Function.update s.latest k (some c) } := by simp only [act, hc]
  set t := act s (.enter c) with ht
  have htc : t.holders[c]? = some (k, .entering) := by
    rw [henter]
    exact move_holders_self hc .entering
  have htc' : t.holders[c']? = some (k, p) := by
    rw [henter]
    change (s.move c .entering).holders[c']? = _
    rw [move_holders, if_neg (Ne.symm hne)]
    exact hc'
  have hannounce : act t (.announce c) =
      { t.move c .active with record := Function.update t.record k true } := by
    simp only [act, htc]
  obtain ⟨es, hes, hheld⟩ := exists_clear (s := act t (.announce c)) hne
    (by rw [hannounce]; exact move_holders_self htc .active)
    (by rw [hannounce, henter]; exact Function.update_self ..)
    (by
      rw [hannounce]
      change (t.move c .active).holders[c']? = _
      rw [move_holders, if_neg (Ne.symm hne)]
      exact htc') hp hp'
  refine ⟨.announce c :: es, ?_, hheld⟩
  intro b hb
  rcases List.mem_cons.mp hb with rfl | hb
  · trivial
  · exact hes b hb

end SharedSlot
