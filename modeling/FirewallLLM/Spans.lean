import Mathlib

/-! # Greedy selection of spans

Spans with a start and a stop are taken from the left: the first one that starts at or after the
stop of the last one taken.  `covered_iff` says when the spans that are taken cover all of them:
at each place where the selection goes on (`Cut`), no span reaches over it unless one starts
there. -/

namespace Spans

variable {α τ : Type} [LinearOrder τ] (start stop : α → τ)

/-- The selection from a place on. -/
def select : τ → List α → List α
  | _, [] => []
  | e, a :: as => if e ≤ start a then a :: select (stop a) as else select e as

/-- The place lies in the span. -/
def Inside (x : τ) (a : α) : Prop := start a ≤ x ∧ x < stop a

/-- The first span at or after a place, in the order of the list. -/
structure First (le : α → α → Prop) (as : List α) (e : τ) (a : α) : Prop where
  mem : a ∈ as
  after : e ≤ start a
  first : ∀ b ∈ as, e ≤ start b → le a b

/-- The places where the selection from `e₀` goes on. -/
inductive Cut (le : α → α → Prop) (as : List α) (e₀ : τ) : τ → Prop
  | start : Cut le as e₀ e₀
  | next {e : τ} {a : α} : Cut le as e₀ e → First start le as e a → Cut le as e₀ (stop a)

variable {start stop} {le : α → α → Prop} {as : List α} {e₀ e : τ}

theorem select_append {pre : List α} (h : ∀ a ∈ pre, start a < e) (as : List α) :
    select start stop e (pre ++ as) = select start stop e as := by
  induction pre with
  | nil => rfl
  | cons a pre ih =>
      obtain ⟨ha, hpre⟩ := List.forall_mem_cons.mp h
      rw [List.cons_append, select, if_neg (not_le.mpr ha), ih hpre]

theorem mem_of_mem_select {a : α} (h : a ∈ select start stop e as) : a ∈ as := by
  induction as generalizing e with
  | nil => exact h
  | cons b as ih =>
      rw [select] at h
      split_ifs at h
      · rcases List.mem_cons.mp h with rfl | h
        · exact List.mem_cons_self
        · exact List.mem_cons_of_mem b (ih h)
      · exact List.mem_cons_of_mem b (ih h)

/-- Spans in the order of their keys, none of them empty. -/
structure Sorted (start stop : α → τ) (le : α → α → Prop) (as : List α) : Prop where
  pairwise : as.Pairwise le
  refl : ∀ a ∈ as, le a a
  antisymm : ∀ a ∈ as, ∀ b ∈ as, le a b → le b a → a = b
  starts : ∀ a b, le a b → start a ≤ start b
  nonempty : ∀ a ∈ as, start a < stop a

theorem exists_first (h : ¬ ∀ a ∈ as, start a < e) :
    ∃ pre a post, as = pre ++ a :: post ∧ (∀ b ∈ pre, start b < e) ∧ e ≤ start a := by
  induction as with
  | nil => exact absurd (fun a ha => absurd ha List.not_mem_nil) h
  | cons b as ih =>
      by_cases hb : start b < e
      · have hrest : ¬ ∀ a ∈ as, start a < e := fun hall =>
          h (List.forall_mem_cons.mpr ⟨hb, hall⟩)
        obtain ⟨pre, a, post, rfl, hpre, hge⟩ := ih hrest
        exact ⟨b :: pre, a, post, rfl, List.forall_mem_cons.mpr ⟨hb, hpre⟩, hge⟩
      · exact ⟨[], b, as, rfl, by simp, not_lt.mp hb⟩

theorem select_cases (h : Sorted start stop le as) (e : τ) :
    (select start stop e as = [] ∧ ∀ a ∈ as, start a < e) ∨
      ∃ a, First start le as e a ∧
        select start stop e as = a :: select start stop (stop a) as := by
  by_cases hall : ∀ a ∈ as, start a < e
  · refine .inl ⟨?_, hall⟩
    have hnil := @select_append _ _ _ start stop e as hall []
    rwa [List.append_nil] at hnil
  · right
    obtain ⟨pre, a, post, rfl, hpre, hge⟩ := exists_first hall
    have hsorted := h.pairwise
    rw [List.pairwise_append, List.pairwise_cons] at hsorted
    obtain ⟨-, ⟨hafter, -⟩, hbefore⟩ := hsorted
    have ha : a ∈ pre ++ a :: post := List.mem_append_right pre List.mem_cons_self
    have hne := h.nonempty a ha
    refine ⟨a, ⟨ha, hge, fun b hb hbe => ?_⟩, ?_⟩
    · rcases List.mem_append.mp hb with hb | hb
      · exact absurd (hpre b hb) (not_lt.mpr hbe)
      · rcases List.mem_cons.mp hb with rfl | hb
        · exact h.refl b ha
        · exact hafter b hb
    · rw [select_append hpre, select, if_pos hge]
      have hpast : ∀ b ∈ pre ++ [a], start b < stop a := by
        intro b hb
        rcases List.mem_append.mp hb with hb | hb
        · exact lt_of_le_of_lt (h.starts b a (hbefore b hb a List.mem_cons_self)) hne
        · rw [List.mem_singleton.mp hb]
          exact hne
      have hrest := @select_append _ _ _ start stop (stop a) (pre ++ [a]) hpast post
      rw [List.append_assoc, List.singleton_append] at hrest
      rw [hrest]

/-- At a cut the spans taken so far end, and the others come. -/
theorem Cut.select_eq (h : Sorted start stop le as) (hcut : Cut start stop le as e₀ e) :
    ∃ pre, select start stop e₀ as = pre ++ select start stop e as ∧ ∀ a ∈ pre, stop a ≤ e := by
  induction hcut with
  | start => exact ⟨[], rfl, by simp⟩
  | @next e a hcut hfirst ih =>
      obtain ⟨pre, hpre, hstops⟩ := ih
      rcases select_cases h e with ⟨-, hall⟩ | ⟨b, hb, heq⟩
      · exact absurd hfirst.after (not_le.mpr (hall a hfirst.mem))
      · obtain rfl : a = b := h.antisymm a hfirst.mem b hb.mem
          (hfirst.first b hb.mem hb.after) (hb.first a hfirst.mem hfirst.after)
        refine ⟨pre ++ [a], by rw [hpre, heq, List.append_assoc, List.singleton_append], ?_⟩
        intro c hc
        rcases List.mem_append.mp hc with hc | hc
        · exact ((hstops c hc).trans hfirst.after).trans (h.nonempty a hfirst.mem).le
        · rw [List.mem_singleton.mp hc]

/-- What is selected starts at or after the place. -/
theorem le_start_of_mem_select (h : ∀ a ∈ as, start a < stop a) {a : α}
    (ha : a ∈ select start stop e as) : e ≤ start a := by
  induction as generalizing e with
  | nil => exact absurd ha List.not_mem_nil
  | cons b as ih =>
      obtain ⟨hb, has⟩ := List.forall_mem_cons.mp h
      rw [select] at ha
      split_ifs at ha with hge
      · rcases List.mem_cons.mp ha with rfl | ha
        · exact hge
        · exact (hge.trans hb.le).trans (ih has ha)
      · exact ih has ha

/-- From a cut on, the selection covers what lies in a span, if spans that reach over a cut meet
one that starts there. -/
theorem covered_of_cut (h : Sorted start stop le as)
    (hover : ∀ e, Cut start stop le as e₀ e → ∀ b ∈ as, start b < e → e < stop b →
      ∃ c ∈ as, start c = e)
    {l : List α} (hl : select start stop e as = l) (hcut : Cut start stop le as e₀ e) {x : τ}
    (hx : e ≤ x) {b : α} (hb : b ∈ as) (hin : Inside start stop x b) :
    ∃ a ∈ l, Inside start stop x a := by
  induction l generalizing e with
  | nil =>
      -- nothing starts from here on, so the span would reach over the cut
      rcases select_cases h e with ⟨-, hall⟩ | ⟨a, -, heq⟩
      · obtain ⟨c, hc, hce⟩ := hover e hcut b hb (hall b hb) (lt_of_le_of_lt hx hin.2)
        exact absurd (hall c hc) (not_lt.mpr hce.ge)
      · rw [hl] at heq
        cases heq
  | cons a l ih =>
      rcases select_cases h e with ⟨hnil, -⟩ | ⟨a', hfirst, heq⟩
      · rw [hl] at hnil
        cases hnil
      · rw [hl] at heq
        obtain ⟨rfl, hrest⟩ := List.cons.inj heq
        have hstart : start a ≤ x := by
          by_cases hbe : e ≤ start b
          · exact (h.starts a b (hfirst.first b hb hbe)).trans hin.1
          · obtain ⟨c, hc, hce⟩ := hover e hcut b hb (not_le.mp hbe) (lt_of_le_of_lt hx hin.2)
            exact (h.starts a c (hfirst.first c hc hce.ge)).trans (hce.le.trans hx)
        by_cases hstop : x < stop a
        · exact ⟨a, List.mem_cons_self, hstart, hstop⟩
        · obtain ⟨a', ha', hin'⟩ := ih hrest.symm (.next hcut hfirst) (not_lt.mp hstop)
          exact ⟨a', List.mem_cons_of_mem a ha', hin'⟩

/-- **The selection covers all spans exactly when a span that reaches over a cut meets one that
starts there.** -/
theorem covered_iff (h : Sorted start stop le as) (hleast : ∀ a ∈ as, e₀ ≤ start a) :
    (∀ x, (∃ b ∈ as, Inside start stop x b) →
        ∃ a ∈ select start stop e₀ as, Inside start stop x a) ↔
      ∀ e, Cut start stop le as e₀ e → ∀ b ∈ as, start b < e → e < stop b →
        ∃ c ∈ as, start c = e := by
  constructor
  · intro hcovered e hcut b hb hlow hhigh
    obtain ⟨a, ha, hin⟩ := hcovered e ⟨b, hb, hlow.le, hhigh⟩
    obtain ⟨pre, hpre, hstops⟩ := hcut.select_eq h
    rw [hpre] at ha
    rcases List.mem_append.mp ha with ha | ha
    · exact absurd hin.2 (not_lt.mpr (hstops a ha))
    · exact ⟨a, mem_of_mem_select ha,
        le_antisymm hin.1 (le_start_of_mem_select h.nonempty ha)⟩
  · rintro hover x ⟨b, hb, hin⟩
    exact covered_of_cut h hover rfl .start ((hleast b hb).trans hin.1) hb hin

end Spans
