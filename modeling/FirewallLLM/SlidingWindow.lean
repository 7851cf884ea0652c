import Mathlib.Algebra.Order.Group.Defs
import Mathlib.Algebra.Order.Sub.Basic
import Mathlib.Data.List.Basic
import Mathlib.Tactic.Abel

/-! # Triggers of a sliding window

Events of several keys arrive in the order of their times.  An event triggers when, with itself,
enough events of its key lie within the window, where only those since the last trigger of the
key count.  Histories are given with the newest event first.

An implementation keeps a list of times for each key, which it prunes and clears.  `Tracks` says
that this list counts as the history does from now on; every event keeps it (`Tracks.cons`). -/

/-- A number of events that trigger, and the time in which they have to come. -/
structure SlidingWindow (F : Type) where
  count : ℤ
  length : F

namespace SlidingWindow

/-- An event of a key. -/
structure Event (F K : Type) where
  time : F
  key : K

variable {F K : Type} [AddCommGroup F] [LinearOrder F] [DecidableEq K] (w : SlidingWindow F)

/-- The times that lie within the window before `t`. -/
def within (t : F) (times : List F) : List F := times.filter (fun s => decide (t - w.length ≤ s))

/-- With an event at `t` there are enough of them. -/
def fires (t : F) (times : List F) : Bool := decide (w.count ≤ (w.within t times).length + 1)

/-- The events of a key since its last trigger. -/
def since (k : K) : List (Event F K) → List F
  | [] => []
  | a :: h =>
      if a.key = k then if w.fires a.time (since k h) then [] else a.time :: since k h
      else since k h

/-- The triggers of a key. -/
def triggers (k : K) : List (Event F K) → List F
  | [] => []
  | a :: h =>
      if a.key = k && w.fires a.time (w.since a.key h) then a.time :: triggers k h
      else triggers k h

/-- The triggers of all keys. -/
def allTriggers : List (Event F K) → List F
  | [] => []
  | a :: h =>
      if w.fires a.time (w.since a.key h) then a.time :: allTriggers h else allTriggers h

/-- No event comes after `t`. -/
def Later (t : F) (h : List (Event F K)) : Prop := ∀ a ∈ h, a.time ≤ t

/-- The events are ordered by their times, the newest first. -/
def Chronological (h : List (Event F K)) : Prop := h.Pairwise (fun a b => b.time ≤ a.time)

/-- What is left of the times of a key after an event at `t`. -/
def keep (t : F) (kept : List F) : List F :=
  if w.fires t kept then [] else w.within t kept ++ [t]

variable {w} {t d : F} {k : K} {a : Event F K} {h : List (Event F K)} {kept : K → List F}

/-! ### Triggers -/

theorem mem_of_mem_triggers {s : F} (hs : s ∈ w.triggers k h) : ∃ a ∈ h, a.time = s := by
  induction h with
  | nil => exact absurd hs List.not_mem_nil
  | cons b h ih =>
      have hrest : s ∈ w.triggers k h → ∃ a ∈ b :: h, a.time = s := by
        intro hs
        obtain ⟨a, ha, rfl⟩ := ih hs
        exact ⟨a, List.mem_cons_of_mem b ha, rfl⟩
      rw [triggers] at hs
      split_ifs at hs
      · rcases List.mem_cons.mp hs with rfl | hs
        · exact ⟨b, List.mem_cons_self, rfl⟩
        · exact hrest hs
      · exact hrest hs

theorem triggers_sorted (hord : Chronological h) :
    (w.triggers k h).Pairwise (fun s s' => s' ≤ s) := by
  induction h with
  | nil => exact List.Pairwise.nil
  | cons b h ih =>
      obtain ⟨hb, hrest⟩ := List.pairwise_cons.mp hord
      rw [triggers]
      split_ifs
      · refine List.pairwise_cons.mpr ⟨fun s hs => ?_, ih hrest⟩
        obtain ⟨a, ha, rfl⟩ := mem_of_mem_triggers hs
        exact hb a ha
      · exact ih hrest

/-- Some trigger is not longer ago than `d` exactly if the last one is not. -/
theorem exists_trigger_iff [IsOrderedAddMonoid F] (hord : Chronological h) (ht : Later t h) :
    (∃ s ∈ w.triggers k h, s ≤ t ∧ t < s + d) ↔
      ∃ s, (w.triggers k h).head? = some s ∧ t < s + d := by
  constructor
  · rintro ⟨s, hs, -, hd⟩
    have hsorted := triggers_sorted (w := w) (k := k) hord
    cases htr : w.triggers k h with
    | nil => exact absurd (htr ▸ hs) List.not_mem_nil
    | cons last rest =>
        rw [htr] at hs hsorted
        refine ⟨last, rfl, ?_⟩
        rcases List.mem_cons.mp hs with rfl | hs
        · exact hd
        · have hle : s ≤ last := (List.pairwise_cons.mp hsorted).1 s hs
          exact lt_of_lt_of_le hd (add_le_add_left hle d)
  · rintro ⟨s, hhead, hd⟩
    have hs : s ∈ w.triggers k h := List.mem_of_mem_head? hhead
    obtain ⟨a, ha, rfl⟩ := mem_of_mem_triggers hs
    exact ⟨a.time, hs, ht a ha, hd⟩

theorem since_own (k : K) (h : List (Event F K)) :
    w.since k (h.filter (·.key = k)) = w.since k h := by
  induction h with
  | nil => rfl
  | cons a h ih =>
      by_cases hk : a.key = k
      · rw [List.filter_cons_of_pos (by simpa using hk), since, since, ih]
      · rw [List.filter_cons_of_neg (by simpa using hk), ih, since, if_neg hk]

theorem triggers_own (k : K) (h : List (Event F K)) :
    w.triggers k (h.filter (·.key = k)) = w.triggers k h := by
  induction h with
  | nil => rfl
  | cons a h ih =>
      by_cases hk : a.key = k
      · subst hk
        rw [List.filter_cons_of_pos (by simp), triggers, triggers, ih, since_own]
      · rw [List.filter_cons_of_neg (by simpa using hk), ih, triggers]
        simp [hk]

/-! ### The lists that are kept -/

variable (w) in
/-- From now on the lists that are kept count as the history does. -/
def Tracks (h : List (Event F K)) (kept : K → List F) : Prop :=
  ∀ k t, Later t h → w.within t (kept k) = (w.within t (w.since k h)).reverse

theorem Tracks.nil : w.Tracks ([] : List (Event F K)) (fun _ => []) := by
  intro k t _
  rfl

theorem Tracks.fires_eq (htr : w.Tracks h kept) (ht : Later t h) (k : K) :
    w.fires t (kept k) = w.fires t (w.since k h) := by
  rw [fires, fires, htr k t ht, List.length_reverse]

/-- What is pruned now is not counted later. -/
theorem within_within [IsOrderedAddMonoid F] {t t' : F} (ht : t ≤ t') (times : List F) :
    w.within t' (w.within t times) = w.within t' times := by
  unfold within
  rw [List.filter_filter]
  refine List.filter_congr fun s _ => ?_
  have hmono : t - w.length ≤ t' - w.length := sub_le_sub_right ht w.length
  by_cases hs : t' - w.length ≤ s
  · simp [hs, hmono.trans hs]
  · simp [hs]

/-- **An event keeps the lists right: its own list is pruned and extended, or cleared.** -/
theorem Tracks.cons [IsOrderedAddMonoid F] (htr : w.Tracks h kept) (ha : Later a.time h) :
    w.Tracks (a :: h) (Function.update kept a.key (w.keep a.time (kept a.key))) := by
  intro k t ht
  obtain ⟨hat, hht⟩ := List.forall_mem_cons.mp ht
  by_cases hk : a.key = k
  · subst hk
    rw [Function.update_self, keep, since, if_pos rfl, htr.fires_eq ha]
    split_ifs
    · rfl
    · have hold : w.within t (kept a.key) = (w.within t (w.since a.key h)).reverse :=
        htr a.key t hht
      have happend : ∀ l l' : List F, w.within t (l ++ l') = w.within t l ++ w.within t l' :=
        fun l l' => List.filter_append l l'
      have hcons : w.within t (a.time :: w.since a.key h) =
          w.within t [a.time] ++ w.within t (w.since a.key h) := happend [a.time] _
      rw [happend, within_within hat, hold, hcons, List.reverse_append]
      congr 1
      unfold within
      by_cases hs : t - w.length ≤ a.time
      · rw [List.filter_cons_of_pos (by simpa using hs)]
        rfl
      · rw [List.filter_cons_of_neg (by simpa using hs)]
        rfl
  · rw [Function.update_of_ne (fun h => hk h.symm), since, if_neg hk]
    exact htr k t hht

end SlidingWindow
