import Mathlib.Data.List.Basic
import Mathlib.Logic.Function.Basic

/-! # Correlating replies with requests

Requests are numbered and each waits under a key.  A reply goes to the request that waits under
its key, which then waits no more.  The trace is what has happened, in its order.

`inv_act` is the invariant rule; `Inv.answered` says that what a request is answered with is the
first reply with its key after it began to wait, and `Inv.once` that no reply answers two
requests. -/

namespace Correlation

/-- What can be seen: a request begins to wait, a reply arrives, and anything else. -/
inductive Entry (K V : Type) where
  | opened (i : ℕ) (k : K)
  | reply (k : K) (v : V)
  | noise

/-- A step.  `taken` says whether the request that a reply is for, if there is one, still takes
it. -/
inductive Move (K V : Type) where
  | see (e : Entry K V) (taken : Bool)
  | clear

/-- Who waits under which key, the replies that were taken, by their position in the trace, and
what has been seen. -/
@[ext] structure State (K V : Type) where
  waiting : K → Option ℕ
  answer : ℕ → Option (ℕ × V)
  seen : List (Entry K V)

variable {K V : Type}

def init : State K V := ⟨fun _ => none, fun _ => none, []⟩

/-! ### The first reply -/

/-- From the position `o` on there is no reply with the key `k` before the position `n`. -/
def NoReply (seen : List (Entry K V)) (k : K) (o n : ℕ) : Prop :=
  ∀ m, o < m → m < n → ∀ w, seen[m]? ≠ some (.reply k w)

/-- The entry at `n` is the first reply with the key of request `i` after `i` began to wait. -/
def FirstReply (seen : List (Entry K V)) (i n : ℕ) (v : V) : Prop :=
  ∃ o k, seen[o]? = some (.opened i k) ∧ o < n ∧ seen[n]? = some (.reply k v) ∧
    NoReply seen k o n

theorem getElem?_append_of_some {seen : List (Entry K V)} {n : ℕ} {e : Entry K V}
    (h : seen[n]? = some e) (rest : List (Entry K V)) : (seen ++ rest)[n]? = some e := by
  rw [List.getElem?_append_left (List.getElem?_eq_some_iff.mp h).1]
  exact h

theorem NoReply.append {seen : List (Entry K V)} {k : K} {o n : ℕ} (h : NoReply seen k o n)
    (hn : n ≤ seen.length) (rest : List (Entry K V)) : NoReply (seen ++ rest) k o n := by
  intro m hom hmn w
  rw [List.getElem?_append_left (Nat.lt_of_lt_of_le hmn hn)]
  exact h m hom hmn w

theorem NoReply.snoc {seen : List (Entry K V)} {k : K} {o : ℕ}
    (h : NoReply seen k o seen.length) {e : Entry K V} (he : ∀ w, e ≠ .reply k w) :
    NoReply (seen ++ [e]) k o (seen ++ [e]).length := by
  intro m hom hmn w
  rw [List.length_append, List.length_singleton] at hmn
  rcases Nat.lt_succ_iff_lt_or_eq.mp hmn with hlt | rfl
  · exact h.append Nat.le.refl [e] m hom hlt w
  · rw [List.getElem?_concat_length]
    exact fun heq => he w (Option.some.inj heq)

theorem FirstReply.append {seen : List (Entry K V)} {i n : ℕ} {v : V}
    (h : FirstReply seen i n v) (rest : List (Entry K V)) :
    FirstReply (seen ++ rest) i n v := by
  obtain ⟨o, k, ho, hon, hn, hno⟩ := h
  exact ⟨o, k, getElem?_append_of_some ho rest, hon, getElem?_append_of_some hn rest,
    hno.append (Nat.le_of_lt (List.getElem?_eq_some_iff.mp hn).1) rest⟩

/-! ### The invariant -/

/-- Whoever waits has begun to wait and has had no reply since; an answer is the first reply;
and no reply answers two requests. -/
structure Inv (s : State K V) : Prop where
  waiting : ∀ k i, s.waiting k = some i →
    ∃ o, s.seen[o]? = some (.opened i k) ∧ NoReply s.seen k o s.seen.length
  answered : ∀ i n v, s.answer i = some (n, v) → FirstReply s.seen i n v
  once : ∀ i j n v w, s.answer i = some (n, v) → s.answer j = some (n, w) → i = j

theorem inv_init : Inv (init : State K V) where
  waiting _ _ h := by cases h
  answered _ _ _ h := by cases h
  once _ _ _ _ _ h := by cases h

theorem Inv.lt_length {s : State K V} (hs : Inv s) {i n : ℕ} {v : V}
    (h : s.answer i = some (n, v)) : n < s.seen.length := by
  obtain ⟨o, k, -, -, hn, -⟩ := hs.answered i n v h
  exact (List.getElem?_eq_some_iff.mp hn).1

/-- Whoever waits goes on to wait at an entry that is no reply to it. -/
theorem Inv.waiting_snoc {s : State K V} (hs : Inv s) {k : K} {i : ℕ}
    (h : s.waiting k = some i) (e : Entry K V) (he : ∀ w, e ≠ .reply k w) :
    ∃ o, (s.seen ++ [e])[o]? = some (.opened i k) ∧
      NoReply (s.seen ++ [e]) k o (s.seen ++ [e]).length := by
  obtain ⟨o, ho, hno⟩ := hs.waiting k i h
  exact ⟨o, getElem?_append_of_some ho _, hno.snoc he⟩

/-! ### Steps -/

variable [DecidableEq K]

/-- One step. -/
def act (s : State K V) : Move K V → State K V
  | .clear => { s with waiting := fun _ => none }
  | .see (.opened i k) _ =>
      { s with
        waiting := Function.update s.waiting k (some i)
        seen := s.seen ++ [.opened i k] }
  | .see (.reply k v) taken => match s.waiting k with
      | none => { s with seen := s.seen ++ [.reply k v] }
      | some i =>
          { waiting := Function.update s.waiting k none
            answer := if taken then Function.update s.answer i (some (s.seen.length, v))
              else s.answer
            seen := s.seen ++ [.reply k v] }
  | .see .noise _ => { s with seen := s.seen ++ [.noise] }

theorem inv_opened {s : State K V} (hs : Inv s) (i : ℕ) (k : K) (taken : Bool) :
    Inv (act s (.see (.opened i k) taken)) where
  waiting k' j hj := by
    simp only [act] at hj ⊢
    by_cases hk : k' = k
    · subst hk
      rw [Function.update_self] at hj
      obtain rfl := Option.some.inj hj
      refine ⟨s.seen.length, List.getElem?_concat_length, fun m hlt hle => ?_⟩
      rw [List.length_append, List.length_singleton] at hle
      omega
    · rw [Function.update_of_ne hk] at hj
      exact hs.waiting_snoc hj _ (fun w h => nomatch h)
  answered j n v hj := (hs.answered j n v hj).append _
  once := hs.once

theorem inv_reply {s : State K V} (hs : Inv s) (k : K) (v : V) (taken : Bool) :
    Inv (act s (.see (.reply k v) taken)) := by
  have hother : ∀ k' j, k' ≠ k → s.waiting k' = some j →
      ∃ o, (s.seen ++ [Entry.reply k v])[o]? = some (.opened j k') ∧
        NoReply (s.seen ++ [.reply k v]) k' o (s.seen ++ [Entry.reply k v]).length :=
    fun k' j hk hj => hs.waiting_snoc hj _ (fun w h => hk (by cases h; rfl))
  cases hw : s.waiting k with
  | none =>
      simp only [act, hw]
      refine ⟨fun k' j hj => hother k' j (fun h => ?_) hj,
        fun j n w hj => (hs.answered j n w hj).append _, hs.once⟩
      rw [h, hw] at hj
      cases hj
  | some i =>
      have hwait : ∀ k' j, Function.update s.waiting k none k' = some j →
          k' ≠ k ∧ s.waiting k' = some j := by
        intro k' j hj
        have hk : k' ≠ k := by
          rintro rfl
          rw [Function.update_self] at hj
          cases hj
        rw [Function.update_of_ne hk] at hj
        exact ⟨hk, hj⟩
      -- the reply is the first one that request `i` has had
      have hfirst : FirstReply (s.seen ++ [.reply k v]) i s.seen.length v := by
        obtain ⟨o, ho, hno⟩ := hs.waiting k i hw
        exact ⟨o, k, getElem?_append_of_some ho _, (List.getElem?_eq_some_iff.mp ho).1,
          List.getElem?_concat_length, hno.append Nat.le.refl _⟩
      simp only [act, hw]
      cases taken with
      | false =>
          exact ⟨fun k' j hj => hother k' j (hwait k' j hj).1 (hwait k' j hj).2,
            fun j n w hj => (hs.answered j n w hj).append _, hs.once⟩
      | true =>
          simp only [if_true]
          have hanswer : ∀ j n w, Function.update s.answer i (some (s.seen.length, v)) j =
              some (n, w) → (j = i ∧ n = s.seen.length ∧ w = v) ∨
                (n < s.seen.length ∧ s.answer j = some (n, w)) := by
            intro j n w hj
            by_cases hji : j = i
            · subst hji
              rw [Function.update_self] at hj
              cases hj
              exact Or.inl ⟨rfl, rfl, rfl⟩
            · rw [Function.update_of_ne hji] at hj
              exact Or.inr ⟨hs.lt_length hj, hj⟩
          refine ⟨fun k' j hj => hother k' j (hwait k' j hj).1 (hwait k' j hj).2, ?_, ?_⟩
          · intro j n w hj
            rcases hanswer j n w hj with ⟨rfl, rfl, rfl⟩ | ⟨-, hold⟩
            · exact hfirst
            · exact (hs.answered j n w hold).append _
          · intro j j' n w w' hj hj'
            rcases hanswer j n w hj with ⟨rfl, hn, -⟩ | ⟨hlt, hold⟩
            · rcases hanswer j' n w' hj' with ⟨rfl, -, -⟩ | ⟨hlt', -⟩
              · rfl
              · omega
            · rcases hanswer j' n w' hj' with ⟨rfl, hn, -⟩ | ⟨-, hold'⟩
              · omega
              · exact hs.once j j' n w w' hold hold'

/-- **Every step keeps the invariant.** -/
theorem inv_act {s : State K V} (hs : Inv s) (m : Move K V) : Inv (act s m) := by
  cases m with
  | clear => exact ⟨fun k i h => (nomatch h), hs.answered, hs.once⟩
  | see e taken =>
      cases e with
      | opened i k => exact inv_opened hs i k taken
      | reply k v => exact inv_reply hs k v taken
      | noise =>
          exact ⟨fun k i h => hs.waiting_snoc h _ (fun w h => nomatch h),
            fun j n w hj => (hs.answered j n w hj).append _, hs.once⟩

end Correlation
