import FirewallLLM.ProxyRotation
import Mathlib.Data.Nat.Count

/-! # The rotation `least_used`

Under `least_used` a `ProxyPool` hands out the first available proxy that is not the active one,
and what the proxies have served plays no part.  Here the requests that each of them has served
are counted beside the pool.

`least_used_iff`: step by step when the proxy that is handed out has served the least, and, for
runs without failures, which lists and windows bring that about. -/

namespace FirewallLLM.Py.ProxyPool

open Routing (Builtins)
open Routing.Builtins (lt add zero round)

variable {F : Type} [Builtins F]

/-- The pool and how many requests each proxy has served. -/
structure Served (F : Type) where
  pool : ProxyPool F
  served : String → ℕ

/-- A request asks for the current proxy and is marked. -/
inductive ServiceEvent (F : Type) where
  | request (now : F)
  | failure (now : F) (url : String)

namespace Served

def init (args : PoolArgs) : Served F := ⟨ProxyPool.init args, fun _ => 0⟩

def step (s : Served F) : ServiceEvent F → Served F
  | .request now =>
      let (url, pool) := s.pool.current now
      ⟨pool.markRequest, Function.update s.served url (s.served url + 1)⟩
  | .failure now url => { s with pool := s.pool.reportFailure now url }

/-- An available proxy is handed out that has served the least of them. -/
def Least (s : Served F) : ServiceEvent F → Prop
  | .request now => (s.pool.current now).1 ∈ s.pool.choices now ∧
      ∀ url ∈ s.pool.choices now, s.served (s.pool.current now).1 ≤ s.served url
  | .failure _ _ => True

/-- If not only the active proxy is available, the first other one has served the least. -/
def FirstOtherLeast (s : Served F) : ServiceEvent F → Prop
  | .request now => ∀ before other after, s.pool.choices now = before ++ other :: after →
      (∀ url ∈ before, url = s.pool.activeUrl) → other ≠ s.pool.activeUrl →
        ∀ url ∈ s.pool.choices now, s.served other ≤ s.served url
  | .failure _ _ => True

/-! ### One request -/

omit [Builtins F] in
theorem find?_other {α : Type} [DecidableEq α] (active : α) (urls : List α) :
    (urls.find? (· ≠ active) = none ∧ ∀ url ∈ urls, url = active) ∨
      ∃ before other after, urls = before ++ other :: after ∧ (∀ url ∈ before, url = active) ∧
        other ≠ active ∧ urls.find? (· ≠ active) = some other := by
  cases hfind : urls.find? (· ≠ active) with
  | none =>
      left
      rw [List.find?_eq_none] at hfind
      exact ⟨rfl, fun url hurl => by simpa using hfind url hurl⟩
  | some other =>
      right
      obtain ⟨hother, before, after, heq, hbefore⟩ := List.find?_eq_some_iff_append.mp hfind
      exact ⟨before, other, after, heq, fun url hurl => by simpa using hbefore url hurl,
        by simpa using hother, rfl⟩

end Served

theorem pick_leastUsed {args : PoolArgs} (h : args.rotation = "least_used") (index : ℕ)
    (available : List String) : pick args index available =
      (available.find? (· ≠ args.proxies.getD (index % args.proxies.length) "")).getD
        (available.headD "") := by
  rcases available with - | ⟨url, - | ⟨other, urls⟩⟩
  · rw [pick, if_pos h]
    intro url hnil
    cases hnil
  · rw [pick]
    cases hfind : [url].find? _ with
    | none => rfl
    | some other => exact (List.mem_singleton.mp (List.mem_of_find?_eq_some hfind)).symm
  · rw [pick, if_pos h]
    intro url' hcons
    cases hcons

namespace Served

theorem current_leastUsed {s : Served F} (h : s.pool.args.rotation = "least_used") (now : F) :
    ((∀ url ∈ s.pool.choices now, url = s.pool.activeUrl) ∧
        (s.pool.current now).1 = s.pool.activeUrl) ∨
      ∃ before other after, s.pool.choices now = before ++ other :: after ∧
        (∀ url ∈ before, url = s.pool.activeUrl) ∧ other ≠ s.pool.activeUrl ∧
        (s.pool.current now).1 = other := by
  have hpick : (s.pool.current now).1 = ((s.pool.choices now).find? (· ≠ s.pool.activeUrl)).getD
      ((s.pool.choices now).headD "") := by
    rw [current_eq, pick_leastUsed h]
    rfl
  rcases find?_other s.pool.activeUrl (s.pool.choices now) with
    ⟨hnone, hall⟩ | ⟨before, other, after, heq, hbefore, hother, hsome⟩
  · refine .inl ⟨hall, ?_⟩
    rw [hpick, hnone]
    obtain ⟨url, urls, hcons⟩ := List.exists_cons_of_ne_nil (s.pool.choices_ne_nil now)
    rw [hcons] at hall ⊢
    exact hall url List.mem_cons_self
  · refine .inr ⟨before, other, after, heq, hbefore, hother, ?_⟩
    rw [hpick, hsome]
    rfl

theorem append_unique {active other other' : String} {before before' after after' : List String}
    (h : before ++ other :: after = before' ++ other' :: after')
    (hbefore : ∀ url ∈ before, url = active) (hother : other ≠ active)
    (hbefore' : ∀ url ∈ before', url = active) (hother' : other' ≠ active) : other = other' := by
  induction before generalizing before' with
  | nil =>
      cases before' with
      | nil => exact (List.cons.inj h).1
      | cons url urls =>
          have hhead : other = url := (List.cons.inj h).1
          exact absurd (hhead.trans (hbefore' url List.mem_cons_self)) hother
  | cons url urls ih =>
      cases before' with
      | nil =>
          have hhead : url = other' := (List.cons.inj h).1
          exact absurd (hhead.symm.trans (hbefore url List.mem_cons_self)) hother'
      | cons url' urls' =>
          exact ih (List.cons.inj h).2 (fun u hu => hbefore u (List.mem_cons_of_mem _ hu))
            (fun u hu => hbefore' u (List.mem_cons_of_mem _ hu))

/-- One request hands out the least used proxy exactly if the first other one is. -/
theorem least_iff {s : Served F} (h : s.pool.args.rotation = "least_used") (e : ServiceEvent F) :
    s.Least e ↔ s.FirstOtherLeast e := by
  cases e with
  | failure now url => exact Iff.rfl
  | request now =>
      rcases current_leastUsed h now with
        ⟨hall, hactive⟩ | ⟨before, other, after, heq, hbefore, hother, hpick⟩
      · constructor
        · rintro - before other after heq - hother
          exact absurd (hall other (heq ▸ List.mem_append_right _ List.mem_cons_self)) hother
        · intro _
          refine ⟨s.pool.current_mem now, fun url hurl => ?_⟩
          rw [hactive, hall url hurl]
      · constructor
        · rintro ⟨-, hleast⟩ before' other' after' heq' hbefore' hother'
          rw [hpick, append_unique (heq.symm.trans heq') hbefore hother hbefore' hother'] at hleast
          exact hleast
        · intro hfirst
          refine ⟨?_, ?_⟩
          · rw [hpick, heq]
            exact List.mem_append_right _ List.mem_cons_self
          · rw [hpick]
            exact hfirst before other after heq hbefore hother

theorem args_step (s : Served F) (e : ServiceEvent F) : (s.step e).pool.args = s.pool.args := by
  cases e with
  | request now =>
      have hcurrent : (s.pool.current now).2.args = s.pool.args := by
        rw [current_eq]
        rfl
      rw [← hcurrent]
      exact (markRequest_tables _).1
  | failure now url => exact args_reportFailure s.pool now url

end Served

/-! ### Two that take turns -/

section Turns

variable {x : ℕ → Prop} [DecidablePred x]

/-- After `k` pairs each has had `k` turns. -/
theorem count_pairs {k : ℕ} (h : ∀ j < k, x (2 * j) ↔ ¬ x (2 * j + 1)) :
    Nat.count x (2 * k) = k := by
  induction k with
  | zero => rfl
  | succ k ih =>
      have hpair := h k (Nat.lt_succ_self k)
      rw [Nat.mul_succ, Nat.count_succ, Nat.count_succ,
        ih (fun j hj => h j (hj.trans (Nat.lt_succ_self k)))]
      by_cases hx : x (2 * k)
      · rw [if_pos hx, if_neg (hpair.mp hx)]
      · rw [if_neg hx, if_pos (not_not.mp (mt hpair.mpr hx))]

/-- The one that has its turn never had more of them exactly if they share each pair. -/
theorem balanced_iff (n : ℕ) : (∀ m < n, (x m → 2 * Nat.count x m ≤ m) ∧
    (¬ x m → m ≤ 2 * Nat.count x m)) ↔
      ∀ k, 2 * k + 1 < n → (x (2 * k) ↔ ¬ x (2 * k + 1)) := by
  constructor
  · intro h k
    induction k using Nat.strong_induction_on with
    | _ k ih =>
        intro hk
        have heven : Nat.count x (2 * k) = k :=
          count_pairs fun j hj => ih j hj (by omega)
        obtain ⟨hturn, hother⟩ := h (2 * k + 1) hk
        rw [Nat.count_succ, heven] at hturn hother
        constructor
        · intro hx hnext
          have hle := hturn hnext
          rw [if_pos hx] at hle
          omega
        · intro hnext
          by_contra hx
          have hle := hother hnext
          rw [if_neg hx] at hle
          omega
  · intro h m hm
    have heven : Nat.count x (2 * (m / 2)) = m / 2 :=
      count_pairs fun j hj => h j (by omega)
    rcases Nat.even_or_odd' m with ⟨k, rfl | rfl⟩
    · have hhalf : 2 * k / 2 = k := by omega
      rw [hhalf] at heven
      rw [heven]
      exact ⟨fun _ => le_rfl, fun _ => le_rfl⟩
    · have hhalf : (2 * k + 1) / 2 = k := by omega
      rw [hhalf] at heven
      have hpair := h k hm
      rw [Nat.count_succ, heven]
      constructor
      · intro hx
        have hfirst : ¬ x (2 * k) := fun hfirst => hpair.mp hfirst hx
        rw [if_neg hfirst]
        omega
      · intro hx
        rw [if_pos (hpair.mpr hx)]
        omega

/-- Nobody who has had a turn gets another one: that is over after the first pair. -/
theorem first_pair_iff {n : ℕ} (h : ∀ k, 2 * k + 1 < n → (x (2 * k) ↔ ¬ x (2 * k + 1))) :
    (∀ m < n, (x m → Nat.count x m = 0) ∧ (¬ x m → m - Nat.count x m = 0)) ↔ n ≤ 2 := by
  constructor
  · intro hnone
    by_contra hn
    have htwo : Nat.count x 2 = 1 := count_pairs (k := 1) fun j hj => h j (by omega)
    obtain ⟨hturn, hother⟩ := hnone 2 (by omega)
    by_cases hx : x 2
    · have hzero := hturn hx
      omega
    · have hzero := hother hx
      omega
  · intro hn m hm
    rcases Nat.lt_or_ge m 1 with hm0 | hm1
    · obtain rfl : m = 0 := by omega
      exact ⟨fun _ => rfl, fun _ => rfl⟩
    · obtain rfl : m = 1 := by omega
      have hpair : x 0 ↔ ¬ x 1 := h 0 hm
      rw [Nat.count_succ, Nat.count_zero]
      constructor
      · intro hx
        have hfirst : ¬ x 0 := fun hfirst => hpair.mp hfirst hx
        rw [if_neg hfirst]
      · intro hx
        rw [if_pos (hpair.mpr hx)]

end Turns

/-! ### Without failures -/

/-- The first proxy of the list. -/
def first (args : PoolArgs) : String := args.proxies.headD ""

/-- While no proxy fails, the first one is active at request number `k`. -/
def FirstActive (args : PoolArgs) (k : ℕ) : Prop :=
  args.proxies.getD ((k / perProxy args) % args.proxies.length) "" = first args

instance (args : PoolArgs) : DecidablePred (FirstActive args) :=
  fun _ => inferInstanceAs (Decidable (_ = _))

/-- There is one proxy only; or the first one is active at one request of each pair, and there
are no more than two proxies or requests. -/
def Alternates (args : PoolArgs) (n : ℕ) : Prop :=
  (∀ url ∈ args.proxies, url = first args) ∨
    ((∀ k, 2 * k + 1 < n → (FirstActive args (2 * k) ↔ ¬ FirstActive args (2 * k + 1))) ∧
      (n ≤ 2 ∨ ∃ other, ∀ url ∈ args.proxies, url = first args ∨ url = other))

namespace Served

/-! ### The requests of such a run -/

/-- The pool after `m` requests of a run without failures, where `other` is the first proxy of
the list that is not its first one. -/
structure Steady (args : PoolArgs) (other : String) (m : ℕ) (s : Served F) : Prop where
  turn : Turn args m s.pool
  healthy : ∀ url, s.pool.disabledUntil url = none
  served : ∀ url, s.served url =
    if url = first args then m - Nat.count (FirstActive args) m
    else if url = other then Nat.count (FirstActive args) m else 0

section Steady

variable {args : PoolArgs} {other : String} {before after : List String} {m : ℕ} {s : Served F}

theorem choices_steady (h : Steady args other m s) (now : F) :
    s.pool.choices now = args.proxies := by
  rw [← h.turn.args_eq]
  refine choices_of_healthy fun url _ => ?_
  rintro ⟨untilTs, huntil, -⟩
  rw [h.healthy url] at huntil
  cases huntil

omit [Builtins F] in
theorem activeUrl_steady (h : Steady args other m s) :
    s.pool.activeUrl = first args ↔ FirstActive args m := by
  rw [activeUrl, h.turn.args_eq, h.turn.index_eq]
  rfl

theorem first_cons (args : PoolArgs) : ∃ urls, args.proxies = first args :: urls := by
  obtain ⟨url, urls, heq⟩ := List.exists_cons_of_ne_nil args.nonempty
  exact ⟨urls, by rw [first, heq]; rfl⟩

theorem current_steady (h : Steady args other m s) (hrotation : args.rotation = "least_used")
    (heq : args.proxies = before ++ other :: after) (hbefore : ∀ url ∈ before, url = first args)
    (hother : other ≠ first args) (now : F) :
    (s.pool.current now).1 = if FirstActive args m then other else first args := by
  have hrotation' : s.pool.args.rotation = "least_used" := by rw [h.turn.args_eq, hrotation]
  have hcases := current_leastUsed hrotation' now
  rw [choices_steady h now] at hcases
  obtain ⟨urls, hcons⟩ := first_cons args
  have hmem : other ∈ args.proxies := heq ▸ List.mem_append_right _ List.mem_cons_self
  have hhead : first args ∈ args.proxies := hcons ▸ List.mem_cons_self
  split_ifs with hactive
  · rw [(activeUrl_steady h).mpr hactive] at hcases
    rcases hcases with ⟨hall, -⟩ | ⟨before', other', after', heq', hbefore', hother', hpick⟩
    · exact absurd (hall other hmem) hother
    · rw [hpick]
      exact append_unique (heq'.symm.trans heq) hbefore' hother' hbefore hother
  · have hne : first args ≠ s.pool.activeUrl := fun h' =>
      hactive ((activeUrl_steady h).mp h'.symm)
    rcases hcases with ⟨hall, -⟩ | ⟨before', other', after', heq', hbefore', hother', hpick⟩
    · exact absurd (hall (first args) hhead) hne
    · rw [hpick]
      have hnil : ∀ url ∈ ([] : List String), url = s.pool.activeUrl := List.forall_mem_nil _
      exact append_unique (heq'.symm.trans hcons) hbefore' hother' hnil hne

/-- The least used is handed out at request number `m`. -/
def LeastAt (args : PoolArgs) (other : String) (m : ℕ) : Prop :=
  ((FirstActive args m → 2 * Nat.count (FirstActive args) m ≤ m) ∧
      (¬ FirstActive args m → m ≤ 2 * Nat.count (FirstActive args) m)) ∧
    ((∃ url ∈ args.proxies, url ≠ first args ∧ url ≠ other) →
      (FirstActive args m → Nat.count (FirstActive args) m = 0) ∧
        (¬ FirstActive args m → m - Nat.count (FirstActive args) m = 0))

theorem least_steady (h : Steady args other m s) (hrotation : args.rotation = "least_used")
    (heq : args.proxies = before ++ other :: after) (hbefore : ∀ url ∈ before, url = first args)
    (hother : other ≠ first args) (now : F) :
    s.Least (.request now) ↔ LeastAt args other m := by
  obtain ⟨urls, hcons⟩ := first_cons args
  have hmem : other ∈ args.proxies := heq ▸ List.mem_append_right _ List.mem_cons_self
  have hhead : first args ∈ args.proxies := hcons ▸ List.mem_cons_self
  have hle : Nat.count (FirstActive args) m ≤ m := Nat.count_le _
  have hfirst : s.served (first args) = m - Nat.count (FirstActive args) m := by
    rw [h.served, if_pos rfl]
  have hsecond : s.served other = Nat.count (FirstActive args) m := by
    rw [h.served, if_neg hother, if_pos rfl]
  have hthird : ∀ url, url ≠ first args → url ≠ other → s.served url = 0 := by
    intro url h1 h2
    rw [h.served, if_neg h1, if_neg h2]
  rw [Least, choices_steady h now, current_steady h hrotation heq hbefore hother now]
  unfold LeastAt
  by_cases hactive : FirstActive args m
  · rw [if_pos hactive, hsecond]
    simp only [hactive, not_true, true_implies, false_implies, and_true]
    constructor
    · rintro ⟨-, hleast⟩
      refine ⟨?_, ?_⟩
      · have hturn := hleast (first args) hhead
        omega
      · rintro ⟨url, hurl, h1, h2⟩
        have hzero := hleast url hurl
        rw [hthird url h1 h2] at hzero
        omega
    · rintro ⟨hturn, hnone⟩
      refine ⟨hmem, fun url hurl => ?_⟩
      by_cases h1 : url = first args
      · rw [h1, hfirst]
        omega
      · by_cases h2 : url = other
        · rw [h2, hsecond]
        · rw [hnone ⟨url, hurl, h1, h2⟩]
          exact Nat.zero_le _
  · rw [if_neg hactive, hfirst]
    simp only [hactive, not_false_iff, true_implies, false_implies, true_and]
    constructor
    · rintro ⟨-, hleast⟩
      refine ⟨?_, ?_⟩
      · have hturn := hleast other hmem
        omega
      · rintro ⟨url, hurl, h1, h2⟩
        have hzero := hleast url hurl
        rw [hthird url h1 h2] at hzero
        omega
    · rintro ⟨hturn, hnone⟩
      refine ⟨hhead, fun url hurl => ?_⟩
      by_cases h1 : url = first args
      · rw [h1, hfirst]
      · by_cases h2 : url = other
        · rw [h2, hsecond]
          omega
        · rw [hnone ⟨url, hurl, h1, h2⟩]
          exact Nat.zero_le _

theorem steady_step (h : Steady args other m s) (hrotation : args.rotation = "least_used")
    (heq : args.proxies = before ++ other :: after) (hbefore : ∀ url ∈ before, url = first args)
    (hother : other ≠ first args) (now : F) :
    Steady args other (m + 1) (s.step (.request now)) := by
  have hturn : Turn args m (s.pool.current now).2 :=
    turn_of_window h.turn (by rw [current_eq]; rfl) (window_current s.pool now)
  have hle : Nat.count (FirstActive args) m ≤ m := Nat.count_le _
  refine ⟨hturn.mark, fun url => ?_, fun url => ?_⟩
  · have huntil : (s.step (.request now)).pool.disabledUntil =
        (s.pool.current now).2.disabledUntil := (markRequest_tables _).2.2
    rw [huntil, current_eq]
    simp [swept, h.healthy url]
  · have hserved : (s.step (.request now)).served = Function.update s.served
        (s.pool.current now).1 (s.served (s.pool.current now).1 + 1) := rfl
    rw [hserved, current_steady h hrotation heq hbefore hother now, Function.update_apply,
      h.served url, Nat.count_succ]
    by_cases hactive : FirstActive args m
    · rw [if_pos hactive, if_pos hactive, h.served other, if_neg hother, if_pos rfl]
      split_ifs <;> grind
    · rw [if_neg hactive, if_neg hactive, h.served (first args), if_pos rfl]
      split_ifs <;> grind

omit [Builtins F] in
theorem steady_init (args : PoolArgs) (other : String) :
    Steady args other 0 (init args : Served F) :=
  ⟨turn_init args, fun _ => rfl, fun url => by simp [init]⟩

/-- A run without failures is a run of its request numbers. -/
theorem along_steady (hrotation : args.rotation = "least_used")
    (heq : args.proxies = before ++ other :: after) (hbefore : ∀ url ∈ before, url = first args)
    (hother : other ≠ first args) (times : List F) (h : Steady args other m s) :
    Runs.Along step Least s (times.map .request) ↔
      ∀ k < times.length, LeastAt args other (m + k) := by
  induction times generalizing m s with
  | nil => simp
  | cons now times ih =>
      rw [List.map_cons, Runs.along_cons, least_steady h hrotation heq hbefore hother now,
        ih (steady_step h hrotation heq hbefore hother now)]
      constructor
      · rintro ⟨hnow, hrest⟩ k hk
        cases k with
        | zero => exact hnow
        | succ k =>
            have hnext := hrest k (Nat.succ_lt_succ_iff.mp hk)
            rwa [Nat.add_assoc, Nat.add_comm 1 k] at hnext
      · intro hall
        refine ⟨hall 0 (Nat.zero_lt_succ _), fun k hk => ?_⟩
        have hnext := hall (k + 1) (Nat.succ_lt_succ hk)
        rwa [Nat.add_assoc, Nat.add_comm 1 k]

end Steady

theorem leastAt_iff {args : PoolArgs} {other : String} (hmem : other ∈ args.proxies)
    (hother : other ≠ first args) (n : ℕ) :
    (∀ k < n, LeastAt args other k) ↔ Alternates args n := by
  have hdifferent : ¬ ∀ url ∈ args.proxies, url = first args := fun hall => hother (hall other hmem)
  have hthird : (∃ other', ∀ url ∈ args.proxies, url = first args ∨ url = other') ↔
      ¬ ∃ url ∈ args.proxies, url ≠ first args ∧ url ≠ other := by
    constructor
    · rintro ⟨other', hall⟩ ⟨url, hurl, h1, h2⟩
      have hurl' : url = other' := (hall url hurl).resolve_left h1
      exact h2 (hurl'.trans ((hall other hmem).resolve_left hother).symm)
    · intro hnone
      refine ⟨other, fun url hurl => ?_⟩
      by_contra hboth
      exact hnone ⟨url, hurl, not_or.mp hboth⟩
  rw [Alternates, or_iff_right hdifferent, hthird]
  unfold LeastAt
  rw [forall₂_and, balanced_iff]
  refine and_congr_right fun hpairs => ?_
  rw [← first_pair_iff hpairs]
  constructor
  · intro h
    by_cases hother' : ∃ url ∈ args.proxies, url ≠ first args ∧ url ≠ other
    · exact .inl fun k hk => h k hk hother'
    · exact .inr hother'
  · rintro (h | hnone) k hk hother'
    · exact h k hk
    · exact absurd hother' hnone

theorem least_of_all_first {args : PoolArgs} (h : ∀ url ∈ args.proxies, url = first args)
    {s : Served F} (hargs : s.pool.args = args) (e : ServiceEvent F) : s.Least e := by
  cases e with
  | failure now url => trivial
  | request now =>
      have hall : ∀ url ∈ s.pool.choices now, url = first args :=
        fun url hurl => h url (hargs ▸ mem_of_mem_choices hurl)
      refine ⟨s.pool.current_mem now, fun url hurl => ?_⟩
      rw [hall _ (s.pool.current_mem now), hall url hurl]

/-- Without failures the rotation is least used for the lists and windows that alternate. -/
theorem along_requests_iff (args : PoolArgs) (hrotation : args.rotation = "least_used")
    (times : List F) : Runs.Along step Least (init args) (times.map .request) ↔
      Alternates args times.length := by
  rcases find?_other (first args) args.proxies with
    ⟨-, hall⟩ | ⟨before, other, after, heq, hbefore, hother, -⟩
  · refine iff_of_true ?_ (.inl hall)
    exact Runs.Along.of_invariant (I := fun s : Served F => s.pool.args = args)
      (Q := fun _ _ => True)
      (fun s e h _ => ⟨least_of_all_first hall h e, (args_step s e).trans h⟩) rfl
      (Runs.along_of_forall _ fun _ _ => trivial)
  · have hmem : other ∈ args.proxies := heq ▸ List.mem_append_right _ List.mem_cons_self
    rw [along_steady hrotation heq hbefore hother times (steady_init args other),
      ← leastAt_iff hmem hother]
    simp only [Nat.zero_add]

/-- **`least_used` hands out the least used proxy exactly while the first available proxy other
than the active one is, which without failures takes a list of two proxies that are active at one
request each of every pair.** -/
theorem least_used_iff (args : PoolArgs) (hrotation : args.rotation = "least_used") :
    (∀ events : List (ServiceEvent F), Runs.Along step Least (init args) events ↔
      Runs.Along step FirstOtherLeast (init args) events) ∧
    ∀ times : List F, Runs.Along step Least (init args) (times.map .request) ↔
      Alternates args times.length := by
  refine ⟨fun events => ?_, along_requests_iff args hrotation⟩
  have hargs : ∀ (s : Served F) (e : ServiceEvent F), s.pool.args = args →
      (s.step e).pool.args = args := fun s e h => (args_step s e).trans h
  have hlegal : Runs.Along step (fun (_ : Served F) _ => True) (init args) events :=
    Runs.along_of_forall _ fun _ _ => trivial
  exact Runs.Along.iff_of_invariant
    (fun s e (h : s.pool.args = args) _ => least_iff (h ▸ hrotation) e)
    (fun s e h _ _ => hargs s e h) events _ rfl hlegal

/-- Two proxies of which each is active for one request. -/
theorem least_used_pair :
    Runs.Along step Least (init (pairArgs "least_used" 1 3))
      ([1000, 1001, 1002].map (ServiceEvent.request (F := ℤ))) ∧
    Runs.Along step FirstOtherLeast (init (pairArgs "least_used" 1 3))
      ([1000, 1001, 1002].map (ServiceEvent.request (F := ℤ))) := by
  obtain ⟨hsteps, hrequests⟩ := least_used_iff (F := ℤ) (pairArgs "least_used" 1 3) rfl
  have halternates : Alternates (pairArgs "least_used" 1 3) 3 := by
    refine .inr ⟨fun k hk => ?_, .inr ⟨"http://b:8080", by decide⟩⟩
    obtain rfl : k = 0 := by omega
    decide
  have hleast := (hrequests [1000, 1001, 1002]).mpr halternates
  exact ⟨hleast, (hsteps _).mp hleast⟩

/-- Within a window the same proxy is handed out again and again. -/
theorem most_used : ¬ ∀ (args : PoolArgs) (events : List (ServiceEvent ℤ)),
    args.rotation = "least_used" → Runs.Along step Least (init args) events := by
  intro h
  have hsecond := (h (pairArgs "least_used" 100 3) [.request 1000, .request 1001] rfl).2.1.2
    "http://a:8080" List.mem_cons_self
  exact absurd hsecond (by decide)

end Served

end FirewallLLM.Py.ProxyPool
