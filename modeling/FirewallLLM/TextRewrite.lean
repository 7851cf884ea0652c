import FirewallLLM.TextPattern

/-! # Replacing what a pattern matches

Of the places where a match can end a greedy pattern prefers the first one of `ranked`.  The
matches of a text are found from the left, each from the end of the one before, and `gaps` are
the parts of the text between them, around which `replaceAll` puts the replacement.  It is about
patterns of which no match is empty.

`search_replaceAll_self`: a pattern without word boundaries is not found any more where its
matches are replaced by something foreign.  `search_replaceAll`: nor is one that was not there
before. -/

namespace TextPattern

variable {κ α : Type}

/-! ### Repetitions -/

/-- `r{0,n}` -/
def upTo (r : TextPattern κ) : ℕ → TextPattern κ
  | 0 => .empty
  | n + 1 => .alt (.seq r (r.upTo n)) .empty

/-- `r{m,n}` -/
def between (r : TextPattern κ) (m n : ℕ) : TextPattern κ :=
  (List.replicate m r).foldr .seq (r.upTo (n - m))

/-- `r{n}` -/
def times (r : TextPattern κ) (n : ℕ) : TextPattern κ := r.between n n

/-- The pattern has no word boundary. -/
def steady : TextPattern κ → Bool
  | .boundary => false
  | .seq r s | .alt r s => r.steady && s.steady
  | _ => true

variable (accepts : κ → α → Bool) (word : α → Bool)

/-! ### Matches -/

/-- Where a match can end, what is preferred first: letters reach as far as they can. -/
def ranked : TextPattern κ → Bool → List α → List (Bool × List α)
  | .empty, before, t => [(before, t)]
  | .letter _, _, [] => []
  | .letter k, _, c :: t => if accepts k c then [(word c, t)] else []
  | .letters k, _, t => (run word (accepts k) t).reverse
  | .boundary, before, t => if before = t.head?.any word then [] else [(before, t)]
  | .seq r s, before, t => (r.ranked before t).flatMap (fun e => s.ranked e.1 e.2)
  | .alt r s, before, t => r.ranked before t ++ s.ranked before t

/-- The parts of a text between the matches; `skip` letters belong to one that has begun. -/
def gaps (r : TextPattern κ) : ℕ → Bool → List α → List (List α)
  | _, _, [] => [[]]
  | skip + 1, _, c :: t => r.gaps skip (word c) t
  | 0, before, c :: t => match (r.ranked accepts word before (c :: t)).head? with
    | some e => [] :: r.gaps (t.length - e.2.length) (word c) t
    | none => (r.gaps 0 (word c) t).modifyHead (c :: ·)

/-- The text with every match replaced. -/
def replaceAll (r : TextPattern κ) (rep t : List α) : List α :=
  rep.intercalate (r.gaps accepts word 0 false t)

variable {accepts word} {r s : TextPattern κ}

theorem mem_ranked {before : Bool} {t : List α} {e : Bool × List α} :
    e ∈ r.ranked accepts word before t ↔ e ∈ r.ends accepts word before t := by
  induction r generalizing before t e with
  | empty => exact Iff.rfl
  | letter k => cases t <;> exact Iff.rfl
  | letters k => exact List.mem_reverse
  | boundary => exact Iff.rfl
  | seq r s ihr ihs => simp only [ranked, ends, List.mem_flatMap, ihr, ihs]
  | alt r s ihr ihs => simp only [ranked, ends, List.mem_append, ihr, ihs]

/-! ### Patterns without word boundaries -/

theorem run_append {p : α → Bool} {t : List α} {e : Bool × List α} (h : e ∈ run word p t)
    (q : List α) : (e.1, e.2 ++ q) ∈ run word p (t ++ q) := by
  induction t with
  | nil => cases h
  | cons c t ih =>
      rw [List.cons_append, run]
      rw [run] at h
      split_ifs at h ⊢
      · rcases List.mem_cons.mp h with rfl | h
        · exact List.mem_cons_self
        · exact List.mem_cons_of_mem _ (ih h)
      · cases h

theorem ends_append (hr : r.steady = true) {before : Bool} {t : List α} {e : Bool × List α}
    (h : e ∈ r.ends accepts word before t) (before' : Bool) (q : List α) :
    ∃ b, (b, e.2 ++ q) ∈ r.ends accepts word before' (t ++ q) := by
  induction r generalizing before t e before' with
  | empty =>
      obtain rfl := List.mem_singleton.mp h
      exact ⟨before', List.mem_singleton_self _⟩
  | letter k =>
      cases t with
      | nil => cases h
      | cons c t =>
          rw [ends] at h
          rw [List.cons_append, ends]
          split_ifs at h ⊢
          · obtain rfl := List.mem_singleton.mp h
            exact ⟨_, List.mem_singleton_self _⟩
          · cases h
  | letters k => exact ⟨e.1, run_append h q⟩
  | boundary => cases hr
  | seq r s ihr ihs =>
      obtain ⟨hr, hs⟩ := Bool.and_eq_true_iff.mp hr
      obtain ⟨m, hm, he⟩ := List.mem_flatMap.mp h
      obtain ⟨b, hb⟩ := ihr hr hm before'
      obtain ⟨b', hb'⟩ := ihs hs he b
      exact ⟨b', List.mem_flatMap.mpr ⟨_, hb, hb'⟩⟩
  | alt r s ihr ihs =>
      obtain ⟨hr, hs⟩ := Bool.and_eq_true_iff.mp hr
      rcases List.mem_append.mp h with h | h
      · obtain ⟨b, hb⟩ := ihr hr h before'
        exact ⟨b, List.mem_append_left _ hb⟩
      · obtain ⟨b, hb⟩ := ihs hs h before'
        exact ⟨b, List.mem_append_right _ hb⟩

theorem search_append_left (hr : r.steady = true) {before : Bool} {t : List α} (q : List α)
    (h : r.search accepts word before t = true) (before' : Bool) :
    r.search accepts word before' (t ++ q) = true := by
  have hends : ∀ t b b', r.ends accepts word b t ≠ [] → r.ends accepts word b' (t ++ q) ≠ [] := by
    intro t b b' hne
    obtain ⟨e, he⟩ := List.exists_mem_of_ne_nil _ hne
    obtain ⟨b'', hb⟩ := ends_append hr he b' q
    exact List.ne_nil_of_mem hb
  induction t generalizing before before' with
  | nil =>
      rw [search, Bool.not_eq_true', List.isEmpty_eq_false_iff] at h
      have hfirst := hends _ _ before' h
      rw [List.nil_append] at hfirst ⊢
      cases q with
      | nil => rw [search, Bool.not_eq_true', List.isEmpty_eq_false_iff]; exact hfirst
      | cons c q =>
          rw [search, Bool.or_eq_true, Bool.not_eq_true', List.isEmpty_eq_false_iff]
          exact .inl hfirst
  | cons c t ih =>
      rw [search, Bool.or_eq_true, Bool.not_eq_true', List.isEmpty_eq_false_iff] at h
      rw [List.cons_append, search, Bool.or_eq_true, Bool.not_eq_true', List.isEmpty_eq_false_iff]
      rcases h with h | h
      · exact .inl (hends _ _ _ h)
      · exact .inr (ih h _)

theorem search_append_right {before : Bool} {t : List α} (p : List α)
    (hr : r.steady = true) (h : r.search accepts word before t = true) (before' : Bool) :
    r.search accepts word before' (p ++ t) = true := by
  induction p generalizing before' with
  | nil =>
      have hsame := search_append_left hr [] h before'
      rwa [List.append_nil] at hsame
  | cons c p ih =>
      rw [List.cons_append, search, Bool.or_eq_true]
      exact .inr (ih _)

theorem search_infix (hr : r.steady = true) {t u : List α} (h : t <:+: u) {before : Bool}
    (hu : r.search accepts word before u = false) (before' : Bool) :
    r.search accepts word before' t = false := by
  obtain ⟨p, q, rfl⟩ := h
  by_contra hfound
  rw [Bool.not_eq_false] at hfound
  have hall := search_append_left hr q (search_append_right p hr hfound false) before
  rw [hu] at hall
  cases hall

/-! ### The gaps -/

/-- The first gap is the beginning of the text, and each is a part of it. -/
theorem gaps_spec (skip : ℕ) (before : Bool) (t : List α) :
    ∃ g gs, r.gaps accepts word skip before t = g :: gs ∧ (skip = 0 → g <+: t) ∧
      ∀ h ∈ g :: gs, h <:+: t := by
  induction t generalizing skip before with
  | nil =>
      refine ⟨[], [], by cases skip <;> rfl, fun _ => List.nil_prefix, fun h hh => ?_⟩
      rewrite [List.mem_singleton.mp hh]
      exact List.infix_rfl
  | cons c t ih =>
      cases skip with
      | succ skip =>
          obtain ⟨g, gs, hgaps, -, hparts⟩ := ih skip (word c)
          exact ⟨g, gs, hgaps, fun hzero => absurd hzero (Nat.succ_ne_zero skip),
            fun h hh => List.infix_cons (hparts h hh)⟩
      | zero =>
          cases hfirst : (r.ranked accepts word before (c :: t)).head? with
          | some e =>
              obtain ⟨g, gs, hgaps, -, hparts⟩ := ih (t.length - e.2.length) (word c)
              refine ⟨[], g :: gs, ?_, fun _ => List.nil_prefix, ?_⟩
              · rw [gaps, hfirst]
                exact congrArg ([] :: ·) hgaps
              · exact List.forall_mem_cons.mpr
                  ⟨List.nil_infix, fun h hh => List.infix_cons (hparts h hh)⟩
          | none =>
              obtain ⟨g, gs, hgaps, hprefix, hparts⟩ := ih 0 (word c)
              have hhead : c :: g <+: c :: t := List.cons_prefix_cons.mpr ⟨rfl, hprefix rfl⟩
              refine ⟨c :: g, gs, ?_, fun _ => hhead, ?_⟩
              · rw [gaps, hfirst]
                exact congrArg (List.modifyHead (c :: ·)) hgaps
              · refine List.forall_mem_cons.mpr ⟨hhead.isInfix, fun h hh => ?_⟩
                exact List.infix_cons (hparts h (List.mem_cons_of_mem _ hh))

/-- The matches are found from the left, so that no gap has one. -/
theorem search_gap (hr : r.steady = true) (hletter : r.needs (fun _ => true) = true) (skip : ℕ)
    (before : Bool) (t : List α) :
    ∀ g ∈ r.gaps accepts word skip before t, ∀ b, r.search accepts word b g = false := by
  have hnil : ∀ b, r.search accepts word b [] = false := fun b => by
    rw [search, ends_eq_nil hletter (fun c hc => absurd hc List.not_mem_nil)]
    rfl
  induction t generalizing skip before with
  | nil =>
      intro g hg
      have hgaps : r.gaps accepts word skip before [] = [[]] := by cases skip <;> rfl
      rw [hgaps, List.mem_singleton] at hg
      rw [hg]
      exact hnil
  | cons c t ih =>
      cases skip with
      | succ skip => exact ih skip (word c)
      | zero =>
          cases hfirst : (r.ranked accepts word before (c :: t)).head? with
          | some e =>
              have hgaps : r.gaps accepts word 0 before (c :: t) =
                  [] :: r.gaps accepts word (t.length - e.2.length) (word c) t := by
                rw [gaps, hfirst]
              rw [hgaps]
              exact List.forall_mem_cons.mpr ⟨hnil, ih _ _⟩
          | none =>
              have hspec : ∃ g gs, r.gaps accepts word 0 (word c) t = g :: gs ∧
                  (0 = 0 → g <+: t) ∧ ∀ h ∈ g :: gs, h <:+: t := gaps_spec 0 (word c) t
              obtain ⟨g, gs, hrest, hprefix, -⟩ := hspec
              have hgaps : r.gaps accepts word 0 before (c :: t) = (c :: g) :: gs := by
                rw [gaps, hfirst]
                exact congrArg (List.modifyHead (c :: ·)) hrest
              have hclean := ih 0 (word c)
              rw [hrest] at hclean
              obtain ⟨hg, hgs⟩ := List.forall_mem_cons.mp hclean
              rw [hgaps]
              refine List.forall_mem_cons.mpr ⟨fun b => ?_, hgs⟩
              -- a match at the beginning of the gap would be one at the beginning of the text
              have hnone : r.ends accepts word b (c :: g) = [] := by
                by_contra hne
                obtain ⟨e, he⟩ := List.exists_mem_of_ne_nil _ hne
                obtain ⟨q, hq⟩ := hprefix rfl
                obtain ⟨b', hb'⟩ := ends_append hr he before q
                rw [List.cons_append, hq, ← mem_ranked, List.head?_eq_none_iff.mp hfirst] at hb'
                cases hb'
              rw [search, hnone, hg]
              rfl

/-! ### What is found afterwards -/

/-- Replacements with a foreign letter at both ends keep the parts around them apart. -/
theorem search_intercalate {o c : α} {mid : List α} (ho : word o = false) (hc : word c = false)
    (hro : r.Rejects accepts o) (hrc : r.Rejects accepts c)
    (hmid : r.search accepts word false mid = false) {gs : List (List α)}
    (hgs : ∀ g ∈ gs, r.search accepts word false g = false)
    (hnil : r.search accepts word false [] = false) :
    r.search accepts word false ((o :: mid ++ [c]).intercalate gs) = false := by
  induction gs with
  | nil => exact hnil
  | cons g gs ih =>
      obtain ⟨hg, hgs⟩ := List.forall_mem_cons.mp hgs
      cases gs with
      | nil => rwa [List.intercalate_singleton]
      | cons g' gs =>
          have hrest := ih hgs
          rw [List.intercalate_cons_cons]
          generalize (o :: mid ++ [c]).intercalate (g' :: gs) = rest at hrest
          rw [List.append_assoc, List.append_assoc, List.cons_append, List.singleton_append,
            search_append_foreign ho hro, search_append_foreign hc hrc, hg, hmid, hrest]
          rfl

section Replaced

variable {o c : α} {mid : List α} (ho : word o = false) (hc : word c = false)
  (hro : r.Rejects accepts o) (hrc : r.Rejects accepts c) (hr : r.steady = true)
  (hletter : r.needs (fun _ => true) = true) (hmid : r.search accepts word false mid = false)

include ho hc hro hrc hr hletter hmid

/-- **A pattern whose matches are replaced is not found any more.** -/
theorem search_replaceAll_self (t : List α) :
    r.search accepts word false (r.replaceAll accepts word (o :: mid ++ [c]) t) = false := by
  refine search_intercalate ho hc hro hrc hmid (fun g hg => ?_) ?_
  · exact search_gap hr hletter 0 false t g hg false
  · exact search_infix hr List.nil_infix hmid false

omit hletter in
/-- **A pattern that is not found in the text is not found where another one is replaced.** -/
theorem search_replaceAll (s : TextPattern κ) {t : List α}
    (ht : r.search accepts word false t = false) :
    r.search accepts word false (s.replaceAll accepts word (o :: mid ++ [c]) t) = false := by
  have hspec : ∃ g gs, s.gaps accepts word 0 false t = g :: gs ∧ (0 = 0 → g <+: t) ∧
      ∀ h ∈ g :: gs, h <:+: t := gaps_spec 0 false t
  obtain ⟨g, gs, hgaps, -, hparts⟩ := hspec
  refine search_intercalate ho hc hro hrc hmid (fun h hh => ?_) ?_
  · rw [hgaps] at hh
    exact search_infix hr (hparts h hh) ht false
  · exact search_infix hr List.nil_infix ht false

end Replaced

theorem replaceAll_eq_self {rep t : List α} (h : r.search accepts word false t = false) :
    r.replaceAll accepts word rep t = t := by
  have hgaps : ∀ before, r.search accepts word before t = false →
      r.gaps accepts word 0 before t = [t] := by
    clear h
    induction t with
    | nil => intro _ _; rfl
    | cons c t ih =>
        intro before h
        rw [search, Bool.or_eq_false_iff, Bool.not_eq_false', List.isEmpty_iff] at h
        have hnone : r.ranked accepts word before (c :: t) = [] :=
          List.eq_nil_iff_forall_not_mem.mpr fun e he => by
            rw [mem_ranked, h.1] at he
            cases he
        rw [gaps, hnone]
        exact congrArg (List.modifyHead (c :: ·)) (ih _ h.2)
  rw [replaceAll, hgaps false h, List.intercalate_singleton]

end TextPattern
