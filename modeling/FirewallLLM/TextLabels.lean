import FirewallLLM.TextRewrite

/-! # Texts with labels

A label is put where a match is replaced: foreign letters around some that no match has.  A
pattern sees the parts between the labels one by one, also if the text is cut anywhere.

`text_replace`: replacing in the text is replacing in its parts.  `search_cut`: what is found in
the beginning of the text is found in a part, as far as the part belongs to it. -/

namespace TextPattern

variable {κ α : Type} {accepts : κ → α → Bool} {word : α → Bool} {r : TextPattern κ} {x : α}

/-! ### Foreign letters -/

theorem ranked_append_foreign (hword : word x = false) (hr : r.Rejects accepts x) (before : Bool)
    (t q : List α) :
    r.ranked accepts word before (t ++ x :: q) =
      (r.ranked accepts word before t).map (fun e => (e.1, e.2 ++ x :: q)) := by
  induction r generalizing before t with
  | empty => rfl
  | letter k =>
      have hx : accepts k x = false := hr k (List.mem_singleton_self k)
      cases t with
      | nil => rw [List.nil_append, ranked, ranked, hx, if_neg Bool.false_ne_true, List.map_nil]
      | cons c t =>
          rw [List.cons_append, ranked, ranked]
          split_ifs <;> rfl
  | letters k =>
      rw [ranked, ranked, run_append_foreign (hr k (List.mem_singleton_self k)), List.map_reverse]
  | boundary =>
      have hhead : (t ++ x :: q).head?.any word = t.head?.any word := by
        cases t with
        | nil => exact hword
        | cons c t => rfl
      rw [ranked, ranked, hhead]
      split_ifs <;> rfl
  | seq r s ihr ihs =>
      obtain ⟨hr, hs⟩ := List.forall_mem_append.mp hr
      rw [ranked, ranked, ihr hr, List.flatMap_map, List.map_flatMap]
      exact List.flatMap_congr fun e _ => ihs hs e.1 e.2
  | alt r s ihr ihs =>
      obtain ⟨hr, hs⟩ := List.forall_mem_append.mp hr
      rw [ranked, ranked, ihr hr, ihs hs, List.map_append]

theorem gaps_ne_nil (skip : ℕ) (before : Bool) (t : List α) :
    r.gaps accepts word skip before t ≠ [] := by
  obtain ⟨g, gs, hgaps, -⟩ : ∃ g gs, r.gaps accepts word skip before t = g :: gs ∧
    (skip = 0 → g <+: t) ∧ ∀ h ∈ g :: gs, h <:+: t := gaps_spec skip before t
  rw [hgaps]
  exact List.cons_ne_nil g gs

theorem intercalate_modifyHead (rep : List α) (c : α) {gs : List (List α)} (h : gs ≠ []) :
    rep.intercalate (gs.modifyHead (c :: ·)) = c :: rep.intercalate gs := by
  cases gs with
  | nil => exact absurd rfl h
  | cons g gs =>
      cases gs with
      | nil => simp
      | cons g' gs => simp [List.intercalate_cons_cons]

/-- A foreign letter cuts a text in two in which matches are replaced on their own. -/
theorem intercalate_gaps_append_foreign (hword : word x = false) (hr : r.Rejects accepts x)
    (hletter : r.needs (fun _ => true) = true) (rep : List α) {skip : ℕ} (before : Bool)
    {t : List α} (q : List α) (hskip : skip ≤ t.length) :
    rep.intercalate (r.gaps accepts word skip before (t ++ x :: q)) =
      rep.intercalate (r.gaps accepts word skip before t) ++
        x :: rep.intercalate (r.gaps accepts word 0 false q) := by
  induction t generalizing skip before with
  | nil =>
      obtain rfl := Nat.le_zero.mp hskip
      have hnone : r.ranked accepts word before [] = [] :=
        List.eq_nil_iff_forall_not_mem.mpr fun e he => by
          rw [mem_ranked, ends_eq_nil hletter (fun c hc => absurd hc List.not_mem_nil)] at he
          cases he
      have hfirst := ranked_append_foreign hword hr before [] q
      rw [hnone, List.map_nil, List.nil_append] at hfirst
      have hgaps : r.gaps accepts word 0 before (x :: q) =
          (r.gaps accepts word 0 false q).modifyHead (x :: ·) := by
        rw [gaps, hfirst, hword]
        rfl
      rw [List.nil_append, hgaps, intercalate_modifyHead rep x (gaps_ne_nil 0 false q)]
      simp [gaps]
  | cons c t ih =>
      cases skip with
      | succ skip => exact ih (word c) (Nat.le_of_succ_le_succ hskip)
      | zero =>
          have hfirst := ranked_append_foreign hword hr before (c :: t) q
          rw [List.cons_append] at hfirst ⊢
          rw [gaps, hfirst, List.head?_map, gaps]
          cases (r.ranked accepts word before (c :: t)).head? with
          | none =>
              dsimp only [Option.map_none]
              rw [intercalate_modifyHead rep c (gaps_ne_nil _ _ _),
                intercalate_modifyHead rep c (gaps_ne_nil _ _ _), ih _ (Nat.zero_le _)]
              rfl
          | some e =>
              have hlen : (t ++ x :: q).length - (e.2 ++ x :: q).length =
                  t.length - e.2.length := by
                simp only [List.length_append]
                omega
              dsimp only [Option.map_some]
              rw [hlen, List.intercalate_cons_of_ne_nil (gaps_ne_nil _ _ _),
                List.intercalate_cons_of_ne_nil (gaps_ne_nil _ _ _), ih _ (Nat.sub_le _ _)]
              simp only [List.nil_append, List.append_assoc]

theorem replaceAll_append_foreign (hword : word x = false) (hr : r.Rejects accepts x)
    (hletter : r.needs (fun _ => true) = true) (rep t q : List α) :
    r.replaceAll accepts word rep (t ++ x :: q) =
      r.replaceAll accepts word rep t ++ x :: r.replaceAll accepts word rep q :=
  intercalate_gaps_append_foreign hword hr hletter rep false q (Nat.zero_le _)

/-! ### Labels -/

/-- Foreign letters around letters that no match has. -/
structure IsLabel (accepts : κ → α → Bool) (word : α → Bool) (n : κ → Bool) (r : TextPattern κ)
    (o : α) (mid : List α) (c : α) : Prop where
  open_word : word o = false
  open_rejects : r.Rejects accepts o
  lacks : Lacks accepts n mid
  close_word : word c = false
  close_rejects : r.Rejects accepts c

/-- A text in which labels stand between some parts. -/
structure Labelled (α : Type) where
  first : List α
  rest : List (List α × List α)

namespace Labelled

def text (s : Labelled α) : List α := s.first ++ (s.rest.map (fun e => e.1 ++ e.2)).flatten

/-- The parts of a text that are left of a match that is replaced, behind a label each. -/
def split (accepts : κ → α → Bool) (word : α → Bool) (r : TextPattern κ) (rep p : List α) :
    Labelled α :=
  ⟨(r.gaps accepts word 0 false p).headD [],
    (r.gaps accepts word 0 false p).tail.map (fun g => (rep, g))⟩

/-- Replace the matches in the parts. -/
def replace (accepts : κ → α → Bool) (word : α → Bool) (r : TextPattern κ) (rep : List α)
    (s : Labelled α) : Labelled α :=
  ⟨(split accepts word r rep s.first).first,
    (split accepts word r rep s.first).rest ++ s.rest.flatMap (fun e =>
      (e.1, (split accepts word r rep e.2).first) :: (split accepts word r rep e.2).rest)⟩

/-- The parts behind a label, as far as they belong to the first `k` letters. -/
def cutRest : ℕ → List (List α × List α) → List (List α)
  | _, [] => []
  | k, e :: rest => e.2.take (k - e.1.length) :: cutRest (k - e.1.length - e.2.length) rest

/-- The parts, as far as they belong to the first `k` letters. -/
def cut (k : ℕ) (s : Labelled α) : List (List α) :=
  s.first.take k :: cutRest (k - s.first.length) s.rest

variable {n : κ → Bool} {s : Labelled α}

/-- Every label keeps the parts around it apart. -/
def Sealed (accepts : κ → α → Bool) (word : α → Bool) (n : κ → Bool) (r : TextPattern κ)
    (s : Labelled α) : Prop :=
  ∀ e ∈ s.rest, ∃ o mid c, e.1 = o :: mid ++ [c] ∧ IsLabel accepts word n r o mid c

theorem text_split (r : TextPattern κ) (rep p : List α) :
    (split accepts word r rep p).text = r.replaceAll accepts word rep p := by
  unfold split text replaceAll
  generalize r.gaps accepts word 0 false p = gs
  cases gs with
  | nil => simp
  | cons g gs =>
      induction gs generalizing g with
      | nil => simp
      | cons g' gs ih =>
          have hrest := ih g'
          simp only [List.headD_cons, List.tail_cons, List.map_cons, List.map_map,
            List.flatten_cons] at hrest ⊢
          rw [List.intercalate_cons_cons, ← hrest]
          simp only [List.append_assoc]

theorem sealed_replace {r' : TextPattern κ} {rep : List α} (h : s.Sealed accepts word n r')
    (hrep : ∃ o mid c, rep = o :: mid ++ [c] ∧ IsLabel accepts word n r' o mid c) :
    (s.replace accepts word r rep).Sealed accepts word n r' := by
  have hsplit : ∀ p, ∀ e ∈ (split accepts word r rep p).rest, e.1 = rep := by
    intro p e he
    obtain ⟨g, -, rfl⟩ := List.mem_map.mp he
    rfl
  intro e he
  rcases List.mem_append.mp he with he | he
  · rw [hsplit _ e he]
    exact hrep
  · obtain ⟨e', he', he⟩ := List.mem_flatMap.mp he
    rcases List.mem_cons.mp he with rfl | he
    · exact h e' he'
    · rw [hsplit _ e he]
      exact hrep

section Sealed

variable (hneeds : r.needs n = true) (hletter : r.needs (fun _ => true) = true)

include hneeds in
theorem search_nil (before : Bool) : r.search accepts word before [] = false :=
  search_eq_false hneeds (fun _ hc => absurd hc List.not_mem_nil) before

include hneeds hletter in
/-- **Replacing in a text is replacing in its parts.** -/
theorem text_replace (h : s.Sealed accepts word n r) (rep : List α) :
    (s.replace accepts word r rep).text = r.replaceAll accepts word rep s.text := by
  obtain ⟨first, rest⟩ := s
  induction rest generalizing first with
  | nil =>
      have hsplit : (split accepts word r rep first).text = _ := text_split r rep first
      simpa [replace, text] using hsplit
  | cons e rest ih =>
      obtain ⟨l, p⟩ := e
      obtain ⟨⟨o, mid, c, rfl, hlabel⟩, hrest⟩ := List.forall_mem_cons.mp h
      have hmid : r.replaceAll accepts word rep mid = mid :=
        replaceAll_eq_self (search_eq_false hneeds hlabel.lacks false)
      have hlater := ih p hrest
      have htext : (⟨first, (o :: mid ++ [c], p) :: rest⟩ : Labelled α).text =
          first ++ o :: (mid ++ c :: (⟨p, rest⟩ : Labelled α).text) := by
        simp [text]
      rw [htext, replaceAll_append_foreign hlabel.open_word hlabel.open_rejects hletter,
        replaceAll_append_foreign hlabel.close_word hlabel.close_rejects hletter, hmid, ← hlater,
        ← text_split]
      simp [replace, text]

include hneeds in
theorem search_take_label {o c : α} {mid : List α} (hlabel : IsLabel accepts word n r o mid c)
    (before : Bool) (k : ℕ) (p q : List α) :
    r.search accepts word before ((p ++ (o :: mid ++ [c] ++ q)).take k) =
      (r.search accepts word before (p.take k) || r.search accepts word false
        (q.take (k - p.length - (o :: mid ++ [c]).length))) := by
  have hlen : (o :: mid ++ [c]).length = mid.length + 2 := by simp
  rw [hlen]
  by_cases hp : k ≤ p.length
  · have hzero : k - p.length - (mid.length + 2) = 0 := by omega
    rw [List.take_append_of_le_length hp, hzero, List.take_zero, search_nil hneeds,
      Bool.or_false]
  · obtain ⟨j, rfl⟩ : ∃ j, k = p.length + (j + 1) := ⟨k - p.length - 1, by omega⟩
    have htake : (p ++ (o :: mid ++ [c] ++ q)).take (p.length + (j + 1)) =
        p ++ o :: (mid ++ c :: q).take j := by
      simp [List.take_append, List.take_of_length_le]
    rw [htake, search_append_foreign hlabel.open_word hlabel.open_rejects,
      List.take_of_length_le (Nat.le_add_right _ _)]
    congr 1
    by_cases hmid : j ≤ mid.length
    · have hzero : p.length + (j + 1) - p.length - (mid.length + 2) = 0 := by omega
      rw [List.take_append_of_le_length hmid, hzero, List.take_zero, search_nil hneeds]
      exact search_eq_false hneeds (fun c hc => hlabel.lacks c (List.mem_of_mem_take hc)) false
    · obtain ⟨i, rfl⟩ : ∃ i, j = mid.length + (i + 1) := ⟨j - mid.length - 1, by omega⟩
      have hrest : p.length + (mid.length + (i + 1) + 1) - p.length - (mid.length + 2) = i := by
        omega
      have htake' : (mid ++ c :: q).take (mid.length + (i + 1)) = mid ++ c :: q.take i := by
        simp [List.take_append, List.take_of_length_le]
      rw [hrest, htake', search_append_foreign hlabel.close_word hlabel.close_rejects,
        search_eq_false hneeds hlabel.lacks, Bool.false_or]

include hneeds in
/-- **What is found in the beginning of a text is found in one of its parts.** -/
theorem search_cut (h : s.Sealed accepts word n r) (k : ℕ) :
    r.search accepts word false (s.text.take k) =
      (s.cut k).any (r.search accepts word false) := by
  obtain ⟨first, rest⟩ := s
  induction rest generalizing first k with
  | nil => simp [text, cut, cutRest]
  | cons e rest ih =>
      obtain ⟨l, p⟩ := e
      obtain ⟨⟨o, mid, c, rfl, hlabel⟩, hrest⟩ := List.forall_mem_cons.mp h
      have hlater := ih (k - first.length - (o :: mid ++ [c]).length) p hrest
      have htext : (⟨first, (o :: mid ++ [c], p) :: rest⟩ : Labelled α).text =
          first ++ (o :: mid ++ [c] ++ (⟨p, rest⟩ : Labelled α).text) := by
        simp [text]
      rw [htext, search_take_label hneeds hlabel, hlater]
      rfl

end Sealed

end Labelled

end TextPattern
