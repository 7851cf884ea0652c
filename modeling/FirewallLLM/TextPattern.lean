import Mathlib.Data.List.Basic

/-! # Patterns in a text

Regular expressions over classes of letters, with word boundaries.  Whether there is a boundary
depends on the letter in front, of which a match is told if it belongs to a word.  `ends` lists
where a match can end.

`search_append_foreign`: a letter that no class accepts and that belongs to no word cuts a text
in two that are searched on their own.  `search_eq_false`: a pattern of which every match has a
certain letter is not found where there is none. -/

/-- A pattern over classes `κ` of letters. -/
inductive TextPattern (κ : Type) where
  | empty
  | letter (k : κ)
  | letters (k : κ)
  | boundary
  | seq (r s : TextPattern κ)
  | alt (r s : TextPattern κ)

namespace TextPattern

variable {κ α : Type}

/-- A pattern that may be missing. -/
def opt (r : TextPattern κ) : TextPattern κ := .alt r .empty

/-- One pattern after the other. -/
def all (rs : List (TextPattern κ)) : TextPattern κ := rs.foldr .seq .empty

/-- The classes of a pattern. -/
def classes : TextPattern κ → List κ
  | .letter k | .letters k => [k]
  | .seq r s | .alt r s => r.classes ++ s.classes
  | _ => []

/-- Every match has a letter of one of the classes that `n` selects. -/
def needs (n : κ → Bool) : TextPattern κ → Bool
  | .letter k | .letters k => n k
  | .seq r s => r.needs n || s.needs n
  | .alt r s => r.needs n && s.needs n
  | _ => false

variable (accepts : κ → α → Bool) (word : α → Bool)

/-- Behind each letter of the front of a text that the class accepts. -/
def run (p : α → Bool) : List α → List (Bool × List α)
  | [] => []
  | c :: t => if p c then (word c, t) :: run p t else []

/-- Where a match can end: whether that is behind a word letter, and the rest of the text. -/
def ends : TextPattern κ → Bool → List α → List (Bool × List α)
  | .empty, before, t => [(before, t)]
  | .letter _, _, [] => []
  | .letter k, _, c :: t => if accepts k c then [(word c, t)] else []
  | .letters k, _, t => run word (accepts k) t
  | .boundary, before, t => if before = t.head?.any word then [] else [(before, t)]
  | .seq r s, before, t => (r.ends before t).flatMap (fun e => s.ends e.1 e.2)
  | .alt r s, before, t => r.ends before t ++ s.ends before t

/-- The pattern matches somewhere in the text. -/
def search (r : TextPattern κ) : Bool → List α → Bool
  | before, [] => !(r.ends accepts word before []).isEmpty
  | before, c :: t => !(r.ends accepts word before (c :: t)).isEmpty || search r (word c) t

variable {accepts word} {r s : TextPattern κ} {x : α}

/-! ### Foreign letters -/

/-- No class of the pattern accepts the letter. -/
def Rejects (accepts : κ → α → Bool) (x : α) (r : TextPattern κ) : Prop :=
  ∀ k ∈ r.classes, accepts k x = false

theorem run_append_foreign {p : α → Bool} (hx : p x = false) (t q : List α) :
    run word p (t ++ x :: q) = (run word p t).map (fun e => (e.1, e.2 ++ x :: q)) := by
  induction t with
  | nil => rw [List.nil_append, run, run, hx, if_neg Bool.false_ne_true, List.map_nil]
  | cons c t ih =>
      rw [List.cons_append, run, run, ih]
      split_ifs <;> rfl

/-- A match does not reach over a foreign letter. -/
theorem ends_append_foreign (hword : word x = false) (hr : r.Rejects accepts x) (before : Bool)
    (t q : List α) :
    r.ends accepts word before (t ++ x :: q) =
      (r.ends accepts word before t).map (fun e => (e.1, e.2 ++ x :: q)) := by
  induction r generalizing before t with
  | empty => rfl
  | letter k =>
      have hx : accepts k x = false := hr k (List.mem_singleton_self k)
      cases t with
      | nil => rw [List.nil_append, ends, ends, hx, if_neg Bool.false_ne_true, List.map_nil]
      | cons c t =>
          rw [List.cons_append, ends, ends]
          split_ifs <;> rfl
  | letters k => exact run_append_foreign (hr k (List.mem_singleton_self k)) t q
  | boundary =>
      have hhead : (t ++ x :: q).head?.any word = t.head?.any word := by
        cases t with
        | nil => exact hword
        | cons c t => rfl
      rw [ends, ends, hhead]
      split_ifs <;> rfl
  | seq r s ihr ihs =>
      obtain ⟨hr, hs⟩ := List.forall_mem_append.mp hr
      rw [ends, ends, ihr hr, List.flatMap_map, List.map_flatMap]
      exact List.flatMap_congr fun e _ => ihs hs e.1 e.2
  | alt r s ihr ihs =>
      obtain ⟨hr, hs⟩ := List.forall_mem_append.mp hr
      rw [ends, ends, ihr hr, ihs hs, List.map_append]

/-- **A foreign letter cuts a text in two that are searched on their own.** -/
theorem search_append_foreign (hword : word x = false) (hr : r.Rejects accepts x) (before : Bool)
    (t q : List α) :
    search accepts word r before (t ++ x :: q) =
      (search accepts word r before t || search accepts word r false q) := by
  induction t generalizing before with
  | nil =>
      have hends := ends_append_foreign hword hr before [] q
      rw [List.nil_append] at hends ⊢
      rw [search, search, hends, List.isEmpty_map, hword]
  | cons c t ih =>
      have hends := ends_append_foreign hword hr before (c :: t) q
      rw [List.cons_append] at hends ⊢
      rw [search, hends, List.isEmpty_map, ih, search, Bool.or_assoc]

/-! ### Letters that a match needs -/

theorem suffix_of_mem_run {p : α → Bool} {t : List α} {e : Bool × List α}
    (h : e ∈ run word p t) : e.2 <:+ t := by
  induction t with
  | nil => exact absurd h List.not_mem_nil
  | cons c t ih =>
      rw [run] at h
      split_ifs at h
      · rcases List.mem_cons.mp h with rfl | h
        · exact List.suffix_cons c t
        · exact (ih h).trans (List.suffix_cons c t)
      · exact absurd h List.not_mem_nil

theorem suffix_of_mem_ends {before : Bool} {t : List α} {e : Bool × List α}
    (h : e ∈ r.ends accepts word before t) : e.2 <:+ t := by
  induction r generalizing before t e with
  | empty =>
      rw [ends, List.mem_singleton] at h
      subst h
      exact List.suffix_rfl
  | letter k =>
      cases t with
      | nil => exact absurd h List.not_mem_nil
      | cons c t =>
          rw [ends] at h
          split_ifs at h
          · rw [List.mem_singleton] at h
            subst h
            exact List.suffix_cons c t
          · exact absurd h List.not_mem_nil
  | letters k => exact suffix_of_mem_run h
  | boundary =>
      rw [ends] at h
      split_ifs at h
      · exact absurd h List.not_mem_nil
      · rw [List.mem_singleton] at h
        subst h
        exact List.suffix_rfl
  | seq r s ihr ihs =>
      rw [ends, List.mem_flatMap] at h
      obtain ⟨e', he', he⟩ := h
      exact (ihs he).trans (ihr he')
  | alt r s ihr ihs =>
      rw [ends, List.mem_append] at h
      rcases h with h | h
      · exact ihr h
      · exact ihs h

/-- The text has no letter of the classes that are needed. -/
def Lacks (accepts : κ → α → Bool) (n : κ → Bool) (t : List α) : Prop :=
  ∀ c ∈ t, ∀ k, n k = true → accepts k c = false

theorem ends_eq_nil {n : κ → Bool} (hr : r.needs n = true) {t : List α}
    (ht : Lacks accepts n t) (before : Bool) : r.ends accepts word before t = [] := by
  induction r generalizing before t with
  | empty => exact absurd hr Bool.false_ne_true
  | boundary => exact absurd hr Bool.false_ne_true
  | letter k =>
      cases t with
      | nil => rfl
      | cons c t => rw [ends, ht c List.mem_cons_self k hr, if_neg Bool.false_ne_true]
  | letters k =>
      cases t with
      | nil => rfl
      | cons c t => rw [ends, run, ht c List.mem_cons_self k hr, if_neg Bool.false_ne_true]
  | seq r s ihr ihs =>
      rw [ends, List.flatMap_eq_nil_iff]
      intro e he
      rcases Bool.or_eq_true_iff.mp hr with hr | hs
      · rw [ihr hr ht before] at he
        exact absurd he List.not_mem_nil
      · exact ihs hs (fun c hc => ht c ((suffix_of_mem_ends he).subset hc)) e.1
  | alt r s ihr ihs =>
      obtain ⟨hr, hs⟩ := (Bool.and_eq_true _ _).mp hr
      rw [ends, ihr hr ht, ihs hs ht, List.append_nil]

theorem search_eq_false {n : κ → Bool} (hr : r.needs n = true) {t : List α}
    (ht : Lacks accepts n t) (before : Bool) : search accepts word r before t = false := by
  induction t generalizing before with
  | nil => rw [search, ends_eq_nil hr ht]; rfl
  | cons c t ih =>
      rw [search, ends_eq_nil hr ht, ih (fun d hd => ht d (List.mem_cons_of_mem c hd))]
      rfl

end TextPattern
