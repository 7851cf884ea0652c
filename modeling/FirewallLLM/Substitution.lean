import Mathlib.Data.List.Infix
import Mathlib.Data.List.Nodup
import Mathlib.Tactic.SplitIfs

/-! # Substitution of bracketed words

`replaceAll pat rep s` replaces the occurrences of `pat` in `s` from left to right, none of
them overlapping.  A text is cut into *pieces*: single letters and whole words.  The words
that are replaced here are *bracketed*: an opening mark, a body without marks and a closing
mark, so that two occurrences never overlap and none begins inside a word.

`replaceAll_flatten`: when no run of single letters contains the bracketed word `t`, replacing
`t` in the text of some pieces is replacing the words `t` among the pieces.  From this follow
the rules for a whole table of replacements: their order does not matter
(`replaceEach_flatten`), and a text may be cut wherever no word straddles the cut
(`replaceEach_append`). -/

namespace Substitution

variable {α : Type}

/-! ### Splitting at a mark -/

/-- Two lists that are split at the same mark have the same parts, when the mark is in
neither first part. -/
theorem append_cons_inj {c : α} {xs ys rs ss : List α} (hx : c ∉ xs) (hy : c ∉ ys)
    (h : xs ++ c :: rs = ys ++ c :: ss) : xs = ys ∧ rs = ss := by
  induction xs generalizing ys with
  | nil =>
      cases ys with
      | nil => exact ⟨rfl, (List.cons.inj h).2⟩
      | cons y ys => exact absurd (List.cons.inj h).1 (List.ne_of_not_mem_cons hy)
  | cons x xs ih =>
      cases ys with
      | nil => exact absurd (List.cons.inj h).1.symm (List.ne_of_not_mem_cons hx)
      | cons y ys =>
          obtain ⟨e, h'⟩ := List.cons.inj h
          obtain ⟨e', e''⟩ := ih (List.not_mem_of_not_mem_cons hx) (List.not_mem_of_not_mem_cons hy) h'
          exact ⟨by rw [e, e'], e''⟩

/-! ### Replacing a pattern -/

section replace
variable [DecidableEq α]

/-- `replaceAll` with the number of letters still to be skipped after an occurrence. -/
def replaceAux (pat rep : List α) : ℕ → List α → List α
  | _, [] => []
  | k + 1, _ :: cs => replaceAux pat rep k cs
  | 0, c :: cs =>
      if pat <+: c :: cs then rep ++ replaceAux pat rep (pat.length - 1) cs
      else c :: replaceAux pat rep 0 cs

/-- Replace the non-empty `pat` by `rep` from left to right. -/
def replaceAll (pat rep s : List α) : List α := replaceAux pat rep 0 s

variable {pat rep : List α}

theorem replaceAux_skip (k : ℕ) (s : List α) :
    replaceAux pat rep k s = replaceAll pat rep (s.drop k) := by
  induction k generalizing s with
  | zero => rfl
  | succ k ih =>
      cases s with
      | nil => rfl
      | cons c cs => exact ih cs

@[simp] theorem replaceAll_nil : replaceAll pat rep [] = [] := rfl

theorem replaceAll_append_self (hpat : pat ≠ []) (s : List α) :
    replaceAll pat rep (pat ++ s) = rep ++ replaceAll pat rep s := by
  obtain ⟨c, cs, rfl⟩ := List.exists_cons_of_ne_nil hpat
  have hp : c :: cs <+: c :: (cs ++ s) := ⟨s, rfl⟩
  show replaceAux (c :: cs) rep 0 (c :: (cs ++ s)) = _
  rw [replaceAux, if_pos hp, replaceAux_skip]
  simp

theorem replaceAll_cons {c : α} {s : List α} (h : ¬ pat <+: c :: s) :
    replaceAll pat rep (c :: s) = c :: replaceAll pat rep s := by
  show replaceAux pat rep 0 (c :: s) = _
  rw [replaceAux, if_neg h]
  rfl

theorem replaceAll_eq_self {s : List α} (h : ¬ pat <:+: s) : replaceAll pat rep s = s := by
  induction s with
  | nil => rfl
  | cons c s ih =>
      rw [replaceAll_cons (fun hpre => h hpre.isInfix),
        ih (fun hin => h (hin.trans (List.infix_cons (List.infix_refl s))))]

theorem replaceAll_append_of_not_mem {o : α} {u : List α} (ho : o ∉ u) (hpat : [o] <+: pat)
    (s : List α) : replaceAll pat rep (u ++ s) = u ++ replaceAll pat rep s := by
  induction u with
  | nil => rfl
  | cons c u ih =>
      have hne : ¬ pat <+: c :: (u ++ s) := by
        intro h
        obtain ⟨r, hr⟩ := hpat.trans h
        exact List.ne_of_not_mem_cons ho (List.cons.inj hr).1
      rw [List.cons_append, replaceAll_cons hne, ih (List.not_mem_of_not_mem_cons ho), List.cons_append]

/-- Every replacement of a table, one after the other. -/
def replaceEach (table : List (List α × List α)) (s : List α) : List α :=
  table.foldl (fun out e => replaceAll e.1 e.2 out) s

/-- What a table makes of a word. -/
def lookup (table : List (List α × List α)) (w : List α) : List α :=
  match table.find? (fun e => e.1 = w) with
  | some e => e.2
  | none => w

end replace

/-! ### Pieces -/

/-- A piece of a text: a single letter or a whole word. -/
inductive Piece (α : Type) where
  | lit (c : α)
  | word (w : List α)
deriving DecidableEq, Repr

def Piece.text : Piece α → List α
  | lit c => [c]
  | word w => w

/-- Replace the words by `f`. -/
def Piece.subst (f : List α → List α) : Piece α → Piece α
  | lit c => lit c
  | word w => word (f w)

/-- The text of some pieces. -/
def flatten (P : List (Piece α)) : List α := P.flatMap Piece.text

/-- The words among some pieces. -/
def words : List (Piece α) → List (List α)
  | [] => []
  | .lit _ :: P => words P
  | .word w :: P => w :: words P

/-- The single letters in front of the first word. -/
def litRun : List (Piece α) → List α
  | .lit c :: P => c :: litRun P
  | _ => []

/-- No run of single letters contains `t`. -/
def LitFree (t : List α) : List (Piece α) → Prop
  | [] => True
  | .lit c :: P => ¬ t <+: c :: litRun P ∧ LitFree t P
  | .word _ :: P => LitFree t P

@[simp] theorem flatten_nil : flatten ([] : List (Piece α)) = [] := rfl
@[simp] theorem flatten_lit (c : α) (P : List (Piece α)) : flatten (.lit c :: P) = c :: flatten P := rfl
@[simp] theorem flatten_word (w : List α) (P : List (Piece α)) :
    flatten (.word w :: P) = w ++ flatten P := rfl
@[simp] theorem flatten_append (P Q : List (Piece α)) :
    flatten (P ++ Q) = flatten P ++ flatten Q := List.flatMap_append ..

theorem mem_words {w : List α} {P : List (Piece α)} (h : Piece.word w ∈ P) : w ∈ words P := by
  induction P with
  | nil => cases h
  | cons p P ih =>
      rcases List.mem_cons.mp h with rfl | hP
      · exact List.mem_cons_self
      · cases p with
        | lit c => exact ih hP
        | word u => exact List.mem_cons_of_mem _ (ih hP)

@[simp] theorem words_append (P Q : List (Piece α)) : words (P ++ Q) = words P ++ words Q := by
  induction P with
  | nil => rfl
  | cons p P ih => cases p <;> simp [words, ih]

@[simp] theorem words_subst (f : List α → List α) (P : List (Piece α)) :
    words (P.map (Piece.subst f)) = (words P).map f := by
  induction P with
  | nil => rfl
  | cons p P ih => cases p <;> simp [words, Piece.subst, ih]

@[simp] theorem litRun_subst (f : List α → List α) (P : List (Piece α)) :
    litRun (P.map (Piece.subst f)) = litRun P := by
  induction P with
  | nil => rfl
  | cons p P ih => cases p <;> simp [litRun, Piece.subst, ih]

@[simp] theorem litFree_subst {t : List α} (f : List α → List α) (P : List (Piece α)) :
    LitFree t (P.map (Piece.subst f)) ↔ LitFree t P := by
  induction P with
  | nil => exact Iff.rfl
  | cons p P ih => cases p <;> simp [LitFree, Piece.subst, ih]

theorem litRun_isPrefix (P : List (Piece α)) : litRun P <+: flatten P := by
  induction P with
  | nil => exact List.nil_prefix
  | cons p P ih =>
      cases p with
      | lit c => exact (List.prefix_cons_inj c).mpr ih
      | word w => exact List.nil_prefix

theorem litFree_of_not_isInfix {t : List α} (f : List α → List α) {P : List (Piece α)}
    (h : ¬ t <:+: flatten (P.map (Piece.subst f))) : LitFree t P := by
  induction P with
  | nil => trivial
  | cons p P ih =>
      cases p with
      | lit c =>
          refine ⟨fun hp => h ?_, ih (fun hi => h (hi.trans (List.suffix_cons _ _).isInfix))⟩
          have hrun := litRun_isPrefix (P.map (Piece.subst f))
          rw [litRun_subst] at hrun
          exact (hp.trans ((List.prefix_cons_inj c).mpr hrun)).isInfix
      | word w => exact ih (fun hi => h (hi.trans (List.suffix_append _ _).isInfix))

/-! ### Bracketed words -/

section bracketed
variable {o c : α}

/-- An opening mark, a body without marks and a closing mark. -/
structure Bracketed (o c : α) (w : List α) : Prop where
  shape : ∃ body, w = o :: (body ++ [c]) ∧ o ∉ body ∧ c ∉ body

/-- Without any mark. -/
def Unmarked (o c : α) (w : List α) : Prop := o ∉ w ∧ c ∉ w

/-- Words that neither begin an occurrence of the bracketed `t`, except `t` itself, nor lie
within one. -/
def Safe (o c : α) (t w : List α) : Prop := Bracketed o c w ∨ Unmarked o c w ∧ ¬ w <:+: t

theorem Bracketed.ne_nil {w : List α} (h : Bracketed o c w) : w ≠ [] := by
  obtain ⟨body, rfl, -⟩ := h.shape
  exact List.cons_ne_nil _ _

theorem Bracketed.not_unmarked {w : List α} (h : Bracketed o c w) : ¬ Unmarked o c w := by
  obtain ⟨body, rfl, -⟩ := h.shape
  exact fun hu => hu.1 List.mem_cons_self

/-- Nothing after the first letter of a bracketed word opens a bracket. -/
theorem Bracketed.not_mem_of_split (hoc : o ≠ c) {t a b : List α} (ht : Bracketed o c t)
    (hab : t = a ++ b) (ha : a ≠ []) : o ∉ b := by
  obtain ⟨body, rfl, ho, -⟩ := ht.shape
  obtain ⟨x, a, rfl⟩ := List.exists_cons_of_ne_nil ha
  have hb : body ++ [c] = a ++ b := (List.cons.inj hab).2
  have hmem : o ∉ body ++ [c] := by
    rw [List.mem_append, List.mem_singleton, not_or]
    exact ⟨ho, hoc⟩
  rw [hb, List.mem_append, not_or] at hmem
  exact hmem.2

theorem Bracketed.mem_of_split {t a b : List α} (ht : Bracketed o c t) (hab : t = a ++ b)
    (hb : b ≠ []) : c ∈ b := by
  obtain ⟨body, rfl, -⟩ := ht.shape
  have h := congrArg List.getLast? hab
  rw [← List.cons_append, List.getLast?_append_of_ne_nil _ (List.cons_ne_nil _ _),
    List.getLast?_append_of_ne_nil _ hb] at h
  exact List.mem_of_getLast? (h.symm.trans rfl)

theorem Bracketed.eq_of_isPrefix {t w s : List α} (ht : Bracketed o c t) (hw : Bracketed o c w)
    (h : t <+: w ++ s) : t = w := by
  obtain ⟨body, rfl, -, hc⟩ := ht.shape
  obtain ⟨body', rfl, -, hc'⟩ := hw.shape
  obtain ⟨r, hr⟩ := h
  simp only [List.cons_append, List.append_assoc, List.nil_append] at hr
  rw [(append_cons_inj hc hc' (List.cons.inj hr).2).1]

/-- The rest of an occurrence that began in a run of single letters stays in that run. -/
theorem prefix_litRun (hoc : o ≠ c) {t : List α} (ht : Bracketed o c t) {P : List (Piece α)}
    (hsafe : ∀ w ∈ words P, Safe o c t w) {a b : List α} (hab : t = a ++ b) (ha : a ≠ [])
    (hb : b <+: flatten P) : b <+: litRun P := by
  induction P generalizing a b with
  | nil => exact hb
  | cons p P ih =>
      by_cases hnil : b = []
      · rw [hnil]
        exact List.nil_prefix
      cases p with
      | lit x =>
          obtain ⟨y, b, rfl⟩ := List.exists_cons_of_ne_nil hnil
          obtain ⟨rfl, hb'⟩ := List.cons_prefix_cons.mp hb
          refine List.cons_prefix_cons.mpr ⟨rfl, ih hsafe (a := a ++ [y]) ?_ (by simp) hb'⟩
          rw [hab, List.append_assoc]
          rfl
      | word w =>
          exfalso
          rcases hsafe w List.mem_cons_self with hw | ⟨hw, hin⟩
          · -- a bracketed word opens a bracket, which no rest of `t` does
            obtain ⟨body, rfl, -⟩ := hw.shape
            obtain ⟨y, b, rfl⟩ := List.exists_cons_of_ne_nil hnil
            obtain ⟨rfl, -⟩ := List.cons_prefix_cons.mp hb
            exact ht.not_mem_of_split hoc hab ha List.mem_cons_self
          · -- an unmarked word does not close `t`, so `t` would run over all of it
            rcases List.prefix_or_prefix_of_prefix hb (List.prefix_append w (flatten P)) with h | h
            · exact hw.2 (h.subset (ht.mem_of_split hab hnil))
            · refine hin (h.isInfix.trans ?_)
              rw [hab]
              exact (List.suffix_append a b).isInfix

variable [DecidableEq α]

/-- Replacing a bracketed word among the pieces. -/
def Piece.swap (t v : List α) : Piece α → Piece α := Piece.subst (fun w => if w = t then v else w)

omit [DecidableEq α] in
/-- No occurrence begins at a single letter. -/
theorem not_prefix_lit (hoc : o ≠ c) {t : List α} (ht : Bracketed o c t) {x : α}
    {P : List (Piece α)} (hsafe : ∀ w ∈ words P, Safe o c t w) (hx : ¬ t <+: x :: litRun P) :
    ¬ t <+: x :: flatten P := by
  intro h
  obtain ⟨body, hbody, -⟩ := ht.shape
  rw [hbody] at h
  obtain ⟨rfl, hrest⟩ := List.cons_prefix_cons.mp h
  have hrun : body ++ [c] <+: litRun P :=
    prefix_litRun hoc ht hsafe (a := [o]) hbody (List.cons_ne_nil _ _) hrest
  exact hx (by rw [hbody]; exact List.cons_prefix_cons.mpr ⟨rfl, hrun⟩)

/-- **Replacement acts on whole words**, when no run of single letters contains `t`. -/
theorem replaceAll_flatten (hoc : o ≠ c) {t : List α} (ht : Bracketed o c t) (v : List α)
    {P : List (Piece α)} (hsafe : ∀ w ∈ words P, Safe o c t w) (hfree : LitFree t P) :
    replaceAll t v (flatten P) = flatten (P.map (Piece.swap t v)) := by
  have hopen : [o] <+: t := by
    obtain ⟨body, rfl, -⟩ := ht.shape
    exact ⟨body ++ [c], rfl⟩
  induction P with
  | nil => rfl
  | cons p P ih =>
      cases p with
      | lit x =>
          obtain ⟨hx, hfree'⟩ := hfree
          have hno : ¬ t <+: x :: flatten P := not_prefix_lit hoc ht hsafe hx
          rw [flatten_lit, replaceAll_cons hno, ih hsafe hfree']
          rfl
      | word w =>
          have hsafe' : ∀ w ∈ words P, Safe o c t w := fun w hw => hsafe w (List.mem_cons_of_mem _ hw)
          rw [flatten_word, List.map_cons]
          by_cases hwt : w = t
          · rw [hwt, replaceAll_append_self ht.ne_nil, ih hsafe' hfree]
            simp [Piece.swap, Piece.subst]
          · have hstay : replaceAll t v (w ++ flatten P) = w ++ replaceAll t v (flatten P) := by
              rcases hsafe w List.mem_cons_self with hw | ⟨hw, -⟩
              · have hne : ¬ t <+: w ++ flatten P := fun h => hwt (ht.eq_of_isPrefix hw h).symm
                obtain ⟨body, rfl, ho, -⟩ := hw.shape
                have ho' : o ∉ body ++ [c] := by
                  rw [List.mem_append, List.mem_singleton, not_or]
                  exact ⟨ho, hoc⟩
                rw [List.cons_append] at hne ⊢
                rw [replaceAll_cons hne, replaceAll_append_of_not_mem ho' hopen, List.cons_append]
              · exact replaceAll_append_of_not_mem hw.1 hopen _
            rw [hstay, ih hsafe' hfree]
            simp [Piece.swap, Piece.subst, hwt]

/-! ### Tables of replacements -/

/-- A table whose keys are different bracketed words and whose values can neither be a key nor
become part of one. -/
structure Replaceable (o c : α) (table : List (List α × List α)) : Prop where
  nodup : (table.map Prod.fst).Nodup
  key : ∀ e ∈ table, Bracketed o c e.1
  safe : ∀ e ∈ table, ∀ e' ∈ table, Safe o c e'.1 e.2
  notKey : ∀ e ∈ table, ∀ e' ∈ table, e.2 ≠ e'.1

theorem lookup_of_not_mem {table : List (List α × List α)} {w : List α}
    (h : w ∉ table.map Prod.fst) : lookup table w = w := by
  have hnone : table.find? (fun e => e.1 = w) = none := by
    rw [List.find?_eq_none]
    intro e he hw
    exact h (List.mem_map.mpr ⟨e, he, of_decide_eq_true hw⟩)
  rw [lookup, hnone]

theorem lookup_of_mem {table : List (List α × List α)} (hnd : (table.map Prod.fst).Nodup)
    {e : List α × List α} (he : e ∈ table) : lookup table e.1 = e.2 := by
  induction table with
  | nil => cases he
  | cons d table ih =>
      obtain ⟨hd, hnd'⟩ := List.nodup_cons.mp hnd
      rcases List.mem_cons.mp he with rfl | he'
      · simp [lookup]
      · have hne : d.1 ≠ e.1 := fun h => hd (by rw [h]; exact List.mem_map_of_mem he')
        have hskip : lookup (d :: table) e.1 = lookup table e.1 := by
          simp [lookup, hne]
        rw [hskip, ih hnd' he']

theorem lookup_perm {table table' : List (List α × List α)} (hnd : (table.map Prod.fst).Nodup)
    (hp : table.Perm table') (w : List α) : lookup table w = lookup table' w := by
  have hp' := hp.map Prod.fst
  by_cases hw : w ∈ table.map Prod.fst
  · obtain ⟨e, he, rfl⟩ := List.mem_map.mp hw
    rw [lookup_of_mem hnd he, lookup_of_mem (hp'.nodup_iff.mp hnd) (hp.mem_iff.mp he)]
  · rw [lookup_of_not_mem hw, lookup_of_not_mem (fun h => hw (hp'.mem_iff.mpr h))]

/-- Replacing by a table in any order is replacing each word by what the table makes of it. -/
theorem replaceEach_flatten (hoc : o ≠ c) {table : List (List α × List α)}
    (ht : Replaceable o c table) {P : List (Piece α)}
    (hsafe : ∀ e ∈ table, ∀ w ∈ words P, Safe o c e.1 w) (hfree : ∀ e ∈ table, LitFree e.1 P) :
    replaceEach table (flatten P) = flatten (P.map (Piece.subst (lookup table))) := by
  induction table generalizing P with
  | nil =>
      have hid : ∀ p ∈ P, Piece.subst (lookup []) p = p := by
        rintro (x | w) -
        · rfl
        · rfl
      rw [List.map_congr_left hid, List.map_id']
      rfl
  | cons e table ih =>
      have he := ht.key e List.mem_cons_self
      have hsafe' := hsafe e List.mem_cons_self
      obtain ⟨hfst, hnd⟩ := List.nodup_cons.mp ht.nodup
      have htable : Replaceable o c table :=
        ⟨hnd, fun d hd => ht.key d (List.mem_cons_of_mem _ hd),
          fun d hd d' hd' => ht.safe d (List.mem_cons_of_mem _ hd) d' (List.mem_cons_of_mem _ hd'),
          fun d hd d' hd' => ht.notKey d (List.mem_cons_of_mem _ hd) d' (List.mem_cons_of_mem _ hd')⟩
      have hstep : replaceEach (e :: table) (flatten P) =
          replaceEach table (flatten (P.map (Piece.swap e.1 e.2))) := by
        rw [← replaceAll_flatten hoc he e.2 hsafe' (hfree e List.mem_cons_self)]
        rfl
      rw [hstep, ih htable]
      · congr 1
        rw [List.map_map]
        apply List.map_congr_left
        rintro (x | w) -
        · rfl
        · have hlook : lookup table (if w = e.1 then e.2 else w) = lookup (e :: table) w := by
            by_cases hw : w = e.1
            · have hval : e.2 ∉ table.map Prod.fst := by
                intro hmem
                obtain ⟨d, hd, hde⟩ := List.mem_map.mp hmem
                exact ht.notKey e List.mem_cons_self d (List.mem_cons_of_mem _ hd) hde.symm
              rw [if_pos hw, hw, lookup_of_not_mem hval]
              simp [lookup]
            · rw [if_neg hw]
              simp [lookup, Ne.symm hw]
          simp only [Function.comp, Piece.swap, Piece.subst, hlook]
      · intro d hd w hw
        rw [Piece.swap, words_subst] at hw
        obtain ⟨u, hu, rfl⟩ := List.mem_map.mp hw
        split_ifs
        · exact ht.safe e List.mem_cons_self d (List.mem_cons_of_mem _ hd)
        · exact hsafe d (List.mem_cons_of_mem _ hd) u hu
      · intro d hd
        rw [Piece.swap, litFree_subst]
        exact hfree d (List.mem_cons_of_mem _ hd)

/-- Every text can be cut into occurrences of the keys and letters free of them. -/
theorem exists_pieces {keys : List (List α)} (hkeys : ∀ t ∈ keys, t ≠ []) (s : List α) :
    ∃ P, flatten P = s ∧ (∀ w ∈ words P, w ∈ keys) ∧ ∀ t ∈ keys, LitFree t P := by
  induction hn : s.length using Nat.strong_induction_on generalizing s with
  | _ n ih =>
      cases s with
      | nil => exact ⟨[], rfl, by simp [words], fun _ _ => trivial⟩
      | cons x s =>
          subst hn
          by_cases hocc : ∃ t ∈ keys, t <+: x :: s
          · obtain ⟨t, ht, r, hr⟩ := hocc
            have hlen : r.length < (x :: s).length := by
              have := List.length_pos_of_ne_nil (hkeys t ht)
              rw [← hr, List.length_append]
              omega
            obtain ⟨P, hP, hwords, hfree⟩ := ih _ hlen r rfl
            refine ⟨.word t :: P, by rw [flatten_word, hP, hr], ?_, hfree⟩
            intro w hw
            rcases List.mem_cons.mp hw with rfl | hw
            · exact ht
            · exact hwords w hw
          · obtain ⟨P, hP, hwords, hfree⟩ := ih _ (Nat.lt_succ_self _) s rfl
            refine ⟨.lit x :: P, by rw [flatten_lit, hP], hwords,
              fun t ht => ⟨fun hp => ?_, hfree t ht⟩⟩
            refine hocc ⟨t, ht, hp.trans ((List.prefix_cons_inj x).mpr ?_)⟩
            rw [← hP]
            exact litRun_isPrefix P

/-! ### One pass over the text -/

/-- `onePass` with the number of letters still to be skipped after an occurrence. -/
def onePassAux (table : List (List α × List α)) : ℕ → List α → List α
  | _, [] => []
  | k + 1, _ :: s => onePassAux table k s
  | 0, x :: s => match table.find? (fun e => e.1 <+: x :: s) with
    | some e => e.2 ++ onePassAux table (e.1.length - 1) s
    | none => x :: onePassAux table 0 s

/-- Replace the occurrences of all keys at once: what is put in is not looked at again. -/
def onePass (table : List (List α × List α)) (s : List α) : List α := onePassAux table 0 s

theorem onePassAux_skip (table : List (List α × List α)) (k : ℕ) (s : List α) :
    onePassAux table k s = onePass table (s.drop k) := by
  induction k generalizing s with
  | zero => rfl
  | succ k ih =>
      cases s with
      | nil => rfl
      | cons x s => exact ih s

/-- In one pass each word becomes what the table makes of it. -/
theorem onePass_flatten (hoc : o ≠ c) {table : List (List α × List α)}
    (ht : Replaceable o c table) {P : List (Piece α)}
    (hwords : ∀ w ∈ words P, w ∈ table.map Prod.fst) (hfree : ∀ e ∈ table, LitFree e.1 P) :
    onePass table (flatten P) = flatten (P.map (Piece.subst (lookup table))) := by
  induction P with
  | nil => rfl
  | cons p P ih =>
      have hsafe : ∀ e ∈ table, ∀ w ∈ words (p :: P), Safe o c e.1 w := by
        intro e _ w hw
        obtain ⟨d, hd, rfl⟩ := List.mem_map.mp (hwords w hw)
        exact Or.inl (ht.key d hd)
      cases p with
      | lit x =>
          have hnone : table.find? (fun e => e.1 <+: x :: flatten P) = none := by
            rw [List.find?_eq_none]
            intro e he hprefix
            have hno : ¬ e.1 <+: x :: flatten P :=
              not_prefix_lit hoc (ht.key e he) (hsafe e he) (hfree e he).1
            exact hno (of_decide_eq_true hprefix)
          have hrest := ih hwords fun e he => (hfree e he).2
          rw [flatten_lit, onePass, onePassAux, hnone]
          exact congrArg (x :: ·) hrest
      | word w =>
          obtain ⟨e, he, rfl⟩ := List.mem_map.mp (hwords w List.mem_cons_self)
          have hrest := ih (fun u hu => hwords u (List.mem_cons_of_mem _ hu)) hfree
          have hfind : table.find? (fun d => d.1 <+: e.1 ++ flatten P) = some e := by
            cases hfound : table.find? (fun d => d.1 <+: e.1 ++ flatten P) with
            | none =>
                refine absurd ?_ (List.find?_eq_none.mp hfound e he)
                exact decide_eq_true (List.prefix_append _ _)
            | some d =>
                have hd := List.mem_of_find?_eq_some hfound
                have hprefix : d.1 <+: e.1 ++ flatten P := by
                  simpa using List.find?_some hfound
                have hkey : d.1 = e.1 := (ht.key d hd).eq_of_isPrefix (ht.key e he) hprefix
                rw [List.inj_on_of_nodup_map ht.nodup hd he hkey]
          have hlook : lookup table e.1 = e.2 := lookup_of_mem ht.nodup he
          rw [flatten_word, List.map_cons, Piece.subst, hlook, flatten_word, ← hrest]
          obtain ⟨x, w, hw⟩ := List.exists_cons_of_ne_nil (ht.key e he).ne_nil
          rw [hw, List.cons_append] at hfind
          have hdrop : (w ++ flatten P).drop (e.1.length - 1) = flatten P := by
            rw [hw, List.length_cons, Nat.add_sub_cancel, List.drop_left]
          rw [hw, List.cons_append, onePass, onePassAux, hfind]
          simp only [onePassAux_skip, hdrop]

/-- **Replacing by a table in any order is one pass.** -/
theorem replaceEach_eq_onePass (hoc : o ≠ c) {table : List (List α × List α)}
    (ht : Replaceable o c table) (s : List α) : replaceEach table s = onePass table s := by
  have hkeys : ∀ t ∈ table.map Prod.fst, Bracketed o c t := by
    intro t htk
    obtain ⟨e, he, rfl⟩ := List.mem_map.mp htk
    exact ht.key e he
  obtain ⟨P, rfl, hwords, hfree⟩ := exists_pieces (fun t h => (hkeys t h).ne_nil) s
  have hfree' : ∀ e ∈ table, LitFree e.1 P := fun e he => hfree _ (List.mem_map_of_mem he)
  rw [replaceEach_flatten hoc ht (fun e _ w hw => Or.inl (hkeys w (hwords w hw))) hfree',
    onePass_flatten hoc ht hwords hfree']

/-! ### Cutting a text -/

/-- A part of `t` ends `x`, and the rest of it begins `y`. -/
def Straddles (t x y : List α) : Prop :=
  ∃ a b, t = a ++ b ∧ a ≠ [] ∧ b ≠ [] ∧ a <:+ x ∧ b <+: y

omit [DecidableEq α] in
theorem prefix_litRun_append {t : List α} {P Q : List (Piece α)} (h : t <+: litRun (P ++ Q)) :
    t <+: litRun P ∨ ∃ b, t = flatten P ++ b ∧ b ≠ [] ∧ b <+: litRun Q := by
  induction P generalizing t with
  | nil =>
      by_cases ht : t = []
      · exact Or.inl (by rw [ht]; exact List.nil_prefix)
      · exact Or.inr ⟨t, rfl, ht, h⟩
  | cons p P ih =>
      by_cases ht : t = []
      · exact Or.inl (by rw [ht]; exact List.nil_prefix)
      obtain ⟨y, t, rfl⟩ := List.exists_cons_of_ne_nil ht
      cases p with
      | lit x =>
          obtain ⟨rfl, h'⟩ := List.cons_prefix_cons.mp h
          rcases ih h' with hl | ⟨b, hb, hne, hq⟩
          · exact Or.inl (List.cons_prefix_cons.mpr ⟨rfl, hl⟩)
          · exact Or.inr ⟨b, by rw [hb]; rfl, hne, hq⟩
      | word w => exact Or.inl h

omit [DecidableEq α] in
/-- Letters stay free of `t` side by side unless `t` straddles the cut. -/
theorem litFree_append {t : List α} {P Q : List (Piece α)} (hP : LitFree t P) (hQ : LitFree t Q)
    (hcut : ¬ Straddles t (flatten P) (flatten Q)) : LitFree t (P ++ Q) := by
  induction P with
  | nil => exact hQ
  | cons p P ih =>
      have hrest : ∀ u, flatten (p :: P) = u ++ flatten P → ¬ Straddles t (flatten P) (flatten Q) := by
        rintro u hu ⟨a, b, hab, ha, hb, hsuf, hpre⟩
        exact hcut ⟨a, b, hab, ha, hb, by rw [hu]; exact hsuf.trans (List.suffix_append u _), hpre⟩
      cases p with
      | lit x =>
          refine ⟨fun h => ?_, ih hP.2 (hrest [x] rfl)⟩
          rcases prefix_litRun_append (P := .lit x :: P) h with hl | ⟨b, hb, hne, hq⟩
          · exact hP.1 hl
          · exact hcut ⟨_, b, hb, List.cons_ne_nil _ _, hne, List.suffix_rfl,
              hq.trans (litRun_isPrefix Q)⟩
      | word w => exact ih hP (hrest w rfl)

/-- A text may be cut wherever no key straddles the cut. -/
theorem replaceEach_append (hoc : o ≠ c) {table : List (List α × List α)}
    (ht : Replaceable o c table) {x y : List α} (hcut : ∀ e ∈ table, ¬ Straddles e.1 x y) :
    replaceEach table (x ++ y) = replaceEach table x ++ replaceEach table y := by
  have hkeys : ∀ t ∈ table.map Prod.fst, Bracketed o c t := by
    intro t ht'
    obtain ⟨e, he, rfl⟩ := List.mem_map.mp ht'
    exact ht.key e he
  obtain ⟨P, rfl, hwP, hfP⟩ := exists_pieces (fun t h => (hkeys t h).ne_nil) x
  obtain ⟨Q, rfl, hwQ, hfQ⟩ := exists_pieces (fun t h => (hkeys t h).ne_nil) y
  have hfree : ∀ e ∈ table, LitFree e.1 (P ++ Q) := fun e he =>
    litFree_append (hfP _ (List.mem_map_of_mem he)) (hfQ _ (List.mem_map_of_mem he)) (hcut e he)
  have hsafe : ∀ e ∈ table, ∀ w ∈ words (P ++ Q), Safe o c e.1 w := by
    intro e _ w hw
    rw [words_append, List.mem_append] at hw
    exact Or.inl (hkeys w (hw.elim (hwP w) (hwQ w)))
  rw [← flatten_append, replaceEach_flatten hoc ht hsafe hfree,
    replaceEach_flatten hoc ht (fun e _ w hw => Or.inl (hkeys w (hwP w hw)))
      (fun e he => hfP _ (List.mem_map_of_mem he)),
    replaceEach_flatten hoc ht (fun e _ w hw => Or.inl (hkeys w (hwQ w hw)))
      (fun e he => hfQ _ (List.mem_map_of_mem he)), List.map_append, flatten_append]

theorem replaceEach_perm (hoc : o ≠ c) {table table' : List (List α × List α)}
    (ht : Replaceable o c table) (hp : table.Perm table') (s : List α) :
    replaceEach table s = replaceEach table' s := by
  have ht' : Replaceable o c table' :=
    ⟨(hp.map Prod.fst).nodup_iff.mp ht.nodup, fun e he => ht.key e (hp.mem_iff.mpr he),
      fun e he d hd => ht.safe e (hp.mem_iff.mpr he) d (hp.mem_iff.mpr hd),
      fun e he d hd => ht.notKey e (hp.mem_iff.mpr he) d (hp.mem_iff.mpr hd)⟩
  have hkeys : ∀ t ∈ table.map Prod.fst, Bracketed o c t := by
    intro t htk
    obtain ⟨e, he, rfl⟩ := List.mem_map.mp htk
    exact ht.key e he
  obtain ⟨P, rfl, hwP, hfP⟩ := exists_pieces (fun t h => (hkeys t h).ne_nil) s
  have hsafe : ∀ t, ∀ w ∈ words P, Safe o c t w := fun t w hw => Or.inl (hkeys w (hwP w hw))
  rw [replaceEach_flatten hoc ht (fun e _ => hsafe e.1) (fun e he => hfP _ (List.mem_map_of_mem he)),
    replaceEach_flatten hoc ht' (fun e _ => hsafe e.1)
      (fun e he => hfP _ (List.mem_map_of_mem (hp.mem_iff.mpr he)))]
  congr 2
  funext p
  cases p with
  | lit x => rfl
  | word w => simp only [Piece.subst, lookup_perm ht.nodup hp]

/-! ### Undoing a substitution -/

/-- Replace the words `t` by the letters of `v`. -/
def expand (t v : List α) (P : List (Piece α)) : List (Piece α) :=
  P.flatMap (fun p => match p with
    | .lit x => [.lit x]
    | .word w => if w = t then v.map .lit else [.word w])

omit [DecidableEq α] in
theorem flatten_lits (v : List α) : flatten (v.map Piece.lit) = v := by
  induction v with
  | nil => rfl
  | cons x v ih => rw [List.map_cons, flatten_lit, ih]

omit [DecidableEq α] in
theorem words_lits (v : List α) : words (v.map Piece.lit) = [] := by
  induction v with
  | nil => rfl
  | cons x v ih => rw [List.map_cons, words, ih]

theorem flatten_expand (t v : List α) (P : List (Piece α)) :
    flatten (expand t v P) = flatten (P.map (Piece.swap t v)) := by
  induction P with
  | nil => rfl
  | cons p P ih =>
      rw [expand, List.flatMap_cons, flatten_append, List.map_cons]
      change _ ++ flatten (expand t v P) = _
      rw [ih]
      cases p with
      | lit x => rfl
      | word w =>
          by_cases hw : w = t
          · simp [hw, flatten_lits, Piece.swap, Piece.subst]
          · simp [hw, Piece.swap, Piece.subst]

theorem flatten_subst_expand {f : List α → List α} {t v : List α} (hv : v = f t)
    (P : List (Piece α)) :
    flatten ((expand t v P).map (Piece.subst f)) = flatten (P.map (Piece.subst f)) := by
  induction P with
  | nil => rfl
  | cons p P ih =>
      rw [expand, List.flatMap_cons, List.map_append, flatten_append, List.map_cons]
      change _ ++ flatten ((expand t v P).map (Piece.subst f)) = _
      rw [ih]
      cases p with
      | lit x => rfl
      | word w =>
          by_cases hw : w = t
          · have hlits : ∀ u : List α, (u.map Piece.lit).map (Piece.subst f) = u.map Piece.lit := by
              intro u
              rw [List.map_map]
              rfl
            subst hw
            simp only [if_true, hlits, flatten_lits, Piece.subst, flatten_word, hv]
          · simp [hw, Piece.subst]

theorem mem_words_expand {t v w : List α} {P : List (Piece α)} (h : w ∈ words (expand t v P)) :
    w ∈ words P ∧ w ≠ t := by
  induction P with
  | nil => cases h
  | cons p P ih =>
      rw [expand, List.flatMap_cons, words_append, List.mem_append] at h
      change _ ∨ w ∈ words (expand t v P) at h
      cases p with
      | lit x => exact ih (by simpa [words] using h)
      | word u =>
          dsimp only at h
          rcases h with h | h
          · by_cases hu : u = t
            · rw [if_pos hu, words_lits] at h
              cases h
            · rw [if_neg hu] at h
              obtain rfl := List.mem_singleton.mp h
              exact ⟨List.mem_cons_self, hu⟩
          · exact ⟨List.mem_cons_of_mem _ (ih h).1, (ih h).2⟩

/-- **Undoing a substitution**: when the words of a text stand for values `f` and no key occurs
in the text with the values put back, replacing the keys in any order puts the values back. -/
theorem replaceEach_undo (hoc : o ≠ c) {f : List α → List α} {table : List (List α × List α)}
    (hkey : ∀ e ∈ table, Bracketed o c e.1) (hval : ∀ e ∈ table, e.2 = f e.1)
    {P : List (Piece α)} (hwords : ∀ w ∈ words P, w ∈ table.map Prod.fst)
    (hfree : ∀ e ∈ table, ¬ e.1 <:+: flatten (P.map (Piece.subst f))) :
    replaceEach table (flatten P) = flatten (P.map (Piece.subst f)) := by
  induction table generalizing P with
  | nil =>
      have hid : ∀ p ∈ P, Piece.subst f p = p := by
        rintro (x | w) hp
        · rfl
        · cases hwords w (mem_words hp)
      rw [List.map_congr_left hid, List.map_id']
      rfl
  | cons e table ih =>
      have hmem : ∀ w ∈ words P, Bracketed o c w := by
        intro w hw
        obtain ⟨d, hd, rfl⟩ := List.mem_map.mp (hwords w hw)
        exact hkey d hd
      have hstep : replaceEach (e :: table) (flatten P) =
          replaceEach table (flatten (expand e.1 e.2 P)) := by
        rw [flatten_expand, ← replaceAll_flatten hoc (hkey e List.mem_cons_self) e.2
          (fun w hw => Or.inl (hmem w hw)) (litFree_of_not_isInfix f (hfree e List.mem_cons_self))]
        rfl
      have hback := flatten_subst_expand (hval e List.mem_cons_self) P
      rw [hstep, ih (fun d hd => hkey d (List.mem_cons_of_mem _ hd))
        (fun d hd => hval d (List.mem_cons_of_mem _ hd)), hback]
      · intro w hw
        obtain ⟨hw', hne⟩ := mem_words_expand hw
        rcases List.mem_cons.mp (hwords w hw') with h | h
        · exact absurd h hne
        · exact h
      · intro d hd
        rw [hback]
        exact hfree d (List.mem_cons_of_mem _ hd)

end bracketed

end Substitution
