import FirewallLLM.DlpRestore

/-! # Round trip of reversible masking

`sanitize` replaces the accepted matches back to front; what it makes of a text is that text
with some spans replaced by tokens of the vault (`Masks`).  A token that occurs in no original
text occurs in no intermediate text either, except where it was inserted, so that the
replacements of `deanonymize` undo the masking in any order (`Substitution.replaceEach_undo`).

`sanitizeAll_roundtrip`: texts that are masked one after the other with a vault and a scope
that start empty come back exactly, in every iteration order of the vault. -/

namespace FirewallLLM.Dlp

open Substitution

/-! ### Accepted matches -/

/-- Matches in order without overlaps, from position `lo` on and within the text. -/
def InOrder (len : ℕ) : ℕ → List Hit → Prop
  | _, [] => True
  | lo, h :: hs => lo ≤ h.start ∧ h.start ≤ h.stop ∧ h.stop ≤ len ∧ InOrder len h.stop hs

theorem inOrder_accept {len : ℕ} {hs : List Hit}
    (h : ∀ g ∈ hs, g.start ≤ g.stop ∧ g.stop ≤ len) (lastEnd : ℕ) :
    InOrder len lastEnd (accept lastEnd hs) := by
  induction hs generalizing lastEnd with
  | nil => trivial
  | cons g hs ih =>
      have hhs : ∀ g ∈ hs, g.start ≤ g.stop ∧ g.stop ≤ len := fun g hg =>
        h g (List.mem_cons_of_mem _ hg)
      have hg := h g List.mem_cons_self
      rw [accept]
      split_ifs with hge
      · exact ⟨hge, hg.1, hg.2, ih hhs g.stop⟩
      · exact ih hhs lastEnd

theorem accept_subset (lastEnd : ℕ) (hs : List Hit) : accept lastEnd hs ⊆ hs := by
  induction hs generalizing lastEnd with
  | nil => exact List.Subset.refl []
  | cons g hs ih =>
      rw [accept]
      split_ifs
      · exact List.cons_subset_cons g (ih g.stop)
      · exact fun x hx => List.mem_cons_of_mem _ (ih lastEnd hx)

theorem mem_hits {p : Patterns} {text : Text} {h : Hit} (hm : h ∈ hits p text) :
    (∃ d : Detector, h.typ = d.typ) ∧ h.start ≤ h.stop ∧ h.stop ≤ text.length := by
  obtain ⟨⟨d, order⟩, -, hd⟩ := List.mem_flatMap.mp hm
  obtain ⟨m, hspan, rfl⟩ := List.mem_map.mp hd
  exact ⟨⟨d, rfl⟩, p.bounds d text m hspan⟩

theorem mem_accepted {p : Patterns} {text : Text} {h : Hit} (hm : h ∈ accepted p text) :
    h ∈ hits p text :=
  (List.mem_insertionSort Hit.le).mp (accept_subset _ _ hm)

theorem inOrder_accepted (p : Patterns) (text : Text) :
    InOrder text.length 0 (accepted p text) :=
  inOrder_accept (fun _ hg => (mem_hits ((List.mem_insertionSort Hit.le).mp hg)).2) 0

/-! ### New tokens -/

theorem hexFixed_inj {width n m : ℕ} (hn : n < 16 ^ width) (hm : m < 16 ^ width)
    (h : hexFixed width n = hexFixed width m) : n = m := by
  induction width generalizing n m with
  | zero =>
      rw [Nat.pow_zero] at hn hm
      omega
  | succ width ih =>
      obtain ⟨hinit, hlast⟩ := List.append_inj' h rfl
      rw [Nat.pow_succ] at hn hm
      have hdiv := ih (Nat.div_lt_of_lt_mul (by omega)) (Nat.div_lt_of_lt_mul (by omega)) hinit
      have hdigit : ∀ i < 16, ∀ j < 16, hexDigits.getD i '0' = hexDigits.getD j '0' → i = j := by
        decide
      have hmod := hdigit _ (Nat.mod_lt n (by decide)) _ (Nat.mod_lt m (by decide))
        (List.cons.inj hlast).1
      omega

theorem hex16_inj {n m : UInt64} (h : hex16 n = hex16 m) : n = m :=
  UInt64.toNat_inj.mp (hexFixed_inj n.toNat_lt m.toNat_lt h)

/-- A token tells the draw it was made from. -/
theorem draw_of_formatToken {typ typ' : Text} {draw draw' : UInt64 × UInt64}
    (h : formatToken typ draw = formatToken typ' draw') : draw = draw' := by
  have hlen : ∀ n : UInt64, (hex16 n).length = 16 := fun n => hexFixed_length 16 n.toNat
  have hinner := List.append_cancel_right (List.cons.inj h).2
  rw [List.append_cons, List.append_cons _ _ (hex16 draw'.1 ++ hex16 draw'.2)] at hinner
  have hhex := (List.append_inj' hinner (by simp only [List.length_append, hlen])).2
  obtain ⟨h1, h2⟩ := List.append_inj hhex (by rw [hlen, hlen])
  exact Prod.ext (hex16_inj h1) (hex16_inj h2)

theorem newToken_spec {typ t : Text} {vault : Vault} {draws draws' : List (UInt64 × UInt64)}
    (h : newToken typ vault draws = some (t, draws')) :
    t ∉ vault.map Prod.fst ∧ ∃ draw, t = formatToken typ draw := by
  induction draws with
  | nil => cases h
  | cons draw draws ih =>
      rw [newToken] at h
      split_ifs at h with hmem
      · exact ih h
      · obtain ⟨rfl, rfl⟩ := Prod.mk.inj (Option.some.inj h)
        exact ⟨hmem, draw, rfl⟩

/-! ### What masking does to a text -/

/-- `out` is `text` with some spans replaced by tokens that the vault holds for them. -/
def Masks (vault : Vault) (text out : Text) : Prop :=
  ∃ P : List (Piece Char), flatten P = out ∧ (∀ w ∈ words P, w ∈ vault.map Prod.fst) ∧
    flatten (P.map (Piece.subst (lookup vault))) = text

/-- Keys are different bracketed words, and all of them are in scope. -/
structure Masking.Inv (st : Masking) : Prop where
  nodup : (st.vault.map Prod.fst).Nodup
  key : ∀ e ∈ st.vault, Bracketed '[' ']' e.1
  inScope : ∀ e ∈ st.vault, e.1 ∈ st.scope.map Prod.fst

theorem Masks.refl (vault : Vault) (text : Text) : Masks vault text text := by
  refine ⟨text.map .lit, flatten_lits text, by rw [words_lits]; simp, ?_⟩
  rw [List.map_map]
  exact flatten_lits text

/-- A vault that has grown still masks what it masked. -/
theorem Masks.mono {vault vault' : Vault} {text out : Text} (h : Masks vault text out)
    (hpre : vault <+: vault') (hnd : (vault'.map Prod.fst).Nodup) : Masks vault' text out := by
  obtain ⟨P, hP, hwords, htext⟩ := h
  have hsub : vault.map Prod.fst ⊆ vault'.map Prod.fst := (hpre.map Prod.fst).subset
  refine ⟨P, hP, fun w hw => hsub (hwords w hw), ?_⟩
  rw [← htext]
  congr 1
  apply List.map_congr_left
  rintro (x | w) hp
  · rfl
  · obtain ⟨e, he, rfl⟩ := List.mem_map.mp (hwords w (mem_words hp))
    have hnd' : (vault.map Prod.fst).Nodup := hnd.sublist (hpre.map Prod.fst).sublist
    simp only [Piece.subst, lookup_of_mem hnd (hpre.subset he), lookup_of_mem hnd' he]

theorem Masks.cons {vault : Vault} {text out token val : Text} (h : Masks vault text out)
    (hnd : (vault.map Prod.fst).Nodup) (hmem : (token, val) ∈ vault) (lits : Text) :
    Masks vault (val ++ (lits ++ text)) (token ++ (lits ++ out)) := by
  obtain ⟨P, hP, hwords, htext⟩ := h
  refine ⟨.word token :: (lits.map .lit ++ P), ?_, ?_, ?_⟩
  · rw [flatten_word, flatten_append, flatten_lits, hP]
  · intro w hw
    rcases List.mem_cons.mp hw with rfl | hw
    · exact List.mem_map.mpr ⟨_, hmem, rfl⟩
    · rw [words_append, words_lits, List.nil_append] at hw
      exact hwords w hw
  · have hlits : (lits.map Piece.lit).map (Piece.subst (lookup vault)) = lits.map .lit := by
      rw [List.map_map]
      rfl
    rw [List.map_cons, List.map_append, hlits, Piece.subst, flatten_word, flatten_append,
      flatten_lits, htext, lookup_of_mem hnd hmem]

theorem keys_bump (scope : Scope) (token : Text) :
    (scope.map (fun e => if e.1 = token then (e.1, e.2 + 1) else e)).map Prod.fst =
      scope.map Prod.fst := by
  rw [List.map_map]
  apply List.map_congr_left
  intro e _
  simp only [Function.comp]
  split_ifs <;> rfl

theorem mem_keys_count {scope : Scope} {token t : Text} :
    t ∈ (scope.count token).map Prod.fst ↔ t ∈ scope.map Prod.fst ∨ t = token := by
  unfold Scope.count
  split_ifs with h
  · rw [keys_bump]
    constructor
    · exact Or.inl
    · rintro (ht | rfl)
      · exact ht
      · exact h
  · simp

/-- The token of a value: found in the vault or entered into it. -/
theorem tokenOf_spec {ord : VaultOrder} {d : Detector} {val token : Text} {st st' : Masking}
    (hst : st.Inv) (h : tokenOf ord d.typ val st = some (token, st')) :
    st'.out = st.out ∧ st'.scope = st.scope ∧ st.vault <+: st'.vault ∧ (token, val) ∈ st'.vault ∧
      (st'.vault.map Prod.fst).Nodup ∧ (∀ e ∈ st'.vault, e ∈ st.vault ∨ e.1 = token) ∧
      Bracketed '[' ']' token := by
  unfold tokenOf at h
  cases hfind : (ord.iter st.vault).find? (fun e => e.2 = val) with
  | some e =>
      rw [hfind] at h
      obtain ⟨rfl, rfl⟩ := Prod.mk.inj (Option.some.inj h)
      have hmem : e ∈ st.vault := (ord.perm st.vault).mem_iff.mp (List.mem_of_find?_eq_some hfind)
      have hval : e.2 = val := by simpa using List.find?_some hfind
      exact ⟨rfl, rfl, List.prefix_rfl, by rw [← hval]; exact hmem, hst.nodup,
        fun e' he' => Or.inl he', hst.key e hmem⟩
  | none =>
      rw [hfind] at h
      obtain ⟨⟨t, draws⟩, hnew, heq⟩ := Option.map_eq_some_iff.mp h
      obtain ⟨rfl, rfl⟩ := Prod.mk.inj heq
      obtain ⟨hfresh, draw, rfl⟩ := newToken_spec hnew
      refine ⟨rfl, rfl, List.prefix_append _ _, by simp, ?_, ?_, (isToken_formatToken d draw).bracketed⟩
      · rw [List.map_append, List.map_singleton, ← List.concat_eq_append]
        exact hst.nodup.concat hfresh
      · intro e he
        rcases List.mem_append.mp he with he | he
        · exact Or.inl he
        · exact Or.inr (by rw [List.mem_singleton.mp he])

/-- One replacement: what follows the match is masked already, what precedes it is not. -/
theorem maskHit_spec {ord : VaultOrder} {st st' : Masking} {h : Hit} {text rest : Text} {pos : ℕ}
    (hst : st.Inv) (hout : st.out = text.take pos ++ rest) (hrest : Masks st.vault (text.drop pos) rest)
    (htyp : ∃ d : Detector, h.typ = d.typ) (hle : h.start ≤ h.stop) (hpos : h.stop ≤ pos)
    (hlen : pos ≤ text.length) (hm : maskHit ord st h = some st') :
    st'.Inv ∧ st.vault <+: st'.vault ∧
      ∃ rest', st'.out = text.take h.start ++ rest' ∧ Masks st'.vault (text.drop h.start) rest' := by
  obtain ⟨d, hd⟩ := htyp
  unfold maskHit at hm
  rw [hd] at hm
  obtain ⟨⟨token, st₁⟩, htok, heq⟩ := Option.map_eq_some_iff.mp hm
  obtain ⟨h1, h2, hpre, hmem, hnd, hold, hbr⟩ := tokenOf_spec hst htok
  dsimp only at heq
  subst heq
  have htake : (text.take pos).length = pos := by
    rw [List.length_take]; omega
  -- the part of the text in front of `pos` is untouched, so the match reads the original text
  have hval : (st.out.take h.stop).drop h.start = (text.take h.stop).drop h.start := by
    rw [hout, List.take_append_of_le_length (by omega), List.take_take, Nat.min_eq_left hpos]
  have hfront : st₁.out.take h.start = text.take h.start := by
    rw [h1, hout, List.take_append_of_le_length (by omega), List.take_take,
      Nat.min_eq_left (by omega)]
  have hback : st₁.out.drop h.stop = (text.take pos).drop h.stop ++ rest := by
    rw [h1, hout, List.drop_append_of_le_length (by omega)]
  refine ⟨⟨hnd, ?_, ?_⟩, hpre, token ++ ((text.take pos).drop h.stop ++ rest), ?_, ?_⟩
  · intro e he
    rcases hold e he with he | he
    · exact hst.key e he
    · rw [he]
      exact hbr
  · intro e he
    rw [mem_keys_count, h2]
    rcases hold e he with he | he
    · exact Or.inl (hst.inScope e he)
    · exact Or.inr he
  · dsimp only
    rw [hfront, hback, List.append_assoc]
  · have hmasks := (hrest.mono hpre hnd).cons hnd hmem ((text.take pos).drop h.stop)
    have htext : (st.out.take h.stop).drop h.start ++
        ((text.take pos).drop h.stop ++ text.drop pos) = text.drop h.start := by
      have e1 : (text.take pos).drop h.stop ++ text.drop pos = text.drop h.stop := by
        rw [← List.drop_append_of_le_length (by omega), List.take_append_drop]
      have e2 : (text.take h.stop).drop h.start ++ text.drop h.stop = text.drop h.start := by
        rw [← List.drop_append_of_le_length (by rw [List.length_take]; omega),
          List.take_append_drop]
      rw [hval, e1, e2]
    rw [htext] at hmasks
    exact hmasks

theorem maskHits_spec {ord : VaultOrder} {text : Text} {st : Masking} (hst : st.Inv)
    (hout : st.out = text) {hs : List Hit} {lo : ℕ} (hlo : lo ≤ text.length)
    (horder : InOrder text.length lo hs) (htyp : ∀ h ∈ hs, ∃ d : Detector, h.typ = d.typ)
    {st' : Masking} (hrun : hs.foldrM (fun h st => maskHit ord st h) st = some st') :
    st'.Inv ∧ st.vault <+: st'.vault ∧ ∃ pos rest, lo ≤ pos ∧ pos ≤ text.length ∧
      st'.out = text.take pos ++ rest ∧ Masks st'.vault (text.drop pos) rest := by
  induction hs generalizing lo st' with
  | nil =>
      obtain rfl := Option.some.inj hrun
      exact ⟨hst, List.prefix_rfl, text.length, [], hlo, le_rfl, by simp [hout],
        by rw [List.drop_length]; exact Masks.refl _ _⟩
  | cons h hs ih =>
      obtain ⟨hstart, hle, hstop, horder'⟩ := horder
      rw [List.foldrM_cons] at hrun
      obtain ⟨st₁, hrun₁, hm⟩ := Option.bind_eq_some_iff.mp hrun
      obtain ⟨hinv, hpre, pos, rest, hpos, hlen, hout₁, hrest⟩ :=
        ih hstop horder' (fun g hg => htyp g (List.mem_cons_of_mem _ hg)) hrun₁
      obtain ⟨hinv', hpre', rest', hout', hrest'⟩ :=
        maskHit_spec hinv hout₁ hrest (htyp h List.mem_cons_self) hle hpos hlen hm
      exact ⟨hinv', hpre.trans hpre', h.start, rest', hstart, by omega, hout', hrest'⟩

theorem sanitize_spec {p : Patterns} {ord : VaultOrder} {text : Text} {vault : Vault}
    {scope : Scope} {draws : List (UInt64 × UInt64)} {st : Masking}
    (hst : Masking.Inv ⟨text, vault, scope, draws⟩)
    (h : sanitize p ord text vault scope draws = some st) :
    st.Inv ∧ vault <+: st.vault ∧ Masks st.vault text st.out := by
  rw [sanitize, List.foldlM_reverse] at h
  obtain ⟨hinv, hpre, pos, rest, -, hlen, hout, hrest⟩ := maskHits_spec hst rfl (Nat.zero_le _)
    (inOrder_accepted p text) (fun h hm => (mem_hits (mem_accepted hm)).1) h
  refine ⟨hinv, hpre, ?_⟩
  obtain ⟨P, rfl, hwords, htext⟩ := hrest
  have hlits : ((text.take pos).map Piece.lit).map (Piece.subst (lookup st.vault)) =
      (text.take pos).map .lit := by
    rw [List.map_map]
    rfl
  refine ⟨(text.take pos).map .lit ++ P, ?_, ?_, ?_⟩
  · rw [flatten_append, flatten_lits, hout]
  · intro w hw
    rw [words_append, words_lits, List.nil_append] at hw
    exact hwords w hw
  · rw [List.map_append, hlits, flatten_append, flatten_lits, htext, List.take_append_drop]

theorem sanitizeAll_spec {p : Patterns} {ord : VaultOrder} {texts outs : List Text}
    {vault : Vault} {scope : Scope} {draws : List (UInt64 × UInt64)} {last : Masking}
    (hst : Masking.Inv ⟨[], vault, scope, draws⟩)
    (h : sanitizeAll p ord texts vault scope draws = some (outs, last)) :
    last.Inv ∧ vault <+: last.vault ∧ List.Forall₂ (Masks last.vault) texts outs := by
  induction texts generalizing vault scope draws outs with
  | nil =>
      obtain ⟨rfl, rfl⟩ := Prod.mk.inj (Option.some.inj h)
      exact ⟨hst, List.prefix_rfl, List.Forall₂.nil⟩
  | cons text texts ih =>
      obtain ⟨st, hs, hrest⟩ := Option.bind_eq_some_iff.mp h
      obtain ⟨⟨outs', last'⟩, hall, heq⟩ := Option.map_eq_some_iff.mp hrest
      obtain ⟨rfl, rfl⟩ := Prod.mk.inj heq
      have hst' : Masking.Inv ⟨text, vault, scope, draws⟩ := ⟨hst.nodup, hst.key, hst.inScope⟩
      obtain ⟨hinv, hpre, hmasks⟩ := sanitize_spec hst' hs
      obtain ⟨hinv', hpre', hforall⟩ := ih ⟨hinv.nodup, hinv.key, hinv.inScope⟩ hall
      exact ⟨hinv', hpre.trans hpre', .cons (hmasks.mono hpre' hinv'.nodup) hforall⟩

/-! ### Undoing the masking -/

/-- A masked text comes back when no key of the vault occurs in the original. -/
theorem deanonymize_masks {st : Masking} (hst : st.Inv) {text out : Text}
    (hmasks : Masks st.vault text out) (hfresh : ∀ e ∈ st.vault, ¬ e.1 <:+: text) {vault' : Vault}
    (hperm : st.vault.Perm vault') : deanonymize out vault' st.scope "restore" = text := by
  obtain ⟨P, rfl, hwords, rfl⟩ := hmasks
  have hmem : ∀ e ∈ replacements vault' st.scope "restore", ∃ e' ∈ st.vault, e = e' := by
    intro e he
    obtain ⟨e', he', rfl⟩ := List.mem_map.mp he
    have hv := hperm.mem_iff.mpr he'
    refine ⟨e', hv, ?_⟩
    rw [replacement, if_pos ⟨rfl, hst.inScope e' hv⟩]
  have hmarks : '[' ≠ ']' := by decide
  rw [deanonymize_eq]
  apply replaceEach_undo hmarks
  · intro e he
    obtain ⟨e', he', rfl⟩ := hmem e he
    exact hst.key e he'
  · intro e he
    obtain ⟨e', he', rfl⟩ := hmem e he
    exact (lookup_of_mem hst.nodup he').symm
  · intro w hw
    rw [replacements, List.map_map]
    exact (hperm.map Prod.fst).mem_iff.mp (hwords w hw)
  · intro e he
    obtain ⟨e', he', rfl⟩ := hmem e he
    exact hfresh e he'

/-! ### Enough draws -/

/-- At least `n` different draws are left, and no token in the vault was made from one of them. -/
structure Masking.Supplied (st : Masking) (n : ℕ) : Prop where
  nodup : st.draws.Nodup
  enough : n ≤ st.draws.length
  made : ∀ e ∈ st.vault, ∃ typ draw, e.1 = formatToken typ draw ∧ draw ∉ st.draws

theorem tokenOf_total {ord : VaultOrder} {st : Masking} {n : ℕ} (hs : st.Supplied (n + 1))
    (typ val : Text) : ∃ token st', tokenOf ord typ val st = some (token, st') ∧ st'.Supplied n := by
  have henough := hs.enough
  unfold tokenOf
  cases (ord.iter st.vault).find? (fun e => e.2 = val) with
  | some e => exact ⟨e.1, st, rfl, hs.nodup, by omega, hs.made⟩
  | none =>
      obtain ⟨draw, draws, hdraws⟩ : ∃ draw draws, st.draws = draw :: draws :=
        List.exists_cons_of_ne_nil (by
          rintro hnil
          rw [hnil, List.length_nil] at henough
          omega)
      have hfresh : formatToken typ draw ∉ st.vault.map Prod.fst := by
        intro hmem
        obtain ⟨e, he, heq⟩ := List.mem_map.mp hmem
        obtain ⟨typ', draw', hmade, hnot⟩ := hs.made e he
        rw [← draw_of_formatToken (heq.symm.trans hmade), hdraws] at hnot
        exact hnot List.mem_cons_self
      have hnd := hs.nodup
      rw [hdraws] at hnd henough
      have hnew : newToken typ st.vault st.draws = some (formatToken typ draw, draws) := by
        rw [hdraws, newToken, if_neg hfresh]
      refine ⟨_, _, congrArg (Option.map _) hnew, hnd.of_cons, ?_, ?_⟩
      · dsimp only
        rw [List.length_cons] at henough
        omega
      · intro e he
        rcases List.mem_append.mp he with he | he
        · obtain ⟨typ', draw', hmade, hnot⟩ := hs.made e he
          rw [hdraws] at hnot
          exact ⟨typ', draw', hmade, List.not_mem_of_not_mem_cons hnot⟩
        · rw [List.mem_singleton.mp he]
          exact ⟨typ, draw, rfl, (List.nodup_cons.mp hnd).1⟩

theorem maskHit_total {ord : VaultOrder} {st : Masking} {n : ℕ} (hs : st.Supplied (n + 1))
    (h : Hit) : ∃ st', maskHit ord st h = some st' ∧ st'.Supplied n := by
  obtain ⟨token, st₁, htok, hst₁⟩ := tokenOf_total hs h.typ
    ((st.out.take h.stop).drop h.start)
  exact ⟨_, congrArg (Option.map _) htok, hst₁.nodup, hst₁.enough, hst₁.made⟩

theorem maskHits_total {ord : VaultOrder} {n : ℕ} (hs : List Hit) {st : Masking}
    (hst : st.Supplied (hs.length + n)) :
    ∃ st', hs.foldrM (fun h st => maskHit ord st h) st = some st' ∧ st'.Supplied n := by
  induction hs generalizing n with
  | nil => exact ⟨st, rfl, by simpa using hst⟩
  | cons h hs ih =>
      have hlen : (h :: hs).length + n = hs.length + (n + 1) := by
        rw [List.length_cons]; omega
      rw [hlen] at hst
      obtain ⟨st₁, hrun, hst₁⟩ := ih hst
      obtain ⟨st', hm, hst'⟩ := maskHit_total hst₁ h
      exact ⟨st', by rw [List.foldrM_cons, hrun]; exact hm, hst'⟩

theorem sanitizeAll_total {p : Patterns} {ord : VaultOrder} {texts : List Text} {vault : Vault}
    {scope : Scope} {draws : List (UInt64 × UInt64)} {n : ℕ}
    (hst : Masking.Supplied ⟨[], vault, scope, draws⟩
      ((texts.map (fun text => (accepted p text).length)).sum + n)) :
    (sanitizeAll p ord texts vault scope draws).isSome := by
  induction texts generalizing vault scope draws with
  | nil => rfl
  | cons text texts ih =>
      rw [List.map_cons, List.sum_cons, Nat.add_assoc] at hst
      have htext : Masking.Supplied ⟨text, vault, scope, draws⟩ _ :=
        ⟨hst.nodup, hst.enough, hst.made⟩
      obtain ⟨st, hrun, hst'⟩ := maskHits_total (accepted p text) htext
      have hs : sanitize p ord text vault scope draws = some st := by
        rw [sanitize, List.foldlM_reverse]
        exact hrun
      have hrest : Masking.Supplied ⟨[], st.vault, st.scope, st.draws⟩ _ :=
        ⟨hst'.nodup, hst'.enough, hst'.made⟩
      obtain ⟨res, hres⟩ := Option.isSome_iff_exists.mp (ih hrest)
      rw [sanitizeAll, hs, Option.bind_some, hres]
      rfl

/-! ### The round trip -/

/-- **Round trip**: several texts masked with one vault and one scope that start empty come
back exactly, in every iteration order of the vault, when no token occurs in any of the texts.
The masking gets through whenever the random source has a new draw for every match. -/
theorem sanitizeAll_roundtrip (p : Patterns) (ord : VaultOrder) (texts : List Text)
    (draws : List (UInt64 × UInt64)) :
    (draws.Nodup → (texts.map (fun text => (accepted p text).length)).sum ≤ draws.length →
      (sanitizeAll p ord texts [] [] draws).isSome) ∧
    ∀ outs last, sanitizeAll p ord texts [] [] draws = some (outs, last) →
      (∀ e ∈ last.vault, ∀ text ∈ texts, ¬ e.1 <:+: text) →
      ∀ vault', last.vault.Perm vault' →
        outs.map (fun out => deanonymize out vault' last.scope "restore") = texts := by
  constructor
  · intro hnd hlen
    exact sanitizeAll_total (n := 0) ⟨hnd, hlen, by simp⟩
  · intro outs last h hfresh vault' hperm
    have hempty : Masking.Inv ⟨[], [], [], draws⟩ := ⟨List.nodup_nil, by simp, by simp⟩
    obtain ⟨hinv, -, hmasks⟩ := sanitizeAll_spec hempty h
    clear h
    induction hmasks with
    | nil => rfl
    | cons hm _ ih =>
        rw [List.map_cons, deanonymize_masks hinv hm
          (fun e he => hfresh e he _ List.mem_cons_self) hperm,
          ih (fun e he text ht => hfresh e he text (List.mem_cons_of_mem _ ht))]

/-- A text with an e-mail address. -/
def sampleText : Text := "to ivan@mail.ru".toList

/-- What the patterns find in `sampleText`: the address and the handle inside it. -/
def samplePatterns : Patterns where
  findIter d text :=
    if text = sampleText then
      match d with
      | .email => [(3, 15)]
      | .socialHandle => [(7, 15)]
      | _ => []
    else []
  bounds d text m h := by
    split_ifs at h with ht
    · subst ht
      cases d <;> simp only [List.mem_singleton, List.not_mem_nil] at h <;> subst h <;> decide
    · cases h

/-- A hash map that iterates in the order of insertion. -/
def insertionOrder : VaultOrder := ⟨id, List.Perm.refl⟩

/-- A second text with the same address at the same place. -/
def copyText : Text := "cc ivan@mail.ru".toList

/-- In both of them the matches are those of `sampleText`. -/
def sharedMatches (d : Detector) (text : Text) : List (ℕ × ℕ) :=
  if text = sampleText ∨ text = copyText then samplePatterns.findIter d sampleText else []

theorem sharedMatches_bounds (d : Detector) (text : Text) :
    ∀ m ∈ sharedMatches d text, m.1 ≤ m.2 ∧ m.2 ≤ text.length := by
  intro m h
  unfold sharedMatches at h
  split_ifs at h with ht
  · have hlen : text.length = sampleText.length := by
      rcases ht with rfl | rfl
      · rfl
      · decide
    rw [hlen]
    exact samplePatterns.bounds d sampleText m h
  · cases h

def sharedPatterns : Patterns := ⟨sharedMatches, sharedMatches_bounds⟩

/-- Both texts get the same token, and come back. -/
theorem sanitizeAll_roundtrip_sample :
    (sanitizeAll sharedPatterns insertionOrder [sampleText, copyText] [] []
      [(171, 205), (1, 2)]).isSome ∧
    ["to [EMAIL_00000000000000ab00000000000000cd]".toList,
      "cc [EMAIL_00000000000000ab00000000000000cd]".toList].map (fun out =>
        deanonymize out [(formatToken Detector.email.typ (171, 205), "ivan@mail.ru".toList)]
          [(formatToken Detector.email.typ (171, 205), 2)] "restore") = [sampleText, copyText] := by
  obtain ⟨htotal, hback⟩ := sanitizeAll_roundtrip sharedPatterns insertionOrder
    [sampleText, copyText] [(171, 205), (1, 2)]
  refine ⟨htotal (by decide) (by decide), hback _ ⟨[], _, _, [(1, 2)]⟩ ?_ ?_ _ (List.Perm.refl _)⟩
  · decide
  · decide

end FirewallLLM.Dlp
