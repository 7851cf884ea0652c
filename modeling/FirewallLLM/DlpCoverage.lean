import FirewallLLM.DlpRoundTrip

/-! # What masking writes over

`sanitize` writes tokens over the matches that it accepts (`sanitize_masked`).  A match that is
not accepted overlaps an accepted one (`accepted_covers`), so that a token stands where at least a
part of every match was (`Masked.marked`).

Matches have no brackets and every token has one, so that the number of `[` tells a text from
its masked form (`marked_self_iff`, `sanitize_eq_self_iff`).  This is what the block mode of
the chain relies on. -/

namespace FirewallLLM.Dlp

/-- Matches are not empty and have no `[`; no pattern of the profile admits one. -/
structure Patterns.Plain (p : Patterns) : Prop where
  nonempty : ∀ d text m, m ∈ p.findIter d text → m.1 < m.2
  unbracketed : ∀ d text m, m ∈ p.findIter d text → '[' ∉ (text.take m.2).drop m.1

theorem Patterns.Plain.hit {p : Patterns} (hp : p.Plain) {text : Text} {h : Hit}
    (hm : h ∈ hits p text) :
    h.start < h.stop ∧ '[' ∉ (text.take h.stop).drop h.start := by
  obtain ⟨⟨d, order⟩, -, hd⟩ := List.mem_flatMap.mp hm
  obtain ⟨m, hspan, rfl⟩ := List.mem_map.mp hd
  exact ⟨hp.nonempty d text m hspan, hp.unbracketed d text m hspan⟩

/-- A detector matches in the text. -/
def HasMatch (p : Patterns) (text : Text) : Prop := hits p text ≠ []

instance (p : Patterns) (text : Text) : Decidable (HasMatch p text) :=
  inferInstanceAs (Decidable (hits p text ≠ []))

/-- Write texts over some spans, back to front. -/
def overwrite (text : Text) (S : List (Hit × Text)) : Text :=
  S.foldr (fun s out => out.take s.1.start ++ s.2 ++ out.drop s.1.stop) text

/-- `out` is `text` with tokens over some matches. -/
structure Written (p : Patterns) (text out : Text) (S : List (Hit × Text)) : Prop where
  inOrder : InOrder text.length 0 (S.map Prod.fst)
  hit : ∀ s ∈ S, s.1 ∈ hits p text
  token : ∀ s ∈ S, IsToken s.2
  eq : overwrite text S = out

/-- `out` is `text` with tokens over the accepted matches. -/
def Masked (p : Patterns) (text out : Text) : Prop :=
  ∃ S, S.map Prod.fst = accepted p text ∧ Written p text out S

/-- A token stands in `out` over a part of every match of `text`, though perhaps not over all of
it. -/
def Marked (p : Patterns) (text out : Text) : Prop :=
  ∃ S, Written p text out S ∧
    ∀ h ∈ hits p text, ∃ s ∈ S, s.1.start < h.stop ∧ h.start < s.1.stop

/-! ### Accepted matches touch all matches -/

/-- A match that is not accepted overlaps an accepted one or begins before `lastEnd`. -/
theorem accept_covers {hs : List Hit} (hne : ∀ h ∈ hs, h.start < h.stop)
    (hsorted : hs.Pairwise (fun g h => g.start ≤ h.start)) (lastEnd : ℕ) :
    ∀ h ∈ hs, h.start < lastEnd ∨
      ∃ g ∈ accept lastEnd hs, g.start < h.stop ∧ h.start < g.stop := by
  induction hs generalizing lastEnd with
  | nil => intro h hm; cases hm
  | cons g hs ih =>
      obtain ⟨hfirst, hrest⟩ := List.pairwise_cons.mp hsorted
      have hne' : ∀ h ∈ hs, h.start < h.stop := fun h hm => hne h (List.mem_cons_of_mem _ hm)
      have hg := hne g List.mem_cons_self
      intro h hm
      rw [accept]
      split_ifs with hge
      · right
        rcases List.mem_cons.mp hm with heq | hm'
        · exact ⟨g, List.mem_cons_self, by rw [heq]; exact ⟨hg, hg⟩⟩
        · rcases ih hne' hrest g.stop h hm' with hlt | ⟨g', hg', hover⟩
          · have h1 := hfirst h hm'
            have h2 := hne' h hm'
            exact ⟨g, List.mem_cons_self, by omega, hlt⟩
          · exact ⟨g', List.mem_cons_of_mem _ hg', hover⟩
      · rcases List.mem_cons.mp hm with heq | hm'
        · left
          rw [heq]
          omega
        · exact ih hne' hrest lastEnd h hm'

theorem Hit.le_trans {a b c : Hit} (hab : a.le b) (hbc : b.le c) : a.le c := by
  unfold Hit.le at *
  omega

theorem Hit.le_total (a b : Hit) : a.le b ∨ b.le a := by
  unfold Hit.le
  omega

theorem accepted_covers {p : Patterns} (hp : p.Plain) (text : Text) :
    ∀ h ∈ hits p text, ∃ g ∈ accepted p text, g.start < h.stop ∧ h.start < g.stop := by
  intro h hm
  have := (⟨fun _ _ _ => Hit.le_trans⟩ : IsTrans Hit Hit.le)
  have := (⟨Hit.le_total⟩ : Std.Total Hit.le)
  have hsorted : ((hits p text).insertionSort Hit.le).Pairwise (fun g h => g.start ≤ h.start) := by
    refine (List.pairwise_insertionSort Hit.le (hits p text)).imp ?_
    intro g h hle
    unfold Hit.le at hle
    omega
  have hne : ∀ h ∈ (hits p text).insertionSort Hit.le, h.start < h.stop := fun h hm =>
    (hp.hit ((List.mem_insertionSort Hit.le).mp hm)).1
  rcases accept_covers hne hsorted 0 h ((List.mem_insertionSort Hit.le).mpr hm) with hlt | hover
  · omega
  · exact hover

/-! ### Masking overwrites the accepted matches -/

/-- Keys have the form of tokens. -/
def Vault.Tokens (vault : Vault) : Prop := ∀ e ∈ vault, IsToken e.1

theorem tokenOf_token {ord : VaultOrder} {d : Detector} {val token : Text} {st st' : Masking}
    (hst : st.vault.Tokens) (h : tokenOf ord d.typ val st = some (token, st')) :
    IsToken token ∧ st'.vault.Tokens ∧ st'.out = st.out := by
  unfold tokenOf at h
  cases hfind : (ord.iter st.vault).find? (fun e => e.2 = val) with
  | some e =>
      rw [hfind] at h
      obtain ⟨rfl, rfl⟩ := Prod.mk.inj (Option.some.inj h)
      have hmem := (ord.perm st.vault).mem_iff.mp (List.mem_of_find?_eq_some hfind)
      exact ⟨hst e hmem, hst, rfl⟩
  | none =>
      rw [hfind] at h
      obtain ⟨⟨t, draws⟩, hnew, heq⟩ := Option.map_eq_some_iff.mp h
      obtain ⟨rfl, rfl⟩ := Prod.mk.inj heq
      obtain ⟨-, draw, rfl⟩ := newToken_spec hnew
      have ht := isToken_formatToken d draw
      refine ⟨ht, ?_, rfl⟩
      intro e he
      rcases List.mem_append.mp he with he' | he'
      · exact hst e he'
      · rw [List.mem_singleton.mp he']
        exact ht

theorem maskHits_overwrite {ord : VaultOrder} {hs : List Hit} {st st' : Masking}
    (hst : st.vault.Tokens) (htyp : ∀ h ∈ hs, ∃ d : Detector, h.typ = d.typ)
    (hrun : hs.foldrM (fun h st => maskHit ord st h) st = some st') :
    st'.vault.Tokens ∧ ∃ S : List (Hit × Text), S.map Prod.fst = hs ∧
      (∀ s ∈ S, IsToken s.2) ∧ overwrite st.out S = st'.out := by
  induction hs generalizing st' with
  | nil =>
      obtain rfl := Option.some.inj hrun
      exact ⟨hst, [], rfl, by simp, rfl⟩
  | cons h hs ih =>
      rw [List.foldrM_cons] at hrun
      obtain ⟨st₁, hrun₁, hm⟩ := Option.bind_eq_some_iff.mp hrun
      obtain ⟨hst₁, S, hS, htokens, hout⟩ :=
        ih (fun g hg => htyp g (List.mem_cons_of_mem _ hg)) hrun₁
      obtain ⟨d, hd⟩ := htyp h List.mem_cons_self
      unfold maskHit at hm
      rw [hd] at hm
      obtain ⟨⟨token, st₂⟩, htok, heq⟩ := Option.map_eq_some_iff.mp hm
      obtain ⟨htoken, hst₂, hout₂⟩ := tokenOf_token hst₁ htok
      subst heq
      refine ⟨hst₂, (h, token) :: S, by rw [List.map_cons, hS], ?_, ?_⟩
      · intro s hs'
        rcases List.mem_cons.mp hs' with heq | hs'
        · rw [heq]
          exact htoken
        · exact htokens s hs'
      · dsimp only
        rw [hout₂, ← hout]
        rfl

/-- **`sanitize` writes tokens over the accepted matches.** -/
theorem sanitize_masked {p : Patterns} {ord : VaultOrder} {text : Text} {vault : Vault}
    {scope : Scope} {draws : List (UInt64 × UInt64)} {st : Masking} (hvault : vault.Tokens)
    (h : sanitize p ord text vault scope draws = some st) :
    st.vault.Tokens ∧ Masked p text st.out := by
  rw [sanitize, List.foldlM_reverse] at h
  obtain ⟨htokens, S, hS, htoken, hout⟩ := maskHits_overwrite hvault
    (fun h hm => (mem_hits (mem_accepted hm)).1) h
  refine ⟨htokens, S, hS, ?_, ?_, htoken, hout⟩
  · rw [hS]
    exact inOrder_accepted p text
  · intro s hs
    apply mem_accepted
    rw [← hS]
    exact List.mem_map_of_mem hs

theorem Masked.marked {p : Patterns} (hp : p.Plain) {text out : Text} (h : Masked p text out) :
    Marked p text out := by
  obtain ⟨S, hS, hwritten⟩ := h
  refine ⟨S, hwritten, fun h hm => ?_⟩
  obtain ⟨g, hg, hover⟩ := accepted_covers hp text h hm
  rw [← hS] at hg
  obtain ⟨s, hs, rfl⟩ := List.mem_map.mp hg
  exact ⟨s, hs, hover⟩

/-! ### Counting brackets -/

theorem IsToken.count_bracket {t : Text} (h : IsToken t) : t.count '[' = 1 := by
  obtain ⟨body, rfl, -, hchars⟩ := h.body
  have hbody : '[' ∉ body := fun hm => (not_bracket_of_isTokenChar (hchars _ hm)).1 rfl
  rw [List.count_cons_self, List.count_append, List.count_eq_zero.mpr hbody]
  rfl

theorem take_overwrite {text : Text} {S : List (Hit × Text)} {lo : ℕ}
    (horder : InOrder text.length lo (S.map Prod.fst)) :
    (overwrite text S).take lo = text.take lo := by
  induction S generalizing lo with
  | nil => rfl
  | cons s S ih =>
      obtain ⟨hlo, hle, hstop, hrest⟩ := horder
      have hfront := congrArg (List.take s.1.start) (ih hrest)
      rw [List.take_take, List.take_take, Nat.min_eq_left hle] at hfront
      have hlen : (text.take s.1.start).length = s.1.start := by
        rw [List.length_take]; omega
      change ((overwrite text S).take s.1.start ++ s.2 ++ (overwrite text S).drop s.1.stop).take lo
        = text.take lo
      rw [hfront, List.append_assoc, List.take_append_of_le_length (by omega), List.take_take,
        Nat.min_eq_left hlo]

/-- Every token adds a bracket. -/
theorem count_overwrite {text : Text} {S : List (Hit × Text)} {lo : ℕ}
    (horder : InOrder text.length lo (S.map Prod.fst)) (htoken : ∀ s ∈ S, IsToken s.2)
    (hplain : ∀ s ∈ S, '[' ∉ (text.take s.1.stop).drop s.1.start) :
    (overwrite text S).count '[' = text.count '[' + S.length := by
  induction S generalizing lo with
  | nil => rfl
  | cons s S ih =>
      obtain ⟨hlo, hle, hstop, hrest⟩ := horder
      have hcount := ih hrest (fun g hg => htoken g (List.mem_cons_of_mem _ hg))
        (fun g hg => hplain g (List.mem_cons_of_mem _ hg))
      set out := overwrite text S with hout
      -- what is overwritten reads the original text
      have hspan : (out.take s.1.stop).drop s.1.start = (text.take s.1.stop).drop s.1.start := by
        rw [hout, take_overwrite hrest]
      have hzero : ((out.take s.1.stop).drop s.1.start).count '[' = 0 := by
        rw [hspan]
        exact List.count_eq_zero.mpr (hplain s List.mem_cons_self)
      have hsplit : out.count '[' = (out.take s.1.start).count '[' +
          ((out.take s.1.stop).drop s.1.start).count '[' + (out.drop s.1.stop).count '[' := by
        have h1 : out.take s.1.stop = out.take s.1.start ++ (out.take s.1.stop).drop s.1.start := by
          conv_lhs => rw [← List.take_append_drop s.1.start (out.take s.1.stop)]
          rw [List.take_take, Nat.min_eq_left hle]
        conv_lhs => rw [← List.take_append_drop s.1.stop out, List.count_append, h1,
          List.count_append]
      change (out.take s.1.start ++ s.2 ++ out.drop s.1.stop).count '[' = _
      rw [List.count_append, List.count_append, (htoken s List.mem_cons_self).count_bracket,
        List.length_cons]
      omega

theorem Written.eq_nil {p : Patterns} (hp : p.Plain) {text : Text} {S : List (Hit × Text)}
    (h : Written p text text S) : S = [] := by
  have hcount := count_overwrite h.inOrder h.token (fun s hs => (hp.hit (h.hit s hs)).2)
  rw [h.eq] at hcount
  exact List.eq_nil_of_length_eq_zero (by omega)

theorem accepted_of_not_hasMatch {p : Patterns} {text : Text} (h : ¬ HasMatch p text) :
    accepted p text = [] := by
  rw [accepted, not_not.mp h]
  rfl

/-- In a text that is left as it is no match is overwritten. -/
theorem marked_self_iff {p : Patterns} (hp : p.Plain) (text : Text) :
    Marked p text text ↔ ¬ HasMatch p text := by
  constructor
  · rintro ⟨S, hS, hcovers⟩ hmatch
    obtain ⟨h, hm⟩ := List.exists_mem_of_ne_nil _ hmatch
    obtain ⟨s, hs, -⟩ := hcovers h hm
    rw [hS.eq_nil hp] at hs
    cases hs
  · intro hnone
    have hnil : hits p text = [] := not_not.mp hnone
    exact ⟨[], ⟨trivial, by simp, by simp, rfl⟩, by simp [hnil]⟩

/-- `sanitize` leaves a text as it is exactly when no detector matches. -/
theorem sanitize_eq_self_iff {p : Patterns} (hp : p.Plain) {ord : VaultOrder} {text : Text}
    {vault : Vault} {scope : Scope} {draws : List (UInt64 × UInt64)} {st : Masking}
    (hvault : vault.Tokens) (h : sanitize p ord text vault scope draws = some st) :
    st.out = text ↔ ¬ HasMatch p text := by
  constructor
  · intro heq
    have hmarked := (sanitize_masked hvault h).2.marked hp
    rw [heq] at hmarked
    exact (marked_self_iff hp text).mp hmarked
  · intro hnone
    rw [sanitize, accepted_of_not_hasMatch hnone] at h
    exact congrArg Masking.out (Option.some.inj h).symm

end FirewallLLM.Dlp
