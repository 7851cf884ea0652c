import FirewallLLM.DlpCoverage
import FirewallLLM.Spans

/-! # Matches that stick out

`sanitize` replaces the matches that its greedy selection accepts.  A match that starts inside an
accepted one is dropped, and what of it lies behind the accepted one is left in the text.
`no_leak_iff` says which texts lose every character of every match, and `Hidden` is a text after
that. -/

namespace FirewallLLM.Dlp

/-- What `find_iter` promises: the matches of a detector come one behind the other.  None of the
patterns matches the empty text. -/
structure Patterns.Iterates (p : Patterns) : Prop where
  nonempty : ∀ d text m, m ∈ p.findIter d text → m.1 < m.2
  disjoint : ∀ d text, (p.findIter d text).Pairwise (fun a b => a.2 ≤ b.1)

/-- The position lies in the match. -/
abbrev Hit.Inside (x : ℕ) (h : Hit) : Prop := Spans.Inside Hit.start Hit.stop x h

/-- Every position in a match lies in one that is replaced. -/
def NoLeak (p : Patterns) (text : Text) : Prop :=
  ∀ x, (∃ h ∈ hits p text, h.Inside x) → ∃ a ∈ accepted p text, a.Inside x

/-- `out` is `text` with tokens over the accepted matches, and no character of any match is outside
of these. -/
def Hidden (p : Patterns) (text out : Text) : Prop := Masked p text out ∧ NoLeak p text

/-- The places that the matches lead to from the left: from each on to the end of the first match
that starts there or later, by start and then by profile order. -/
abbrev Cut (p : Patterns) (text : Text) : ℕ → Prop :=
  Spans.Cut Hit.start Hit.stop Hit.le (hits p text) 0

/-- A match that reaches over such a place meets one that starts there. -/
def Tidy (p : Patterns) (text : Text) : Prop :=
  ∀ e, Cut p text e → ∀ h ∈ hits p text, h.start < e → e < h.stop →
    ∃ m ∈ hits p text, m.start = e

theorem accept_eq_select (e : ℕ) (hs : List Hit) :
    accept e hs = Spans.select Hit.start Hit.stop e hs := by
  induction hs generalizing e with
  | nil => rfl
  | cons h hs ih => simp only [accept, Spans.select, ih, ge_iff_le]

/-- Two matches with one key are the same match. -/
theorem Hit.le_antisymm {p : Patterns} (hp : p.Iterates) {text : Text} {g h : Hit}
    (hg : g ∈ hits p text) (hh : h ∈ hits p text) (hgh : g.le h) (hhg : h.le g) : g = h := by
  have hkey : g.start = h.start ∧ g.order = h.order := by
    unfold Hit.le at hgh hhg
    omega
  obtain ⟨⟨d, order⟩, hd, hm⟩ := List.mem_flatMap.mp hg
  obtain ⟨⟨d', order'⟩, hd', hm'⟩ := List.mem_flatMap.mp hh
  obtain ⟨m, hspan, rfl⟩ := List.mem_map.mp hm
  obtain ⟨m', hspan', rfl⟩ := List.mem_map.mp hm'
  obtain ⟨hstart, rfl⟩ := hkey
  have hsame : d = d' := by
    have h1 := List.mem_zipIdx_iff_getElem?.mp hd
    have h2 := List.mem_zipIdx_iff_getElem?.mp hd'
    exact Option.some.inj (h1.symm.trans h2)
  subst hsame
  have heq : m = m' := by
    by_contra hne
    have hne1 := hp.nonempty d text m hspan
    have hne2 := hp.nonempty d text m' hspan'
    dsimp only at hstart
    have hsymm : Std.Symm (fun a b : ℕ × ℕ => a.2 ≤ b.1 ∨ b.2 ≤ a.1) := ⟨fun _ _ => Or.symm⟩
    have hapart : (p.findIter d text).Pairwise (fun a b => a.2 ≤ b.1 ∨ b.2 ≤ a.1) :=
      (hp.disjoint d text).imp Or.inl
    rcases hapart.forall hspan hspan' hne with hle | hle <;> omega
  rw [heq]

theorem sorted_hits {p : Patterns} (hp : p.Iterates) (text : Text) :
    Spans.Sorted Hit.start Hit.stop Hit.le ((hits p text).insertionSort Hit.le) := by
  have := (⟨fun _ _ _ => Hit.le_trans⟩ : IsTrans Hit Hit.le)
  have := (⟨Hit.le_total⟩ : Std.Total Hit.le)
  have hmem : ∀ {h}, h ∈ (hits p text).insertionSort Hit.le → h ∈ hits p text :=
    (List.mem_insertionSort Hit.le).mp
  refine ⟨List.pairwise_insertionSort Hit.le (hits p text), fun h _ => ?_,
    fun g hg h hh => Hit.le_antisymm hp (hmem hg) (hmem hh), fun g h hle => ?_, fun h hh => ?_⟩
  · exact .inr ⟨rfl, le_rfl⟩
  · unfold Hit.le at hle
    omega
  · obtain ⟨⟨d, order⟩, -, hd⟩ := List.mem_flatMap.mp (hmem hh)
    obtain ⟨m, hspan, rfl⟩ := List.mem_map.mp hd
    exact hp.nonempty d text m hspan

theorem cut_sorted_iff {p : Patterns} {text : Text} {e : ℕ} :
    Spans.Cut Hit.start Hit.stop Hit.le ((hits p text).insertionSort Hit.le) 0 e ↔
      Cut p text e := by
  have hfirst : ∀ {e : ℕ} {h : Hit},
      Spans.First Hit.start Hit.le ((hits p text).insertionSort Hit.le) e h ↔
        Spans.First Hit.start Hit.le (hits p text) e h := by
    intro e h
    constructor
    · rintro ⟨hm, hafter, hleast⟩
      exact ⟨(List.mem_insertionSort _).mp hm, hafter, fun g hg =>
        hleast g ((List.mem_insertionSort _).mpr hg)⟩
    · rintro ⟨hm, hafter, hleast⟩
      exact ⟨(List.mem_insertionSort _).mpr hm, hafter, fun g hg =>
        hleast g ((List.mem_insertionSort _).mp hg)⟩
  constructor
  · intro h
    induction h with
    | start => exact .start
    | next _ hf ih => exact .next ih (hfirst.mp hf)
  · intro h
    induction h with
    | start => exact .start
    | next _ hf ih => exact .next ih (hfirst.mpr hf)

/-- The accepted matches cover all matches exactly in a tidy text. -/
theorem noLeak_iff_tidy {p : Patterns} (hp : p.Iterates) (text : Text) :
    NoLeak p text ↔ Tidy p text := by
  have hcover := Spans.covered_iff (sorted_hits hp text) (fun h _ => Nat.zero_le h.start)
  simp only [List.mem_insertionSort, cut_sorted_iff, ← accept_eq_select] at hcover
  exact hcover

theorem hidden_self_iff {p : Patterns} (hp : p.Plain) (text : Text) :
    Hidden p text text ↔ ¬ HasMatch p text := by
  constructor
  · rintro ⟨hmasked, -⟩
    exact (marked_self_iff hp text).mp (hmasked.marked hp)
  · intro hnone
    refine ⟨⟨[], (accepted_of_not_hasMatch hnone).symm, trivial, by simp, by simp, rfl⟩, ?_⟩
    rintro x ⟨h, hm, -⟩
    rw [not_not.mp hnone] at hm
    cases hm

/-- **`sanitize` writes tokens over the accepted matches, and these cover all matches exactly when
no match sticks out of the place where an accepted one ends, unless another starts there.** -/
theorem no_leak_iff {p : Patterns} (hp : p.Iterates) (text : Text) :
    (∀ {ord : VaultOrder} {vault : Vault} {scope : Scope} {draws : List (UInt64 × UInt64)}
      {st : Masking}, vault.Tokens → sanitize p ord text vault scope draws = some st →
      ∃ S : List (Hit × Text), S.map Prod.fst = accepted p text ∧ overwrite text S = st.out) ∧
    (NoLeak p text ↔ Tidy p text) := by
  refine ⟨fun hvault h => ?_, noLeak_iff_tidy hp text⟩
  obtain ⟨-, S, hS, hwritten⟩ := sanitize_masked hvault h
  exact ⟨S, hS, hwritten.eq⟩

/-! ### An address in front of an underscore -/

/-- The domain of the address ends at the underscore, the handle does not. -/
def handleText : Text := "a@b.co_secret".toList

/-- What the patterns find in `handleText`. -/
def handlePatterns : Patterns where
  findIter d text :=
    if text = handleText then
      match d with
      | .email => [(0, 6)]
      | .socialHandle => [(1, 13)]
      | _ => []
    else []
  bounds d text m h := by
    split_ifs at h with ht
    · subst ht
      cases d <;> simp only [List.mem_singleton, List.not_mem_nil] at h <;> subst h <;> decide
    · cases h

theorem iterates_of_single {p : Patterns} (h : ∀ d text, (p.findIter d text).length ≤ 1 ∧
    ∀ m ∈ p.findIter d text, m.1 < m.2) : p.Iterates := by
  refine ⟨fun d text => (h d text).2, fun d text => ?_⟩
  cases hms : p.findIter d text with
  | nil => exact List.Pairwise.nil
  | cons m ms =>
      have hlen := (h d text).1
      rw [hms, List.length_cons] at hlen
      rw [List.length_eq_zero_iff.mp (Nat.le_zero.mp (Nat.le_of_succ_le_succ hlen))]
      exact List.pairwise_singleton _ m

theorem handlePatterns_iterates : handlePatterns.Iterates := by
  refine iterates_of_single fun d text => ?_
  by_cases ht : text = handleText
  · subst ht
    cases d <;> decide
  · have hnil : handlePatterns.findIter d text = [] := if_neg ht
    rw [hnil]
    simp

theorem samplePatterns_iterates : samplePatterns.Iterates := by
  refine iterates_of_single fun d text => ?_
  by_cases ht : text = sampleText
  · subst ht
    cases d <;> decide
  · have hnil : samplePatterns.findIter d text = [] := if_neg ht
    rw [hnil]
    simp

/-- The handle inside an address is covered by it. -/
theorem no_leak_sample :
    (∀ {ord : VaultOrder} {vault : Vault} {scope : Scope} {draws : List (UInt64 × UInt64)}
      {st : Masking}, vault.Tokens →
      sanitize samplePatterns ord sampleText vault scope draws = some st →
      ∃ S : List (Hit × Text), S.map Prod.fst = accepted samplePatterns sampleText ∧
        overwrite sampleText S = st.out) ∧
    (NoLeak samplePatterns sampleText ↔ Tidy samplePatterns sampleText) :=
  no_leak_iff samplePatterns_iterates sampleText

/-- The end of a handle that begins inside an address is left in the text. -/
theorem handle_leaks : ¬ ∀ (p : Patterns), p.Iterates → ∀ text, NoLeak p text := by
  intro h
  have hleak := h handlePatterns handlePatterns_iterates handleText 6
  have haccepted : accepted handlePatterns handleText = [⟨0, 6, 0, Detector.email.typ⟩] := by
    decide
  obtain ⟨a, ha, hin⟩ := hleak ⟨⟨1, 13, 9, Detector.socialHandle.typ⟩, by decide,
    show 1 ≤ 6 ∧ 6 < 13 by decide⟩
  rw [haccepted, List.mem_singleton] at ha
  subst ha
  exact absurd hin.2 (lt_irrefl 6)

end FirewallLLM.Dlp
