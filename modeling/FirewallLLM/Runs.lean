import Mathlib.Logic.Basic

/-! # Properties along a run

A deterministic machine `step : σ → ε → σ` is driven by a list of events.  `Along step P s es`
says that `P` holds of every state and event that the run of `es` from `s` goes through.
`Along.iff_of_invariant` is the rule by which a property of whole runs is reduced to one
step: under an invariant, the legal steps with the property are those that meet a condition,
and these keep the invariant. -/

namespace Runs

variable {σ ε : Type} (step : σ → ε → σ)

/-- `P` holds of every state and event of the run of `es` from `s`. -/
def Along (P : σ → ε → Prop) : σ → List ε → Prop
  | _, [] => True
  | s, e :: es => P s e ∧ Along P (step s e) es

instance decidableAlong {P : σ → ε → Prop} [∀ s e, Decidable (P s e)] :
    (s : σ) → (es : List ε) → Decidable (Along step P s es)
  | _, [] => inferInstanceAs (Decidable True)
  | s, e :: es =>
      have : Decidable (Along step P (step s e) es) := decidableAlong _ es
      inferInstanceAs (Decidable (P s e ∧ Along step P (step s e) es))

/-- `P` holds of some state and event of the run of `es` from `s`. -/
def Sometime (P : σ → ε → Prop) : σ → List ε → Prop
  | _, [] => False
  | s, e :: es => P s e ∨ Sometime P (step s e) es

instance decidableSometime {P : σ → ε → Prop} [∀ s e, Decidable (P s e)] :
    (s : σ) → (es : List ε) → Decidable (Sometime step P s es)
  | _, [] => inferInstanceAs (Decidable False)
  | s, e :: es =>
      have : Decidable (Sometime step P (step s e) es) := decidableSometime _ es
      inferInstanceAs (Decidable (P s e ∨ Sometime step P (step s e) es))

/-- How many events of the run of `es` from `s` have `p`. -/
def tally (p : σ → ε → Bool) : σ → List ε → Nat
  | _, [] => 0
  | s, e :: es => (p s e).toNat + tally p (step s e) es

/-- The state a run ends in. -/
def final (s : σ) (es : List ε) : σ := es.foldl step s

variable {step} {P Q Legal : σ → ε → Prop} {I : σ → Prop}

@[simp] theorem along_nil (s : σ) : Along step P s [] ↔ True := Iff.rfl

@[simp] theorem along_cons (s : σ) (e : ε) (es : List ε) :
    Along step P s (e :: es) ↔ P s e ∧ Along step P (step s e) es := Iff.rfl

@[simp] theorem final_nil (s : σ) : final step s [] = s := rfl

@[simp] theorem final_cons (s : σ) (e : ε) (es : List ε) :
    final step s (e :: es) = final step (step s e) es := rfl

theorem final_append (s : σ) (es es' : List ε) :
    final step s (es ++ es') = final step (final step s es) es' := by
  unfold final
  rw [List.foldl_append]

theorem along_append (s : σ) (es es' : List ε) :
    Along step P s (es ++ es') ↔ Along step P s es ∧ Along step P (final step s es) es' := by
  induction es generalizing s with
  | nil => simp
  | cons e es ih => rw [List.cons_append, along_cons, along_cons, ih, final_cons, and_assoc]

theorem tally_pos {p : σ → ε → Bool} {s : σ} {es : List ε} :
    0 < tally step p s es ↔ Sometime step (fun s e => p s e = true) s es := by
  induction es generalizing s with
  | nil => simp [tally, Sometime]
  | cons e es ih =>
      rw [tally, Sometime, Nat.add_pos_iff_pos_or_pos, ih]
      cases p s e <;> simp

/-- A run without `P` has a first step without `P`. -/
theorem exists_of_not_along {s : σ} {es : List ε} (h : ¬ Along step P s es) :
    ∃ pre e post, es = pre ++ e :: post ∧ ¬ P (final step s pre) e := by
  induction es generalizing s with
  | nil => exact absurd trivial h
  | cons e es ih =>
      by_cases he : P s e
      · obtain ⟨pre, e', post, rfl, hne⟩ := ih (fun hrest => h ⟨he, hrest⟩)
        exact ⟨e :: pre, e', post, rfl, hne⟩
      · exact ⟨[], e, es, rfl, he⟩

/-- A property that follows at every step from an invariant, kept by the steps with `Q`. -/
theorem Along.of_invariant (hstep : ∀ s e, I s → Q s e → P s e ∧ I (step s e)) {s : σ}
    (hs : I s) {es : List ε} (h : Along step Q s es) : Along step P s es := by
  induction es generalizing s with
  | nil => trivial
  | cons e es ih =>
      obtain ⟨hq, hrest⟩ := h
      obtain ⟨hp, hinv⟩ := hstep s e hs hq
      exact ⟨hp, ih hinv hrest⟩

theorem along_and (s : σ) (es : List ε) :
    Along step (fun s e => P s e ∧ Q s e) s es ↔ Along step P s es ∧ Along step Q s es := by
  induction es generalizing s with
  | nil => simp
  | cons e es ih =>
      rw [along_cons, along_cons, along_cons, ih]
      exact and_and_and_comm

theorem Along.mono {s : σ} {es : List ε} (h : Along step P s es) (hpq : ∀ s e, P s e → Q s e) :
    Along step Q s es := by
  induction es generalizing s with
  | nil => trivial
  | cons e es ih => exact ⟨hpq s e h.1, ih h.2⟩

theorem along_of_forall {R : ε → Prop} (s : σ) {es : List ε} (h : ∀ e ∈ es, R e) :
    Along step (fun _ e => R e) s es := by
  induction es generalizing s with
  | nil => trivial
  | cons e es ih =>
      obtain ⟨he, hrest⟩ := List.forall_mem_cons.mp h
      exact ⟨he, ih (step s e) hrest⟩

theorem Along.forall {R : ε → Prop} {s : σ} {es : List ε} (h : Along step (fun _ e => R e) s es) :
    ∀ e ∈ es, R e := by
  induction es generalizing s with
  | nil => exact List.forall_mem_nil R
  | cons e es ih => exact List.forall_mem_cons.mpr ⟨h.1, ih h.2⟩

/-- An invariant that the steps with `Q` keep holds at the end of a run of such steps. -/
theorem final_invariant (hstep : ∀ s e, I s → Q s e → I (step s e)) {s : σ} (hs : I s)
    {es : List ε} (h : Along step Q s es) : I (final step s es) := by
  induction es generalizing s with
  | nil => exact hs
  | cons e es ih => exact ih (hstep s e hs h.1) h.2

/-- A property that no step brings about holds at the start if it holds at the end. -/
theorem of_final {G : σ → Prop} (hback : ∀ s e, G (step s e) → G s) {s : σ} {es : List ε}
    (h : G (final step s es)) : G s := by
  induction es generalizing s with
  | nil => exact h
  | cons e es ih => exact hback s e (ih h)

/-- An invariant that is kept where a property holds after the step, which no step brings
about. -/
theorem final_invariant_of_final {G : σ → Prop} (hback : ∀ s e, G (step s e) → G s)
    (hstep : ∀ s e, I s → G (step s e) → I (step s e)) {s : σ} (hs : I s) {es : List ε}
    (h : G (final step s es)) : I (final step s es) := by
  induction es generalizing s with
  | nil => exact hs
  | cons e es ih => exact ih (hstep s e hs (of_final hback h)) h

/-- A property holds in every state of a run exactly if it holds at the start and after every
step. -/
theorem forall_prefix_iff {P : σ → Prop} {s : σ} {es : List ε} :
    (∀ pre, pre <+: es → P (final step s pre)) ↔
      P s ∧ Along step (fun s e => P (step s e)) s es := by
  induction es generalizing s with
  | nil =>
      constructor
      · intro h
        exact ⟨h [] List.prefix_rfl, trivial⟩
      · rintro ⟨h, -⟩ pre hpre
        rw [List.prefix_nil.mp hpre]
        exact h
  | cons e es ih =>
      constructor
      · intro h
        obtain ⟨he, hrest⟩ := ih.mp fun pre hpre =>
          h (e :: pre) (List.cons_prefix_cons.mpr ⟨rfl, hpre⟩)
        exact ⟨h [] List.nil_prefix, he, hrest⟩
      · rintro ⟨h, he, hrest⟩ pre hpre
        cases pre with
        | nil => exact h
        | cons e' pre =>
            obtain ⟨rfl, htail⟩ := List.cons_prefix_cons.mp hpre
            exact ih.mpr ⟨he, hrest⟩ pre htail

/-- A machine whose steps, read by `f` and `g`, are those of another one ends where that one ends.
The steps are those with `P` there, and they keep an invariant of this machine. -/
theorem final_map {τ δ : Type} {step' : τ → δ → τ} {P : τ → δ → Prop} {f : σ → τ} {g : ε → δ}
    (hsim : ∀ s e, I s → P (f s) (g e) → f (step s e) = step' (f s) (g e) ∧ I (step s e)) {s : σ}
    (hs : I s) {es : List ε} (h : Along step' P (f s) (es.map g)) :
    f (final step s es) = final step' (f s) (es.map g) := by
  induction es generalizing s with
  | nil => rfl
  | cons e es ih =>
      obtain ⟨he, hrest⟩ := h
      obtain ⟨hstep, hinv⟩ := hsim s e hs he
      rw [← hstep] at hrest
      rw [final_cons, ih hinv hrest, hstep]
      rfl

/-- What holds along the run of such a machine holds along the run of the other one. -/
theorem Along.map {τ δ : Type} {step' : τ → δ → τ} {P : τ → δ → Prop} {f : σ → τ} {g : ε → δ}
    (hsim : ∀ s e, I s → P (f s) (g e) → f (step s e) = step' (f s) (g e) ∧ I (step s e)) {s : σ}
    (hs : I s) {es : List ε} (h : Along step (fun s e => P (f s) (g e)) s es) :
    Along step' P (f s) (es.map g) := by
  induction es generalizing s with
  | nil => trivial
  | cons e es ih =>
      obtain ⟨he, hrest⟩ := h
      obtain ⟨hstep, hinv⟩ := hsim s e hs he
      refine ⟨he, ?_⟩
      rw [← hstep]
      exact ih hinv hrest

/-- Under an invariant kept by the legal steps that meet `Q`, a run has `P` at every step
exactly when it meets `Q` at every step. -/
theorem Along.iff_of_invariant
    (hiff : ∀ s e, I s → Legal s e → (P s e ↔ Q s e))
    (hkeep : ∀ s e, I s → Legal s e → Q s e → I (step s e)) :
    ∀ (es : List ε) (s : σ), I s → Along step Legal s es →
      (Along step P s es ↔ Along step Q s es)
  | [], _, _, _ => Iff.rfl
  | e :: es, s, hinv, hl => by
      have hpq := hiff s e hinv hl.1
      constructor
      · rintro ⟨hp, hrest⟩
        have hq := hpq.mp hp
        exact ⟨hq, (Along.iff_of_invariant hiff hkeep es _ (hkeep s e hinv hl.1 hq) hl.2).mp hrest⟩
      · rintro ⟨hq, hrest⟩
        exact ⟨hpq.mpr hq,
          (Along.iff_of_invariant hiff hkeep es _ (hkeep s e hinv hl.1 hq) hl.2).mpr hrest⟩

end Runs
