import FirewallLLM.Program

/-! # Programs under a monitor

A monitor reads a log entry by entry and may refuse one.  `tell` says what an operation adds to
the log when it is answered.  A program obeys the monitor if, whatever it is answered, nothing
that it adds is refused.

`Obeys.bind` sequences such programs, and `invariant_of_foldlM` is the rule for what a log that
is not refused has. -/

namespace Program

variable {E ε σ : Type} {R : E → Type} {α β : Type}

/-- From the state `s` on, nothing that the program adds to the log is refused, and it ends in
a state and with a value as `Q` allows. -/
def Obeys (enter : σ → ε → Option σ) (tell : (e : E) → R e → List ε) (Q : σ → α → Prop) :
    Program E R α → σ → Prop
  | ret a, s => Q s a
  | op e k, s => ∀ r, ∃ s', (tell e r).foldlM enter s = some s' ∧ (k r).Obeys enter tell Q s'

variable {enter : σ → ε → Option σ} {tell : (e : E) → R e → List ε} {Q : σ → α → Prop}

@[simp] theorem obeys_ret (a : α) (s : σ) :
    (ret a : Program E R α).Obeys enter tell Q s ↔ Q s a := Iff.rfl

@[simp] theorem obeys_op (e : E) (k : R e → Program E R α) (s : σ) :
    (op e k).Obeys enter tell Q s ↔
      ∀ r, ∃ s', (tell e r).foldlM enter s = some s' ∧ (k r).Obeys enter tell Q s' := Iff.rfl

theorem foldlM_single {s s' : σ} {entry : ε} (h : enter s entry = some s') :
    [entry].foldlM enter s = some s' := by
  rw [List.foldlM_cons, h]
  rfl

theorem Obeys.bind {Q' : σ → β → Prop} {p : Program E R α} {f : α → Program E R β} {s : σ}
    (hp : p.Obeys enter tell Q s) (hf : ∀ s a, Q s a → (f a).Obeys enter tell Q' s) :
    (p >>= f).Obeys enter tell Q' s := by
  induction p generalizing s with
  | ret a => exact hf s a hp
  | op e k ih =>
      intro r
      obtain ⟨s', hs', hk⟩ := hp r
      exact ⟨s', hs', ih r hk⟩

/-- What every accepted entry keeps of the log and the state. -/
theorem invariant_of_foldlM {I : List ε → σ → Prop}
    (hstep : ∀ log s e s', I log s → enter s e = some s' → I (log ++ [e]) s') {log : List ε}
    {s : σ} (hs : I [] s) {s' : σ} (h : log.foldlM enter s = some s') : I log s' := by
  have hgo : ∀ rest log s, I log s → rest.foldlM enter s = some s' → I (log ++ rest) s' := by
    intro rest
    induction rest with
    | nil =>
        intro log s hs h
        rw [List.append_nil]
        obtain rfl : s = s' := Option.some.inj h
        exact hs
    | cons e rest ih =>
        intro log s hs h
        rw [List.foldlM_cons] at h
        obtain ⟨s₁, he, hrest⟩ := Option.bind_eq_some_iff.mp h
        have := ih (log ++ [e]) s₁ (hstep log s e s₁ hs he) hrest
        rwa [List.append_assoc] at this
  exact hgo log [] s hs h

/-- Every entry of a log that is not refused was accepted at its place. -/
theorem accepted_of_foldlM {pre post : List ε} {e : ε} {s s' : σ}
    (h : (pre ++ e :: post).foldlM enter s = some s') :
    ∃ s₀ s₁, pre.foldlM enter s = some s₀ ∧ enter s₀ e = some s₁ ∧
      post.foldlM enter s₁ = some s' := by
  rw [List.foldlM_append] at h
  obtain ⟨s₀, hpre, hrest⟩ := Option.bind_eq_some_iff.mp h
  rw [List.foldlM_cons] at hrest
  obtain ⟨s₁, he, hpost⟩ := Option.bind_eq_some_iff.mp hrest
  exact ⟨s₀, s₁, hpre, he, hpost⟩

theorem foldlM_tell {log : List ε} {e : E} {r : R e} {s₀ s s' : σ}
    (hlog : log.foldlM enter s₀ = some s) (htell : (tell e r).foldlM enter s = some s') :
    (log ++ tell e r).foldlM enter s₀ = some s' := by
  rw [List.foldlM_append, hlog]
  exact htell

end Program
