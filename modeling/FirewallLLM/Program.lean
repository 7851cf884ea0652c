import Mathlib.Data.Nat.Notation
import Mathlib.Logic.Basic

/-! # Programs that ask for operations

A program is a tree: it ends with a value, or asks for an operation and goes on with its
result.  Programs are sequenced by `bind`, so that they can be written in `do` notation.  What
an operation does, and whether the program can be abandoned while it waits for it, is up to the
machine that runs the tree.

`Uses` is the rule for what a program may still ask for, and `Meets` the rule that also relies
on what it is answered.  `interp` runs a program on its own over a state, with a handler that
answers every operation or leaves it pending, `exec` with one that answers all of them, and
`abort` runs one of which an operation fails. -/

/-- Programs over the operations `E`, of which `e` has results in `R e`. -/
inductive Program (E : Type) (R : E → Type) (α : Type) : Type where
  | ret (a : α)
  | op (e : E) (k : R e → Program E R α)

namespace Program

variable {E : Type} {R : E → Type} {α β : Type}

/-- Go on with the value a program ends with. -/
def bind : Program E R α → (α → Program E R β) → Program E R β
  | ret a, f => f a
  | op e k, f => op e (fun r => (k r).bind f)

instance : Monad (Program E R) where
  pure := ret
  bind := bind

@[simp] theorem pure_eq (a : α) : (pure a : Program E R α) = ret a := rfl

@[simp] theorem ret_bind (a : α) (f : α → Program E R β) : (ret a >>= f) = f a := rfl

@[simp] theorem op_bind (e : E) (k : R e → Program E R α) (f : α → Program E R β) :
    (op e k >>= f) = op e (fun r => k r >>= f) := rfl

theorem bind_assoc {γ : Type} (p : Program E R α) (f : α → Program E R β)
    (h : β → Program E R γ) : (p.bind f).bind h = p.bind (fun a => (f a).bind h) := by
  induction p with
  | ret a => rfl
  | op e k ih => exact congrArg (op e) (funext ih)

/-- The operation that the program asks for. -/
def next : Program E R α → Option E
  | ret _ => none
  | op e _ => some e

/-- Every operation that the program may still ask for meets `P`. -/
def Uses (P : E → Prop) : Program E R α → Prop
  | ret _ => True
  | op e k => P e ∧ ∀ r, (k r).Uses P

variable {P : E → Prop}

@[simp] theorem uses_ret (a : α) : (ret a : Program E R α).Uses P ↔ True := Iff.rfl

@[simp] theorem uses_op (e : E) (k : R e → Program E R α) :
    (op e k).Uses P ↔ P e ∧ ∀ r, (k r).Uses P := Iff.rfl

theorem Uses.bind {p : Program E R α} {f : α → Program E R β} (hp : p.Uses P)
    (hf : ∀ a, (f a).Uses P) : (p >>= f).Uses P := by
  induction p with
  | ret a => exact hf a
  | op e k ih => exact ⟨hp.1, fun r => ih r (hp.2 r)⟩

theorem Uses.mono {Q : E → Prop} {p : Program E R α} (hp : p.Uses P) (h : ∀ e, P e → Q e) :
    p.Uses Q := by
  induction p with
  | ret a => trivial
  | op e k ih => exact ⟨h e hp.1, fun r => ih r (hp.2 r)⟩

/-! ### Programs whose answers can be relied on -/

/-- As long as the answers are as `A` allows, the program asks only for operations with `P`, and
it ends with a value with `Q`. -/
def Meets (A : (e : E) → R e → Prop) (P : E → Prop) (Q : α → Prop) : Program E R α → Prop
  | ret a => Q a
  | op e k => P e ∧ ∀ r, A e r → (k r).Meets A P Q

section Meets

variable {A : (e : E) → R e → Prop} {Q : α → Prop}

@[simp] theorem meets_ret (a : α) : (ret a : Program E R α).Meets A P Q ↔ Q a := Iff.rfl

@[simp] theorem meets_op (e : E) (k : R e → Program E R α) :
    (op e k).Meets A P Q ↔ P e ∧ ∀ r, A e r → (k r).Meets A P Q := Iff.rfl

theorem Meets.bind {Q' : β → Prop} {p : Program E R α} {f : α → Program E R β}
    (hp : p.Meets A P Q) (hf : ∀ a, Q a → (f a).Meets A P Q') : (p >>= f).Meets A P Q' := by
  induction p with
  | ret a => exact hf a hp
  | op e k ih => exact ⟨hp.1, fun r hr => ih r (hp.2 r hr)⟩

end Meets

/-! ### Running a program on its own -/

section Interp

variable {σ : Type} (h : (e : E) → σ → Option (R e × σ))

/-- Run a program to its end; it gets stuck at an operation that is not answered. -/
def interp : Program E R α → σ → Option (α × σ)
  | ret a, s => some (a, s)
  | op e k, s => (h e s).bind (fun x => (k x.1).interp x.2)

@[simp] theorem interp_ret (a : α) (s : σ) : (ret a : Program E R α).interp h s = some (a, s) := rfl

@[simp] theorem interp_op (e : E) (k : R e → Program E R α) (s : σ) :
    (op e k).interp h s = (h e s).bind (fun x => (k x.1).interp h x.2) := rfl

theorem interp_bind (p : Program E R α) (f : α → Program E R β) (s : σ) :
    (p >>= f).interp h s = (p.interp h s).bind (fun x => (f x.1).interp h x.2) := by
  induction p generalizing s with
  | ret a => rfl
  | op e k ih =>
      rw [op_bind, interp_op, interp_op, Option.bind_assoc]
      exact congrArg _ (funext fun x => ih x.1 x.2)

end Interp

/-! ### Running a program whose operations are all answered -/

section Exec

variable {σ : Type} (h : (e : E) → σ → R e × σ)

/-- Run a program to its end, over a state. -/
def exec : Program E R α → σ → α × σ
  | ret a, s => (a, s)
  | op e k, s => (k (h e s).1).exec (h e s).2

@[simp] theorem exec_ret (a : α) (s : σ) : (ret a : Program E R α).exec h s = (a, s) := rfl

@[simp] theorem exec_op (e : E) (k : R e → Program E R α) (s : σ) :
    (op e k).exec h s = (k (h e s).1).exec h (h e s).2 := rfl

theorem exec_bind (p : Program E R α) (f : α → Program E R β) (s : σ) :
    (p >>= f).exec h s = (f (p.exec h s).1).exec h (p.exec h s).2 := by
  induction p generalizing s with
  | ret a => rfl
  | op e k ih => exact ih _ _

variable {h}

/-- What every operation that the program uses keeps up is kept up by the program. -/
theorem exec_rel (rel : σ → σ → Prop) (hrefl : ∀ s, rel s s)
    (htrans : ∀ a b c, rel a b → rel b c → rel a c) (hop : ∀ e s, P e → rel s (h e s).2)
    {p : Program E R α} (hp : p.Uses P) (s : σ) : rel s (p.exec h s).2 := by
  induction p generalizing s with
  | ret a => exact hrefl s
  | op e k ih => exact htrans _ _ _ (hop e s hp.1) (ih _ (hp.2 _) _)

end Exec

/-! ### Running a program of which an operation fails -/

section Abort

variable {σ : Type} (h : (e : E) → σ → R e × σ) (awaited : E → Bool) (carried : Bool)

/-- Run a program whose awaited operation number `n` fails, carried out or not, and ends it.
Where it ends before, the number is what is left of `n`. -/
def abort : Program E R α → ℕ → σ → Option (α × ℕ) × σ
  | ret a, n, s => (some (a, n), s)
  | op e k, n, s =>
      if awaited e then
        match n with
        | 0 => (none, if carried then (h e s).2 else s)
        | n + 1 => (k (h e s).1).abort n (h e s).2
      else (k (h e s).1).abort n (h e s).2

variable {h awaited carried}

@[simp] theorem abort_ret (a : α) (n : ℕ) (s : σ) :
    (ret a : Program E R α).abort h awaited carried n s = (some (a, n), s) := rfl

theorem abort_free {e : E} (he : awaited e = false) (k : R e → Program E R α) (n : ℕ) (s : σ) :
    (op e k).abort h awaited carried n s =
      (k (h e s).1).abort h awaited carried n (h e s).2 := by
  simp [abort, he]

theorem abort_zero {e : E} (he : awaited e = true) (k : R e → Program E R α) (s : σ) :
    (op e k).abort h awaited carried 0 s = (none, if carried then (h e s).2 else s) := by
  simp [abort, he]

theorem abort_succ {e : E} (he : awaited e = true) (k : R e → Program E R α) (n : ℕ) (s : σ) :
    (op e k).abort h awaited carried (n + 1) s =
      (k (h e s).1).abort h awaited carried n (h e s).2 := by
  simp [abort, he]

theorem abort_bind (p : Program E R α) (f : α → Program E R β) (n : ℕ) (s : σ) :
    (p >>= f).abort h awaited carried n s =
      (p.abort h awaited carried n s).1.elim (none, (p.abort h awaited carried n s).2)
        (fun x => (f x.1).abort h awaited carried x.2 (p.abort h awaited carried n s).2) := by
  induction p generalizing n s with
  | ret a => rfl
  | op e k ih =>
      rw [op_bind]
      cases hawaited : awaited e with
      | false =>
          rw [abort_free hawaited, abort_free hawaited]
          exact ih _ n _
      | true =>
          cases n with
          | zero =>
              rw [abort_zero hawaited, abort_zero hawaited]
              rfl
          | succ n =>
              rw [abort_succ hawaited, abort_succ hawaited]
              exact ih _ n _

/-- What every operation keeps up is kept up where one fails. -/
theorem abort_rel (rel : σ → σ → Prop) (hrefl : ∀ s, rel s s)
    (htrans : ∀ a b c, rel a b → rel b c → rel a c) (hop : ∀ e s, P e → rel s (h e s).2)
    {p : Program E R α} (hp : p.Uses P) (n : ℕ) (s : σ) :
    rel s (p.abort h awaited carried n s).2 := by
  induction p generalizing n s with
  | ret a => exact hrefl s
  | op e k ih =>
      obtain ⟨he, hk⟩ := hp
      cases hawaited : awaited e with
      | false =>
          rw [abort_free hawaited]
          exact htrans _ _ _ (hop e s he) (ih _ (hk _) n _)
      | true =>
          cases n with
          | zero =>
              rw [abort_zero hawaited]
              cases carried with
              | true => exact hop e s he
              | false => exact hrefl s
          | succ n =>
              rw [abort_succ hawaited]
              exact htrans _ _ _ (hop e s he) (ih _ (hk _) n _)

end Abort

end Program
