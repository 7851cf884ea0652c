import Mathlib.Algebra.BigOperators.Group.List.Basic
import Mathlib.Algebra.Order.BigOperators.Group.List
import Mathlib.Algebra.Order.Ring.Int
import Mathlib.Data.List.Nodup
import Mathlib.Tactic.SplitIfs

/-! # Ledgers of holds

A *hold* is an amount charged to a list of accounts until it is closed with the final
amount.  A *book* is the list of the holds placed so far; `charged book k` is the balance
that the book owes to account `k`: the held amounts of the open holds plus the final
amounts of the closed ones.

Two facts carry every argument about a running balance: closing a hold moves each of its
accounts by the difference (`charged_close`), and in a book without negative charges a
single charge never exceeds the balance of its accounts (`charge_le_charged`), so that
giving it back leaves the balance non-negative (`charged_sub_nonneg`). -/

namespace Ledger

variable {ι κ : Type}

/-- A hold: its identity, the accounts it is charged to, the amount held and, once it is
closed, the amount it came to. -/
structure Hold (ι κ : Type) where
  id : ι
  keys : List κ
  held : ℤ
  final : Option ℤ
deriving DecidableEq, Repr

/-- What a hold charges to each of its accounts. -/
def Hold.charge (h : Hold ι κ) : ℤ := h.final.getD h.held

/-- The charge of a hold to account `k`. -/
def Hold.chargeAt [DecidableEq κ] (h : Hold ι κ) (k : κ) : ℤ := if k ∈ h.keys then h.charge else 0

/-- The balance a book owes to account `k`. -/
def charged [DecidableEq κ] (book : List (Hold ι κ)) (k : κ) : ℤ :=
  (book.map (fun h => h.chargeAt k)).sum

/-- Close the hold `i` with the final amount `a`. -/
def close [DecidableEq ι] (i : ι) (a : ℤ) (book : List (Hold ι κ)) : List (Hold ι κ) :=
  book.map (fun h => if h.id = i then { h with final := some a } else h)

/-- The identities used by a book. -/
def ids (book : List (Hold ι κ)) : List ι := book.map Hold.id

theorem mem_ids {book : List (Hold ι κ)} {h : Hold ι κ} (hm : h ∈ book) : h.id ∈ ids book :=
  List.mem_map_of_mem hm

/-- In a book without repeated identities the identity determines the hold. -/
theorem eq_of_id_eq {book : List (Hold ι κ)} (hnd : (ids book).Nodup) {g h : Hold ι κ}
    (hg : g ∈ book) (hh : h ∈ book) (he : g.id = h.id) : g = h :=
  List.inj_on_of_nodup_map hnd hg hh he

/-! ### Placing a hold -/

section charges
variable [DecidableEq κ]

@[simp] theorem charged_nil (k : κ) : charged ([] : List (Hold ι κ)) k = 0 := rfl

@[simp] theorem charged_cons (h : Hold ι κ) (book : List (Hold ι κ)) (k : κ) :
    charged (h :: book) k = h.chargeAt k + charged book k := by
  simp [charged]

@[simp] theorem charged_append (b₁ b₂ : List (Hold ι κ)) (k : κ) :
    charged (b₁ ++ b₂) k = charged b₁ k + charged b₂ k := by
  simp [charged]

theorem chargeAt_of_mem {h : Hold ι κ} {k : κ} (hk : k ∈ h.keys) : h.chargeAt k = h.charge :=
  if_pos hk

theorem chargeAt_of_not_mem {h : Hold ι κ} {k : κ} (hk : k ∉ h.keys) : h.chargeAt k = 0 :=
  if_neg hk

theorem chargeAt_nonneg {h : Hold ι κ} (hc : 0 ≤ h.charge) (k : κ) : 0 ≤ h.chargeAt k := by
  unfold Hold.chargeAt
  split_ifs
  · exact hc
  · exact le_rfl

theorem charged_nonneg {book : List (Hold ι κ)} (hc : ∀ h ∈ book, 0 ≤ h.charge) (k : κ) :
    0 ≤ charged book k := by
  apply List.sum_nonneg
  intro x hx
  obtain ⟨h, hm, rfl⟩ := List.mem_map.mp hx
  exact chargeAt_nonneg (hc h hm) k

/-- A balance covers every single charge made to its account. -/
theorem charge_le_charged {book : List (Hold ι κ)} (hc : ∀ h ∈ book, 0 ≤ h.charge)
    {h : Hold ι κ} (hm : h ∈ book) {k : κ} (hk : k ∈ h.keys) : h.charge ≤ charged book k := by
  induction book with
  | nil => cases hm
  | cons g book ih =>
      have hg : 0 ≤ g.chargeAt k := chargeAt_nonneg (hc g List.mem_cons_self) k
      have hrest : ∀ h ∈ book, 0 ≤ h.charge := fun h hh => hc h (List.mem_cons_of_mem _ hh)
      rw [charged_cons]
      rcases List.mem_cons.mp hm with rfl | hm
      · have := charged_nonneg hrest k
        rw [chargeAt_of_mem hk]
        omega
      · have := ih hrest hm
        omega

/-- Giving back at most the charge of one hold keeps the balance non-negative. -/
theorem charged_sub_nonneg {book : List (Hold ι κ)} (hc : ∀ h ∈ book, 0 ≤ h.charge)
    {h : Hold ι κ} (hm : h ∈ book) {k : κ} (hk : k ∈ h.keys) {d : ℤ} (hd : -h.charge ≤ d) :
    0 ≤ charged book k + d := by
  have := charge_le_charged hc hm hk
  omega

end charges

/-! ### Closing a hold -/

section closing
variable [DecidableEq ι]

@[simp] theorem ids_close (i : ι) (a : ℤ) (book : List (Hold ι κ)) :
    ids (close i a book) = ids book := by
  simp only [ids, close, List.map_map]
  apply List.map_congr_left
  intro h _
  simp only [Function.comp]
  split_ifs <;> rfl

theorem close_of_not_mem {i : ι} {book : List (Hold ι κ)} (hi : i ∉ ids book) (a : ℤ) :
    close i a book = book := by
  unfold close
  conv_rhs => rw [← List.map_id book]
  apply List.map_congr_left
  intro h hm
  have hne : h.id ≠ i := fun e => hi (by rw [← e]; exact mem_ids hm)
  rw [if_neg hne, id]

/-- Closing a hold moves each of its accounts by the difference of the charges. -/
theorem charged_close [DecidableEq κ] {book : List (Hold ι κ)} (hnd : (ids book).Nodup) {h : Hold ι κ}
    (hm : h ∈ book) (a : ℤ) (k : κ) :
    charged (close h.id a book) k =
      charged book k + (if k ∈ h.keys then a - h.charge else 0) := by
  induction book with
  | nil => cases hm
  | cons g book ih =>
      obtain ⟨hg, hnd'⟩ := List.nodup_cons.mp hnd
      rcases List.mem_cons.mp hm with rfl | hm'
      · have e : close h.id a (h :: book) = { h with final := some a } :: book := by
          have := close_of_not_mem hg a
          unfold close at this ⊢
          rw [List.map_cons, if_pos rfl, this]
        rw [e, charged_cons, charged_cons]
        unfold Hold.chargeAt
        simp only [Hold.charge, Option.getD_some]
        split_ifs <;> omega
      · have hne : g.id ≠ h.id := fun e => hg (by rw [e]; exact mem_ids hm')
        have e : close h.id a (g :: book) = g :: close h.id a book := by
          unfold close
          rw [List.map_cons, if_neg hne]
        rw [e, charged_cons, charged_cons, ih hnd' hm']
        omega

theorem mem_close {i : ι} {a : ℤ} {book : List (Hold ι κ)} {g : Hold ι κ} :
    g ∈ close i a book ↔
      ∃ h ∈ book, g = if h.id = i then { h with final := some a } else h := by
  simp only [close, List.mem_map]
  constructor
  · rintro ⟨h, hm, rfl⟩
    exact ⟨h, hm, rfl⟩
  · rintro ⟨h, hm, rfl⟩
    exact ⟨h, hm, rfl⟩

theorem charge_nonneg_close {i : ι} {a : ℤ} {book : List (Hold ι κ)}
    (hc : ∀ h ∈ book, 0 ≤ h.charge) (ha : 0 ≤ a) : ∀ g ∈ close i a book, 0 ≤ g.charge := by
  intro g hg
  obtain ⟨h, hm, rfl⟩ := mem_close.mp hg
  split_ifs
  · exact ha
  · exact hc h hm

end closing

end Ledger
