import Mathlib.Data.Int.Notation
import Mathlib.Data.Nat.Notation
import Mathlib.Data.List.Forall2

/-! # YAML trees and records

The trees that a YAML library hands over, and readers that take records out of them: fields with
and without a default, lists and mappings by name.  Libraries differ in whether they read `null`
as an empty container and whether they mind keys of a record that are no strings (`Yaml.Style`).

`Assoc.lookup_ofList`: when pairs are put into a map one after the other, the last one wins.
`Yaml.get?_set` is the rule for a field that is overwritten. -/

/-! ### Association lists -/

namespace Assoc

variable {κ α : Type} [DecidableEq κ]

/-- Overwrite the value of a key, or append it. -/
def insert (k : κ) (v : α) : List (κ × α) → List (κ × α)
  | [] => [(k, v)]
  | e :: m => if e.1 = k then (k, v) :: m else e :: insert k v m

/-- Pairs that are inserted one after the other. -/
def ofList (pairs : List (κ × α)) : List (κ × α) := pairs.foldl (fun m e => insert e.1 e.2 m) []

theorem lookup_insert (m : List (κ × α)) (k k' : κ) (v : α) :
    (insert k v m).lookup k' = if k' = k then some v else m.lookup k' := by
  induction m with
  | nil =>
      rw [insert, List.lookup_cons, List.lookup_nil]
      split_ifs with h
      · rw [beq_iff_eq.mpr h]
      · rw [beq_false_of_ne h]
  | cons e m ih =>
      rw [insert]
      by_cases he : e.1 = k
      · rw [if_pos he, List.lookup_cons]
        split_ifs with h
        · rw [beq_iff_eq.mpr h]
        · rw [beq_false_of_ne h, List.lookup_cons, he, beq_false_of_ne h]
      · rw [if_neg he, List.lookup_cons, List.lookup_cons, ih]
        by_cases hk : k' = e.1
        · have hne : k' ≠ k := fun h => he (hk.symm.trans h)
          simp only [beq_iff_eq.mpr hk, if_neg hne]
        · rw [beq_false_of_ne hk]

/-- **The last pair of a key wins.** -/
theorem lookup_ofList (pairs : List (κ × α)) (k : κ) :
    (ofList pairs).lookup k = pairs.reverse.lookup k := by
  have hfold : ∀ m : List (κ × α), (pairs.foldl (fun m e => insert e.1 e.2 m) m).lookup k =
      (pairs.reverse.lookup k).or (m.lookup k) := by
    induction pairs with
    | nil => exact fun m => rfl
    | cons e pairs ih =>
        intro m
        obtain ⟨k', v⟩ := e
        rw [List.foldl_cons, ih, lookup_insert, List.reverse_cons, List.lookup_append,
          Option.or_assoc, List.lookup_cons, List.lookup_nil]
        by_cases h : k = k'
        · rw [if_pos h, beq_iff_eq.mpr h, Option.some_or]
        · rw [if_neg h, beq_false_of_ne h, Option.none_or]
  rw [ofList, hfold, List.lookup_nil, Option.or_none]

end Assoc

/-! ### Trees -/

/-- A YAML value, with floats in `F`. -/
inductive Yaml (F : Type) where
  | null
  | bool (b : Bool)
  | int (n : ℤ)
  | float (x : F)
  | str (s : String)
  | seq (items : List (Yaml F))
  | map (entries : List (Yaml F × Yaml F))

namespace Yaml

variable {F α β : Type}

/-- The entries of a mapping. -/
abbrev Entries (F : Type) := List (Yaml F × Yaml F)

/-- A value as a string. -/
def asStr? : Yaml F → Option String
  | str s => some s
  | _ => none

/-- The value of a field. -/
def Entries.get? : Entries F → String → Option (Yaml F)
  | [], _ => none
  | e :: es, name => if e.1.asStr? = some name then some e.2 else get? es name

/-- Overwrite a field, or append it. -/
def Entries.set : Entries F → String → Yaml F → Entries F
  | [], name, v => [(.str name, v)]
  | e :: es, name, v => if e.1.asStr? = some name then (.str name, v) :: es else e :: set es name v

/-- The value at a key, if the tree is a mapping. -/
def get? : Yaml F → String → Option (Yaml F)
  | map es, name => Entries.get? es name
  | _, _ => none

theorem get?_set (es : Entries F) (name name' : String) (v : Yaml F) :
    (es.set name v).get? name' = if name' = name then some v else es.get? name' := by
  induction es with
  | nil => simp only [Entries.set, Entries.get?, asStr?, Option.some.injEq, eq_comm]
  | cons e es ih =>
      by_cases he : e.1.asStr? = some name
      · rw [Entries.set, if_pos he]
        have hstr : (str name : Yaml F).asStr? = some name := rfl
        by_cases hk : name' = name
        · simp only [Entries.get?, hstr, hk, if_true]
        · simp only [Entries.get?, hstr, he, Option.some.injEq, hk, Ne.symm hk, if_false]
      · rw [Entries.set, if_neg he, Entries.get?, Entries.get?, ih]
        by_cases hk : e.1.asStr? = some name'
        · have hne : name' ≠ name := by
            rintro rfl
            exact he hk
          rw [if_pos hk, if_neg hne, if_pos hk]
        · rw [if_neg hk, if_neg hk]

theorem get?_set_of_ne {es : Entries F} {name name' : String} (h : name' ≠ name) (v : Yaml F) :
    (es.set name v).get? name' = es.get? name' := by
  rw [get?_set, if_neg h]

theorem all_keys_set {es : Entries F} (h : es.all (fun e => e.1.asStr?.isSome) = true)
    (name : String) (v : Yaml F) :
    (es.set name v).all (fun e => e.1.asStr?.isSome) = true := by
  induction es with
  | nil => rfl
  | cons e es ih =>
      rw [List.all_cons, Bool.and_eq_true] at h
      rw [Entries.set]
      split_ifs
      · rw [List.all_cons, Bool.and_eq_true]
        exact ⟨rfl, h.2⟩
      · rw [List.all_cons, Bool.and_eq_true]
        exact ⟨h.1, ih h.2⟩

/-! ### Readers -/

/-- How a library reads containers: whether `null` is an empty one, and whether the keys of a
record have to be strings. -/
structure Style where
  nullIsEmpty : Bool
  strictKeys : Bool

/-- What takes a value out of a tree, if it is of the right type. -/
abbrev Reader (F α : Type) := Yaml F → Option α

/-- The value that stands for an empty container. -/
def emptyOf (sty : Style) (a : α) : Option α := if sty.nullIsEmpty then some a else none

/-- The entries of a record. -/
def record (sty : Style) : Reader F (Entries F)
  | map es =>
      if sty.strictKeys && !es.all (fun e => e.1.asStr?.isSome) then none else some es
  | null => emptyOf sty []
  | _ => none

def text : Reader F String := asStr?

/-- A string out of a few. -/
def literal (names : List String) : Reader F String := fun v => v.asStr?.filter (· ∈ names)

def flag : Reader F Bool
  | bool b => some b
  | _ => none

/-- An integer between bounds. -/
def intIn (lo hi : ℤ) : Reader F ℤ
  | int n => if lo ≤ n ∧ n ≤ hi then some n else none
  | _ => none

/-- A value or `null`. -/
def nullable (r : Reader F α) : Reader F (Option α)
  | null => some none
  | v => (r v).map some

/-- A list. -/
def listOf (sty : Style) (r : Reader F α) : Reader F (List α)
  | seq items => items.mapM r
  | null => emptyOf sty []
  | _ => none

/-- An entry of a mapping by name. -/
def entry (r : Reader F α) (e : Yaml F × Yaml F) : Option (String × α) :=
  e.1.asStr?.bind (fun k => (r e.2).map (fun v => (k, v)))

/-- A mapping by name. -/
def mapOf (sty : Style) (r : Reader F α) : Reader F (List (String × α))
  | map es => es.mapM (entry r)
  | null => emptyOf sty []
  | _ => none

/-- A field that has to be there. -/
def field (es : Entries F) (name : String) (r : Reader F α) : Option α := (es.get? name).bind r

/-- A field with a default. -/
def fieldOr (es : Entries F) (name : String) (r : Reader F α) (default : α) : Option α :=
  match es.get? name with
  | some v => r v
  | none => some default

/-- A field that may be left out or `null`. -/
def optField (es : Entries F) (name : String) (r : Reader F α) : Option (Option α) :=
  fieldOr es name (nullable r) none

section Fields

variable {es : Entries F} {name name' : String} {r : Reader F α} {d : α} {v : Yaml F}

theorem get?_of_record {sty : Style} (h : record sty v = some es) (name : String) :
    v.get? name = es.get? name := by
  cases v with
  | map es' =>
      rw [record] at h
      split_ifs at h
      obtain rfl := Option.some.inj h
      rfl
  | null =>
      rw [record, emptyOf] at h
      split_ifs at h
      obtain rfl := Option.some.inj h
      rfl
  | _ => nomatch h

theorem fieldOr_eq_some_iff {a : α} : fieldOr es name r d = some a ↔
    (∃ v, es.get? name = some v ∧ r v = some a) ∨ es.get? name = none ∧ d = a := by
  rw [fieldOr]
  cases es.get? name with
  | none => simp
  | some v => simp

theorem text_eq_some_iff {s : String} : text v = some s ↔ v = str s := by
  cases v <;> simp [text, asStr?]

end Fields

/-! ### Mappings of strings -/

/-- A mapping of strings to strings. -/
def ofPairs (pairs : List (String × String)) : Yaml F :=
  map (pairs.map (fun e => (str e.1, str e.2)))

theorem mapOf_ofPairs (sty : Style) (pairs : List (String × String)) :
    mapOf sty (text (F := F)) (ofPairs pairs) = some pairs := by
  rw [ofPairs, mapOf]
  induction pairs with
  | nil => rfl
  | cons e pairs ih =>
      rw [List.map_cons, List.mapM_cons, ih]
      rfl

/-- An empty list is read from an empty mapping only. -/
theorem mapM_entry_eq_nil_iff {r : Reader F α} {es : Entries F} {l : List (String × α)}
    (h : es.mapM (entry r) = some l) : l = [] ↔ es = [] := by
  cases es with
  | nil =>
      obtain rfl := Option.some.inj h
      exact iff_of_true rfl rfl
  | cons e es =>
      rw [List.mapM_cons] at h
      obtain ⟨x, -, h⟩ := Option.bind_eq_some_iff.mp h
      obtain ⟨xs, -, h⟩ := Option.bind_eq_some_iff.mp h
      obtain rfl := Option.some.inj h
      exact iff_of_false (List.cons_ne_nil _ _) (List.cons_ne_nil _ _)

/-- Two readers of the entries of a mapping go through the same names. -/
theorem mapM_entry_lookup {r : Reader F α} {r' : Reader F β} {P : α → β → Prop}
    (h : ∀ v a b, r v = some a → r' v = some b → P a b) {es : Entries F}
    {l : List (String × α)} {l' : List (String × β)} (hl : es.mapM (entry r) = some l)
    (hl' : es.mapM (entry r') = some l') :
    List.Forall₂ (fun x y => x.1 = y.1 ∧ P x.2 y.2) l l' := by
  induction es generalizing l l' with
  | nil =>
      obtain rfl := Option.some.inj hl
      obtain rfl := Option.some.inj hl'
      exact .nil
  | cons e es ih =>
      rw [List.mapM_cons] at hl hl'
      obtain ⟨x, hx, hl⟩ := Option.bind_eq_some_iff.mp hl
      obtain ⟨xs, hxs, hl⟩ := Option.bind_eq_some_iff.mp hl
      obtain ⟨y, hy, hl'⟩ := Option.bind_eq_some_iff.mp hl'
      obtain ⟨ys, hys, hl'⟩ := Option.bind_eq_some_iff.mp hl'
      obtain rfl := Option.some.inj hl
      obtain rfl := Option.some.inj hl'
      refine .cons ?_ (ih hxs hys)
      obtain ⟨k, hk, hx⟩ := Option.bind_eq_some_iff.mp hx
      obtain ⟨a, ha, rfl⟩ := Option.map_eq_some_iff.mp hx
      obtain ⟨k', hk', hy⟩ := Option.bind_eq_some_iff.mp hy
      obtain ⟨b, hb, rfl⟩ := Option.map_eq_some_iff.mp hy
      exact ⟨Option.some.inj (hk.symm.trans hk'), h _ _ _ ha hb⟩

end Yaml
