import FirewallLLM.Dlp

/-! # JSON values

`serde_json::Value` as far as the gateway uses it: lookups and assignments of object fields,
and the strings inside a value.  An object has its fields in the order of its map. -/

namespace FirewallLLM

open Dlp (Text)

/-- `serde_json::Number`. -/
inductive Number where
  | posInt (n : UInt64)
  | negInt (n : Int64)
  | float (digits : String)
deriving DecidableEq, Repr

/-- `serde_json::Value`. -/
inductive Json where
  | null
  | bool (b : Bool)
  | num (n : Number)
  | str (s : Text)
  | arr (items : List Json)
  | obj (fields : List (String × Json))

namespace Json

/-- `as_str`. -/
def asStr? : Json → Option Text
  | str s => some s
  | _ => none

/-- `as_array`. -/
def asArr? : Json → Option (List Json)
  | arr items => some items
  | _ => none

/-- `as_object`. -/
def asObj? : Json → Option (List (String × Json))
  | obj fields => some fields
  | _ => none

/-- `as_u64`. -/
def asU64? : Json → Option UInt64
  | num (.posInt n) => some n
  | _ => none

/-- `get` with a field name. -/
def get? : Json → String → Option Json
  | obj fields, key => (fields.find? (fun e => e.1 = key)).map Prod.snd
  | _, _ => none

/-- `value[key] = v` on an object; the gateway assigns to no other value. -/
def set : Json → String → Json → Json
  | obj fields, key, v =>
      obj (if fields.any (fun e => e.1 = key) then
        fields.map (fun e => if e.1 = key then (key, v) else e)
      else fields ++ [(key, v)])
  | j, _, _ => j

/-- Replace the value of a field that is there. -/
def modify (j : Json) (key : String) (f : Json → Json) : Json :=
  match j.get? key with
  | some v => j.set key (f v)
  | none => j

mutual

/-- The string values inside a value. -/
def strings : Json → List Text
  | str s => [s]
  | arr items => stringsOfList items
  | obj fields => stringsOfFields fields
  | _ => []

def stringsOfList : List Json → List Text
  | [] => []
  | j :: items => strings j ++ stringsOfList items

def stringsOfFields : List (String × Json) → List Text
  | [] => []
  | (_, j) :: fields => strings j ++ stringsOfFields fields

end

/-! ### Reading after writing -/

theorem get?_set_self {key : String} {j v w : Json} (h : j.get? key = some w) :
    (j.set key v).get? key = some v := by
  cases j with
  | obj fields =>
      obtain ⟨e, he, -⟩ := Option.map_eq_some_iff.mp h
      have hany : fields.any (fun e => e.1 = key) = true :=
        List.any_eq_true.mpr ⟨e, List.mem_of_find?_eq_some he, by simpa using List.find?_some he⟩
      clear h
      simp only [set, hany, if_true, get?]
      clear hany
      induction fields with
      | nil => cases he
      | cons d fields ih =>
          by_cases hd : d.1 = key
          · simp [hd]
          · rw [List.find?_cons_of_neg (by simpa using hd)] at he
            rw [List.map_cons, if_neg hd, List.find?_cons_of_neg (by simpa using hd)]
            exact ih he
  | null => cases h
  | bool b => cases h
  | num n => cases h
  | str s => cases h
  | arr items => cases h

theorem get?_set_of_ne {key other : String} (hne : other ≠ key) (j v : Json) :
    (j.set key v).get? other = j.get? other := by
  cases j with
  | obj fields =>
      simp only [set, get?]
      congr 1
      split_ifs with hany
      · clear hany
        induction fields with
        | nil => rfl
        | cons d fields ih =>
            rw [List.map_cons]
            by_cases hd : d.1 = other
            · have hk : d.1 ≠ key := fun e => hne (hd.symm.trans e)
              rw [if_neg hk, List.find?_cons_of_pos (by simpa using hd),
                List.find?_cons_of_pos (by simpa using hd)]
            · have hk : (if d.1 = key then (key, v) else d).1 ≠ other := by
                split_ifs with hk
                · exact Ne.symm hne
                · exact hd
              rw [List.find?_cons_of_neg (by simpa using hk),
                List.find?_cons_of_neg (by simpa using hd)]
              exact ih
      · rw [List.find?_append]
        have hnone : List.find? (fun e => decide (e.1 = other)) [(key, v)] = none := by
          simp [Ne.symm hne]
        rw [hnone, Option.or_none]
  | null => rfl
  | bool b => rfl
  | num n => rfl
  | str s => rfl
  | arr items => rfl

theorem asArr?_get?_set {key : String} {j : Json} {items : List Json}
    (h : (j.get? key).bind asArr? = some items) (items' : List Json) :
    ((j.set key (.arr items')).get? key).bind asArr? = some items' := by
  obtain ⟨v, hv, -⟩ := Option.bind_eq_some_iff.mp h
  rw [get?_set_self hv]
  rfl

theorem get?_modify_self {key : String} {j w : Json} (f : Json → Json) (h : j.get? key = some w) :
    (j.modify key f).get? key = some (f w) := by
  rw [modify, h]
  exact get?_set_self h

theorem get?_modify_of_ne {key other : String} (hne : other ≠ key) (f : Json → Json) (j : Json) :
    (j.modify key f).get? other = j.get? other := by
  unfold modify
  cases j.get? key with
  | some v => exact get?_set_of_ne hne j (f v)
  | none => rfl

end Json

end FirewallLLM
