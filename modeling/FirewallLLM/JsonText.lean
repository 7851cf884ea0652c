import Mathlib.Data.List.Basic
import Mathlib.Data.Nat.Notation
import Mathlib.Tactic.Push

/-! # JSON as text

Documents over a type of numbers, a printer that writes everything but printable ASCII as
escapes, and a parser by recursive descent.  How a number is written and read is a parameter
(`Numerals`).  The parser has a fuel argument; one more than the length of the text is enough.

`read_print`: a document is read back from what the printer writes.  `closed_of_read`: a text
that is read closes its quotes and has nothing but ASCII outside of them, so that a text that
ends in a mark of other characters is never read (`read_append_mark`). -/

namespace JsonText

abbrev Text := List Char

/-- A JSON document with numbers of type `ν`. -/
inductive Doc (ν : Type) where
  | null
  | bool (b : Bool)
  | num (n : ν)
  | str (s : Text)
  | arr (items : List (Doc ν))
  | obj (fields : List (Text × Doc ν))

mutual

/-- All numbers of the document satisfy the predicate. -/
def Doc.all {ν : Type} (p : ν → Bool) : Doc ν → Bool
  | .num n => p n
  | .arr items => allItems p items
  | .obj fields => allFields p fields
  | _ => true

def allItems {ν : Type} (p : ν → Bool) : List (Doc ν) → Bool
  | [] => true
  | d :: ds => d.all p && allItems p ds

def allFields {ν : Type} (p : ν → Bool) : List (Text × Doc ν) → Bool
  | [] => true
  | (_, d) :: fields => d.all p && allFields p fields

end

/-! ### Objects as dictionaries -/

/-- The pairs of a dictionary after `key` has been set. -/
def setField {α : Type} (key : Text) (v : α) : List (Text × α) → List (Text × α)
  | [] => [(key, v)]
  | e :: fields => if e.1 = key then (key, v) :: fields else e :: setField key v fields

mutual

/-- Of the fields with one key the last wins, in the place of the first. -/
def Doc.lastWins {ν : Type} : Doc ν → Doc ν
  | .arr items => .arr (lastWinsItems items)
  | .obj fields => .obj (lastWinsFields [] fields)
  | d => d

def lastWinsItems {ν : Type} : List (Doc ν) → List (Doc ν)
  | [] => []
  | d :: ds => d.lastWins :: lastWinsItems ds

/-- The fields that come are set one after the other. -/
def lastWinsFields {ν : Type} (acc : List (Text × Doc ν)) :
    List (Text × Doc ν) → List (Text × Doc ν)
  | [] => acc
  | (key, d) :: fields => lastWinsFields (setField key d.lastWins acc) fields

end

mutual

/-- No object of the document has a key twice. -/
def Doc.UniqueKeys {ν : Type} : Doc ν → Prop
  | .arr items => UniqueItems items
  | .obj fields => (fields.map Prod.fst).Nodup ∧ UniqueFields fields
  | _ => True

def UniqueItems {ν : Type} : List (Doc ν) → Prop
  | [] => True
  | d :: ds => d.UniqueKeys ∧ UniqueItems ds

def UniqueFields {ν : Type} : List (Text × Doc ν) → Prop
  | [] => True
  | (_, d) :: fields => d.UniqueKeys ∧ UniqueFields fields

end

theorem setField_new {α : Type} {key : Text} {acc : List (Text × α)}
    (h : key ∉ acc.map Prod.fst) (v : α) : setField key v acc = acc ++ [(key, v)] := by
  induction acc with
  | nil => rfl
  | cons e acc ih =>
      simp only [List.map_cons, List.mem_cons, not_or] at h
      rw [setField, if_neg (Ne.symm h.1), ih h.2, List.cons_append]

mutual

theorem lastWins_of_uniqueKeys {ν : Type} : {d : Doc ν} → d.UniqueKeys → d.lastWins = d
  | .null, _ | .bool _, _ | .num _, _ | .str _, _ => rfl
  | .arr _, h => congrArg Doc.arr (lastWinsItems_of_unique h)
  | .obj _, h => congrArg Doc.obj (lastWinsFields_of_unique h.1 h.2)

theorem lastWinsItems_of_unique {ν : Type} :
    {ds : List (Doc ν)} → UniqueItems ds → lastWinsItems ds = ds
  | [], _ => rfl
  | _ :: _, h => congrArg₂ List.cons (lastWins_of_uniqueKeys h.1) (lastWinsItems_of_unique h.2)

theorem lastWinsFields_of_unique {ν : Type} {acc : List (Text × Doc ν)} :
    {fields : List (Text × Doc ν)} → ((acc ++ fields).map Prod.fst).Nodup →
      UniqueFields fields → lastWinsFields acc fields = acc ++ fields
  | [], _, _ => (List.append_nil acc).symm
  | (key, d) :: fields, hnodup, h => by
      have hnew : key ∉ acc.map Prod.fst := by
        intro hmem
        rw [List.map_append, List.map_cons] at hnodup
        exact (List.nodup_append.mp hnodup).2.2 key hmem key List.mem_cons_self rfl
      have hsplit : acc ++ [(key, d)] ++ fields = acc ++ (key, d) :: fields := by simp
      rw [lastWinsFields, lastWins_of_uniqueKeys h.1, setField_new hnew,
        lastWinsFields_of_unique (by rw [hsplit]; exact hnodup) h.2, hsplit]

end

/-! ### Quotes -/

/-- Where a scan of a text is. -/
inductive Mode where
  | outside
  | inside
  | escaped
deriving DecidableEq

/-- The text closes its quotes, and what is outside of them is ASCII. -/
def closed : Mode → Text → Bool
  | m, [] => m = .outside
  | .outside, c :: s => if c = '"' then closed .inside s else c.toNat < 128 && closed .outside s
  | .inside, c :: s =>
      if c = '"' then closed .outside s
      else if c = '\\' then closed .escaped s
      else closed .inside s
  | .escaped, _ :: s => closed .inside s

/-- A mark that stands neither outside of quotes nor ends them. -/
structure IsMark (mark : Text) : Prop where
  head : ∃ c ∈ mark.head?, 128 ≤ c.toNat
  plain : ∀ c ∈ mark, c ≠ '"' ∧ c ≠ '\\'

theorem closed_inside_plain {s : Text} (h : ∀ c ∈ s, c ≠ '"' ∧ c ≠ '\\') :
    closed .inside s = false := by
  induction s with
  | nil => rfl
  | cons c s ih =>
      obtain ⟨⟨hq, hb⟩, hs⟩ := List.forall_mem_cons.mp h
      rw [closed, if_neg hq, if_neg hb, ih hs]

theorem closed_append_mark {mark : Text} (h : IsMark mark) (m : Mode) (s : Text) :
    closed m (s ++ mark) = false := by
  induction s generalizing m with
  | nil =>
      obtain ⟨⟨c, hc, hlarge⟩, hplain⟩ := h
      obtain ⟨rest, rfl⟩ := List.head?_eq_some_iff.mp hc
      obtain ⟨⟨hq, hb⟩, hrest⟩ := List.forall_mem_cons.mp hplain
      have hins := closed_inside_plain hrest
      cases m with
      | outside =>
          have hnot : ¬ c.toNat < 128 := by omega
          simp [closed, hq, hnot]
      | inside => simp [closed, hq, hb, hins]
      | escaped => exact hins
  | cons c s ih =>
      cases m with
      | outside =>
          rw [List.cons_append, closed, ih, ih]
          simp
      | inside =>
          rw [List.cons_append, closed, ih, ih, ih]
          simp
      | escaped => exact ih .inside

/-- The text leaves a scan outside of quotes. -/
def Neutral (p : Text) : Prop := ∀ rest, closed .outside (p ++ rest) = closed .outside rest

theorem neutral_nil : Neutral [] := fun _ => rfl

theorem Neutral.append {p q : Text} (hp : Neutral p) (hq : Neutral q) : Neutral (p ++ q) := by
  intro rest
  rw [List.append_assoc, hp, hq]

/-- ASCII without quotes. -/
def Plain (p : Text) : Prop := ∀ c ∈ p, c.toNat < 128 ∧ c ≠ '"'

theorem plain_nil : Plain [] := fun _ h => absurd h List.not_mem_nil

theorem Plain.append {p q : Text} (hp : Plain p) (hq : Plain q) : Plain (p ++ q) := by
  intro c hc
  rcases List.mem_append.mp hc with h | h
  · exact hp c h
  · exact hq c h

theorem Plain.cons {c : Char} {p : Text} (hc : c.toNat < 128 ∧ c ≠ '"') (hp : Plain p) :
    Plain (c :: p) := List.forall_mem_cons.mpr ⟨hc, hp⟩

theorem plain_of_all {p : Text} (h : (p.all fun c => c.toNat < 128 && c ≠ '"') = true) :
    Plain p := by
  intro c hc
  have hchar := List.all_eq_true.mp h c hc
  simpa using hchar

theorem Plain.neutral {p : Text} (h : Plain p) : Neutral p := by
  induction p with
  | nil => exact neutral_nil
  | cons c p ih =>
      obtain ⟨⟨hc, hq⟩, hp⟩ := List.forall_mem_cons.mp h
      intro rest
      have hrest := ih hp rest
      simp [closed, hq, hc, hrest]

/-! ### Strings -/

/-- Four hexadecimal digits. -/
def hexDigits (n : ℕ) : Text :=
  [(n / 4096 % 16).digitChar, (n / 256 % 16).digitChar, (n / 16 % 16).digitChar,
    (n % 16).digitChar]

/-- The escape of a UTF-16 unit. -/
def unitEscape (n : ℕ) : Text := '\\' :: 'u' :: hexDigits n

/-- The UTF-16 units of a character. -/
def units (c : Char) : List ℕ :=
  if c.toNat < 0x10000 then [c.toNat]
  else [0xD800 + (c.toNat - 0x10000) / 1024, 0xDC00 + (c.toNat - 0x10000) % 1024]

/-- The letter that a control character is escaped with. -/
def shortEscape (c : Char) : Option Char :=
  if c = '"' then some '"'
  else if c = '\\' then some '\\'
  else if c = '\n' then some 'n'
  else if c = '\r' then some 'r'
  else if c = '\t' then some 't'
  else if c.toNat = 8 then some 'b'
  else if c.toNat = 12 then some 'f'
  else none

/-- A character inside quotes. -/
def escape (c : Char) : Text :=
  match shortEscape c with
  | some letter => ['\\', letter]
  | none => if 32 ≤ c.toNat ∧ c.toNat < 127 then [c] else (units c).flatMap unitEscape

/-- A string in quotes. -/
def quote (s : Text) : Text := '"' :: s.flatMap escape ++ ['"']

/-- The value of a hexadecimal digit. -/
def hexVal (c : Char) : Option ℕ :=
  if '0' ≤ c ∧ c ≤ '9' then some (c.toNat - 48)
  else if 'a' ≤ c ∧ c ≤ 'f' then some (c.toNat - 87)
  else if 'A' ≤ c ∧ c ≤ 'F' then some (c.toNat - 55)
  else none

/-- The unit behind a letter that is escaped. -/
def longEscape (letter : Char) : Option ℕ :=
  if letter = '"' then some 34
  else if letter = '\\' then some 92
  else if letter = '/' then some 47
  else if letter = 'b' then some 8
  else if letter = 'f' then some 12
  else if letter = 'n' then some 10
  else if letter = 'r' then some 13
  else if letter = 't' then some 9
  else none

/-- How far an escape has been read; a hexadecimal one with the number of digits that follow the
next. -/
inductive Pending where
  | plain
  | letter
  | hex (digits value : ℕ)

/-- What is inside quotes, up to the closing quote: characters and UTF-16 units. -/
def readUnits : Pending → Text → Option (List ℕ × Text)
  | _, [] => none
  | .plain, c :: s =>
      if c = '"' then some ([], s)
      else if c = '\\' then readUnits .letter s
      else if c.toNat < 32 then none
      else (readUnits .plain s).map (fun r => (c.toNat :: r.1, r.2))
  | .letter, c :: s =>
      if c = 'u' then readUnits (.hex 3 0) s
      else (longEscape c).bind (fun u => (readUnits .plain s).map (fun r => (u :: r.1, r.2)))
  | .hex 0 v, c :: s =>
      (hexVal c).bind (fun d => (readUnits .plain s).map (fun r => ((v * 16 + d) :: r.1, r.2)))
  | .hex (n + 1) v, c :: s => (hexVal c).bind (fun d => readUnits (.hex n (v * 16 + d)) s)

def isHigh (u : ℕ) : Bool := 0xD800 ≤ u ∧ u < 0xDC00

def isLow (u : ℕ) : Bool := 0xDC00 ≤ u ∧ u < 0xE000

/-- Join surrogates, of which the high one may have been read; one on its own is no character. -/
def joinUnits : Option ℕ → List ℕ → Option Text
  | none, [] => some []
  | some _, [] => none
  | some h, u :: us =>
      if isLow u then
        (joinUnits none us).map
          (fun s => Char.ofNat (0x10000 + (h - 0xD800) * 1024 + (u - 0xDC00)) :: s)
      else none
  | none, u :: us =>
      if isHigh u then joinUnits (some u) us
      else if isLow u then none
      else (joinUnits none us).map (fun s => Char.ofNat u :: s)

/-- A string behind its opening quote. -/
def readString (s : Text) : Option (Text × Text) :=
  (readUnits .plain s).bind (fun r => (joinUnits none r.1).map (fun t => (t, r.2)))

example : readString "A\\u00e9\\ud83d\\ude00\\n\" rest".toList =
    some ("Aé😀\n".toList, " rest".toList) := by decide +kernel

theorem hexVal_digitChar : ∀ n < 16, hexVal n.digitChar = some n := by decide

theorem readUnits_unitEscape {n : ℕ} (hn : n < 0x10000) (s : Text) :
    readUnits .plain (unitEscape n ++ s) =
      (readUnits .plain s).map (fun r => (n :: r.1, r.2)) := by
  have hdigits : ((n / 4096 % 16 * 16 + n / 256 % 16) * 16 + n / 16 % 16) * 16 + n % 16 = n := by
    omega
  simp only [unitEscape, hexDigits, List.cons_append, List.nil_append, readUnits]
  rw [if_neg (by decide), if_pos trivial, if_pos trivial, hexVal_digitChar _ (by omega),
    hexVal_digitChar _ (by omega), hexVal_digitChar _ (by omega), hexVal_digitChar _ (by omega)]
  simp only [Option.bind_some, Nat.zero_mul, Nat.zero_add]
  rw [hdigits]

theorem readUnits_flatMap {us : List ℕ} (h : ∀ u ∈ us, u < 0x10000) (s : Text) :
    readUnits .plain (us.flatMap unitEscape ++ s) =
      (readUnits .plain s).map (fun r => (us ++ r.1, r.2)) := by
  induction us with
  | nil => simp
  | cons u us ih =>
      obtain ⟨hu, hus⟩ := List.forall_mem_cons.mp h
      rw [List.flatMap_cons, List.append_assoc, readUnits_unitEscape hu, ih hus, Option.map_map]
      rfl

theorem toNat_valid (c : Char) : c.toNat < 0xD800 ∨ (0xDFFF < c.toNat ∧ c.toNat < 0x110000) :=
  c.valid

theorem units_lt (c : Char) : ∀ u ∈ units c, u < 0x10000 := by
  intro u hu
  have hvalid := toNat_valid c
  unfold units at hu
  split_ifs at hu with h
  · rw [List.mem_singleton.mp hu]
    exact h
  · simp only [List.mem_cons, List.not_mem_nil, or_false] at hu
    rcases hu with hu | hu <;> omega

theorem longEscape_shortEscape {c letter : Char} (h : shortEscape c = some letter) :
    longEscape letter = some c.toNat ∧ letter ≠ 'u' ∧ c.toNat < 0x10000 := by
  unfold shortEscape at h
  split_ifs at h with h1 h2 h3 h4 h5 h6 h7
  · cases h
    subst h1
    decide
  · cases h
    subst h2
    decide
  · cases h
    subst h3
    decide
  · cases h
    subst h4
    decide
  · cases h
    subst h5
    decide
  · cases h
    rw [h6]
    decide
  · cases h
    rw [h7]
    decide

theorem readUnits_escape (c : Char) (s : Text) :
    readUnits .plain (escape c ++ s) =
      (readUnits .plain s).map (fun r => (units c ++ r.1, r.2)) := by
  unfold escape
  cases hshort : shortEscape c with
  | some letter =>
      obtain ⟨hlong, hu, hc⟩ := longEscape_shortEscape hshort
      have hunits : units c = [c.toNat] := if_pos hc
      simp only [List.cons_append, List.nil_append, readUnits]
      rw [if_neg (by decide), if_pos trivial, if_neg hu, hlong, hunits]
      rfl
  | none =>
      dsimp only
      split_ifs with hplain
      · have hunits : units c = [c.toNat] := if_pos (by omega)
        have hquote : c ≠ '"' := by
          rintro rfl
          cases hshort
        have hback : c ≠ '\\' := by
          rintro rfl
          cases hshort
        simp only [List.cons_append, List.nil_append, readUnits]
        rw [if_neg hquote, if_neg hback, if_neg (by omega), hunits]
        rfl
      · exact readUnits_flatMap (units_lt c) s

theorem joinUnits_units (c : Char) (us : List ℕ) :
    joinUnits none (units c ++ us) = (joinUnits none us).map (fun s => c :: s) := by
  have hvalid := toNat_valid c
  unfold units
  split_ifs with hc
  · have hhigh : isHigh c.toNat = false := by
      unfold isHigh
      rw [decide_eq_false_iff_not]
      omega
    have hlow : isLow c.toNat = false := by
      unfold isLow
      rw [decide_eq_false_iff_not]
      omega
    simp only [List.cons_append, List.nil_append, joinUnits]
    rw [hhigh, hlow, Char.ofNat_toNat]
    rfl
  · have hhigh : isHigh (0xD800 + (c.toNat - 0x10000) / 1024) = true := by
      unfold isHigh
      rw [decide_eq_true_iff]
      omega
    have hlow : isLow (0xDC00 + (c.toNat - 0x10000) % 1024) = true := by
      unfold isLow
      rw [decide_eq_true_iff]
      omega
    have hsum : 0x10000 + (0xD800 + (c.toNat - 0x10000) / 1024 - 0xD800) * 1024 +
        (0xDC00 + (c.toNat - 0x10000) % 1024 - 0xDC00) = c.toNat := by omega
    simp only [List.cons_append, List.nil_append, joinUnits]
    rw [if_pos hhigh, if_pos hlow, hsum, Char.ofNat_toNat]

theorem readString_escape (s rest : Text) :
    readString (s.flatMap escape ++ '"' :: rest) = some (s, rest) := by
  have hunits : readUnits .plain (s.flatMap escape ++ '"' :: rest) =
      some (s.flatMap units, rest) := by
    induction s with
    | nil => rfl
    | cons c s ih =>
        rw [List.flatMap_cons, List.append_assoc, readUnits_escape, ih]
        rfl
  have hjoin : joinUnits none (s.flatMap units) = some s := by
    clear hunits
    induction s with
    | nil => rfl
    | cons c s ih =>
        rw [List.flatMap_cons, joinUnits_units, ih]
        rfl
  rw [readString, hunits, Option.bind_some, hjoin]
  rfl

/-- Where a scan is when so much of an escape has been read. -/
def Pending.mode : Pending → Mode
  | .letter => .escaped
  | _ => .inside

theorem hexVal_plain {c : Char} {n : ℕ} (h : hexVal c = some n) : c ≠ '"' ∧ c ≠ '\\' := by
  constructor
  · rintro rfl
    cases h
  · rintro rfl
    cases h

/-- What has been read of a string ends its quotes. -/
theorem closing_of_readUnits {e : Pending} {s rest : Text} {us : List ℕ}
    (h : readUnits e s = some (us, rest)) :
    ∃ p, s = p ++ rest ∧ ∀ t, closed e.mode (p ++ t) = closed .outside t := by
  induction s generalizing e us with
  | nil => cases e <;> cases h
  | cons c s ih =>
      cases e with
      | plain =>
          rw [readUnits] at h
          split_ifs at h with hq hb hc
          · cases h
            exact ⟨[c], rfl, fun t => by simp [closed, Pending.mode, hq]⟩
          · obtain ⟨p, rfl, hp⟩ := ih h
            exact ⟨c :: p, rfl, fun t => by simpa [closed, Pending.mode, hq, hb] using hp t⟩
          · obtain ⟨⟨us', rest'⟩, hr, heq⟩ := Option.map_eq_some_iff.mp h
            cases heq
            obtain ⟨p, rfl, hp⟩ := ih hr
            exact ⟨c :: p, rfl, fun t => by simpa [closed, Pending.mode, hq, hb] using hp t⟩
      | letter =>
          rw [readUnits] at h
          split_ifs at h with hu
          · obtain ⟨p, rfl, hp⟩ := ih h
            exact ⟨c :: p, rfl, hp⟩
          · obtain ⟨u, -, h⟩ := Option.bind_eq_some_iff.mp h
            obtain ⟨⟨us', rest'⟩, hr, heq⟩ := Option.map_eq_some_iff.mp h
            cases heq
            obtain ⟨p, rfl, hp⟩ := ih hr
            exact ⟨c :: p, rfl, hp⟩
      | hex digits v =>
          have hstep : ∃ d, hexVal c = some d ∧ ∃ e' us', e'.mode = .inside ∧
              readUnits e' s = some (us', rest) := by
            cases digits with
            | zero =>
                obtain ⟨d, hd, h⟩ := Option.bind_eq_some_iff.mp h
                obtain ⟨⟨us', rest'⟩, hr, heq⟩ := Option.map_eq_some_iff.mp h
                cases heq
                exact ⟨d, hd, .plain, us', rfl, hr⟩
            | succ digits =>
                obtain ⟨d, hd, h⟩ := Option.bind_eq_some_iff.mp h
                exact ⟨d, hd, .hex digits (v * 16 + d), us, rfl, h⟩
          obtain ⟨d, hd, e', us', hmode, hr⟩ := hstep
          obtain ⟨hq, hb⟩ := hexVal_plain hd
          obtain ⟨p, rfl, hp⟩ := ih hr
          rw [hmode] at hp
          exact ⟨c :: p, rfl, fun t => by simpa [closed, Pending.mode, hq, hb] using hp t⟩

/-! ### Printing -/

/-- How numbers are written, and how one is read at the front of a text. -/
structure Numerals (ν : Type) where
  print : ν → Text
  scan : Text → Option (ν × Text)
  scan_plain : ∀ {s n rest}, scan s = some (n, rest) → ∃ p, s = p ++ rest ∧ Plain p

/-- What follows a value inside a document. -/
def Delimited (rest : Text) : Prop := ∀ c ∈ rest.head?, c = ',' ∨ c = ']' ∨ c = '}'

/-- A character that no value but a number starts with, and no delimiter. -/
def StartsNumber (c : Char) : Prop :=
  c ∉ ['"', '[', '{', 'n', 't', 'f', ']', '}', ' ', '\t', '\n', '\r']

/-- The number is read back from what is written for it. -/
structure Numerals.Reads {ν : Type} (num : Numerals ν) (n : ν) : Prop where
  scan : ∀ rest, Delimited rest → num.scan (num.print n ++ rest) = some (n, rest)
  head : ∃ c s, num.print n = c :: s ∧ StartsNumber c

section Print

variable {ν : Type} (num : Numerals ν)

mutual

/-- The text of a document. -/
def print : Doc ν → Text
  | .null => ['n', 'u', 'l', 'l']
  | .bool true => ['t', 'r', 'u', 'e']
  | .bool false => ['f', 'a', 'l', 's', 'e']
  | .num n => num.print n
  | .str s => quote s
  | .arr [] => ['[', ']']
  | .arr (d :: ds) => '[' :: (print d ++ printItems ds)
  | .obj [] => ['{', '}']
  | .obj ((key, d) :: fields) => '{' :: (quote key ++ ':' :: ' ' :: (print d ++ printFields fields))

/-- The items after the first, and the closing bracket. -/
def printItems : List (Doc ν) → Text
  | [] => [']']
  | d :: ds => ',' :: ' ' :: (print d ++ printItems ds)

/-- The fields after the first, and the closing brace. -/
def printFields : List (Text × Doc ν) → Text
  | [] => ['}']
  | (key, d) :: fields => ',' :: ' ' :: (quote key ++ ':' :: ' ' :: (print d ++ printFields fields))

end

mutual

/-- All numbers of the document are read back. -/
def Doc.Legible : Doc ν → Prop
  | .num n => num.Reads n
  | .arr items => LegibleItems items
  | .obj fields => LegibleFields fields
  | _ => True

def LegibleItems : List (Doc ν) → Prop
  | [] => True
  | d :: ds => d.Legible ∧ LegibleItems ds

def LegibleFields : List (Text × Doc ν) → Prop
  | [] => True
  | (_, d) :: fields => d.Legible ∧ LegibleFields fields

end

section Legible

variable {ν : Type} {num : Numerals ν} {p : ν → Bool}

mutual

theorem legible_of_all (hp : ∀ n, p n = true → num.Reads n) :
    {d : Doc ν} → d.all p = true → d.Legible num
  | .null, _ | .bool _, _ | .str _, _ => trivial
  | .num n, h => hp n h
  | .arr _, h => legibleItems_of_all hp h
  | .obj _, h => legibleFields_of_all hp h

theorem legibleItems_of_all (hp : ∀ n, p n = true → num.Reads n) :
    {ds : List (Doc ν)} → allItems p ds = true → LegibleItems num ds
  | [], _ => trivial
  | _ :: _, h =>
      ⟨legible_of_all hp (Bool.and_eq_true_iff.mp h).1,
        legibleItems_of_all hp (Bool.and_eq_true_iff.mp h).2⟩

theorem legibleFields_of_all (hp : ∀ n, p n = true → num.Reads n) :
    {fields : List (Text × Doc ν)} → allFields p fields = true → LegibleFields num fields
  | [], _ => trivial
  | _ :: _, h =>
      ⟨legible_of_all hp (Bool.and_eq_true_iff.mp h).1,
        legibleFields_of_all hp (Bool.and_eq_true_iff.mp h).2⟩

end

end Legible

/-! ### Reading -/

def isSpace (c : Char) : Bool := c = ' ' || c = '\t' || c = '\n' || c = '\r'

/-- Skip white space. -/
def skip (s : Text) : Text := s.dropWhile isSpace

mutual

/-- A value at the front of a text. -/
def readValue : ℕ → Text → Option (Doc ν × Text)
  | 0, _ => none
  | n + 1, s => match s with
      | '"' :: s => (readString s).map (fun r => (.str r.1, r.2))
      | '[' :: s => match skip s with
          | ']' :: s => some (.arr [], s)
          | s => (readItems n s).map (fun r => (.arr r.1, r.2))
      | '{' :: s => match skip s with
          | '}' :: s => some (.obj [], s)
          | s => (readFields n s).map (fun r => (.obj r.1, r.2))
      | 'n' :: 'u' :: 'l' :: 'l' :: s => some (.null, s)
      | 't' :: 'r' :: 'u' :: 'e' :: s => some (.bool true, s)
      | 'f' :: 'a' :: 'l' :: 's' :: 'e' :: s => some (.bool false, s)
      | s => (num.scan s).map (fun r => (.num r.1, r.2))

/-- Items up to the closing bracket. -/
def readItems : ℕ → Text → Option (List (Doc ν) × Text)
  | 0, _ => none
  | n + 1, s => (readValue n s).bind (fun r => match skip r.2 with
      | ']' :: s => some ([r.1], s)
      | ',' :: s => (readItems n (skip s)).map (fun q => (r.1 :: q.1, q.2))
      | _ => none)

/-- Fields up to the closing brace. -/
def readFields : ℕ → Text → Option (List (Text × Doc ν) × Text)
  | 0, _ => none
  | n + 1, s => match s with
      | '"' :: s => (readString s).bind (fun k => match skip k.2 with
          | ':' :: s => (readValue n (skip s)).bind (fun r => match skip r.2 with
              | '}' :: s => some ([(k.1, r.1)], s)
              | ',' :: s => (readFields n (skip s)).map (fun q => ((k.1, r.1) :: q.1, q.2))
              | _ => none)
          | _ => none)
      | _ => none

end

/-- Read a text that is one document. -/
def read (s : Text) : Option (Doc ν) :=
  (readValue num (s.length + 1) (skip s)).bind (fun r => if skip r.2 = [] then some r.1 else none)

/-! ### Reading what was printed -/

variable {num}

theorem skip_cons {c : Char} (h : isSpace c = false) (s : Text) : skip (c :: s) = c :: s := by
  rw [skip, List.dropWhile_cons_of_neg (by rw [h]; decide)]

theorem skip_space (s : Text) : skip (' ' :: s) = skip s := rfl

/-- A printed document starts with neither white space nor a closing bracket. -/
theorem print_head {d : Doc ν} (hd : d.Legible num) :
    ∃ c s, print num d = c :: s ∧ isSpace c = false ∧ c ≠ ']' ∧ c ≠ '}' := by
  cases d with
  | null => exact ⟨'n', _, rfl, rfl, by decide, by decide⟩
  | bool b => cases b <;> exact ⟨_, _, rfl, rfl, by decide, by decide⟩
  | num k =>
      have hk : num.Reads k := hd
      obtain ⟨c, s, hprint, hstart⟩ := hk.head
      refine ⟨c, s, hprint, ?_, ?_, ?_⟩
      · unfold StartsNumber at hstart
        simp only [List.mem_cons, not_or] at hstart
        simp [isSpace, hstart]
      · rintro rfl
        exact absurd hstart (by unfold StartsNumber; decide)
      · rintro rfl
        exact absurd hstart (by unfold StartsNumber; decide)
  | str s => exact ⟨'"', _, rfl, rfl, by decide, by decide⟩
  | arr items => cases items <;> exact ⟨'[', _, rfl, rfl, by decide, by decide⟩
  | obj fields =>
      cases fields with
      | nil => exact ⟨'{', _, rfl, rfl, by decide, by decide⟩
      | cons f fields => exact ⟨'{', _, rfl, rfl, by decide, by decide⟩

theorem skip_print {d : Doc ν} (hd : d.Legible num) (rest : Text) :
    skip (print num d ++ rest) = print num d ++ rest := by
  obtain ⟨c, s, hprint, hspace, -⟩ := print_head hd
  rw [hprint, List.cons_append, skip_cons hspace]

theorem readValue_number {c : Char} (h : StartsNumber c) (n : ℕ) (s : Text) :
    readValue num (n + 1) (c :: s) = (num.scan (c :: s)).map (fun r => (.num r.1, r.2)) := by
  unfold StartsNumber at h
  simp only [List.mem_cons, not_or] at h
  rw [readValue]
  all_goals
    intros
    rename_i heq
    cases heq
    simp at h

theorem delimited_printItems (num : Numerals ν) (ds : List (Doc ν)) (rest : Text) :
    Delimited (printItems num ds ++ rest) := by
  cases ds with
  | nil => simp [Delimited, printItems]
  | cons d ds => simp [Delimited, printItems]

theorem delimited_printFields (num : Numerals ν) (fields : List (Text × Doc ν)) (rest : Text) :
    Delimited (printFields num fields ++ rest) := by
  cases fields with
  | nil => simp [Delimited, printFields]
  | cons f fields => simp [Delimited, printFields]

/-- What the parser makes of printed documents, items and fields, with so much fuel. -/
structure ReadsBack (num : Numerals ν) (n : ℕ) : Prop where
  value : ∀ {d : Doc ν} {rest : Text}, d.Legible num → Delimited rest →
    (print num d).length < n → readValue num n (print num d ++ rest) = some (d, rest)
  items : ∀ {d : Doc ν} {ds : List (Doc ν)} {rest : Text}, d.Legible num → LegibleItems num ds →
    (print num d ++ printItems num ds).length < n →
    readItems num n (print num d ++ (printItems num ds ++ rest)) = some (d :: ds, rest)
  fields : ∀ {key : Text} {d : Doc ν} {fields : List (Text × Doc ν)} {rest : Text},
    d.Legible num → LegibleFields num fields →
    (print num d ++ printFields num fields).length + 1 < n →
    readFields num n (quote key ++ ':' :: ' ' :: (print num d ++ (printFields num fields ++ rest))) =
      some ((key, d) :: fields, rest)

theorem readsBack_value {n : ℕ} (ih : ReadsBack num n) {d : Doc ν} {rest : Text}
    (hd : d.Legible num) (hrest : Delimited rest) (hlen : (print num d).length < n + 1) :
    readValue num (n + 1) (print num d ++ rest) = some (d, rest) := by
  cases d with
  | null => rfl
  | bool b => cases b <;> rfl
  | num k =>
      have hk : num.Reads k := hd
      obtain ⟨c, s, hprint, hstart⟩ := hk.head
      have hscan := hk.scan rest hrest
      rw [print, hprint, List.cons_append] at *
      rw [readValue_number hstart, hscan]
      rfl
  | str s =>
      have hread := readString_escape s rest
      simp only [print, quote, List.cons_append, List.append_assoc, List.nil_append, readValue]
      rw [hread]
      rfl
  | arr items =>
      cases items with
      | nil => rfl
      | cons d ds =>
          obtain ⟨hd1, hds⟩ : d.Legible num ∧ LegibleItems num ds := hd
          obtain ⟨c, s, hprint, hspace, hclose, -⟩ := print_head hd1
          have hitems := @ReadsBack.items _ _ _ ih d ds rest hd1 hds (by
            simp only [print, List.length_cons] at hlen
            omega)
          rw [hprint, List.cons_append] at hitems
          simp only [print, List.cons_append, List.append_assoc, readValue]
          rw [hprint, List.cons_append, skip_cons hspace]
          split
          · rename_i heq
            exact absurd (List.cons.inj heq).1 hclose
          · rw [hitems]
            rfl
  | obj fields =>
      cases fields with
      | nil => rfl
      | cons f fields =>
          obtain ⟨key, d⟩ := f
          obtain ⟨hd1, hfs⟩ : d.Legible num ∧ LegibleFields num fields := hd
          have hfields := @ReadsBack.fields _ _ _ ih key d fields rest hd1 hfs (by
            simp only [print, quote, List.length_cons, List.length_append] at hlen ⊢
            omega)
          simp only [print, quote, List.cons_append, List.append_assoc, List.nil_append,
            readValue] at hfields ⊢
          rw [skip_cons rfl]
          exact congrArg (Option.map (fun r => (Doc.obj r.1, r.2))) hfields

theorem readsBack (num : Numerals ν) (n : ℕ) : ReadsBack num n := by
  induction n with
  | zero => exact ⟨fun _ _ h => absurd h (Nat.not_lt_zero _),
      fun _ _ h => absurd h (Nat.not_lt_zero _), fun _ _ h => absurd h (Nat.not_lt_zero _)⟩
  | succ n ih =>
      refine ⟨readsBack_value ih, ?_, ?_⟩
      · intro d ds rest hd hds hlen
        have hpos : 0 < (printItems num ds).length := by
          cases ds <;> simp [printItems]
        rw [List.length_append] at hlen
        have hvalue := ih.value hd (delimited_printItems num ds rest) (by omega)
        rw [readItems, hvalue, Option.bind_some]
        cases ds with
        | nil => rfl
        | cons e es =>
            obtain ⟨he, hes⟩ : e.Legible num ∧ LegibleItems num es := hds
            have hitems := @ReadsBack.items _ _ _ ih e es rest he hes (by
              simp only [printItems, List.length_cons, List.length_append] at hlen ⊢
              omega)
            simp only [printItems, List.cons_append, List.append_assoc]
            rw [skip_cons rfl]
            show Option.map _ (readItems num n (skip (' ' :: _))) = _
            rw [skip_space, skip_print he, hitems]
            rfl
      · intro key d fields rest hd hfs hlen
        have hpos : 0 < (printFields num fields).length := by
          cases fields <;> simp [printFields]
        rw [List.length_append] at hlen
        have hvalue := ih.value hd (delimited_printFields num fields rest) (by omega)
        have hread := readString_escape key
          (':' :: ' ' :: (print num d ++ (printFields num fields ++ rest)))
        simp only [quote, List.cons_append, List.append_assoc, List.nil_append, readFields]
        rw [hread, Option.bind_some, skip_cons rfl]
        show Option.bind (readValue num n (skip (' ' :: _))) _ = _
        rw [skip_space, skip_print hd, hvalue, Option.bind_some]
        cases fields with
        | nil => rfl
        | cons f fs =>
            obtain ⟨key', e⟩ := f
            obtain ⟨he, hes⟩ : e.Legible num ∧ LegibleFields num fs := hfs
            have hfields := @ReadsBack.fields _ _ _ ih key' e fs rest he hes (by
              simp only [printFields, quote, List.length_cons, List.length_append] at hlen ⊢
              omega)
            simp only [printFields, quote, List.cons_append, List.append_assoc, List.nil_append]
              at hfields ⊢
            rw [skip_cons rfl]
            show Option.map _ (readFields num n (skip (' ' :: _))) = _
            rw [skip_space, skip_cons rfl, hfields]
            rfl

/-- **What is printed is read back.** -/
theorem read_print {d : Doc ν} (hd : d.Legible num) : read num (print num d) = some d := by
  have hvalue := @ReadsBack.value _ _ _ (readsBack num ((print num d).length + 1)) d [] hd nofun
    (Nat.lt_succ_self _)
  have hskip := skip_print hd []
  rw [List.append_nil] at hvalue hskip
  rw [read, hskip, hvalue]
  rfl

/-! ### Every text that is read closes -/

theorem Neutral.cons {c : Char} {p : Text} (hc : c.toNat < 128 ∧ c ≠ '"') (hp : Neutral p) :
    Neutral (c :: p) := by
  intro rest
  have hrest := hp rest
  simp [closed, hc.1, hc.2, hrest]

theorem neutral_skip (s : Text) : ∃ p, s = p ++ skip s ∧ Neutral p := by
  refine ⟨s.takeWhile isSpace, (List.takeWhile_append_dropWhile ..).symm, Plain.neutral ?_⟩
  intro c hc
  have hspace := List.all_eq_true.mp (List.all_takeWhile (p := isSpace)) c hc
  simp only [isSpace, Bool.or_eq_true, decide_eq_true_eq] at hspace
  rcases hspace with ((rfl | rfl) | rfl) | rfl <;> decide

theorem neutral_readString {s t rest : Text} (h : readString s = some (t, rest)) :
    ∃ p, '"' :: s = p ++ rest ∧ Neutral p := by
  obtain ⟨⟨us, rest'⟩, hus, h⟩ := Option.bind_eq_some_iff.mp h
  obtain ⟨t', -, heq⟩ := Option.map_eq_some_iff.mp h
  cases heq
  obtain ⟨p, rfl, hp⟩ := closing_of_readUnits hus
  exact ⟨'"' :: p, rfl, hp⟩

/-- With so much fuel, what has been read is neutral. -/
structure ReadsNeutral (num : Numerals ν) (n : ℕ) : Prop where
  value : ∀ {s rest : Text} {d : Doc ν}, readValue num n s = some (d, rest) →
    ∃ p, s = p ++ rest ∧ Neutral p
  items : ∀ {s rest : Text} {ds : List (Doc ν)}, readItems num n s = some (ds, rest) →
    ∃ p, s = p ++ rest ∧ Neutral p
  fields : ∀ {s rest : Text} {fs : List (Text × Doc ν)}, readFields num n s = some (fs, rest) →
    ∃ p, s = p ++ rest ∧ Neutral p

theorem neutral_trans {s t rest : Text} (h : ∃ p, s = p ++ t ∧ Neutral p)
    (h' : ∃ p, t = p ++ rest ∧ Neutral p) : ∃ p, s = p ++ rest ∧ Neutral p := by
  obtain ⟨p, rfl, hp⟩ := h
  obtain ⟨q, rfl, hq⟩ := h'
  exact ⟨p ++ q, (List.append_assoc ..).symm, hp.append hq⟩

theorem neutral_char {c : Char} (hc : c.toNat < 128 ∧ c ≠ '"') (s : Text) :
    ∃ p, c :: s = p ++ s ∧ Neutral p := ⟨[c], rfl, neutral_nil.cons hc⟩

theorem readsNeutral_value {n : ℕ} (ih : ReadsNeutral num n) {s rest : Text} {d : Doc ν}
    (h : readValue num (n + 1) s = some (d, rest)) : ∃ p, s = p ++ rest ∧ Neutral p := by
  rw [readValue.eq_def] at h
  dsimp only at h
  split at h
  · obtain ⟨⟨t, rest'⟩, hr, heq⟩ := Option.map_eq_some_iff.mp h
    cases heq
    exact neutral_readString hr
  · rename_i s'
    have hopen := neutral_trans (@neutral_char '[' (by decide) s') (neutral_skip s')
    split at h
    · rename_i hskip
      cases h
      rw [hskip] at hopen
      exact neutral_trans hopen (neutral_char (by decide) _)
    · obtain ⟨⟨ds, rest'⟩, hr, heq⟩ := Option.map_eq_some_iff.mp h
      cases heq
      exact neutral_trans hopen (ih.items hr)
  · rename_i s'
    have hopen := neutral_trans (@neutral_char '{' (by decide) s') (neutral_skip s')
    split at h
    · rename_i hskip
      cases h
      rw [hskip] at hopen
      exact neutral_trans hopen (neutral_char (by decide) _)
    · obtain ⟨⟨fs, rest'⟩, hr, heq⟩ := Option.map_eq_some_iff.mp h
      cases heq
      exact neutral_trans hopen (ih.fields hr)
  · cases h
    exact ⟨['n', 'u', 'l', 'l'], rfl, (plain_of_all rfl).neutral⟩
  · cases h
    exact ⟨['t', 'r', 'u', 'e'], rfl, (plain_of_all rfl).neutral⟩
  · cases h
    exact ⟨['f', 'a', 'l', 's', 'e'], rfl, (plain_of_all rfl).neutral⟩
  · obtain ⟨⟨k, rest'⟩, hr, heq⟩ := Option.map_eq_some_iff.mp h
    cases heq
    obtain ⟨p, hp, hplain⟩ := num.scan_plain hr
    exact ⟨p, hp, hplain.neutral⟩

theorem readsNeutral (num : Numerals ν) (n : ℕ) : ReadsNeutral num n := by
  induction n with
  | zero => exact ⟨nofun, nofun, nofun⟩
  | succ n ih =>
      refine ⟨readsNeutral_value ih, ?_, ?_⟩
      · intro s rest ds h
        rw [readItems] at h
        obtain ⟨⟨d, t⟩, hd, h⟩ := Option.bind_eq_some_iff.mp h
        have hvalue := neutral_trans (ih.value hd) (neutral_skip t)
        dsimp only at h
        split at h
        · rename_i hskip
          cases h
          rw [hskip] at hvalue
          exact neutral_trans hvalue (neutral_char (by decide) _)
        · rename_i t' hskip
          obtain ⟨⟨ds', rest'⟩, hr, heq⟩ := Option.map_eq_some_iff.mp h
          cases heq
          rw [hskip] at hvalue
          have hcomma := neutral_trans hvalue (neutral_char (by decide) t')
          exact neutral_trans (neutral_trans hcomma (neutral_skip t')) (ih.items hr)
        · cases h
      · intro s rest fs h
        rw [readFields.eq_def] at h
        dsimp only at h
        split at h
        · rename_i s'
          obtain ⟨⟨key, t⟩, hk, h⟩ := Option.bind_eq_some_iff.mp h
          have hkey := neutral_trans (neutral_readString hk) (neutral_skip t)
          dsimp only at h
          split at h
          · rename_i t₁ hskip
            rw [hskip] at hkey
            have hcolon := neutral_trans (neutral_trans hkey (neutral_char (by decide) t₁))
              (neutral_skip t₁)
            obtain ⟨⟨d, t₂⟩, hd, h⟩ := Option.bind_eq_some_iff.mp h
            have hvalue := neutral_trans (neutral_trans hcolon (ih.value hd)) (neutral_skip t₂)
            dsimp only at h
            split at h
            · rename_i hskip'
              cases h
              rw [hskip'] at hvalue
              exact neutral_trans hvalue (neutral_char (by decide) _)
            · rename_i t₃ hskip'
              obtain ⟨⟨fs', rest'⟩, hr, heq⟩ := Option.map_eq_some_iff.mp h
              cases heq
              rw [hskip'] at hvalue
              have hcomma := neutral_trans hvalue (neutral_char (by decide) t₃)
              exact neutral_trans (neutral_trans hcomma (neutral_skip t₃)) (ih.fields hr)
            · cases h
          · cases h
        · cases h

/-- **A text that is read closes its quotes**, with nothing but ASCII outside of them. -/
theorem closed_of_read {s : Text} {d : Doc ν} (h : read num s = some d) :
    closed .outside s = true := by
  obtain ⟨⟨d', rest⟩, hvalue, h⟩ := Option.bind_eq_some_iff.mp h
  dsimp only at h
  split_ifs at h with hend
  obtain ⟨p, hp, hneutral⟩ := neutral_trans (neutral_trans (neutral_skip s)
    ((readsNeutral num _).value hvalue)) (neutral_skip rest)
  rw [hp, hneutral, hend]
  rfl

theorem read_append_mark {mark : Text} (h : IsMark mark) (s : Text) :
    read num (s ++ mark) = none := by
  cases hr : read num (s ++ mark) with
  | none => rfl
  | some d =>
      have hclosed := closed_of_read hr
      rw [closed_append_mark h] at hclosed
      cases hclosed

end Print

end JsonText
