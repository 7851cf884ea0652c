import FirewallLLM.Decimal
import FirewallLLM.JsonText

/-! # `json.dumps` and `json.loads`

The two functions of Python's `json` on the documents of `JsonText`, whose numbers are Python's:
integers of any size and floats with the three constants.  Both functions refuse an integer of
more than `maxStrDigits` digits, as `int` and `str` do.  How a finite float is written and read
is a parameter (`FloatText`).

`loads_dumps`: what `dumps` writes is read back, where the keys of every dictionary differ. -/

namespace FirewallLLM.PyJson

open Decimal JsonText

/-! ### Numbers -/

inductive PyFloat (F : Type) where
  | finite (x : F)
  | nan
  | infinity
  | negInfinity

inductive PyNum (F : Type) where
  | int (n : ℤ)
  | float (x : PyFloat F)

/-- `sys.get_int_max_str_digits()`. -/
def maxStrDigits : ℕ := 4300

/-- The parts of a number: the fraction has its point and the exponent its mark. -/
structure Literal where
  sign : Text
  whole : Text
  frac : Text
  exp : Text

def Literal.text (l : Literal) : Text := l.sign ++ (l.whole ++ (l.frac ++ l.exp))

/-- The literal is one of a float. -/
def Literal.isFloat (l : Literal) : Bool := !(l.frac ++ l.exp).isEmpty

/-- `-?` -/
def splitSign : Text → Text × Text
  | '-' :: s => (['-'], s)
  | s => ([], s)

/-- `0|[1-9]\d*`; nothing where there is no digit. -/
def splitWhole : Text → Text × Text
  | '0' :: s => (['0'], s)
  | s => (s.takeWhile Char.isDigit, s.dropWhile Char.isDigit)

/-- `(\.\d+)?` -/
def splitFrac : Text → Text × Text
  | '.' :: s =>
      if (s.takeWhile Char.isDigit).isEmpty then ([], '.' :: s)
      else ('.' :: s.takeWhile Char.isDigit, s.dropWhile Char.isDigit)
  | s => ([], s)

/-- `[-+]?` -/
def splitExpSign : Text → Text × Text
  | '-' :: s => (['-'], s)
  | '+' :: s => (['+'], s)
  | s => ([], s)

/-- `([eE][-+]?\d+)?` -/
def splitExp : Text → Text × Text
  | [] => ([], [])
  | c :: s =>
      if c = 'e' ∨ c = 'E' then
        if ((splitExpSign s).2.takeWhile Char.isDigit).isEmpty then ([], c :: s)
        else (c :: ((splitExpSign s).1 ++ (splitExpSign s).2.takeWhile Char.isDigit),
          (splitExpSign s).2.dropWhile Char.isDigit)
      else ([], c :: s)

/-- The number at the front of a text. -/
def scanLiteral (s : Text) : Option (Literal × Text) :=
  let sign := splitSign s
  let whole := splitWhole sign.2
  let frac := splitFrac whole.2
  let exp := splitExp frac.2
  if whole.1.isEmpty then none else some (⟨sign.1, whole.1, frac.1, exp.1⟩, exp.2)

/-- How floats are written and read: what `repr` writes is the literal of a float, which `float`
reads back. -/
structure FloatText (F : Type) where
  repr : F → Text
  read : Text → PyFloat F
  scan_repr : ∀ x rest, Delimited rest →
    ∃ l, scanLiteral (repr x ++ rest) = some (l, rest) ∧ l.isFloat = true
  read_repr : ∀ x, read (repr x) = .finite x

section Numbers

variable {F : Type} (text : FloatText F)

/-- `floatstr`. -/
def floatText : PyFloat F → Text
  | .finite x => text.repr x
  | .nan => ['N', 'a', 'N']
  | .infinity => ['I', 'n', 'f', 'i', 'n', 'i', 't', 'y']
  | .negInfinity => ['-', 'I', 'n', 'f', 'i', 'n', 'i', 't', 'y']

def numText : PyNum F → Text
  -- `int.__repr__`
  | .int n => intText n
  | .float x => floatText text x

/-- The number of a literal; an integer of too many digits is refused. -/
def literalValue (l : Literal) : Option (PyNum F) :=
  if l.isFloat then some (.float (text.read l.text))
  else if maxStrDigits < l.whole.length then none
  else if l.sign.isEmpty then some (.int (Nat.ofDigitChars 10 l.whole 0))
  else some (.int (-(Nat.ofDigitChars 10 l.whole 0 : ℕ)))

/-- `_parse_constant`: what is no literal may be one of the constants. -/
def scanConstant : Text → Option (PyNum F × Text)
  | 'N' :: 'a' :: 'N' :: s => some (.float .nan, s)
  | 'I' :: 'n' :: 'f' :: 'i' :: 'n' :: 'i' :: 't' :: 'y' :: s => some (.float .infinity, s)
  | '-' :: 'I' :: 'n' :: 'f' :: 'i' :: 'n' :: 'i' :: 't' :: 'y' :: s =>
      some (.float .negInfinity, s)
  | _ => none

/-- The number at the front of a text. -/
def scanNumber (s : Text) : Option (PyNum F × Text) :=
  match scanLiteral s with
  | some (l, rest) => (literalValue text l).map (fun n => (n, rest))
  | none => scanConstant s

end Numbers

/-! ### What is scanned is ASCII without quotes -/

/-- A split takes plain text off the front. -/
def SplitsPlain (split : Text → Text × Text) : Prop :=
  ∀ s, s = (split s).1 ++ (split s).2 ∧ Plain (split s).1

theorem plain_digit {c : Char} (h : c.isDigit = true) : c.toNat < 128 ∧ c ≠ '"' := by
  refine ⟨?_, ?_⟩
  · simp only [Char.isDigit, Bool.and_eq_true, decide_eq_true_eq] at h
    have hle : c.toNat ≤ 57 := h.2
    omega
  · rintro rfl
    exact absurd h (by decide)

theorem plain_digits (s : Text) : Plain (s.takeWhile Char.isDigit) := fun c hc =>
  plain_digit (List.all_eq_true.mp (List.all_takeWhile (p := Char.isDigit)) c hc)

theorem splitsPlain_sign : SplitsPlain splitSign := by
  intro s
  unfold splitSign
  split
  · exact ⟨rfl, Plain.cons (by decide) plain_nil⟩
  · exact ⟨rfl, plain_nil⟩

theorem splitsPlain_whole : SplitsPlain splitWhole := by
  intro s
  unfold splitWhole
  split
  · exact ⟨rfl, Plain.cons (by decide) plain_nil⟩
  · exact ⟨List.takeWhile_append_dropWhile.symm, plain_digits _⟩

theorem splitsPlain_frac : SplitsPlain splitFrac := by
  intro s
  unfold splitFrac
  split
  · split_ifs
    · exact ⟨rfl, plain_nil⟩
    · exact ⟨congrArg (List.cons '.') List.takeWhile_append_dropWhile.symm,
        Plain.cons (by decide) (plain_digits _)⟩
  · exact ⟨rfl, plain_nil⟩

theorem splitsPlain_expSign : SplitsPlain splitExpSign := by
  intro s
  unfold splitExpSign
  split
  · exact ⟨rfl, Plain.cons (by decide) plain_nil⟩
  · exact ⟨rfl, Plain.cons (by decide) plain_nil⟩
  · exact ⟨rfl, plain_nil⟩

theorem splitsPlain_exp : SplitsPlain splitExp := by
  intro s
  cases s with
  | nil => exact ⟨rfl, plain_nil⟩
  | cons c s =>
      rw [splitExp]
      split_ifs with hmark hempty
      · exact ⟨rfl, plain_nil⟩
      · obtain ⟨hs, hplain⟩ := splitsPlain_expSign s
        refine ⟨?_, Plain.cons ?_ (Plain.append hplain (plain_digits _))⟩
        · rw [List.cons_append, List.append_assoc, List.takeWhile_append_dropWhile, ← hs]
        · rcases hmark with rfl | rfl <;> decide
      · exact ⟨rfl, plain_nil⟩

theorem scanLiteral_text {s rest : Text} {l : Literal} (h : scanLiteral s = some (l, rest)) :
    s = l.text ++ rest ∧ Plain l.text := by
  unfold scanLiteral at h
  dsimp only at h
  split_ifs at h with hwhole
  obtain ⟨rfl, rfl⟩ := Prod.mk.inj (Option.some.inj h)
  obtain ⟨h1, p1⟩ := splitsPlain_sign s
  obtain ⟨h2, p2⟩ := splitsPlain_whole (splitSign s).2
  obtain ⟨h3, p3⟩ := splitsPlain_frac (splitWhole (splitSign s).2).2
  obtain ⟨h4, p4⟩ := splitsPlain_exp (splitFrac (splitWhole (splitSign s).2).2).2
  refine ⟨?_, Plain.append p1 (Plain.append p2 (Plain.append p3 p4))⟩
  simp only [Literal.text, List.append_assoc]
  rw [← h4, ← h3, ← h2, ← h1]

theorem scanNumber_plain {F : Type} {text : FloatText F} {s rest : Text} {n : PyNum F}
    (h : scanNumber text s = some (n, rest)) : ∃ p, s = p ++ rest ∧ Plain p := by
  unfold scanNumber at h
  split at h
  · rename_i l rest' hl
    obtain ⟨n', -, heq⟩ := Option.map_eq_some_iff.mp h
    cases heq
    exact ⟨l.text, scanLiteral_text hl⟩
  · unfold scanConstant at h
    split at h
    · cases h
      exact ⟨['N', 'a', 'N'], rfl, plain_of_all rfl⟩
    · cases h
      exact ⟨['I', 'n', 'f', 'i', 'n', 'i', 't', 'y'], rfl, plain_of_all rfl⟩
    · cases h
      exact ⟨['-', 'I', 'n', 'f', 'i', 'n', 'i', 't', 'y'], rfl, plain_of_all rfl⟩
    · cases h

/-- The numbers of Python's `json`. -/
def numerals {F : Type} (text : FloatText F) : Numerals (PyNum F) where
  print := numText text
  scan := scanNumber text
  scan_plain := scanNumber_plain

/-! ### Numbers that are read back -/

/-- `dumps` writes the number. -/
def short {F : Type} : PyNum F → Bool
  | .int n => n.natAbs < 10 ^ maxStrDigits
  | .float _ => true

theorem delimited_not_digit {c : Char} {s : Text} (h : Delimited (c :: s)) :
    c.isDigit = false ∧ c ≠ '.' ∧ c ≠ 'e' ∧ c ≠ 'E' := by
  rcases h c rfl with rfl | rfl | rfl <;> decide

theorem takeWhile_digits {p rest : Text} (hp : ∀ c ∈ p, c.isDigit = true) (h : Delimited rest) :
    (p ++ rest).takeWhile Char.isDigit = p ∧ (p ++ rest).dropWhile Char.isDigit = rest := by
  rw [List.takeWhile_append_of_pos hp, List.dropWhile_append_of_pos hp]
  cases rest with
  | nil => simp
  | cons c s =>
      have hc := (delimited_not_digit h).1
      simp [hc]

theorem splitFrac_delimited {rest : Text} (h : Delimited rest) : splitFrac rest = ([], rest) := by
  cases rest with
  | nil => rfl
  | cons c s =>
      have hc := (delimited_not_digit h).2.1
      unfold splitFrac
      split
      · rename_i heq
        exact absurd (List.cons.inj heq).1 hc
      · rfl

theorem splitExp_delimited {rest : Text} (h : Delimited rest) : splitExp rest = ([], rest) := by
  cases rest with
  | nil => rfl
  | cons c s =>
      obtain ⟨-, -, hlow, hup⟩ := delimited_not_digit h
      rw [splitExp, if_neg (by rintro (rfl | rfl) <;> contradiction)]

theorem splitWhole_toDigits (n : ℕ) {rest : Text} (h : Delimited rest) :
    splitWhole (Nat.toDigits 10 n ++ rest) = (Nat.toDigits 10 n, rest) := by
  rcases Nat.eq_zero_or_pos n with rfl | hn
  · rfl
  · obtain ⟨c, s, hdigits, hc⟩ := toDigits_head hn
    obtain ⟨htake, hdrop⟩ := takeWhile_digits (fun _ hd => toDigits_digit hd) h
    unfold splitWhole
    split
    · rename_i heq
      rw [hdigits, List.cons_append] at heq
      exact absurd (List.cons.inj heq).1 hc
    · rw [htake, hdrop]

theorem splitSign_toDigits (n : ℕ) (rest : Text) :
    splitSign (Nat.toDigits 10 n ++ rest) = ([], Nat.toDigits 10 n ++ rest) := by
  unfold splitSign
  split
  · rename_i s heq
    cases hdigits : Nat.toDigits 10 n with
    | nil => exact absurd hdigits Nat.toDigits_ne_nil
    | cons c t =>
        rw [hdigits, List.cons_append] at heq
        have hc : c.isDigit = true := toDigits_digit (by rw [hdigits]; exact List.mem_cons_self)
        rw [(List.cons.inj heq).1] at hc
        exact absurd hc (by decide)
  · rfl

theorem isEmpty_toDigits (n : ℕ) : (Nat.toDigits 10 n).isEmpty = false := by
  rw [List.isEmpty_eq_false_iff]
  exact Nat.toDigits_ne_nil

theorem scanLiteral_nat (n : ℕ) {rest : Text} (h : Delimited rest) :
    scanLiteral (Nat.toDigits 10 n ++ rest) =
      some (⟨[], Nat.toDigits 10 n, [], []⟩, rest) := by
  simp only [scanLiteral, splitSign_toDigits, splitWhole_toDigits n h, splitFrac_delimited h,
    splitExp_delimited h, isEmpty_toDigits, Bool.false_eq_true, if_false]

theorem scanLiteral_neg (n : ℕ) {rest : Text} (h : Delimited rest) :
    scanLiteral ('-' :: (Nat.toDigits 10 n ++ rest)) =
      some (⟨['-'], Nat.toDigits 10 n, [], []⟩, rest) := by
  have hsign : splitSign ('-' :: (Nat.toDigits 10 n ++ rest)) =
      (['-'], Nat.toDigits 10 n ++ rest) := rfl
  simp only [scanLiteral, hsign, splitWhole_toDigits n h, splitFrac_delimited h,
    splitExp_delimited h, isEmpty_toDigits, Bool.false_eq_true, if_false]

theorem length_digits {n : ℕ} (h : n < 10 ^ maxStrDigits) :
    ¬ maxStrDigits < (Nat.toDigits 10 n).length :=
  Nat.not_lt.mpr ((Nat.length_toDigits_le_iff (by decide) (by decide)).mpr h)

theorem startsNumber_digit {c : Char} (h : c.isDigit = true) : StartsNumber c := by
  intro hc
  simp only [List.mem_cons, List.not_mem_nil, or_false] at hc
  rcases hc with rfl | rfl | rfl | rfl | rfl | rfl | rfl | rfl | rfl | rfl | rfl | rfl <;>
    exact absurd h (by decide)

section Reads

variable {F : Type} {text : FloatText F}

theorem reads_int {n : ℤ} (h : n.natAbs < 10 ^ maxStrDigits) :
    (numerals text).Reads (.int n) := by
  cases n with
  | ofNat n =>
      have hn : n < 10 ^ maxStrDigits := h
      refine ⟨fun rest hrest => ?_, ?_⟩
      · show scanNumber text (Nat.toDigits 10 n ++ rest) = _
        rw [scanNumber, scanLiteral_nat n hrest]
        simp [literalValue, Literal.isFloat, length_digits hn, Nat.ofDigitChars_ten_toDigits]
      · cases hdigits : Nat.toDigits 10 n with
        | nil => exact absurd hdigits Nat.toDigits_ne_nil
        | cons c s =>
            have hc : c ∈ Nat.toDigits 10 n := by
              rw [hdigits]
              exact List.mem_cons_self
            exact ⟨c, s, hdigits, startsNumber_digit (toDigits_digit hc)⟩
  | negSucc n =>
      have hn : n + 1 < 10 ^ maxStrDigits := h
      refine ⟨fun rest hrest => ?_, '-', _, rfl, by unfold StartsNumber; decide⟩
      show scanNumber text ('-' :: (Nat.toDigits 10 (n + 1) ++ rest)) = _
      rw [scanNumber, scanLiteral_neg (n + 1) hrest]
      simp [literalValue, Literal.isFloat, length_digits hn, Nat.ofDigitChars_ten_toDigits,
        Int.negSucc_eq]

theorem splitSign_fst (s : Text) : (splitSign s).1 = [] ∨ (splitSign s).1 = ['-'] := by
  unfold splitSign
  split
  · exact .inr rfl
  · exact .inl rfl

theorem splitWhole_head {s : Text} {c : Char} {t : Text} (h : (splitWhole s).1 = c :: t) :
    c.isDigit = true := by
  unfold splitWhole at h
  split at h
  · rw [← (List.cons.inj h).1]
    decide
  · have htake : List.takeWhile Char.isDigit s = c :: t := h
    have hc : c ∈ List.takeWhile Char.isDigit s := by
      rw [htake]
      exact List.mem_cons_self
    exact List.all_eq_true.mp (List.all_takeWhile (p := Char.isDigit)) c hc

theorem text_of_sign {l : Literal} {c : Char} {t : Text} (h : l.sign = c :: t) :
    ∃ t', l.text = c :: t' := ⟨t ++ (l.whole ++ (l.frac ++ l.exp)), by rw [Literal.text, h]; rfl⟩

theorem text_of_whole {l : Literal} {c : Char} {t : Text} (hsign : l.sign = [])
    (h : l.whole = c :: t) : ∃ t', l.text = c :: t' :=
  ⟨t ++ (l.frac ++ l.exp), by rw [Literal.text, hsign, h]; rfl⟩

theorem scanLiteral_parts {s rest : Text} {l : Literal} (h : scanLiteral s = some (l, rest)) :
    (l.sign = [] ∨ l.sign = ['-']) ∧ ∃ c t, l.whole = c :: t ∧ c.isDigit = true := by
  unfold scanLiteral at h
  dsimp only at h
  split_ifs at h with hwhole
  obtain ⟨rfl, -⟩ := Prod.mk.inj (Option.some.inj h)
  refine ⟨splitSign_fst s, ?_⟩
  obtain ⟨c, t, hw⟩ := List.exists_cons_of_ne_nil (mt List.isEmpty_iff.mpr hwhole)
  exact ⟨c, t, hw, splitWhole_head hw⟩

theorem scanLiteral_head {s rest : Text} {l : Literal} (h : scanLiteral s = some (l, rest)) :
    ∃ c t, l.text = c :: t ∧ StartsNumber c := by
  obtain ⟨hsign | hsign, c, t, hw, hc⟩ := scanLiteral_parts h
  · obtain ⟨t', htext⟩ := text_of_whole hsign hw
    exact ⟨c, t', htext, startsNumber_digit hc⟩
  · obtain ⟨t', htext⟩ := text_of_sign hsign
    exact ⟨'-', t', htext, by unfold StartsNumber; decide⟩

theorem reads_finite (x : F) : (numerals text).Reads (.float (.finite x)) := by
  refine ⟨fun rest hrest => ?_, ?_⟩
  · obtain ⟨l, hl, hfloat⟩ := text.scan_repr x rest hrest
    have htext := List.append_cancel_right (scanLiteral_text hl).1
    show scanNumber text (text.repr x ++ rest) = _
    rw [scanNumber, hl]
    simp only [literalValue, hfloat, if_true, ← htext, text.read_repr, Option.map_some]
  · obtain ⟨l, hl, -⟩ := text.scan_repr x [] nofun
    have htext := List.append_cancel_right (scanLiteral_text hl).1
    obtain ⟨c, t, hc, hstart⟩ := scanLiteral_head hl
    exact ⟨c, t, htext.trans hc, hstart⟩

/-- A number that `dumps` writes is read back. -/
theorem reads_of_short {n : PyNum F} (h : short n = true) : (numerals text).Reads n := by
  cases n with
  | int n => exact reads_int (by simpa [short] using h)
  | float x =>
      cases x with
      | finite x => exact reads_finite x
      | nan => exact ⟨fun _ _ => rfl, 'N', _, rfl, by unfold StartsNumber; decide⟩
      | infinity => exact ⟨fun _ _ => rfl, 'I', _, rfl, by unfold StartsNumber; decide⟩
      | negInfinity => exact ⟨fun _ _ => rfl, '-', _, rfl, by unfold StartsNumber; decide⟩

end Reads

/-! ### The two functions -/

/-- A value of Python that `json` knows. -/
abbrev Value (F : Type) := Doc (PyNum F)

inductive JsonError where
  /-- An integer of too many digits. -/
  | intTooLong
  /-- `JSONDecodeError`, or such an integer in the text. -/
  | undecodable

section Codec

variable {F : Type} (text : FloatText F)

/-- `json.dumps(value)`. -/
def dumps (value : Value F) : Except JsonError Text :=
  if value.all short then .ok (print (numerals text) value) else .error .intTooLong

/-- `json.loads(s)`. -/
def loads (s : Text) : Except JsonError (Value F) :=
  match read (numerals text) s with
  | some d => .ok d.lastWins
  | none => .error .undecodable

variable {text}

/-- **`loads` gives back what `dumps` wrote.** -/
theorem loads_dumps {value : Value F} {s : Text} (hkeys : value.UniqueKeys)
    (h : dumps text value = .ok s) : loads text s = .ok value := by
  unfold dumps at h
  split_ifs at h with hshort
  cases h
  have hlegible := @legible_of_all _ (numerals text) _ (fun _ hn => reads_of_short hn) _ hshort
  rw [loads, read_print hlegible]
  exact congrArg Except.ok (lastWins_of_uniqueKeys hkeys)

end Codec

end FirewallLLM.PyJson
