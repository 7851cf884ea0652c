import FirewallLLM.Dlp

/-! # Python values

The values that the Python gateway reads out of JSON, and the built-in operations it applies to
them: truth, `int`, iteration, `get` and item assignment.  An operation raises where Python
does.  A dictionary has its items in the order of insertion. -/

namespace FirewallLLM.Py

open Dlp (Text)

/-! ### Exceptions -/

/-- `ApiError`; the only detail the gateway gives is a reason. -/
structure ApiError where
  status : ℕ
  type : String
  message : String
  code : Option String
  reason : Option String

/-- `blocked_error`. -/
def blockedError (message reason : String) : ApiError :=
  ⟨403, "permission_error", message, some "blocked_by_inspector", some reason⟩

/-- `rate_limit_error`. -/
def rateLimitError (message : String) : ApiError := ⟨429, "rate_limit_error", message, none, none⟩

/-- `upstream_error`. -/
def upstreamError (message : String) : ApiError := ⟨502, "upstream_error", message, none, none⟩

/-- What can be raised. -/
inductive Exn where
  | blocked (message reason : String)
  | quotaExceeded (message : String)
  | provider (message : String)
  | api (err : ApiError)
  | cancelled
  | generatorExit
  | other (type message : String)

/-- `str(exc)`. -/
def Exn.str : Exn → String
  | blocked message _ => message
  | quotaExceeded message => message
  | provider message => message
  | api err => err.message
  | other _ message => message
  | _ => ""

/-- What `except Exception` catches. -/
def Exn.isException : Exn → Bool
  | cancelled | generatorExit => false
  | _ => true

/-! ### Values -/

/-- A float: `m * 2 ^ e`, or none of the finite ones. -/
inductive PyFloat where
  | finite (m e : ℤ)
  | inf (negative : Bool)
  | nan
deriving DecidableEq

inductive Value where
  | none
  | bool (b : Bool)
  | int (n : ℤ)
  | float (x : PyFloat)
  | str (s : Text)
  | list (items : List Value)
  | dict (fields : List (String × Value))

namespace Value

/-- `type(value).__name__`. -/
def typeName : Value → String
  | none => "NoneType"
  | bool _ => "bool"
  | int _ => "int"
  | float _ => "float"
  | str _ => "str"
  | list _ => "list"
  | dict _ => "dict"

/-- `bool(value)`. -/
def truthy : Value → Bool
  | none => false
  | bool b => b
  | int n => n ≠ 0
  | float (.finite m _) => m ≠ 0
  | float _ => true
  | str s => s ≠ []
  | list items => !items.isEmpty
  | dict fields => !fields.isEmpty

/-- `isinstance(value, str)`. -/
def asStr? : Value → Option Text
  | str s => some s
  | _ => Option.none

/-- `isinstance(value, dict)`. -/
def asDict? : Value → Option (List (String × Value))
  | dict fields => some fields
  | _ => Option.none

/-- `isinstance(value, list)`. -/
def asList? : Value → Option (List Value)
  | list items => some items
  | _ => Option.none

end Value

/-- The items of a dictionary. -/
abbrev Fields := List (String × Value)

/-- `fields.get(key)`; `none` where the key is missing. -/
def Fields.get? (fields : Fields) (key : String) : Option Value :=
  (fields.find? (fun e => e.1 = key)).map Prod.snd

/-- `fields[key] = v`. -/
def Fields.set (fields : Fields) (key : String) (v : Value) : Fields :=
  if fields.any (fun e => e.1 = key) then
    fields.map (fun e => if e.1 = key then (key, v) else e)
  else fields ++ [(key, v)]

/-- `fields.setdefault(key, v)`. -/
def Fields.setDefault (fields : Fields) (key : String) (v : Value) : Fields :=
  if fields.any (fun e => e.1 = key) then fields else fields ++ [(key, v)]

def typeError (message : String) : Exn := .other "TypeError" message

def valueError (message : String) : Exn := .other "ValueError" message

namespace Value

/-- The value as the owner of a method `get`. -/
def fields : Value → Except Exn Fields
  | dict fields => .ok fields
  | v => .error (.other "AttributeError" s!"'{v.typeName}' object has no attribute 'get'")

/-- What a `for` loop goes through. -/
def iter : Value → Except Exn (List Value)
  | list items => .ok items
  | dict fields => .ok (fields.map (fun e => str e.1.toList))
  | str s => .ok (s.map (fun c => str [c]))
  | v => .error (typeError s!"'{v.typeName}' object is not iterable")

end Value

/-! ### Integers -/

/-- The character tables behind `int(str)`. -/
structure Unicode where
  decimal : Char → Option ℕ
  space : Char → Bool

/-- Digits, with single underscores between them. -/
def readDigits (u : Unicode) (acc : ℕ) : Text → Option ℕ
  | [] => some acc
  | '_' :: c :: cs => (u.decimal c).bind (fun d => readDigits u (acc * 10 + d) cs)
  | c :: cs => (u.decimal c).bind (fun d => readDigits u (acc * 10 + d) cs)

/-- A digit, and more of them. -/
def readNat (u : Unicode) : Text → Option ℕ
  | [] => none
  | c :: cs => (u.decimal c).bind (fun d => readDigits u d cs)

/-- An optional sign in front. -/
def readSigned (u : Unicode) : Text → Option ℤ
  | '+' :: cs => (readNat u cs).map Int.ofNat
  | '-' :: cs => (readNat u cs).map (fun n => -(n : ℤ))
  | cs => (readNat u cs).map Int.ofNat

/-- `strip`. -/
def strip (u : Unicode) (s : Text) : Text :=
  ((s.dropWhile u.space).reverse.dropWhile u.space).reverse

/-- `sys.get_int_max_str_digits()`. -/
def maxStrDigits : ℕ := 4300

/-- `int(s)`. -/
def intOfStr (u : Unicode) (s : Text) : Except Exn ℤ :=
  match readSigned u (strip u s) with
  | some n =>
      if maxStrDigits < (s.filter (fun c => (u.decimal c).isSome)).length then
        .error (valueError "Exceeds the limit for integer string conversion")
      else .ok n
  | none => .error (valueError s!"invalid literal for int() with base 10: '{String.ofList s}'")

/-- `int(x)`, towards zero. -/
def intOfFloat : PyFloat → Except Exn ℤ
  | .finite m (.ofNat e) => .ok (m * 2 ^ e)
  | .finite m (.negSucc e) => .ok (m.tdiv (2 ^ (e + 1)))
  | .inf _ => .error (.other "OverflowError" "cannot convert float infinity to integer")
  | .nan => .error (valueError "cannot convert float NaN to integer")

/-- `int(value)`. -/
def toInt (u : Unicode) : Value → Except Exn ℤ
  | .int n => .ok n
  | .bool b => .ok (if b then 1 else 0)
  | .float x => intOfFloat x
  | .str s => intOfStr u s
  | v => .error (typeError ("int() argument must be a string, a bytes-like object or a real " ++
      s!"number, not '{v.typeName}'"))

end FirewallLLM.Py
