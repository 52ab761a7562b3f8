import Orvex.Core.Runtime

/-!
# Python values

The analysis service reads dictionaries that were parsed from JSON and model
answers of any shape.  An operation that does not fit a value raises.
-/

namespace Orvex

inductive PyFloat where
  | finite (value : ℚ)
  | infinite (negative : Bool)
  | nan
  deriving DecidableEq

/-- A value that `json.loads` makes. -/
inductive PyValue where
  | none
  | bool (b : Bool)
  | int (n : ℤ)
  | float (x : PyFloat)
  | str (s : String)
  | list (items : List PyValue)
  | dict (fields : List (String × PyValue))

/-- A dictionary. -/
abbrev PyDict := List (String × PyValue)

inductive PyException where
  | attributeError | typeError | valueError | overflowError
  | validationError | unavailable
  deriving DecidableEq

/-- A decimal of the `decimal` module, with its text. -/
structure PyDecimal where
  value : Decimal
  text : String

/-- What the Python standard library computes. -/
structure Python where
  str : PyValue → String
  upper : String → String
  lower : String → String
  strip : String → String
  /-- `Decimal(text)`; `none` is the exception. -/
  decimal : String → Option PyDecimal
  /-- `float(n)`; `none` is the overflow. -/
  floatOfInt : ℤ → Option PyFloat
  /-- `float(text)`; `none` is the exception. -/
  floatOfStr : String → Option PyFloat
  /-- `int(value)`; `none` is the exception. -/
  int : PyValue → Option ℤ
  /-- `a >= b`; `none` is the exception. -/
  ge : PyValue → PyValue → Option Bool

/-- What the security analysis uses of the library besides. -/
structure AnalysisPython extends Python where
  /-- `re.search(pattern, text)` finds an occurrence. -/
  search : String → String → Bool
  /-- `float(a / b)` of two decimals; `none` is the exception. -/
  ratio : ℚ → ℚ → Option PyFloat
  /-- The text of a float with one decimal. -/
  fixed1 : PyFloat → String

/-- `round(x, 3)`. -/
def round3 (x : ℚ) : ℚ := (⌊x * 1000 + 1 / 2⌋ : ℚ) / 1000

namespace PyFloat

def lt : PyFloat → PyFloat → Bool
  | .nan, _ => false
  | _, .nan => false
  | .infinite n, .infinite m => n && !m
  | .infinite n, .finite _ => n
  | .finite _, .infinite m => !m
  | .finite x, .finite y => decide (x < y)

/-- `min(a, b)`. -/
def min (a b : PyFloat) : PyFloat := if b.lt a then b else a

/-- `max(a, b)`. -/
def max (a b : PyFloat) : PyFloat := if a.lt b then b else a

/-- `a >= b`. -/
def ge (a b : PyFloat) : Bool :=
  decide (a ≠ .nan) && decide (b ≠ .nan) && !a.lt b

def add : PyFloat → PyFloat → PyFloat
  | .finite x, .finite y => .finite (x + y)
  | .nan, _ => .nan
  | _, .nan => .nan
  | .infinite n, .infinite m => if n = m then .infinite n else .nan
  | .infinite n, .finite _ => .infinite n
  | .finite _, .infinite m => .infinite m

/-- A function of the finite values that keeps the sign of the infinite. -/
def onFinite (f : ℚ → ℚ) : PyFloat → PyFloat
  | .finite x => .finite (f x)
  | x => x

end PyFloat

namespace PyValue

def truthy : PyValue → Bool
  | .none => false
  | .bool b => b
  | .int n => decide (n ≠ 0)
  | .float x => decide (x ≠ .finite 0)
  | .str s => decide (s ≠ "")
  | .list items => !items.isEmpty
  | .dict fields => !fields.isEmpty

/-- `value is None`. -/
def isNone : PyValue → Bool
  | .none => true
  | _ => false

/-- `value == text`. -/
def isText (text : String) : PyValue → Bool
  | .str s => decide (s = text)
  | _ => false

def isStr : PyValue → Bool
  | .str _ => true
  | _ => false

/-- The number that a value is, if `isinstance(value, (int, float))`. -/
def number : PyValue → Option PyFloat
  | .bool b => some (.finite (if b then 1 else 0))
  | .int n => some (.finite n)
  | .float x => some x
  | _ => Option.none

/-- `value == 0`. -/
def isZero (value : PyValue) : Bool :=
  decide (value.number = some (.finite 0))

/-- `value > bound`. -/
def exceeds (value : PyValue) (bound : ℚ) : Except PyException Bool :=
  match value.number with
  | some x => .ok (PyFloat.lt (.finite bound) x)
  | Option.none => .error .typeError

/-- A value that can be a key or a member of a set. -/
def hashable : PyValue → Bool
  | .list _ => false
  | .dict _ => false
  | _ => true

/-- `a == b` of hashable values. -/
def same (a b : PyValue) : Bool :=
  match a, b with
  | .none, .none => true
  | .str s, .str t => decide (s = t)
  | a, b =>
      match a.number, b.number with
      | some x, some y => decide (x = y) && decide (x ≠ .nan)
      | _, _ => false

/-- `value or default`. -/
def orElse (value default : PyValue) : PyValue :=
  if value.truthy then value else default

/-- The dictionary on which `get` is called. -/
def asDict : PyValue → Except PyException PyDict
  | .dict fields => .ok fields
  | _ => .error .attributeError

/-- The text on which a method of strings is called. -/
def asText : PyValue → Except PyException String
  | .str s => .ok s
  | _ => .error .attributeError

/-- A dictionary, as a result model requires it. -/
def requireDict : PyValue → Except PyException PyDict
  | .dict fields => .ok fields
  | _ => .error .validationError

/-- A text, as a result model requires it. -/
def requireText : PyValue → Except PyException String
  | .str s => .ok s
  | _ => .error .validationError

/-- The members that an iteration gives. -/
def members : PyValue → Except PyException (List PyValue)
  | .list items => .ok items
  | .dict fields => .ok (fields.map (fun field => .str field.1))
  | .str s => .ok (s.toList.map (fun c => .str (String.ofList [c])))
  | _ => .error .typeError

/-- `separator.join(values)`. -/
def join (separator : String) (values : List PyValue) :
    Except PyException String := do
  let texts ← values.mapM (fun value =>
    match value with
    | .str s => Except.ok s
    | _ => Except.error PyException.typeError)
  return separator.intercalate texts

/-- `float(value)`. -/
def toFloat (py : Python) : PyValue → Except PyException PyFloat
  | .bool b => .ok (.finite (if b then 1 else 0))
  | .int n =>
      match py.floatOfInt n with
      | some x => .ok x
      | Option.none => .error .overflowError
  | .float x => .ok x
  | .str s =>
      match py.floatOfStr s with
      | some x => .ok x
      | Option.none => .error .valueError
  | _ => .error .typeError

end PyValue

namespace PyDict

/-- `fields.get(key, default)`. -/
def getD (fields : PyDict) (key : String) (default : PyValue) : PyValue :=
  (fields.lookup key).getD default

/-- `fields.get(key)`. -/
def get (fields : PyDict) (key : String) : PyValue := fields.getD key .none

/-- `(fields.get(key) or {})`, on which `get` is called. -/
def getDict (fields : PyDict) (key : String) : Except PyException PyDict :=
  ((fields.get key).orElse (.dict [])).asDict

/-- `(fields.get(key) or "")`, on which a method of strings is called. -/
def getText (fields : PyDict) (key : String) : Except PyException String :=
  ((fields.get key).orElse (.str "")).asText

end PyDict

end Orvex
