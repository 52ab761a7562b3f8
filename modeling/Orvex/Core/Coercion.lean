import Orvex.Core.Hash

/-!
# How JavaScript coerces JSON values

The texts that templates insert, the numbers that comparisons read, and the
decimals that the decimal package accepts.
-/

namespace Orvex

/-- The value counts as true in a condition. -/
def jsTruthy : Json → Bool
  | .null => false
  | .bool b => b
  | .number n => decide (n ≠ 0)
  | .string s => s != ""
  | .array _ => true
  | .object _ => true

mutual

/-- `String(value)`. -/
def jsString (rt : Runtime) : Json → String
  | .null => "null"
  | .bool true => "true"
  | .bool false => "false"
  | .number n => rt.numberToString n
  | .string s => s
  | .array items => ",".intercalate (jsItems rt items)
  | .object _ => "[object Object]"

/-- The texts that `Array.prototype.join` puts between its commas. -/
def jsItems (rt : Runtime) : List Json → List String
  | [] => []
  | .null :: rest => "" :: jsItems rt rest
  | item :: rest => jsString rt item :: jsItems rt rest

end

mutual

/-- The value can be made a text or a number.  A `toString` that came out of
JSON is no function, and a value with one of its own cannot. -/
def coercible : Json → Bool
  | .array items => itemsCoercible items
  | .object fields => (fields.lookup "toString").isNone
  | _ => true

def itemsCoercible : List Json → Bool
  | [] => true
  | item :: rest => coercible item && itemsCoercible rest

end

/-- `Number(value)`. -/
def jsNumber (rt : Runtime) : Json → Decimal
  | .null => .finite 0
  | .bool true => .finite 1
  | .bool false => .finite 0
  | .number n => .finite n
  | .string s => rt.stringToNumber s
  | value => rt.stringToNumber (jsString rt value)

/-- The text that a value becomes before it is compared with another text;
`none` is a value that is compared as a number. -/
def jsText (rt : Runtime) : Json → Option String
  | .string s => some s
  | .array items => some (jsString rt (.array items))
  | .object fields => some (jsString rt (.object fields))
  | _ => none

/-- `a <= b`. -/
def jsLte (rt : Runtime) (a b : Json) : Bool :=
  match jsText rt a, jsText rt b with
  | some x, some y => lexLe (codeUnits x) (codeUnits y)
  | _, _ => (jsNumber rt a).lte (jsNumber rt b)

/-- `String(number)`. -/
def jsNumberText (rt : Runtime) : Decimal → String
  | .nan => "NaN"
  | .infinity true => "-Infinity"
  | .infinity false => "Infinity"
  | .finite n => rt.numberToString n

/-- The characters that `trim` removes. -/
def jsWhitespace (c : Char) : Bool :=
  let n := c.toNat
  (9 ≤ n && n ≤ 13) || n == 0x20 || n == 0xa0 || n == 0x1680 ||
    (0x2000 ≤ n && n ≤ 0x200a) || n == 0x2028 || n == 0x2029 ||
    n == 0x202f || n == 0x205f || n == 0x3000 || n == 0xfeff

def jsTrim (text : String) : String :=
  String.ofList ((text.toList.dropWhile jsWhitespace).reverse.dropWhile
    jsWhitespace).reverse

/-- The decimal package applied to a JSON value; it throws on a value that is
neither a text nor a number. -/
def jsonDecimal (rt : Runtime) : Json → Option Decimal
  | .string s => rt.toDecimal s
  | .number n => some (.finite n)
  | _ => none

/-- A field of an object, which is left out when it is `undefined`. -/
def optionalField (key : String) : Option Json → List (String × Json)
  | none => []
  | some value => [(key, value)]

/-- A field that is `null` when it is absent. -/
def nullable : Option String → Json
  | none => .null
  | some text => .string text

/-- The names that every object inherits. -/
def objectPrototype : List String :=
  ["constructor", "__defineGetter__", "__defineSetter__", "hasOwnProperty",
    "__lookupGetter__", "__lookupSetter__", "isPrototypeOf",
    "propertyIsEnumerable", "toString", "valueOf", "__proto__",
    "toLocaleString"]

theorem nullable_injective : Function.Injective nullable := by
  intro a b h
  cases a <;> cases b <;> simp_all [nullable]

@[simp] theorem canonicalize_nullable (text : Option String) :
    canonicalize (nullable text) = nullable text := by
  cases text <;> rfl

end Orvex
