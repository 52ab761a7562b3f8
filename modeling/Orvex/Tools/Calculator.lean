import Orvex.Foundation.DecimalTexts
import Orvex.Foundation.Doubles
import Orvex.Tools.Registry

/-!
# The calculator

An expression is parsed to a tree whose literals are integers or doubles, and
the tree is evaluated with decimal arithmetic of twenty-eight digits.
-/

namespace Orvex
namespace Calculator

open DecimalArithmetic (Context Holds Number)

inductive Failure where
  | syntaxError | recursionError | valueError
  | decimal (signal : DecimalArithmetic.Signal)
  deriving DecidableEq

/-! ## Expressions -/

abbrev Digit := Fin 10

def digit (n : ℕ) : Digit := ⟨n % 10, Nat.mod_lt n (by norm_num)⟩

/-- The number that the digits spell. -/
def natural (digits : List Digit) : ℕ :=
  digits.foldl (fun n d => 10 * n + d.val) 0

/-- A literal with a point or an exponent. -/
structure FloatLiteral where
  whole : List Digit
  fraction : List Digit
  exponent : ℤ
  digits : whole ++ fraction ≠ []

inductive Literal where
  | integer (first : Digit) (rest : List Digit)
  | float (literal : FloatLiteral)

/-- The number that the literal spells. -/
def Literal.value : Literal → ℚ
  | .integer first rest => natural (first :: rest)
  | .float literal =>
      natural (literal.whole ++ literal.fraction) *
        10 ^ (literal.exponent - literal.fraction.length)

inductive Expression where
  | number (literal : Literal)
  | add (left right : Expression)
  | sub (left right : Expression)
  | mul (left right : Expression)
  | neg (operand : Expression)
  | parenthesized (inner : Expression)

namespace Expression

def value : Expression → ℚ
  | number literal => literal.value
  | add left right => left.value + right.value
  | sub left right => left.value - right.value
  | mul left right => left.value * right.value
  | neg operand => -operand.value
  | parenthesized inner => inner.value

/-- The expression and the expressions in it. -/
def parts : Expression → List Expression
  | number literal => [number literal]
  | add left right => add left right :: (left.parts ++ right.parts)
  | sub left right => sub left right :: (left.parts ++ right.parts)
  | mul left right => mul left right :: (left.parts ++ right.parts)
  | neg operand => neg operand :: operand.parts
  | parenthesized inner => parenthesized inner :: inner.parts

end Expression

/-! ## Syntax trees -/

/-- The operators of a tree; only the first four are in `_OPS`. -/
inductive BinOperator where
  | add | sub | mult | div | other

inductive UnaryOperator where
  | usub | other

/-- The value of a literal.  No number is an infinite double. -/
inductive Constant where
  | int (n : ℕ)
  | float (value : Option ℚ)

inductive Node where
  | constant (value : Constant)
  | binOp (op : BinOperator) (left right : Node)
  | unaryOp (op : UnaryOperator) (operand : Node)
  | other

/-- What the interpreter allows. -/
structure Interpreter where
  /-- The parser accepts an expression nested like this one. -/
  nests : Expression → Bool
  /-- The calls that are left until the recursion limit. -/
  frames : ℕ

/-- The digits that an integer other than zero may be spelled with. -/
def maxStrDigits : ℕ := 4300

def constantOf : Literal → Except Failure Constant
  | .integer first rest =>
      if first.val = 0 then
        if natural rest = 0 then .ok (.int 0) else .error .syntaxError
      else if maxStrDigits < rest.length + 1 then .error .syntaxError
      else .ok (.int (natural (first :: rest)))
  | .float literal =>
      .ok (.float (Doubles.nearest (Literal.float literal).value))

def nodeOf : Expression → Except Failure Node
  | .number literal => do .ok (.constant (← constantOf literal))
  | .add left right => do
      .ok (.binOp .add (← nodeOf left) (← nodeOf right))
  | .sub left right => do
      .ok (.binOp .sub (← nodeOf left) (← nodeOf right))
  | .mul left right => do
      .ok (.binOp .mult (← nodeOf left) (← nodeOf right))
  | .neg operand => do .ok (.unaryOp .usub (← nodeOf operand))
  | .parenthesized inner => nodeOf inner

/-- `ast.parse(expression, mode="eval").body`. -/
def parse (interpreter : Interpreter) (expression : Expression) :
    Except Failure Node :=
  if interpreter.nests expression then nodeOf expression
  else .error .syntaxError

/-! ## Evaluation -/

/-- The default context of the decimal module. -/
def context : Context where
  prec := 28
  emin := -999999
  emax := 999999
  prec_pos := by norm_num
  range := by norm_num

/-- `Decimal(str(value))`. -/
def decimalOf : Constant → Number
  | .int n => .finite false n 0
  | .float (some y) => Doubles.reprNumber y
  | .float none => .infinity false

def raising (result : Except DecimalArithmetic.Signal Number) :
    Except Failure Number :=
  result.mapError .decimal

/-- `_OPS[type(op)]` of a binary operator. -/
def binOps : BinOperator →
    Option (Number → Number → Except DecimalArithmetic.Signal Number)
  | .add => some (DecimalArithmetic.add context)
  | .sub => some (DecimalArithmetic.sub context)
  | .mult => some (DecimalArithmetic.mul context)
  | .div => some (DecimalArithmetic.div context)
  | .other => none

/-- `_OPS[type(op)]` of a unary operator. -/
def unaryOps : UnaryOperator →
    Option (Number → Except DecimalArithmetic.Signal Number)
  | .usub => some (DecimalArithmetic.neg context)
  | .other => none

/-- `_eval(node)` with so many calls left. -/
def eval : ℕ → Node → Except Failure Number
  | 0, _ => .error .recursionError
  | _ + 1, .constant value => .ok (decimalOf value)
  | frames + 1, .binOp op left right =>
      match binOps op with
      | none => .error .valueError
      | some apply => do
          let a ← eval frames left
          let b ← eval frames right
          raising (apply a b)
  | frames + 1, .unaryOp op operand =>
      match unaryOps op with
      | none => .error .valueError
      | some apply => do
          let a ← eval frames operand
          raising (apply a)
  | _ + 1, .other => .error .valueError

/-- `CalculatorTool.run`; the time that it takes is given. -/
def run (interpreter : Interpreter) (expression : Expression)
    (latencyMs : ℚ) : Except Failure ToolRegistry.ToolResult := do
  let body ← parse interpreter expression
  let value ← eval interpreter.frames body
  .ok {
    output := .dict [("result", .str (String.ofList value.text))]
    trustLevel := some (.str "INTERNAL")
    sourceType := .str "calculator"
    contentHash := .str ("sha256:" ++ String.ofList value.text)
    latencyMs := latencyMs
    error := none }

end Calculator
end Orvex
