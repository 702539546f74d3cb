import PredicateTree.Expr.Identity
import PredicateTree.Statics

/-!
# Evaluator.Arithmetic

What the operators do to values, and why an evaluation fails.

Whole numbers wrap around at 64 bits, and a division fails that has no quotient in 64 bits. A
mixed pair is computed as floating point numbers. Equality takes both operands as floating point
numbers whenever both are numbers; order compares whole numbers exactly.
-/

namespace PredicateTree

inductive EvalError where
  | unboundParameter (name : String)
  | typeMismatch (expected found : String)
  | unknownMethod (declaringType name : String)
  | unknownBinder (binder : String)
  | divisionByZero
  | arity (expected found : Nat)
  | member (cause : MemberError)
  /-- Raised by a host function. -/
  | host (message : String)
deriving DecidableEq

def EvalError.message : EvalError → String
  | .unboundParameter name => "unbound parameter `" ++ name ++ "`"
  | .typeMismatch expected found => "expected " ++ expected ++ ", found " ++ found
  | .unknownMethod declaringType name => "unknown method `" ++ declaringType ++ "::" ++ name ++ "`"
  | .unknownBinder binder => "unknown dynamic binder `" ++ binder ++ "`"
  | .divisionByZero => "division by zero"
  | .arity expected found =>
    "lambda expects " ++ toString expected ++ " arguments, found " ++ toString found
  | .member cause => cause.message
  | .host message => message

namespace Value

def mismatch (expected : String) (found : Value) : EvalError := .typeMismatch expected found.kindName

def expectBool (v : Value) : Except EvalError Bool :=
  match v with
  | bool b => .ok b
  | v => .error (v.mismatch "bool")

/-- A number as a floating point number. -/
def asNumber? : Value → Option Binary64
  | int n => some (.ofInt n.toInt)
  | float x => some x
  | _ => none

def equals (v w : Value) : Bool :=
  match v.asNumber?, w.asNumber? with
  | some x, some y => x.equals y
  | _, _ => v.alike w

def order (v w : Value) : Except EvalError Ordering :=
  match v, w with
  | int m, int n => .ok (compare m.toInt n.toInt)
  | str s, str t => .ok (compare s t)
  | v, w =>
    match v.asNumber?, w.asNumber? with
    | some x, some y =>
      match x.compare? y with
      | some o => .ok o
      | none => .error (.typeMismatch "comparable number" "NaN")
    | _, _ => .error (w.mismatch v.kindName)

/-- A division of whole numbers, which needs a quotient of 64 bits. -/
def divided (f : Int64 → Int64 → Int64) (m n : Int64) : Except EvalError Int64 :=
  if n = 0 ∨ (m = Int64.minValue ∧ n = -1) then .error .divisionByZero else .ok (f m n)

/-- Two whole numbers are computed as such, any other pair of numbers in floating point. -/
def arithmetic (onInt : Int64 → Int64 → Except EvalError Int64)
    (onFloat : Binary64 → Binary64 → Binary64) (v w : Value) : Except EvalError Value :=
  match v, w with
  | int m, int n => (onInt m n).map int
  | v, w =>
    match v.asNumber?, w.asNumber? with
    | some x, some y => .ok (float (onFloat x y))
    | none, _ => .error (v.mismatch "number")
    | some _, none => .error (w.mismatch "number")

end Value

namespace BinaryOp

/-- The value of an operator on the values of both operands. -/
def compute : BinaryOp → Value → Value → Except EvalError Value
  | add, .str s, .str t => .ok (.str (s ++ t))
  | add, v, w => v.arithmetic (fun m n => .ok (m + n)) .add w
  | sub, v, w => v.arithmetic (fun m n => .ok (m - n)) .sub w
  | mul, v, w => v.arithmetic (fun m n => .ok (m * n)) .mul w
  | div, v, w => v.arithmetic (Value.divided (· / ·)) .div w
  | rem, v, w => v.arithmetic (Value.divided (· % ·)) .rem w
  | eq, v, w => .ok (.bool (v.equals w))
  | ne, v, w => .ok (.bool !(v.equals w))
  | lt, v, w => (v.order w).map fun o => .bool (o == .lt)
  | le, v, w => (v.order w).map fun o => .bool (o != .gt)
  | gt, v, w => (v.order w).map fun o => .bool (o == .gt)
  | ge, v, w => (v.order w).map fun o => .bool (o != .lt)
  | and, v, w => v.expectBool >>= fun a => w.expectBool.map fun b => .bool (a && b)
  | or, v, w => v.expectBool >>= fun a => w.expectBool.map fun b => .bool (a || b)

end BinaryOp

/-- The value of an operator on the value of its operand. -/
def UnaryOp.compute : UnaryOp → Value → Except EvalError Value
  | .not, v => v.expectBool.map fun b => .bool !b
  | .isTrue, v => v.expectBool.map fun b => .bool b
  | .isFalse, v => v.expectBool.map fun b => .bool !b
  | .neg, .int n => .ok (.int (-n))
  | .neg, .float x => .ok (.float x.neg)
  | .neg, v => .error (v.mismatch "number")

/-- The value that stands for a type: zero, false, or null where there is no such thing. -/
def Ty.defaultValue : Ty → Value
  | .bool => .bool false
  | .int => .int 0
  | .float => .float (.zero false)
  | .string | .named _ | .fn .. => .null

end PredicateTree
