import PredicateTree.Expr

/-!
# Expr.Names

The names under which operators and markers are written.
-/

namespace PredicateTree

namespace BinaryOp

def name : BinaryOp → String
  | add => "add"
  | sub => "sub"
  | mul => "mul"
  | div => "div"
  | rem => "rem"
  | eq => "eq"
  | ne => "ne"
  | lt => "lt"
  | le => "le"
  | gt => "gt"
  | ge => "ge"
  | and => "and"
  | or => "or"

/-- Every operator, in the order in which they are listed to a reader. -/
def all : List BinaryOp := [add, sub, mul, div, rem, eq, ne, lt, le, gt, ge, and, or]

def ofName? (s : String) : Option BinaryOp := all.find? (·.name == s)

theorem ofName?_name (op : BinaryOp) : ofName? op.name = some op := by cases op <;> decide

end BinaryOp

namespace UnaryOp

def name : UnaryOp → String
  | not => "not"
  | neg => "neg"
  | isTrue => "is_true"
  | isFalse => "is_false"

def all : List UnaryOp := [not, neg, isTrue, isFalse]

def ofName? (s : String) : Option UnaryOp := all.find? (·.name == s)

theorem ofName?_name (op : UnaryOp) : ofName? op.name = some op := by cases op <;> decide

end UnaryOp

namespace Marker

def name : Marker → String
  | expandable => "expandable"
  | constantValue => "constant_value"

def all : List Marker := [expandable, constantValue]

def ofName? (s : String) : Option Marker := all.find? (·.name == s)

theorem ofName?_name (k : Marker) : ofName? k.name = some k := by cases k <;> decide

end Marker

end PredicateTree
