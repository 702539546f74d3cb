import PredicateTree.Number.Binary64
import PredicateTree.Site
import PredicateTree.Ty

/-!
# Expr

Expression trees and the host values embedded in them.

* `Param`: a bound variable, known by the site of its declaration.
* `Expr`: a node with its label, that is its identity and its static type, and its parts. A static
  member and a member read from a target are two kinds of node.
* `Value`: what a host program holds; a stored function is a value.
* `Lambda`: ordered parameters and a body, as a node or as a value.
-/

namespace PredicateTree

inductive BinaryOp where
  | add | sub | mul | div | rem
  | eq | ne | lt | le | gt | ge
  | and | or
deriving DecidableEq

namespace BinaryOp

def symbol : BinaryOp → String
  | add => "+"
  | sub => "-"
  | mul => "*"
  | div => "/"
  | rem => "%"
  | eq => "=="
  | ne => "!="
  | lt => "<"
  | le => "<="
  | gt => ">"
  | ge => ">="
  | and => "&&"
  | or => "||"

/-- The operator always produces a boolean. -/
def isBoolean : BinaryOp → Bool
  | add | sub | mul | div | rem => false
  | _ => true

/-- The comparison that holds exactly when the given one does not. -/
def complement : BinaryOp → Option BinaryOp
  | eq => some ne
  | ne => some eq
  | lt => some ge
  | le => some gt
  | gt => some le
  | ge => some lt
  | _ => none

end BinaryOp

inductive UnaryOp where
  | not
  | neg
  /-- Whether the operand is true, as an operator of its own. -/
  | isTrue
  /-- Whether the operand is false, as an operator of its own. -/
  | isFalse
deriving DecidableEq

/-- A tag on a method. Passes look for it to decide what to do with a call. -/
inductive Marker where
  /-- Calls stand for the body of the lambda that their first argument names. -/
  | expandable
  /-- The method yields a constant within a query. -/
  | constantValue
deriving DecidableEq

structure MemberRef where
  declaringType : String
  name : String
deriving DecidableEq

structure Method where
  declaringType : String
  name : String
  markers : List Marker := []
deriving DecidableEq

namespace Method

/-- Adds a marker that is not there yet. -/
def mark (m : Method) (k : Marker) : Method :=
  if m.markers.contains k then m else { m with markers := m.markers ++ [k] }

def isExpandable (m : Method) : Bool := m.markers.contains .expandable

def isConstantValue (m : Method) : Bool := m.markers.contains .constantValue

/-- The built-in method that invokes the lambda its first argument names. -/
def expand : Method := ⟨"exprkit", "expand", [.expandable]⟩

end Method

structure Param where
  id : Site
  name : String
  ty : Ty
deriving DecidableEq

/-- The identity and the static type of a node. -/
structure Label where
  site : Site
  ty : Ty
deriving DecidableEq

mutual

inductive Expr where
  | binary (label : Label) (op : BinaryOp) (lhs rhs : Expr)
  | unary (label : Label) (op : UnaryOp) (operand : Expr)
  | member (label : Label) (target : Expr) (ref : MemberRef)
  | static (label : Label) (ref : MemberRef)
  | call (label : Label) (target : Option Expr) (method : Method) (args : List Expr)
  | constant (label : Label) (value : Value)
  | parameter (label : Label) (param : Param)
  | conditional (label : Label) (test ifTrue ifFalse : Expr)
  | default (label : Label)
  | dynamic (label : Label) (binder : String) (args : List Expr)
  | lambda (label : Label) (params : List Param) (body : Expr)

inductive Value where
  | null
  | bool (b : Bool)
  | int (n : Int64)
  | float (x : Binary64)
  | str (s : String)
  | object (className : String) (fields : List (String × Value))
  | lambda (params : List Param) (body : Expr)

end

structure Lambda where
  params : List Param
  body : Expr

namespace Expr

def label : Expr → Label
  | binary l .. | unary l .. | member l .. | static l .. | call l .. | constant l ..
  | parameter l .. | conditional l .. | default l | dynamic l .. | lambda l .. => l

def ty (e : Expr) : Ty := e.label.ty

def isBool (e : Expr) : Bool := e.ty.isBool

/-- The nodes right below, left to right. Constants have none. -/
def children : Expr → List Expr
  | binary _ _ a b => [a, b]
  | unary _ _ a => [a]
  | member _ t _ => [t]
  | call _ t _ args => t.toList ++ args
  | conditional _ a b c => [a, b, c]
  | dynamic _ _ args => args
  | lambda _ _ b => [b]
  | static .. | constant .. | parameter .. | default _ => []

end Expr

namespace Lambda

def ty (l : Lambda) : Ty := .fn (l.params.map Param.ty) l.body.ty

/-- The same parameters over another body. -/
def withBody (l : Lambda) (body : Expr) : Lambda := ⟨l.params, body⟩

def toValue (l : Lambda) : Value := .lambda l.params l.body

end Lambda

namespace Value

/-- The static type of a value. What is null has no class of its own and takes the top class. -/
def ty : Value → Ty
  | null => .named "object"
  | bool _ => .bool
  | int _ => .int
  | float _ => .float
  | str _ => .string
  | object className _ => .named className
  | lambda params body => Lambda.ty ⟨params, body⟩

def kindName : Value → String
  | null => "null"
  | bool _ => "bool"
  | int _ => "int"
  | float _ => "float"
  | str _ => "string"
  | object .. => "object"
  | lambda .. => "lambda"

def asBool? : Value → Option Bool
  | bool b => some b
  | _ => none

def asLambda? : Value → Option Lambda
  | lambda params body => some ⟨params, body⟩
  | _ => none

end Value

end PredicateTree
