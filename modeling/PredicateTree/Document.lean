import PredicateTree.Json.Reader
import PredicateTree.Expr.Names
import PredicateTree.Table
import PredicateTree.Ty.Parser

/-!
# Document

Documents as they are written: a predicate together with the host values it refers to. Parameters
and constants are still names here, and types are still text.

* `Document.Node`: a written tree.
* `Document.Datum`: a written host value.
* `Document.Declaration`: a written parameter.
-/

namespace PredicateTree

structure Document.Declaration where
  name : String
  ty : String
deriving DecidableEq

mutual

inductive Document.Node where
  | lambda (params : List Document.Declaration) (body : Document.Node)
  | param (name : String)
  | literal (value : Document.Datum) (ty : Option String)
  | constant (name : String)
  | member (target : Option Document.Node) (declaringType : Option String) (name ty : String)
  | call (target : Option Document.Node) (declaringType : Option String) (method : String)
      (args : List Document.Node) (markers : List Marker) (ty : String)
  | expand (lambda : Document.Node) (args : List Document.Node) (ty : String)
  | binary (op : BinaryOp) (lhs rhs : Document.Node)
  | unary (op : UnaryOp) (operand : Document.Node)
  | conditional (test ifTrue ifFalse : Document.Node)
  | default (ty : String)
  | dynamic (binder : String) (args : List Document.Node) (ty : String)

inductive Document.Datum where
  | null
  | bool (b : Bool)
  | int (n : Int64)
  /-- A whole number too large for 64 bits with a sign. -/
  | unsigned (n : UInt64)
  | float (x : Binary64)
  | str (s : String)
  | object (className : String) (fields : List (String × Document.Datum))
  /-- A lambda, or a reference to another constant. -/
  | node (n : Document.Node)

end

structure Document where
  /-- For each declaring type the values of its static members. -/
  statics : Table (Table Document.Datum)
  constants : Table Document.Datum
  predicate : Document.Node

/-- Why a document cannot be used. -/
inductive DocumentError where
  | json (cause : Json.ReadError)
  | type (cause : TyError)
  | unboundParameter (name : String)
  | unknownConstant (name : String)
  | cyclicConstant (name : String)
  | missingDeclaringType (name : String)
  | predicateNotLambda
  | notAValue
  | integerOutOfRange (value : UInt64)
deriving DecidableEq

def DocumentError.message : DocumentError → String
  | .json cause => "invalid document: " ++ cause.message
  | .type cause => cause.message
  | .unboundParameter name => "unbound parameter `" ++ name ++ "`"
  | .unknownConstant name => "unknown constant `" ++ name ++ "`"
  | .cyclicConstant name => "constant `" ++ name ++ "` refers to itself"
  | .missingDeclaringType name => "static `" ++ name ++ "` needs a declaring type"
  | .predicateNotLambda => "the predicate must be a lambda"
  | .notAValue => "only lambdas and constant references can be stored as values"
  | .integerOutOfRange n =>
    "integer literal " ++ toString n.toNat ++ " does not fit in a 64-bit signed integer"

end PredicateTree
