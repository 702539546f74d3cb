import PredicateTree.Expr
import PredicateTree.Table

/-!
# Expr.Build

New nodes. Each is made at a given site and typed after its parts where they decide its type.
-/

namespace PredicateTree

namespace Expr

/-- Comparisons and logical operators are boolean; arithmetic takes the type of its left operand. -/
def binaryAt (site : Site) (op : BinaryOp) (lhs rhs : Expr) : Expr :=
  binary ⟨site, if op.isBoolean then .bool else lhs.ty⟩ op lhs rhs

/-- Only the arithmetic negation takes the type of its operand. -/
def unaryAt (site : Site) (op : UnaryOp) (operand : Expr) : Expr :=
  unary ⟨site, if op = .neg then operand.ty else .bool⟩ op operand

/-- A member read from a target is declared by the class of the target's type. -/
def memberAt (site : Site) (target : Expr) (name : String) (ty : Ty) : Expr :=
  member ⟨site, ty⟩ target ⟨target.ty.className, name⟩

def staticAt (site : Site) (declaringType name : String) (ty : Ty) : Expr :=
  static ⟨site, ty⟩ ⟨declaringType, name⟩

def callAt (site : Site) (target : Option Expr) (method : Method) (args : List Expr) (ty : Ty) :
    Expr :=
  call ⟨site, ty⟩ target method args

/-- A call of the lambda that `callee` names. -/
def expandAt (site : Site) (callee : Expr) (args : List Expr) (ty : Ty) : Expr :=
  callAt site none .expand (callee :: args) ty

def typedConstantAt (site : Site) (value : Value) (ty : Ty) : Expr := constant ⟨site, ty⟩ value

def constantAt (site : Site) (value : Value) : Expr := typedConstantAt site value value.ty

def boolAt (site : Site) (b : Bool) : Expr := constantAt site (.bool b)

def intAt (site : Site) (n : Int64) : Expr := constantAt site (.int n)

def parameterAt (site : Site) (p : Param) : Expr := parameter ⟨site, p.ty⟩ p

/-- A conditional takes the type of its first branch. -/
def conditionalAt (site : Site) (test ifTrue ifFalse : Expr) : Expr :=
  conditional ⟨site, ifTrue.ty⟩ test ifTrue ifFalse

def defaultAt (site : Site) (ty : Ty) : Expr := default ⟨site, ty⟩

def dynamicAt (site : Site) (binder : String) (args : List Expr) (ty : Ty) : Expr :=
  dynamic ⟨site, ty⟩ binder args

def lambdaAt (site : Site) (l : Lambda) : Expr := lambda ⟨site, l.ty⟩ l.params l.body

end Expr

namespace Value

/-- An object from fields given in any order; of two with one name the later counts. -/
def objectOf (className : String) (fields : List (String × Value)) : Value :=
  object className (Table.ofList fields)

/-- An object without a class of its own. -/
def anonymousOf (fields : List (String × Value)) : Value := objectOf "object" fields

end Value

end PredicateTree
