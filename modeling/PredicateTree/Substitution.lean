import PredicateTree.Expr.Build
import PredicateTree.Expr.Fold

/-!
# Substitution

Replacing parts of a tree.

* `Substitution`: which tree takes the place of a bound variable; the newest binding of a variable
  counts.
* `Expr.substitute`: all variables at once. What is put in is not looked at again.
* `Expr.replace`: one node, known by identity. What is below it is not searched.

Neither looks into constants.
-/

namespace PredicateTree

/-- Bindings, the newest first. -/
abbrev Substitution := List (Param × Expr)

namespace Substitution

def bind (σ : Substitution) (p : Param) (e : Expr) : Substitution := (p, e) :: σ

def get? (σ : Substitution) (p : Param) : Option Expr := List.lookup p σ

/-- Bindings made in the given order. -/
def ofList (bindings : List (Param × Expr)) : Substitution := bindings.reverse

/-- `p` becomes a new reference to `q`. -/
def rename (site : Site) (p q : Param) : Substitution := [(p, Expr.parameterAt site q)]

/-- How many variables are bound. -/
def size : Substitution → Nat
  | [] => 0
  | (p, _) :: σ => if (List.lookup p σ).isSome then size σ else size σ + 1

/-- What a substitution puts in the place of a node, if anything. -/
def visit (σ : Substitution) : Expr → Option Expr
  | .parameter _ p => σ.get? p
  | _ => none

end Substitution

namespace Expr

def substitute (site : Site) (σ : Substitution) (e : Expr) : Expr :=
  if σ.isEmpty then e else e.fold σ.visit site

def replace (site : Site) (e target replacement : Expr) : Expr :=
  e.fold (fun a => if a = target then some replacement else none) site

end Expr

end PredicateTree
