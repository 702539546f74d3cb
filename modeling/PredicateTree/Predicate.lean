import PredicateTree.Expansion
import PredicateTree.Negation

/-!
# Predicate

Lambdas of one parameter used as tests of a subject, and how they are joined. To join two of them
the parameter of the second becomes that of the first.
-/

namespace PredicateTree

structure Predicate where
  param : Param
  body : Expr
deriving DecidableEq

namespace Predicate

/-- A predicate is made of a lambda of one parameter with a boolean body. -/
def ofLambda (l : Lambda) : Except PassError Predicate :=
  match l.params with
  | [p] => if l.body.isBool then .ok ⟨p, l.body⟩ else .error (.notAPredicate l)
  | _ => .error (.notAPredicate l)

def lambda (p : Predicate) : Lambda := ⟨[p.param], p.body⟩

/-- The type of the subjects it tests. -/
def subject (p : Predicate) : Ty := p.param.ty

def text (p : Predicate) : String := p.lambda.text

def join (site : Site) (op : BinaryOp) (p q : Predicate) : Except PassError Predicate :=
  if p.subject ≠ q.subject then .error (.subjectMismatch p.subject q.subject)
  else
    let σ := Substitution.rename (site.child 0) q.param p.param
    .ok ⟨p.param, .binaryAt site op p.body (q.body.substitute (site.child 1) σ)⟩

def and (site : Site) (p q : Predicate) : Except PassError Predicate := join site .and p q

def or (site : Site) (p q : Predicate) : Except PassError Predicate := join site .or p q

def inverse (site : Site) (p : Predicate) : Predicate := { p with body := p.body.negate site }

/-- The same answer for every subject. -/
def constant (site : Site) (ty : Ty) (b : Bool) : Predicate :=
  ⟨⟨site.child 0, "x", ty⟩, .boolAt (site.child 1) b⟩

def alwaysTrue (site : Site) (ty : Ty) : Predicate := constant site ty true

def alwaysFalse (site : Site) (ty : Ty) : Predicate := constant site ty false

/-- Joins the predicates to the first from left to right, the next one at position `i`. -/
def joinAll (site : Site) (op : BinaryOp) (i : Nat) (p : Predicate) :
    List Predicate → Except PassError Predicate
  | [] => .ok p
  | q :: qs =>
    match join (site.child i) op p q with
    | .ok r => joinAll site op (i + 1) r qs
    | .error e => .error e

/-- The conjunction of all, starting from the predicate that always holds. -/
def all (site : Site) (ty : Ty) (ps : List Predicate) : Except PassError Predicate :=
  joinAll site .and 1 (alwaysTrue (site.child 0) ty) ps

/-- The disjunction of all, starting from the predicate that never holds. -/
def any (site : Site) (ty : Ty) (ps : List Predicate) : Except PassError Predicate :=
  joinAll site .or 1 (alwaysFalse (site.child 0) ty) ps

end Predicate

end PredicateTree
