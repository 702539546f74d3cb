import PredicateTree.Expr.Build

/-!
# Negation

The negation of a boolean tree, pushed down to its leaves: conjunctions become disjunctions of
negated operands and the other way round, comparisons turn into their complements, and what cannot
be seen into is compared with false. Trees that are not boolean stay as they are.
-/

namespace PredicateTree

namespace Expr

/-- The comparison of a tree with false. -/
def equalsFalse (site : Site) (e : Expr) : Expr :=
  binaryAt site .eq e (boolAt (site.child 1) false)

/-- The tree compared with false if it is boolean, else the tree. -/
def leafNegation (site : Site) (e : Expr) : Expr := if e.isBool then equalsFalse site e else e

def negate (site : Site) (e : Expr) : Expr :=
  match e with
  | .binary _ .and a b => binaryAt site .or (a.negate (site.child 0)) (b.negate (site.child 1))
  | .binary _ .or a b => binaryAt site .and (a.negate (site.child 0)) (b.negate (site.child 1))
  | .binary _ op a b =>
    match op.complement with
    | some flipped => binaryAt site flipped a b
    | none => e
  | .unary _ .isTrue a => equalsFalse site a
  | .unary _ .isFalse a => a
  | .unary _ .not a => a
  | .unary _ .neg _ => e
  -- Exact when the branches are each other's negation.
  | .conditional l test a b => if e.isBool then .conditional ⟨site, l.ty⟩ test b a else e
  | .constant l (.bool b) => .constant ⟨site, l.ty⟩ (.bool !b)
  | .default _ => if e.isBool then boolAt site true else e
  | .lambda .. => e
  | .constant .. | .member .. | .static .. | .call .. | .dynamic .. | .parameter .. =>
    leafNegation site e

end Expr

end PredicateTree
