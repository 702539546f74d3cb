import PredicateTree.Evaluator
import PredicateTree.Predicate

/-!
# MemorySource

A source of host values that can be filtered and projected by trees. A strict source behaves like a
store that reads trees without running them: it takes no tree with an expandable call in it.
`expandedWhere` and `expandedSelect` inline the calls first.
-/

namespace PredicateTree

inductive SourceError where
  | pass (cause : PassError)
  | eval (cause : EvalError)
  /-- The source cannot take this call. -/
  | unsupported (call : Expr)
deriving DecidableEq

def SourceError.message : SourceError → String
  | .pass cause => cause.message
  | .eval cause => cause.message
  | .unsupported call => "cannot translate `" ++ call.text ++ "`"

mutual

/-- The first expandable call of a tree, a call before its parts. Constants are not searched. -/
def Expr.firstExpandable? (e : Expr) : Option Expr :=
  match e with
  | .binary _ _ a b => a.firstExpandable?.or b.firstExpandable?
  | .unary _ _ a => a.firstExpandable?
  | .member _ t _ => t.firstExpandable?
  | .call _ t m as =>
    if m.isExpandable then some e
    else (Expr.firstExpandableOption? t).or (Expr.firstExpandableList? as)
  | .conditional _ a b c =>
    (a.firstExpandable?.or b.firstExpandable?).or c.firstExpandable?
  | .dynamic _ _ as => Expr.firstExpandableList? as
  | .lambda _ _ b => b.firstExpandable?
  | .static .. | .constant .. | .parameter .. | .default _ => none

def Expr.firstExpandableOption? : Option Expr → Option Expr
  | none => none
  | some a => a.firstExpandable?

def Expr.firstExpandableList? : List Expr → Option Expr
  | [] => none
  | a :: as => a.firstExpandable?.or (Expr.firstExpandableList? as)

end

structure MemorySource where
  items : List Value
  statics : Statics
  strict : Bool := false

namespace MemorySource

def evaluator (s : MemorySource) : Evaluator := { statics := s.statics }

/-- Whether the source takes a lambda at all. -/
def check (s : MemorySource) (l : Lambda) : Outcome SourceError Unit :=
  match s.strict, l.body.firstExpandable? with
  | true, some call => .error (.unsupported call)
  | _, _ => .ok ()

/-- The values that pass a test, the next one tested at position `i`. -/
def keep (ev : Evaluator) (fuel : Nat) (site : Site) (l : Lambda) (i : Nat) :
    List Value → Outcome EvalError (List Value)
  | [] => .ok []
  | v :: vs => do
    let b ← ev.test fuel (site.child i) l v
    let ws ← keep ev fuel site l (i + 1) vs
    return if b then v :: ws else ws

/-- The values that a lambda yields, the next one computed at position `i`. -/
def project (ev : Evaluator) (fuel : Nat) (site : Site) (l : Lambda) (i : Nat) :
    List Value → Outcome EvalError (List Value)
  | [] => .ok []
  | v :: vs => do
    let w ← ev.apply fuel (site.child i) l [v]
    let ws ← project ev fuel site l (i + 1) vs
    return w :: ws

def filter (s : MemorySource) (fuel : Nat) (site : Site) (p : Predicate) :
    Outcome SourceError MemorySource := do
  s.check p.lambda
  let items ← (keep s.evaluator fuel site p.lambda 0 s.items).mapError .eval
  return { s with items := items }

def select (s : MemorySource) (fuel : Nat) (site : Site) (l : Lambda) :
    Outcome SourceError MemorySource := do
  s.check l
  let items ← (project s.evaluator fuel site l 0 s.items).mapError .eval
  return { s with items := items }

/-- Inlines the calls of a lambda against the statics of the source. -/
def expanded (s : MemorySource) (fuel : Nat) (site : Site) (l : Lambda) :
    Outcome SourceError Lambda :=
  (Expander.expandLambda { resolver := s.statics.resolver } fuel site l).outcome.mapError .pass

def expandedWhere (s : MemorySource) (fuel : Nat) (site : Site) (p : Predicate) :
    Outcome SourceError MemorySource := do
  let l ← s.expanded fuel (site.child 0) p.lambda
  let q ← (Outcome.ofExcept (Predicate.ofLambda l)).mapError .pass
  s.filter fuel (site.child 1) q

def expandedSelect (s : MemorySource) (fuel : Nat) (site : Site) (l : Lambda) :
    Outcome SourceError MemorySource := do
  let l ← s.expanded fuel (site.child 0) l
  s.select fuel (site.child 1) l

end MemorySource

end PredicateTree
