import PredicateTree.Expr.Identity

/-!
# Expr.Fold

Passes from trees to trees.

`Expr.foldM` walks a tree from the top. At each node it asks `visit`, which may answer with the
tree to put there; otherwise the parts are walked left to right and the node is put together again.
A node all of whose parts came back as they were is returned itself, so what a pass does not touch
stays shared. A node that is put together again keeps its type and is made at the site of its
position in the walk.
-/

namespace PredicateTree

namespace Expr

/-- `e` itself if its parts stayed the same nodes, else the node made anew. -/
def orNew (e : Expr) (before after : List Expr) (made : Expr) : Expr :=
  if before = after then e else made

variable {m : Type → Type} [Monad m]

/-- The answer of a visit, or what the walk below finds. -/
@[macro_inline]
def orDescend (answer : m (Option Expr)) (below : m Expr) : m Expr :=
  answer >>= fun
    | some e => pure e
    | none => below

mutual

def foldM (visit : Site → Expr → m (Option Expr)) (site : Site) (e : Expr) : m Expr :=
  orDescend (visit site e) <|
    match e with
    | .binary l op a b => do
      let a' ← foldM visit (site.child 0) a
      let b' ← foldM visit (site.child 1) b
      return e.orNew [a, b] [a', b'] (.binary ⟨site, l.ty⟩ op a' b')
    | .unary l op a => do
      let a' ← foldM visit (site.child 0) a
      return e.orNew [a] [a'] (.unary ⟨site, l.ty⟩ op a')
    | .member l t r => do
      let t' ← foldM visit (site.child 0) t
      return e.orNew [t] [t'] (.member ⟨site, l.ty⟩ t' r)
    | .call l t method as => do
      let t' ← foldOptionM visit (site.child 0) t
      let as' ← foldListM visit site 1 as
      return e.orNew (t.toList ++ as) (t'.toList ++ as') (.call ⟨site, l.ty⟩ t' method as')
    | .conditional l a b c => do
      let a' ← foldM visit (site.child 0) a
      let b' ← foldM visit (site.child 1) b
      let c' ← foldM visit (site.child 2) c
      return e.orNew [a, b, c] [a', b', c'] (.conditional ⟨site, l.ty⟩ a' b' c')
    | .dynamic l binder as => do
      let as' ← foldListM visit site 0 as
      return e.orNew as as' (.dynamic ⟨site, l.ty⟩ binder as')
    | .lambda l ps b => do
      let b' ← foldM visit (site.child 0) b
      return e.orNew [b] [b'] (.lambda ⟨site, l.ty⟩ ps b')
    | .static .. | .constant .. | .parameter .. | .default _ => pure e

def foldOptionM (visit : Site → Expr → m (Option Expr)) (site : Site) :
    Option Expr → m (Option Expr)
  | none => pure none
  | some a => do
    let a' ← foldM visit site a
    return some a'

/-- Walks a row of parts that stand at the positions from `i` on. -/
def foldListM (visit : Site → Expr → m (Option Expr)) (site : Site) (i : Nat) :
    List Expr → m (List Expr)
  | [] => pure []
  | a :: as => do
    let a' ← foldM visit (site.child i) a
    let as' ← foldListM visit site (i + 1) as
    return a' :: as'

end

/-- A pass without effects. -/
def fold (visit : Expr → Option Expr) (site : Site) (e : Expr) : Expr :=
  Id.run (e.foldM (fun _ a => pure (visit a)) site)

end Expr

end PredicateTree
