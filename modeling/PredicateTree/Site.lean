/-!
# Site

Identity. Two parameters of one name and one type are still two variables, and two nodes that
look alike are still two nodes. What tells them apart is the *site* of their creation: the run
that made them (`epoch`) and the place inside that run (`path`, innermost step first).

A pass that makes nodes is given the site where it works and hands `site.child i` to its i-th
part, so no two parts create at one site and nothing has to be threaded through the pass.
-/

namespace PredicateTree

structure Site where
  epoch : Nat
  path : List Nat
deriving DecidableEq, Inhabited

namespace Site

/-- The first site of a run. -/
def root (epoch : Nat) : Site := ⟨epoch, []⟩

def child (s : Site) (i : Nat) : Site := ⟨s.epoch, i :: s.path⟩

theorem child_inj {s t : Site} {i j : Nat} : s.child i = t.child j ↔ s = t ∧ i = j := by
  cases s; cases t
  simp [child]
  grind

end Site

end PredicateTree
