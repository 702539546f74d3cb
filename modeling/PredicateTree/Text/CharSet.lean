/-!
# Text.CharSet

A set of characters, given by the code points at which membership changes: the characters before
the first bound are outside, those from the first to before the second are inside, and so on.
The bounds are written in increasing order.
-/

namespace PredicateTree

structure CharSet where
  bounds : List Nat

namespace CharSet

/-- Membership after the bounds already passed left it at `inside`. -/
def containsFrom (n : Nat) : List Nat → Bool → Bool
  | [], inside => inside
  | b :: bs, inside => if n < b then inside else containsFrom n bs !inside

def contains (s : CharSet) (c : Char) : Bool := containsFrom c.toNat s.bounds false

end CharSet

end PredicateTree
