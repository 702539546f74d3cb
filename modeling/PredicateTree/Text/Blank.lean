import PredicateTree.Text.CharSet

/-!
# Text.Blank

The characters with the property White_Space.
-/

namespace PredicateTree

namespace CharSet

def blank : CharSet := ⟨[
    0x9, 0xE, 0x20, 0x21, 0x85, 0x86, 0xA0, 0xA1, 0x1680, 0x1681, 0x2000, 0x200B, 0x2028, 0x202A,
    0x202F, 0x2030, 0x205F, 0x2060, 0x3000, 0x3001]⟩

end CharSet

def isBlank (c : Char) : Bool := CharSet.blank.contains c

/-- The characters left after the blanks at the front. -/
def skipBlanks (cs : List Char) : List Char := cs.dropWhile isBlank

end PredicateTree
