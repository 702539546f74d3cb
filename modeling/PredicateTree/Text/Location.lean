/-!
# Text.Location

Places in a text: the line, from one, and the column, which counts bytes since the line began.
-/

namespace PredicateTree

structure Location where
  line : Nat
  column : Nat
deriving DecidableEq, Inhabited

namespace Location

def text (l : Location) : String := toString l.line ++ ":" ++ toString l.column

/-- Before the first byte of a text. -/
def start : Location := ⟨1, 0⟩

/-- The place after `c`. -/
def after (l : Location) (c : Char) : Location :=
  if c = '\n' then ⟨l.line + 1, 0⟩ else ⟨l.line, l.column + c.utf8Size⟩

/-- The place after the first byte of `c`. -/
def afterByte (l : Location) (c : Char) : Location :=
  if c = '\n' then ⟨l.line + 1, 0⟩ else ⟨l.line, l.column + 1⟩

/-- The place after the next `n` bytes, or the end of the text if that comes first. -/
def afterBytes (l : Location) : Nat → List Char → Location
  | 0, _ => l
  | _, [] => l
  | n, c :: cs =>
    if n < c.utf8Size then ⟨l.line, l.column + n⟩ else (l.after c).afterBytes (n - c.utf8Size) cs

end Location

end PredicateTree
