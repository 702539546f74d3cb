/-!
# Path

Names of files, compared part by part. Doubled and closing slashes say nothing, nor does a dot
inside a path; a dot at the start and the two dots do.
-/

namespace PredicateTree

inductive PathPart where
  | root
  | here
  | up
  | name (s : String)
deriving DecidableEq

abbrev Path := List PathPart

namespace Path

/-- What stands between the slashes. -/
def pieces (text : String) : List String := text.splitOn "/"

/-- A piece behind the first one. -/
def inner? : String → Option PathPart
  | "" => none
  | "." => none
  | ".." => some .up
  | s => some (.name s)

def ofText (text : String) : Path :=
  match pieces text with
  | [] => []
  | [""] => []
  | "" :: ps => .root :: ps.filterMap inner?
  | "." :: ps => .here :: ps.filterMap inner?
  | p :: ps => (p :: ps).filterMap inner?

/-- The path starts at the root, wherever it is followed from. -/
def isAbsolute (text : String) : Bool := text.startsWith "/"

/-- A path that continues that of a folder. -/
def inFolder (text : String) : Path := (pieces text).filterMap inner?

end Path

end PredicateTree
