/-!
# Text.Comma

Items in a row, divided by a comma and a space.
-/

namespace PredicateTree

def commaSeparated : List String → String
  | [] => ""
  | [s] => s
  | s :: t => s ++ ", " ++ commaSeparated t

end PredicateTree
