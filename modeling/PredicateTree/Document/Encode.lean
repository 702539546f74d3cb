import PredicateTree.Document.Schema

/-!
# Document.Encode

Documents as trees of data. Every field is written, one that was left out as null or as an empty
array or object.
-/

namespace PredicateTree

namespace Document

def Declaration.toJson (d : Declaration) : Json :=
  .object [("name", .string d.name), ("type", .string d.ty)]

def textOrNull : Option String → Json
  | some s => .string s
  | none => .null

def texts (names : List String) : Json := .array (names.map Json.string)

mutual

/-- A node as an object with its kind first. -/
def Node.toJson : Node → Json
  | .lambda ps b => .object [("kind", .string "lambda"),
      ("params", .array (ps.map Declaration.toJson)), ("body", b.toJson)]
  | .param name => .object [("kind", .string "param"), ("name", .string name)]
  | .literal v ty => .object [("kind", .string "literal"), ("value", v.toJson), ("type", textOrNull ty)]
  | .constant name => .object [("kind", .string "constant"), ("ref", .string name)]
  | .member t d name ty => .object [("kind", .string "member"), ("target", Node.toJsonOption t),
      ("declaring_type", textOrNull d), ("name", .string name), ("type", .string ty)]
  | .call t d m as ks ty => .object [("kind", .string "call"), ("target", Node.toJsonOption t),
      ("declaring_type", textOrNull d), ("method", .string m), ("args", .array (Node.toJsonList as)),
      ("markers", texts (ks.map Marker.name)), ("type", .string ty)]
  | .expand l as ty => .object [("kind", .string "expand"), ("lambda", l.toJson),
      ("args", .array (Node.toJsonList as)), ("type", .string ty)]
  | .binary op a b => .object [("kind", .string "binary"), ("op", .string op.name),
      ("lhs", a.toJson), ("rhs", b.toJson)]
  | .unary op a => .object [("kind", .string "unary"), ("op", .string op.name),
      ("operand", a.toJson)]
  | .conditional a b c => .object [("kind", .string "conditional"), ("test", a.toJson),
      ("if_true", b.toJson), ("if_false", c.toJson)]
  | .default ty => .object [("kind", .string "default"), ("type", .string ty)]
  | .dynamic b as ty => .object [("kind", .string "dynamic"), ("binder", .string b),
      ("args", .array (Node.toJsonList as)), ("type", .string ty)]

def Node.toJsonOption : Option Node → Json
  | none => .null
  | some n => n.toJson

def Node.toJsonList : List Node → List Json
  | [] => []
  | n :: ns => n.toJson :: Node.toJsonList ns

def Datum.toJson : Datum → Json
  | .null => .null
  | .bool b => .bool b
  | .int n => if 0 ≤ n then .unsigned n.toNatClampNeg.toUInt64 else .negative n
  | .unsigned n => .unsigned n
  | .float x => .float x
  | .str s => .string s
  | .object c fs => .object [("object", .string c), ("fields", .object (Datum.toJsonFields fs))]
  | .node n => n.toJson

def Datum.toJsonFields : List (String × Datum) → List (String × Json)
  | [] => []
  | (k, d) :: fs => (k, d.toJson) :: Datum.toJsonFields fs

end

end Document

def Document.toJson (d : Document) : Json :=
  .object [
    ("statics", .object (d.statics.map fun t => (t.1, .object (Datum.toJsonFields t.2)))),
    ("constants", .object (Datum.toJsonFields d.constants)),
    ("predicate", d.predicate.toJson)]

/-- Whether two documents say the same, numbers compared as numbers. -/
def Document.agrees (d e : Document) : Bool := d.toJson.agrees e.toJson

end PredicateTree
