import PredicateTree.Document

/-!
# Document.Schema

The fields of each kind of written node.

* `Kind`: the kinds, with their names.
* `Slot`: what a field may hold, and `Part`: what it holds.
* `Kind.fields`: the fields of a kind in order.
* `Node.kind`, `Node.parts` take a node apart and `Kind.assemble?` puts it together.
-/

namespace PredicateTree

namespace Document

inductive Kind where
  | lambda | param | literal | constant | member | call | expand | binary | unary | conditional
  | default | dynamic
deriving DecidableEq

namespace Kind

def name : Kind → String
  | lambda => "lambda"
  | param => "param"
  | literal => "literal"
  | constant => "constant"
  | member => "member"
  | call => "call"
  | expand => "expand"
  | binary => "binary"
  | unary => "unary"
  | conditional => "conditional"
  | default => "default"
  | dynamic => "dynamic"

def all : List Kind :=
  [lambda, param, literal, constant, member, call, expand, binary, unary, conditional, default,
    dynamic]

def ofName? (s : String) : Option Kind := all.find? (·.name == s)

theorem ofName?_name (k : Kind) : ofName? k.name = some k := by cases k <;> decide

/-- The kind as messages call it. -/
def title : Kind → String
  | lambda => "struct variant NodeDoc::Lambda"
  | param => "struct variant NodeDoc::Param"
  | literal => "struct variant NodeDoc::Literal"
  | constant => "struct variant NodeDoc::Constant"
  | member => "struct variant NodeDoc::Member"
  | call => "struct variant NodeDoc::Call"
  | expand => "struct variant NodeDoc::Expand"
  | binary => "struct variant NodeDoc::Binary"
  | unary => "struct variant NodeDoc::Unary"
  | conditional => "struct variant NodeDoc::Conditional"
  | default => "struct variant NodeDoc::Default"
  | dynamic => "struct variant NodeDoc::Dynamic"

end Kind

inductive Slot where
  | node
  | optionalNode
  | nodes
  | text
  | optionalText
  | datum
  | fields
  | tables
  | declarations
  | binaryOp
  | unaryOp
  | markers
deriving DecidableEq

inductive Part where
  | node (n : Node)
  | optionalNode (n : Option Node)
  | nodes (ns : List Node)
  | text (s : String)
  | optionalText (s : Option String)
  | datum (d : Datum)
  | fields (fs : Table Datum)
  | tables (ts : Table (Table Datum))
  | declarations (ds : List Declaration)
  | binaryOp (op : BinaryOp)
  | unaryOp (op : UnaryOp)
  | markers (ms : List Marker)

structure Field where
  name : String
  slot : Slot
  /-- What stands for the field if it is left out; without it the field may not be. -/
  absent : Option Part := none

namespace Field

def optionalNode (name : String) : Field := ⟨name, .optionalNode, some (.optionalNode none)⟩

def optionalText (name : String) : Field := ⟨name, .optionalText, some (.optionalText none)⟩

def nodes (name : String) : Field := ⟨name, .nodes, some (.nodes [])⟩

def node (name : String) : Field := ⟨name, .node, none⟩

def text (name : String) : Field := ⟨name, .text, none⟩

end Field

def Kind.fields : Kind → List Field
  | lambda => [⟨"params", .declarations, none⟩, .node "body"]
  | param => [.text "name"]
  | literal => [⟨"value", .datum, none⟩, .optionalText "type"]
  | constant => [.text "ref"]
  | member => [.optionalNode "target", .optionalText "declaring_type", .text "name", .text "type"]
  | call => [.optionalNode "target", .optionalText "declaring_type", .text "method", .nodes "args",
      ⟨"markers", .markers, some (.markers [])⟩, .text "type"]
  | expand => [.node "lambda", .nodes "args", .text "type"]
  | binary => [⟨"op", .binaryOp, none⟩, .node "lhs", .node "rhs"]
  | unary => [⟨"op", .unaryOp, none⟩, .node "operand"]
  | conditional => [.node "test", .node "if_true", .node "if_false"]
  | default => [.text "type"]
  | dynamic => [.text "binder", .nodes "args", .text "type"]

/-- The fields of a declaration. -/
def Declaration.fields : List Field := [.text "name", .text "type"]

/-- The fields of an object value. -/
def Datum.fields : List Field := [.text "object", ⟨"fields", .fields, some (.fields [])⟩]

end Document

/-- The fields of a document. -/
def Document.fields : List Document.Field :=
  [⟨"statics", .tables, some (.tables [])⟩, ⟨"constants", .fields, some (.fields [])⟩,
    .node "predicate"]

/-- The document with the given fields, if they are those of a document. -/
def Document.assemble? : List Document.Part → Option Document
  | [.tables statics, .fields constants, .node predicate] => some ⟨statics, constants, predicate⟩
  | _ => none

namespace Document

namespace Node

def kind : Node → Kind
  | lambda .. => .lambda
  | param _ => .param
  | literal .. => .literal
  | constant _ => .constant
  | member .. => .member
  | call .. => .call
  | expand .. => .expand
  | binary .. => .binary
  | unary .. => .unary
  | conditional .. => .conditional
  | default _ => .default
  | dynamic .. => .dynamic

/-- What the fields of a node hold, in order. -/
def parts : Node → List Part
  | lambda ps b => [.declarations ps, .node b]
  | param name => [.text name]
  | literal v ty => [.datum v, .optionalText ty]
  | constant name => [.text name]
  | member t d name ty => [.optionalNode t, .optionalText d, .text name, .text ty]
  | call t d m as ks ty =>
    [.optionalNode t, .optionalText d, .text m, .nodes as, .markers ks, .text ty]
  | expand l as ty => [.node l, .nodes as, .text ty]
  | binary op a b => [.binaryOp op, .node a, .node b]
  | unary op a => [.unaryOp op, .node a]
  | conditional a b c => [.node a, .node b, .node c]
  | default ty => [.text ty]
  | dynamic b as ty => [.text b, .nodes as, .text ty]

end Node

/-- The node of a kind with the given fields, if they are those of the kind. -/
def Kind.assemble? : Kind → List Part → Option Node
  | lambda, [.declarations ps, .node b] => some (.lambda ps b)
  | param, [.text name] => some (.param name)
  | literal, [.datum v, .optionalText ty] => some (.literal v ty)
  | constant, [.text name] => some (.constant name)
  | member, [.optionalNode t, .optionalText d, .text name, .text ty] => some (.member t d name ty)
  | call, [.optionalNode t, .optionalText d, .text m, .nodes as, .markers ks, .text ty] =>
    some (.call t d m as ks ty)
  | expand, [.node l, .nodes as, .text ty] => some (.expand l as ty)
  | binary, [.binaryOp op, .node a, .node b] => some (.binary op a b)
  | unary, [.unaryOp op, .node a] => some (.unary op a)
  | conditional, [.node a, .node b, .node c] => some (.conditional a b c)
  | default, [.text ty] => some (.default ty)
  | dynamic, [.text b, .nodes as, .text ty] => some (.dynamic b as ty)
  | _, _ => none

theorem Kind.assemble?_parts (n : Node) : n.kind.assemble? n.parts = some n := by
  cases n <;> rfl

end Document

end PredicateTree
