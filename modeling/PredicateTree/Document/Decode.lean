import PredicateTree.Document.Schema

/-!
# Document.Decode

Documents from trees of data. A record (a node, a declaration, an object value) may be written as
an object, with its fields in any order and others between them, or as an array, with its fields in
order and those at the end left out that need not be there. Of two faults the one written first
counts; that a field is missing shows at the end.

* `recordOf`: the fields of any record.
* `partWithin`: one field. It counts down the depth of the data.
* `Datum.ofJson`, `Document.ofJson`: whole trees.

A node inside another one has been read to its end before its kind is known, and may tell it by its
number. The predicate of a document is met as it is read, and tells its kind by name only.
-/

namespace PredicateTree

namespace Document

open Json (DataFault)

/-- Reads what a slot may hold. -/
abbrev PartOf := Slot → Json → Except DataFault Part

def invalid {α : Type} (j : Json) (wanted : String) : Except DataFault α :=
  .error (.invalidType j.shape wanted)

/-! ## Records -/

/-- A count of fields, as messages give it. -/
def elements (n : Nat) : String := toString n ++ (if n = 1 then " element" else " elements")

/-- Reads the members of an object that are fields, in the order of the text. -/
def scanMembers (part : PartOf) (fields : List Field) (seen : List (String × Part)) :
    List (String × Json) → Except DataFault (List (String × Part))
  | [] => .ok seen
  | (k, j) :: ms =>
    match fields.find? (·.name == k) with
    | none => scanMembers part fields seen ms
    | some f =>
      if (List.lookup k seen).isSome then .error (.duplicateField k)
      else
        match part f.slot j with
        | .error e => .error e
        | .ok p => scanMembers part fields ((k, p) :: seen) ms

/-- Every field in order, with what stands for it if it was not seen. -/
def completed (seen : List (String × Part)) : List Field → Except DataFault (List Part)
  | [] => .ok []
  | f :: fs =>
    match (List.lookup f.name seen).or f.absent with
    | none => .error (.missingField f.name)
    | some p =>
      match completed seen fs with
      | .error e => .error e
      | .ok ps => .ok (p :: ps)

/-- Reads the items of an array as the fields, which are `count` with the `i` already read. -/
def scanItems (part : PartOf) (title : String) (count i : Nat) :
    List Field → List Json → Except DataFault (List Part)
  | [], [] => .ok []
  | [], js => .error (.invalidLength (i + js.length) (elements i ++ " in sequence"))
  | f :: fs, [] =>
    match f.absent with
    | none => .error (.invalidLength i (title ++ " with " ++ elements count))
    | some p =>
      match scanItems part title count (i + 1) fs [] with
      | .error e => .error e
      | .ok ps => .ok (p :: ps)
  | f :: fs, j :: js =>
    match part f.slot j with
    | .error e => .error e
    | .ok p =>
      match scanItems part title count (i + 1) fs js with
      | .error e => .error e
      | .ok ps => .ok (p :: ps)

/-- The fields of a record; `wanted` is what a reader is told that finds neither form. -/
def recordOf (part : PartOf) (title wanted : String) (fields : List Field) (j : Json) :
    Except DataFault (List Part) :=
  match j with
  | .object ms =>
    match scanMembers part fields [] ms with
    | .error e => .error e
    | .ok seen => completed seen fields
  | .array js => scanItems part title fields.length 0 fields js
  | j => invalid j wanted

/-! ## Names -/

/-- The value that a name stands for. -/
def named {α : Type} (ofName? : String → Option α) (names : List String) (s : String) :
    Except DataFault α :=
  match ofName? s with
  | some a => .ok a
  | none => .error (.unknownVariant s names)

/-- A choice among names, written as a string or as the only name of an object that says nothing
more. -/
def choice {α : Type} (ofName? : String → Option α) (names : List String) (j : Json) :
    Except DataFault α :=
  match j with
  | .string s => named ofName? names s
  | .object [(k, j)] =>
    match named ofName? names k with
    | .error e => .error e
    | .ok a =>
      match j with
      | .null | .object [] => .ok a
      | j => invalid j "unit"
  | .object _ => .error (.invalidValue .map "map with a single key")
  | j => invalid j "string or map"

namespace Kind

def ofString (s : String) : Except DataFault Kind := named ofName? (all.map name) s

/-- A kind by its name. -/
def byName (j : Json) : Except DataFault Kind :=
  match j with
  | .string s => ofString s
  | j => invalid j "variant identifier"

/-- A kind by its name or by its number. -/
def ofJson (j : Json) : Except DataFault Kind :=
  match j with
  | .unsigned n =>
    match all[n.toNat]? with
    | some k => .ok k
    | none => .error (.invalidValue j.shape "variant index 0 <= i < 12")
  | j => byName j

end Kind

/-! ## Nodes -/

/-- The name of the field that tells the kind of a node. -/
def kindField : String := "kind"

/-- Takes the kind out of the members of a node. -/
def splitKind (kindOf : Json → Except DataFault Kind) (kind? : Option Kind)
    (others : List (String × Json)) :
    List (String × Json) → Except DataFault (Kind × List (String × Json))
  | [] =>
    match kind? with
    | none => .error (.missingField kindField)
    | some k => .ok (k, others.reverse)
  | (name, j) :: ms =>
    if name = kindField then
      match kind? with
      | some _ => .error (.duplicateField kindField)
      | none =>
        match kindOf j with
        | .error e => .error e
        | .ok k => splitKind kindOf (some k) others ms
    else splitKind kindOf kind? ((name, j) :: others) ms

/-- What messages call a node. -/
def nodeTitle : String := "internally tagged enum NodeDoc"

/-- The kind of a node, and what else is written in it. -/
def nodeContent (kindOf : Json → Except DataFault Kind) (j : Json) :
    Except DataFault (Kind × Json) :=
  match j with
  | .object ms =>
    match splitKind kindOf none [] ms with
    | .error e => .error e
    | .ok (k, others) => .ok (k, .object others)
  | .array [] => .error (.missingField kindField)
  | .array (j :: js) =>
    match kindOf j with
    | .error e => .error e
    | .ok k => .ok (k, .array js)
  | j => invalid j nodeTitle

/-- A node of a known kind from what else is written in it. -/
def nodeOfKind (part : PartOf) (k : Kind) (content : Json) : Except DataFault Node :=
  match recordOf part k.title k.title k.fields content with
  | .error e => .error e
  | .ok ps =>
    match k.assemble? ps with
    | some n => .ok n
    | none => .error .noMatch

def nodeOf (kindOf : Json → Except DataFault Kind) (part : PartOf) (j : Json) :
    Except DataFault Node :=
  match nodeContent kindOf j with
  | .error e => .error e
  | .ok (k, content) => nodeOfKind part k content

/-! ## Values -/

/-- An object value, which is never written as an array. -/
def objectOf? (part : PartOf) (j : Json) : Option Datum :=
  match j with
  | .object _ =>
    match recordOf part "" "" Datum.fields j with
    | .ok [.text className, .fields fs] => some (.object className fs)
    | _ => none
  | _ => none

/-- A value takes the first form that fits; what is wrong with each is not told. -/
def datumOf (part : PartOf) (j : Json) : Except DataFault Datum :=
  match j with
  | .null => .ok .null
  | .bool b => .ok (.bool b)
  | .unsigned n => .ok (if n.toNat < Nat.pow 2 63 then .int (.ofNat n.toNat) else .unsigned n)
  | .negative n => .ok (.int n)
  | .float x => .ok (.float x)
  | .string s => .ok (.str s)
  | j =>
    match objectOf? part j with
    | some d => .ok d
    | none =>
      match nodeOf Kind.ofJson part j with
      | .ok n => .ok (.node n)
      | .error _ => .error .noMatch

/-! ## Parts -/

def textOf (j : Json) : Except DataFault String :=
  match j with
  | .string s => .ok s
  | j => invalid j "a string"

/-- Reads the items of an array one by one. -/
def listOf {α : Type} (f : Json → Except DataFault α) (j : Json) : Except DataFault (List α) :=
  match j with
  | .array js => js.mapM f
  | j => invalid j "a sequence"

def declarationOf (part : PartOf) (j : Json) : Except DataFault Declaration :=
  match recordOf part "struct ParamDoc" "struct ParamDoc" Declaration.fields j with
  | .error e => .error e
  | .ok [.text name, .text ty] => .ok ⟨name, ty⟩
  | .ok _ => .error .noMatch

/-- The entries of a table; of two with one name the later counts. -/
def tableOf {α : Type} (f : Json → Except DataFault α) (j : Json) : Except DataFault (Table α) :=
  match j with
  | .object ms => do
    let entries ← ms.mapM fun m => do return (m.1, ← f m.2)
    return Table.ofList entries
  | j => invalid j "a map"

def binaryOpOf : Json → Except DataFault BinaryOp :=
  choice BinaryOp.ofName? (BinaryOp.all.map BinaryOp.name)

def unaryOpOf : Json → Except DataFault UnaryOp :=
  choice UnaryOp.ofName? (UnaryOp.all.map UnaryOp.name)

def markerOf : Json → Except DataFault Marker :=
  choice Marker.ofName? (Marker.all.map Marker.name)

/-- What stands in a field, for data of at most the given depth. -/
def partWithin : Nat → PartOf
  | 0, _, _ => .error .noMatch
  | depth + 1, slot, j =>
    let part := partWithin depth
    match slot with
    | .node => (nodeOf Kind.ofJson part j).map .node
    | .optionalNode =>
      match j with
      | .null => .ok (.optionalNode none)
      | j => (nodeOf Kind.ofJson part j).map fun n => .optionalNode (some n)
    | .nodes => (listOf (nodeOf Kind.ofJson part) j).map .nodes
    | .text => (textOf j).map .text
    | .optionalText =>
      match j with
      | .null => .ok (.optionalText none)
      | j => (textOf j).map fun s => .optionalText (some s)
    | .datum => (datumOf part j).map .datum
    | .fields => (tableOf (datumOf part) j).map .fields
    | .tables => (tableOf (tableOf (datumOf part)) j).map .tables
    | .declarations => (listOf (declarationOf part) j).map .declarations
    | .binaryOp => (binaryOpOf j).map .binaryOp
    | .unaryOp => (unaryOpOf j).map .unaryOp
    | .markers => (listOf markerOf j).map .markers

/-- Reads the parts of `j`. -/
def partsOf (j : Json) : PartOf := partWithin (j.depth + 1)

def Datum.ofJson (j : Json) : Except DataFault Datum := datumOf (partsOf j) j

/-- What messages call a document. -/
def title : String := "struct Document"

/-- The document that complete fields make up. -/
def ofParts : Except DataFault (List Part) → Except DataFault Document
  | .error e => .error e
  | .ok ps =>
    match assemble? ps with
    | some d => .ok d
    | none => .error .noMatch

/-- Reads the parts of a document that is `j`. -/
def topPartsOf (j : Json) : PartOf
  | .node, p => (nodeOf Kind.byName (partsOf j) p).map .node
  | slot, p => partsOf j slot p

end Document

def Document.ofJson (j : Json) : Except Json.DataFault Document :=
  ofParts (recordOf (topPartsOf j) title title fields j)

end PredicateTree
