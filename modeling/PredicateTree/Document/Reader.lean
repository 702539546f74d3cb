import PredicateTree.Document.Decode

/-!
# Document.Reader

Documents from text. The document itself, its two tables and the kind of its predicate are read as
they come, so that a fault in them is found where it stands. Each value of a table, and what else
is in the predicate, is first read to its end and decoded then; a fault in it is placed where the
reader stands when the object around it has been closed as far as it can be.
-/

namespace PredicateTree

namespace Document

open Json Json.Reading

/-- The members of an object one after the other. For each, `member` reads from behind the name on
and adds to what came before. -/
def foldMembers {α : Type} (member : α → String → Reading α) : Nat → Bool → α → Reading α
  | 0, _, _ => failHere .endInObject
  | fuel + 1, first, a => do
    if ← moreMembers first then
      let k ← key
      foldMembers member fuel false (← member a k)
    else return a

/-- A table whose values are read by `entry`. -/
def readTable {α : Type} (room : Nat) (entry : Nat → Reading α) : Reading (Table α) := placed do
  match ← peekToken with
  | none => failNext .endInValue
  | some c =>
    let add (room : Nat) (t : Table α) (k : String) : Reading (Table α) := do
      colon
      return t.put k (← entry room)
    if c = '\x7b' then
      within room (fun room => do foldMembers (add room) (← fuel) true []) closeObject
    else unwanted "a map"

def readDatum (room : Nat) : Reading Datum := do
  let j ← value room
  ofExcept (Datum.ofJson j)

/-- The kind of a node, decoded where it stands. -/
def readKind : Reading Kind := placed do
  match ← peekToken with
  | none => failNext .endInValue
  | some c =>
    if c = '"' then
      advance
      let s ← string
      ofExcept (Kind.ofString s)
    else unwanted "variant identifier"

/-- The members of a node: its kind, once it is met, and the others, the last one first. -/
def readNodeMember (room : Nat) (a : Option Kind × List (String × Json)) (k : String) :
    Reading (Option Kind × List (String × Json)) := do
  if k = kindField then
    if a.1.isSome then failData (.duplicateField kindField)
    colon
    return (some (← readKind), a.2)
  else
    colon
    let j ← value room
    return (a.1, (k, j) :: a.2)

/-- The kind of a node written as an array, and its other items. -/
def readNodeItems (room : Nat) : Reading (Kind × Json) := do
  if ← moreItems true then
    let k ← readKind
    return (k, .array (← restItems room))
  else failData (.missingField kindField)

def readNodeMembers (room : Nat) : Reading (Kind × Json) := do
  match ← foldMembers (readNodeMember room) (← fuel) true (none, []) with
  | (some k, others) => return (k, .object others.reverse)
  | (none, _) => failData (.missingField kindField)

/-- A node apart from its kind, not decoded yet. -/
def readNodeParts (room : Nat) : Reading (Kind × Json) := placed do
  match ← peekToken with
  | none => failNext .endInValue
  | some c =>
    if c = '[' then within room readNodeItems closeArray
    else if c = '\x7b' then within room readNodeMembers closeObject
    else unwanted nodeTitle

def readNode (room : Nat) : Reading Node := do
  let (k, content) ← readNodeParts room
  ofExcept (nodeOfKind (partsOf content) k content)

def readPart (room : Nat) : Slot → Reading Part
  | .tables => return .tables (← readTable room fun room => readTable room readDatum)
  | .fields => return .fields (← readTable room readDatum)
  | _ => return .node (← readNode room)

def readMember (room : Nat) (seen : List (String × Part)) (k : String) :
    Reading (List (String × Part)) := do
  match fields.find? (·.name == k) with
  | none =>
    colon
    skip
    return seen
  | some f =>
    if (List.lookup k seen).isSome then failData (.duplicateField k)
    colon
    return (k, ← readPart room f.slot) :: seen

/-- The fields of a document written as an array, from the `i`-th on. -/
def readItems (room : Nat) (i : Nat) : List Field → Reading (List Part)
  | [] => return []
  | f :: fs => do
    if ← moreItems (i = 0) then
      let p ← readPart room f.slot
      return p :: (← readItems room (i + 1) fs)
    else
      match f.absent with
      | some p => return p :: (← readItems room (i + 1) fs)
      | none => failData (.invalidLength i (title ++ " with " ++ elements fields.length))

def readMembers (room : Nat) : Reading (List Part) := do
  let seen ← foldMembers (readMember room) (← fuel) true []
  ofExcept (completed seen fields)

def readParts (room : Nat) : Reading (List Part) := placed do
  match ← peekToken with
  | none => failNext .endInValue
  | some c =>
    if c = '[' then within room (fun room => readItems room 0 fields) closeArray
    else if c = '\x7b' then within room readMembers closeObject
    else unwanted title

/-- Nothing may follow what is read. -/
def whole {α : Type} (r : Reading α) : Reading α := do
  let a ← r
  finish
  return a

end Document

open Document in
def Document.ofText (text : String) : Except DocumentError Document :=
  let r : Json.Reading Document := whole do
    let ps ← readParts Json.Reading.maxOpen
    Json.Reading.ofExcept (ofParts (.ok ps))
  match r.run text with
  | .ok d => .ok d
  | .error e => .error (.json e)

open Document in
/-- A value on its own. -/
def Document.Datum.ofText (text : String) : Except DocumentError Datum :=
  match Json.Reading.run (whole (readDatum Json.Reading.maxOpen)) text with
  | .ok d => .ok d
  | .error e => .error (.json e)

end PredicateTree
