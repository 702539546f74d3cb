import PredicateTree.Document
import PredicateTree.Expr.Build
import PredicateTree.Expr.Identity
import PredicateTree.Outcome

/-!
# Document.Lowering

From what is written to trees and values. Each name of a parameter is resolved to the declaration
in sight, the innermost lambda first and in it the first of that name; a constant is put in by
value. What is written in a constant or a static member sees no parameters from outside.

A declaration becomes a parameter whose identity is the place where it is written, so a constant
gives the same parameters however often it is referred to.

* `Node.lower`, `Datum.lower` follow what is written and get the constants as an argument.
* `Document.settled` works out the constants round by round, each from those already worked out, so
  that each is lowered once however often it is referred to.
* A constant that is not in that table cannot be lowered, and `Document.constantWithin` follows it
  to the reason. The recursion is bounded by room for the constants that are open at once. One that
  is met again while it is open is an error, so the room that is needed is known in advance;
  without that test there would be no room that is enough.
* `Document.lowerWithin` lowers a document with such room.
-/

namespace PredicateTree

namespace Document

/-- Looks up a constant by name. Without room to work it out there is no answer. -/
abbrev Constants := String → Outcome DocumentError Value

def parseTy (s : String) : Outcome DocumentError Ty :=
  match Ty.parse s with
  | .ok t => .ok t
  | .error e => .error (.type e)

/-- The parameters that declarations make, the next one at position `i`. -/
def declare (site : Site) (i : Nat) : List Declaration → Outcome DocumentError (List Param)
  | [] => .ok []
  | d :: ds => do
    let t ← parseTy d.ty
    let ps ← declare site (i + 1) ds
    return ⟨site.child i, d.name, t⟩ :: ps

/-- The parameter of a name among those in sight, the nearest first. -/
def lookup (scope : List Param) (name : String) : Outcome DocumentError Param :=
  match scope.find? (·.name == name) with
  | some p => .ok p
  | none => .error (.unboundParameter name)

mutual

def Node.lower (constants : Constants) (scope : List Param) (site : Site) :
    Node → Outcome DocumentError Expr
  | .lambda ds b => do
    let ps ← declare (site.child 0) 0 ds
    let body ← Node.lower constants (ps ++ scope) (site.child 1) b
    return .lambdaAt site ⟨ps, body⟩
  | .param name => do
    let p ← lookup scope name
    return .parameterAt site p
  | .literal d ty => do
    let v ← Datum.lower constants scope (site.child 0) d
    match ty with
    | some s =>
      let t ← parseTy s
      return .typedConstantAt site v t
    | none => return .constantAt site v
  | .constant name => do
    let v ← constants name
    return .constantAt site v
  | .member target declaring name ty => do
    let t ← parseTy ty
    match ← Node.lowerOption constants scope (site.child 0) target with
    | some e => return .memberAt site e name t
    | none =>
      match declaring with
      | some c => return .staticAt site c name t
      | none => .error (.missingDeclaringType name)
  | .call target declaring method args markers ty => do
    let t ← parseTy ty
    let e? ← Node.lowerOption constants scope (site.child 0) target
    match declaring.or (e?.map fun e => e.ty.className) with
    | none => .error (.missingDeclaringType method)
    | some c =>
      let as ← Node.lowerList constants scope site 1 args
      return .callAt site e? (markers.foldl Method.mark ⟨c, method, []⟩) as t
  | .expand l args ty => do
    let e ← Node.lower constants scope (site.child 0) l
    let as ← Node.lowerList constants scope site 1 args
    let t ← parseTy ty
    return .expandAt site e as t
  | .binary op a b => do
    let a' ← Node.lower constants scope (site.child 0) a
    let b' ← Node.lower constants scope (site.child 1) b
    return .binaryAt site op a' b'
  | .unary op a => do
    let a' ← Node.lower constants scope (site.child 0) a
    return .unaryAt site op a'
  | .conditional a b c => do
    let a' ← Node.lower constants scope (site.child 0) a
    let b' ← Node.lower constants scope (site.child 1) b
    let c' ← Node.lower constants scope (site.child 2) c
    return .conditionalAt site a' b' c'
  | .default ty => do
    let t ← parseTy ty
    return .defaultAt site t
  | .dynamic binder args ty => do
    let as ← Node.lowerList constants scope site 0 args
    let t ← parseTy ty
    return .dynamicAt site binder as t

def Node.lowerOption (constants : Constants) (scope : List Param) (site : Site) :
    Option Node → Outcome DocumentError (Option Expr)
  | none => .ok none
  | some n => do
    let e ← Node.lower constants scope site n
    return some e

/-- Lowers a row of nodes that stand at the positions from `i` on. -/
def Node.lowerList (constants : Constants) (scope : List Param) (site : Site) (i : Nat) :
    List Node → Outcome DocumentError (List Expr)
  | [] => .ok []
  | n :: ns => do
    let e ← Node.lower constants scope (site.child i) n
    let es ← Node.lowerList constants scope site (i + 1) ns
    return e :: es

def Datum.lower (constants : Constants) (scope : List Param) (site : Site) :
    Datum → Outcome DocumentError Value
  | .null => .ok .null
  | .bool b => .ok (.bool b)
  | .int n => .ok (.int n)
  | .unsigned n => .error (.integerOutOfRange n)
  | .float x => .ok (.float x)
  | .str s => .ok (.str s)
  | .object c fs => do
    let vs ← Datum.lowerFields constants scope site 0 fs
    return .objectOf c vs
  | .node (.lambda ds b) => do
    let ps ← declare (site.child 0) 0 ds
    let body ← Node.lower constants (ps ++ scope) (site.child 1) b
    return .lambda ps body
  | .node (.constant name) => constants name
  | .node _ => .error .notAValue

def Datum.lowerFields (constants : Constants) (scope : List Param) (site : Site) (i : Nat) :
    List (String × Datum) → Outcome DocumentError (List (String × Value))
  | [] => .ok []
  | (k, d) :: fs => do
    let v ← Datum.lower constants scope (site.child i) d
    let vs ← Datum.lowerFields constants scope site (i + 1) fs
    return (k, v) :: vs

end

end Document

/-- A document with every name resolved. -/
structure Lowered where
  statics : Table (Table Value)
  constants : Table Value
  predicate : Lambda
deriving DecidableEq

/-- Whether two lowered documents are alike in structure. -/
def Lowered.alike (l m : Lowered) : Bool :=
  let values (t u : Table Value) : Bool := List.isEqv t u fun d e => d.1 = e.1 && d.2.alike e.2
  l.predicate.alike m.predicate && values l.constants m.constants &&
    List.isEqv l.statics m.statics fun d e => d.1 = e.1 && values d.2 e.2

namespace Document

/-- The place of a constant among the constants of the document, lowered at `site`. -/
def constantSite (doc : Document) (site : Site) (name : String) : Site :=
  (site.child 0).child (doc.constants.findIdx (·.1 == name))

/-- Adds a constant to those worked out, if it needs no others than them. -/
def settleOne (doc : Document) (site : Site) (known : Table Value) (name : String) :
    Table Value :=
  let constants (n : String) : Outcome DocumentError Value :=
    (known.get? n).elim (.error (.unknownConstant n)) .ok
  if known.contains name then known
  else
    match doc.constants.get? name with
    | none => known
    | some d =>
      match Datum.lower constants [] (doc.constantSite site name) d with
      | .ok v => known.put name v
      | .error _ | .unfinished => known

/-- One round over the constants, from the last to the first and back. -/
def settleRound (doc : Document) (site : Site) (known : Table Value) : Table Value :=
  let back := doc.constants.names.foldr (fun name known => doc.settleOne site known name) known
  doc.constants.names.foldl (doc.settleOne site) back

/-- Rounds until one brings nothing new. -/
def settleRounds (doc : Document) (site : Site) : Nat → Table Value → Table Value
  | 0, known => known
  | rounds + 1, known =>
    let more := doc.settleRound site known
    if more.length = known.length then known else doc.settleRounds site rounds more

/-- The constants that can be lowered, with their values. -/
def settled (doc : Document) (site : Site) : Table Value :=
  doc.settleRounds site doc.constants.length []

/-- The value of a constant while those in `pending` are being worked out, with room for so many
more. -/
def constantWithin (doc : Document) (site : Site) (known : Table Value) :
    Nat → List String → Constants
  | 0, _, _ => .unfinished
  | room + 1, pending, name =>
    match known.get? name with
    | some v => .ok v
    | none =>
      match doc.constants.get? name with
      | none => .error (.unknownConstant name)
      | some d =>
        if pending.contains name then .error (.cyclicConstant name)
        else
          Datum.lower (constantWithin doc site known room (name :: pending)) []
            (doc.constantSite site name) d

/-- The value of every constant, in the order of the names. -/
def lowerConstants (constants : Constants) : Table Datum → Outcome DocumentError (Table Value)
  | [] => .ok []
  | (name, _) :: cs => do
    let v ← constants name
    let vs ← lowerConstants constants cs
    return (name, v) :: vs

/-- The static members of every type, the next one at position `i`. -/
def lowerStatics (constants : Constants) (site : Site) (i : Nat) :
    Table (Table Datum) → Outcome DocumentError (Table (Table Value))
  | [] => .ok []
  | (t, ms) :: ts => do
    let vs ← Datum.lowerFields constants [] (site.child i) 0 ms
    let rest ← lowerStatics constants site (i + 1) ts
    return (t, vs) :: rest

/-- Lowering with room for so many constants that are open at once. -/
def lowerWithin (doc : Document) (site : Site) (room : Nat) : Outcome DocumentError Lowered := do
  let constant := doc.constantWithin site (doc.settled site) room []
  let constants ← lowerConstants constant doc.constants
  let statics ← lowerStatics constant (site.child 1) 0 doc.statics
  match doc.predicate with
  | .lambda ds b =>
    let ps ← declare ((site.child 2).child 0) 0 ds
    let body ← Node.lower constant ps ((site.child 2).child 1) b
    return ⟨statics, constants, ⟨ps, body⟩⟩
  | _ => .error .predicateNotLambda

/-- A value given next to the document, which may refer to its constants. -/
def lowerDatumWithin (doc : Document) (site : Site) (room : Nat) (d : Datum) :
    Outcome DocumentError Value :=
  Datum.lower (doc.constantWithin site (doc.settled site) room []) [] (site.child 3) d

end Document

end PredicateTree
