import PredicateTree.Expr.Identity
import PredicateTree.Expr.Text
import PredicateTree.Table

/-!
# Statics

Host members: the static members of the host's types, and the chains of names that lead from a
type or from a value to a member.

* `Statics`: for each declaring type the table of its static members. A type is known once a member
  of it is.
* `Value.readMember`: one step.
* `MemberChain`, `Statics.read`: all steps.
* `Expr.memberChain`: the chain that a tree spells.
-/

namespace PredicateTree

/-- Why a member cannot be read. -/
inductive MemberError where
  | unknownMember (className member : String)
  | unknownType (name : String)
  | notAnObject (kind member : String)
deriving DecidableEq

def MemberError.message : MemberError → String
  | .unknownMember className member => "`" ++ className ++ "` has no member `" ++ member ++ "`"
  | .unknownType name => "unknown declaring type `" ++ name ++ "`"
  | .notAnObject kind member => "cannot read `" ++ member ++ "` from " ++ kind

def Value.readMember (v : Value) (member : String) : Except MemberError Value :=
  match v with
  | .object className fields =>
    match Table.get? fields member with
    | some w => .ok w
    | none => .error (.unknownMember className member)
  | v => .error (.notAnObject v.kindName member)

abbrev Statics := Table (Table Value)

namespace Statics

/-- Adds a static member, or puts another value in its place. -/
def register (s : Statics) (declaringType name : String) (v : Value) : Statics :=
  s.put declaringType (((s.get? declaringType).getD []).put name v)

/-- The members of every listed type, registered one by one. -/
def ofTables (types : Table (Table Value)) : Statics :=
  types.foldl (fun s t => t.2.foldl (fun s m => s.register t.1 m.1 m.2) s) []

/-- The static members of a type, as an object of that class. -/
def holder? (s : Statics) (declaringType : String) : Option Value :=
  (s.get? declaringType).map (.object declaringType)

def member? (s : Statics) (declaringType name : String) : Option Value :=
  (s.get? declaringType).bind fun members => Table.get? members name

def holder (s : Statics) (declaringType : String) : Except MemberError Value :=
  match s.holder? declaringType with
  | some v => .ok v
  | none => .error (.unknownType declaringType)

end Statics

/-! ## Chains -/

inductive ChainRoot where
  | constant (value : Value)
  | static (declaringType : String)
deriving DecidableEq

/-- Member names read one after the other from a root. -/
structure MemberChain where
  root : ChainRoot
  members : List String
deriving DecidableEq

namespace MemberChain

def dotted (members : List String) : String := String.join (members.map ("." ++ ·))

def text (c : MemberChain) : String :=
  match c.root, c.members with
  | .constant v, ms => v.text ++ dotted ms
  | .static t, [] => t
  | .static t, m :: ms => t ++ "::" ++ m ++ dotted ms

/-- The chain with more steps at its end. -/
def extend (c : MemberChain) (more : List String) : MemberChain :=
  { c with members := c.members ++ more }

end MemberChain

def Value.readMembers (v : Value) : List String → Except MemberError Value
  | [] => .ok v
  | m :: ms =>
    match v.readMember m with
    | .ok w => w.readMembers ms
    | .error e => .error e

def Statics.read (s : Statics) (c : MemberChain) : Except MemberError Value :=
  match c.root with
  | .constant v => v.readMembers c.members
  | .static t =>
    match s.holder t with
    | .ok v => v.readMembers c.members
    | .error e => .error e

/-- Looks up the lambda that a chain leads to. A chain may well lead to something else. -/
abbrev Resolver := MemberChain → Except MemberError (Option Lambda)

def Statics.resolver (s : Statics) : Resolver := fun c =>
  match s.read c with
  | .ok v => .ok v.asLambda?
  | .error e => .error e

namespace Expr

/-- The chain from the innermost target outward and then through `after`, or that target if no
chain starts there. -/
def chainBefore (after : List String) : Expr → Except Expr MemberChain
  | member _ t r => t.chainBefore (r.name :: after)
  | static _ r => .ok ⟨.static r.declaringType, r.name :: after⟩
  | constant _ v => .ok ⟨.constant v, after⟩
  | e => .error e

def chain (e : Expr) : Except Expr MemberChain := e.chainBefore []

theorem chainBefore_eq : ∀ (e : Expr) (after : List String),
    e.chainBefore after = e.chain.map (·.extend after)
  | member _ t r, after => by
    simp only [chain, chainBefore]
    rw [chainBefore_eq t (r.name :: after), chainBefore_eq t [r.name]]
    cases t.chain <;> simp [Except.map, MemberChain.extend]
  | static .., _ => rfl
  | constant .., _ => rfl
  | binary .., _ | unary .., _ | call .., _ | parameter .., _ | conditional .., _ | default _, _
  | dynamic .., _ | lambda .., _ => rfl

/-- A member access adds a step to the chain of its target. -/
theorem chain_member (l : Label) (t : Expr) (r : MemberRef) :
    (member l t r).chain = t.chain.map (·.extend [r.name]) :=
  chainBefore_eq t [r.name]

/-- The chain that a member access spells; other trees spell none. -/
def memberChain (e : Expr) : Option (Except Expr MemberChain) :=
  match e with
  | member .. | static .. => some e.chain
  | _ => none

end Expr

end PredicateTree
