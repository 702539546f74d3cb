import PredicateTree.Outcome
import PredicateTree.Statics
import PredicateTree.Substitution
import PredicateTree.Trail

/-!
# Expansion

Inlining of expandable calls. Such a call names a lambda by a chain of members in its first
argument and passes the lambda's arguments after it; it is replaced by the body of the lambda with
every parameter replaced by its argument, expanded where the call stands. The body is expanded in
turn, in a scope that knows its own parameters only.

A call whose first argument is missing or is no member access, or whose chain does not lead to a
lambda, is left, and only its parts are expanded.

* `Expander.node` follows the tree and gets the expansion of inlined bodies as an argument.
* `Expander.expandIn` ties the knot, one unit of fuel for each body inside a body.
* `Traced`: an outcome together with the events on the way to it.
-/

namespace PredicateTree

/-- Why a pass over a tree fails. -/
inductive PassError where
  /-- A chain of members starts at this tree, which is no constant. -/
  | malformedChain (subtree : Expr)
  | resolution (chain : MemberChain) (cause : MemberError)
  | arity (chain : MemberChain) (expected found : Nat)
  | depthLimit (limit : Nat)
  | notAPredicate (lambda : Lambda)
  | subjectMismatch (left right : Ty)
deriving DecidableEq

def PassError.message : PassError → String
  | .malformedChain e => "unsupported node in member chain: " ++ e.text
  | .resolution c cause => "cannot resolve `" ++ c.text ++ "`: " ++ cause.message
  | .arity c expected found =>
    "`" ++ c.text ++ "` expects " ++ toString expected ++ " arguments, found " ++ toString found
  | .depthLimit limit => "expansion nested deeper than " ++ toString limit ++ " levels"
  | .notAPredicate l => "`" ++ l.text ++ "` is not a single-parameter boolean lambda"
  | .subjectMismatch l r => "cannot combine predicates over `" ++ l.text ++ "` and `" ++ r.text ++ "`"

/-- What happens while calls are inlined. -/
inductive Event where
  | consulted (chain : MemberChain)
  | inlining (chain : MemberChain) (depth : Nat)
  | leftWithoutCallee (method : Method)
  | leftNonMember (callee : Expr)
  | leftNonLambda (chain : MemberChain)
deriving DecidableEq

inductive LogLevel where
  | trace
  | debug
deriving DecidableEq

def LogLevel.text : LogLevel → String
  | .trace => "TRACE"
  | .debug => "DEBUG"

structure LogEntry where
  level : LogLevel
  message : String
deriving DecidableEq

/-- What an event leaves in the log. -/
def Event.entry? : Event → Option LogEntry
  | .consulted _ => none
  | .inlining c depth => some ⟨.trace, "inlining `" ++ c.text ++ "` at depth " ++ toString depth⟩
  | .leftWithoutCallee m =>
    some ⟨.debug, m.declaringType ++ "::" ++ m.name ++ " has no lambda argument, left as is"⟩
  | .leftNonMember e =>
    some ⟨.debug, "expandable call target `" ++ e.text ++ "` is not a member access, left as is"⟩
  | .leftNonLambda c => some ⟨.debug, "`" ++ c.text ++ "` does not hold a lambda, left as is"⟩

/-! ## Traced outcomes -/

structure Traced (α : Type) where
  trail : Trail Event
  outcome : Outcome PassError α

namespace Traced

variable {α β : Type}

def bind (x : Traced α) (f : α → Traced β) : Traced β :=
  match x.outcome with
  | .ok a =>
    let y := f a
    ⟨x.trail ++ y.trail, y.outcome⟩
  | .error e => ⟨x.trail, .error e⟩
  | .unfinished => ⟨x.trail, .unfinished⟩

instance : Monad Traced where
  pure a := ⟨.empty, .ok a⟩
  bind := bind

def note (e : Event) : Traced Unit := ⟨.one e, .ok ()⟩

def fail (e : PassError) : Traced α := ⟨.empty, .error e⟩

/-- The events in the order in which they happened. -/
def events (x : Traced α) : List Event := x.trail.toList

def log (x : Traced α) : List LogEntry := x.events.filterMap Event.entry?

def unfinished : Traced α := ⟨.empty, .unfinished⟩

@[simp] theorem outcome_pure (a : α) : (pure a : Traced α).outcome = .ok a := rfl

@[simp] theorem outcome_bind (x : Traced α) (f : α → Traced β) :
    (x >>= f).outcome = x.outcome >>= fun a => (f a).outcome := by
  show (x.bind f).outcome = x.outcome.bind fun a => (f a).outcome
  unfold bind Outcome.bind
  cases x.outcome <;> rfl

@[simp] theorem outcome_note (e : Event) : (note e).outcome = .ok () := rfl

@[simp] theorem outcome_fail (e : PassError) : (fail e : Traced α).outcome = .error e := rfl

@[simp] theorem outcome_unfinished : (unfinished : Traced α).outcome = .unfinished := rfl

end Traced

/-! ## The pass -/

structure Expander where
  resolver : Resolver
  /-- How deeply bodies may be inlined into bodies, if that is limited. -/
  maxDepth : Option Nat := none

namespace Expander

/-- The limit that inlining one more body at `depth` would break. -/
def exceeded (x : Expander) (depth : Nat) : Option Nat := x.maxDepth.filter (· ≤ depth)

/-- The lambda that the chain of an expandable call names, if it is to be inlined with
`arguments` arguments. -/
def consult (x : Expander) (depth : Nat) (chain : MemberChain) (arguments : Nat) :
    Traced (Option (MemberChain × Lambda)) := do
  Traced.note (.consulted chain)
  match x.resolver chain with
  | .error cause => Traced.fail (.resolution chain cause)
  | .ok none => do
    Traced.note (.leftNonLambda chain)
    return none
  | .ok (some l) =>
    if l.params.length ≠ arguments then
      Traced.fail (.arity chain l.params.length arguments)
    else
      match x.exceeded depth with
      | some limit => Traced.fail (.depthLimit limit)
      | none => return some (chain, l)

/-- What an expandable call with this first argument inlines, if anything. -/
def inlinee (x : Expander) (depth : Nat) (callee : Expr) (arguments : Nat) :
    Traced (Option (MemberChain × Lambda)) :=
  match callee.memberChain with
  | none => do
    Traced.note (.leftNonMember callee)
    return none
  | some (.error subtree) => Traced.fail (.malformedChain subtree)
  | some (.ok chain) => x.consult depth chain arguments

/-- Expansion of a body under the bindings of its parameters. -/
abbrev Inline := Site → Substitution → Expr → Traced Expr

mutual

def node (x : Expander) (inline : Inline) (depth : Nat) (scope : Substitution) (site : Site)
    (e : Expr) : Traced Expr :=
  match e with
  | .parameter _ p => return (scope.get? p).getD e
  | .call l t method [] => do
    if method.isExpandable then Traced.note (.leftWithoutCallee method)
    let t' ← optional x inline depth scope (site.child 0) t
    return e.orNew t.toList t'.toList (.call ⟨site, l.ty⟩ t' method [])
  | .call l t method (callee :: as) => do
    let inlined ←
      if method.isExpandable then x.inlinee depth callee as.length else pure none
    match inlined with
    | some (chain, lambda) => do
      Traced.note (.inlining chain depth)
      let as' ← list x inline depth scope site 2 as
      inline (site.child 0) (.ofList (lambda.params.zip as')) lambda.body
    | none => do
      let t' ← optional x inline depth scope (site.child 0) t
      let callee' ← node x inline depth scope (site.child 1) callee
      let as' ← list x inline depth scope site 2 as
      return e.orNew (t.toList ++ callee :: as) (t'.toList ++ callee' :: as')
        (.call ⟨site, l.ty⟩ t' method (callee' :: as'))
  | .binary l op a b => do
    let a' ← node x inline depth scope (site.child 0) a
    let b' ← node x inline depth scope (site.child 1) b
    return e.orNew [a, b] [a', b'] (.binary ⟨site, l.ty⟩ op a' b')
  | .unary l op a => do
    let a' ← node x inline depth scope (site.child 0) a
    return e.orNew [a] [a'] (.unary ⟨site, l.ty⟩ op a')
  | .member l t r => do
    let t' ← node x inline depth scope (site.child 0) t
    return e.orNew [t] [t'] (.member ⟨site, l.ty⟩ t' r)
  | .conditional l a b c => do
    let a' ← node x inline depth scope (site.child 0) a
    let b' ← node x inline depth scope (site.child 1) b
    let c' ← node x inline depth scope (site.child 2) c
    return e.orNew [a, b, c] [a', b', c'] (.conditional ⟨site, l.ty⟩ a' b' c')
  | .dynamic l binder as => do
    let as' ← list x inline depth scope site 0 as
    return e.orNew as as' (.dynamic ⟨site, l.ty⟩ binder as')
  | .lambda l ps b => do
    let b' ← node x inline depth scope (site.child 0) b
    return e.orNew [b] [b'] (.lambda ⟨site, l.ty⟩ ps b')
  | .static .. | .constant .. | .default _ => return e

def optional (x : Expander) (inline : Inline) (depth : Nat) (scope : Substitution) (site : Site) :
    Option Expr → Traced (Option Expr)
  | none => return none
  | some a => do
    let a' ← node x inline depth scope site a
    return some a'

/-- Expands a row of parts that stand at the positions from `i` on. -/
def list (x : Expander) (inline : Inline) (depth : Nat) (scope : Substitution) (site : Site)
    (i : Nat) : List Expr → Traced (List Expr)
  | [] => return []
  | a :: as => do
    let a' ← node x inline depth scope (site.child i) a
    let as' ← list x inline depth scope site (i + 1) as
    return a' :: as'

end

/-- Expansion at a depth under bindings. Without fuel no further body is inlined. -/
def expandIn (x : Expander) : Nat → Nat → Site → Substitution → Expr → Traced Expr
  | 0, depth, site, scope, e =>
    x.node (fun _ _ _ => Traced.unfinished) depth scope site e
  | fuel + 1, depth, site, scope, e =>
    x.node (x.expandIn fuel (depth + 1)) depth scope site e

/-- Inlines every expandable call of a tree. -/
def expand (x : Expander) (fuel : Nat) (site : Site) (e : Expr) : Traced Expr :=
  x.expandIn fuel 0 site [] e

/-- Expands the body and keeps the parameters. -/
def expandLambda (x : Expander) (fuel : Nat) (site : Site) (l : Lambda) : Traced Lambda := do
  let body ← x.expand fuel site l.body
  return l.withBody body

end Expander

end PredicateTree
