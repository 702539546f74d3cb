import PredicateTree.Evaluator.Methods
import PredicateTree.Substitution

/-!
# Evaluator

The reference interpreter. An expandable call is evaluated by calling the lambda that its first
argument evaluates to, so a tree means the same before and after expansion.

A lambda is called in an environment of its own parameters only. A nested lambda takes the
bindings around it along: they are substituted into its body as constants.

* `Evaluator.node` follows the tree and gets the way to call lambdas as an argument.
* `Evaluator.apply` ties the knot, one unit of fuel for each call inside a call.
-/

namespace PredicateTree

/-- What the variables in sight are bound to, the innermost binding first. -/
abbrev Env := List (Param × Value)

namespace Env

/-- Bindings made in the given order, on top of what was in sight. -/
def extend (env : Env) (bindings : List (Param × Value)) : Env := bindings.reverse ++ env

def lookup (env : Env) (p : Param) : Except EvalError Value :=
  match List.lookup p env with
  | some v => .ok v
  | none => .error (.unboundParameter p.name)

/-- Every binding as a constant of the variable's type, the next one made at position `i`. -/
def constantsFrom (site : Site) (i : Nat) : Env → Substitution
  | [] => []
  | (p, v) :: env => (p, .typedConstantAt (site.child i) v p.ty) :: constantsFrom site (i + 1) env

end Env

/-- The lambda with the bindings in sight put into its body. -/
def Lambda.close (site : Site) (env : Env) (l : Lambda) : Lambda :=
  l.withBody (l.body.substitute (site.child 0) (env.constantsFrom (site.child 1) 0))

structure Evaluator where
  statics : Statics
  /-- By declaring type and name; the first entry counts. -/
  methods : List ((String × String) × HostFn) := Methods.builtin
  binders : List (String × HostFn) := []

namespace Evaluator

def method? (ev : Evaluator) (m : Method) : Option HostFn :=
  List.lookup (m.declaringType, m.name) ev.methods

def binder? (ev : Evaluator) (name : String) : Option HostFn := List.lookup name ev.binders

def withMethod (ev : Evaluator) (declaringType name : String) (f : HostFn) : Evaluator :=
  { ev with methods := ((declaringType, name), f) :: ev.methods }

def withBinder (ev : Evaluator) (name : String) (f : HostFn) : Evaluator :=
  { ev with binders := (name, f) :: ev.binders }

def ofMember : Except MemberError Value → Outcome EvalError Value
  | .ok v => .ok v
  | .error e => .error (.member e)

mutual

def node (ev : Evaluator) (apply : Site → Apply) (env : Env) (site : Site) :
    Expr → Outcome EvalError Value
  | .binary _ .and a b => do
    let v ← node ev apply env (site.child 0) a
    if ← Outcome.ofExcept v.expectBool then
      let w ← node ev apply env (site.child 1) b
      return .bool (← Outcome.ofExcept w.expectBool)
    else return .bool false
  | .binary _ .or a b => do
    let v ← node ev apply env (site.child 0) a
    if ← Outcome.ofExcept v.expectBool then return .bool true
    else
      let w ← node ev apply env (site.child 1) b
      return .bool (← Outcome.ofExcept w.expectBool)
  | .binary _ op a b => do
    let v ← node ev apply env (site.child 0) a
    let w ← node ev apply env (site.child 1) b
    Outcome.ofExcept (op.compute v w)
  | .unary _ op a => do
    let v ← node ev apply env (site.child 0) a
    Outcome.ofExcept (op.compute v)
  | .member _ t r => do
    let v ← node ev apply env (site.child 0) t
    ofMember (v.readMember r.name)
  | .static _ r => ofMember (ev.statics.holder r.declaringType >>= fun v => v.readMember r.name)
  | .call _ t m as =>
    if m.isExpandable then
      match as with
      | [] => .error (.arity 1 0)
      | callee :: as => do
        let f ← node ev apply env (site.child 1) callee
        match f.asLambda? with
        | none => .error (f.mismatch "lambda")
        | some l => do
          let vs ← list ev apply env site 2 as
          apply (site.child 0) l vs
    else
      match ev.method? m with
      | none => .error (.unknownMethod m.declaringType m.name)
      | some f => do
        let vs ← optional ev apply env (site.child 1) t
        let ws ← list ev apply env site 2 as
        f (apply (site.child 0)) (vs ++ ws)
  | .constant _ v => .ok v
  | .parameter _ p => Outcome.ofExcept (env.lookup p)
  | .conditional _ test a b => do
    let v ← node ev apply env (site.child 0) test
    if ← Outcome.ofExcept v.expectBool then node ev apply env (site.child 1) a
    else node ev apply env (site.child 2) b
  | .default l => .ok l.ty.defaultValue
  | .dynamic _ binder as =>
    match ev.binder? binder with
    | none => .error (.unknownBinder binder)
    | some f => do
      let vs ← list ev apply env site 1 as
      f (apply (site.child 0)) vs
  | .lambda _ ps b => .ok (Lambda.close site env ⟨ps, b⟩).toValue

/-- The value of a target, if there is one. -/
def optional (ev : Evaluator) (apply : Site → Apply) (env : Env) (site : Site) :
    Option Expr → Outcome EvalError (List Value)
  | none => .ok []
  | some a => do
    let v ← node ev apply env site a
    return [v]

/-- Evaluates a row of parts that stand at the positions from `i` on. -/
def list (ev : Evaluator) (apply : Site → Apply) (env : Env) (site : Site) (i : Nat) :
    List Expr → Outcome EvalError (List Value)
  | [] => .ok []
  | a :: as => do
    let v ← node ev apply env (site.child i) a
    let vs ← list ev apply env site (i + 1) as
    return v :: vs

end

/-- Calls a lambda. Without fuel no call is made. -/
def apply (ev : Evaluator) : Nat → Site → Apply
  | 0, _, _, _ => .unfinished
  | fuel + 1, site, l, args =>
    if l.params.length ≠ args.length then .error (.arity l.params.length args.length)
    else ev.node (ev.apply fuel) (Env.extend [] (l.params.zip args)) site l.body

def eval (ev : Evaluator) (fuel : Nat) (site : Site) (env : Env) (e : Expr) :
    Outcome EvalError Value :=
  ev.node (ev.apply fuel) env site e

/-- Calls a lambda and requires a boolean. -/
def test (ev : Evaluator) (fuel : Nat) (site : Site) (l : Lambda) (v : Value) :
    Outcome EvalError Bool := do
  let w ← ev.apply fuel site l [v]
  Outcome.ofExcept w.expectBool

end Evaluator

end PredicateTree
