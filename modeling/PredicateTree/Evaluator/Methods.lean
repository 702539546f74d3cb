import PredicateTree.Evaluator.Arithmetic
import PredicateTree.Outcome
import PredicateTree.Text.Lowercase

/-!
# Evaluator.Methods

Host functions, and the methods that every evaluator has. A method receives its target first.
-/

namespace PredicateTree

/-- A way to call a lambda. -/
abbrev Apply := Lambda → List Value → Outcome EvalError Value

/-- A method or a dynamic binder of the host. It may call the lambdas it receives. -/
abbrev HostFn := Apply → List Value → Outcome EvalError Value

namespace Methods

/-- A method of one string. -/
def onString (f : String → Value) : HostFn := fun _ args =>
  match args with
  | [.str s] => .ok (f s)
  | [v] => .error (v.mismatch "string")
  | args => .error (.arity 1 args.length)

/-- A method of two strings. -/
def onStrings (f : String → String → Value) : HostFn := fun _ args =>
  match args with
  | [.str s, .str t] => .ok (f s t)
  | [.str _, w] => .error (w.mismatch "string")
  | [v, _] => .error (v.mismatch "string")
  | args => .error (.arity 2 args.length)

def abs : HostFn := fun _ args =>
  match args with
  | [.int n] => .ok (.int n.abs)
  | [v] => .error (v.mismatch "int")
  | args => .error (.arity 1 args.length)

/-- The methods known without a host, by declaring type and name. -/
def builtin : List ((String × String) × HostFn) := [
  (("string", "starts_with"), onStrings fun s t => .bool (t.toList.isPrefixOf s.toList)),
  (("string", "ends_with"), onStrings fun s t => .bool (t.toList.isSuffixOf s.toList)),
  (("string", "contains"), onStrings fun s t => .bool (s.contains t)),
  (("string", "len"), onString fun s => .int (Int64.ofNat s.length)),
  (("string", "is_empty"), onString fun s => .bool (s == "")),
  (("string", "to_lowercase"), onString fun s => .str (lowercase s)),
  (("int", "abs"), abs)]

end Methods

end PredicateTree
