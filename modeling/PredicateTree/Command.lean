import PredicateTree.Disk
import PredicateTree.Stages

/-!
# Command

What the program does with one file: a task, the line it prints if it succeeds, the diagnostics,
and the exit status, which is 1 if there is an error among them.
-/

namespace PredicateTree

inductive Task where
  | expand
  | negate
  | check
  | eval (arg : String)
deriving DecidableEq

structure Command where
  task : Task
  file : String
deriving DecidableEq

/-- What a run leaves behind. -/
structure Printed where
  out : String
  err : String
  status : Nat
deriving DecidableEq

/-- What a check prints. -/
def Task.noErrors : String := "✓ No errors"

/-- What a task finds out about a text, and the line for it. -/
def Task.report (fuel : Nat) (name text : String) (task : Task) : Report String := do
  let a ← Analysis.ofText fuel name text
  match task with
  | .expand => do
    let r ← a.expanded.shown
    return r.after
  | .negate => do
    let r ← a.expanded.negated (.root 2) name
    return r.after
  | .check => do
    a.expanded.checked (.root 2) name
    return noErrors
  | .eval arg => a.expanded.evaluated a.document a.lowered fuel (.root 2) arg

/-- The line that is printed. A check goes by the diagnostics, the other tasks by their result. -/
def Task.line? (task : Task) (r : Report String) : Option String :=
  match task with
  | .check => if r.hasError then none else some noErrors
  | _ => r.value?

/-- The line on standard output and the diagnostics on standard error. -/
def Task.printed (task : Task) (r : Report String) : Printed where
  out := match task.line? r with
    | some line => line ++ "\n"
    | none => ""
  err := String.join (r.diagnostics.map fun d => d.text ++ "\n")
  status := if r.hasError then 1 else 0

namespace Command

/-- The run on a file of which this was loaded. -/
def answer {ε : Type} (c : Command) (fuel : Nat) : Except LoadError String → Outcome ε Printed
  | .error e => .ok ⟨"", "Error reading " ++ c.file ++ ": " ++ e.message ++ "\n", 1⟩
  | .ok text =>
    let r := c.task.report fuel c.file text
    match r.outcome with
    | .unfinished => .unfinished
    | _ => .ok (c.task.printed r)

end Command

end PredicateTree
