import PredicateTree.Command

/-!
# Queries

The stages of one text as queries that read each other. A query has a result of its own and tells
diagnostics of its own; what has been told on the way to its result is what all queries have told
that it has read, each counted once.

```text
parsed ─► lowered ─► expanded ─► shown ─► checked
                        │                   ▲
                        ├─► negated ────────┘
                        └─► evaluated
```

* `Query`: the queries.
* `Session`: one text in a workspace of its own. `Session.parsed` .. `Session.evaluated` are what
  the queries come to.
* `Session.reads`: the queries that a query asks itself, in order. The query behind a task may ask
  one query twice, directly and through others.
-/

namespace PredicateTree

inductive Query where
  | parsed
  | lowered
  | expanded
  | shown
  | negated
  | checked
  | evaluated (arg : String)
deriving DecidableEq

/-- The query that a task asks. -/
def Task.query : Task → Query
  | .expand => .shown
  | .negate => .negated
  | .check => .checked
  | .eval arg => .evaluated arg

structure Session where
  /-- How the log calls the document. -/
  name : String
  text : String
  fuel : Nat

namespace Session

variable (s : Session)

/-! ## What each query comes to -/

def parsed : Report Document := Document.read s.text

def lowered : Report Lowered := Report.next s.parsed.outcome fun doc => doc.resolved (.root 0)

def expanded : Report Expanded :=
  Report.next s.lowered.outcome fun low => low.expanded s.fuel (.root 1) s.name

def shown : Report Rendered := Report.next s.expanded.outcome Expanded.shown

def negated : Report Rendered :=
  Report.next s.expanded.outcome fun x => x.negated (.root 2) s.name

/-- A query whose result is whether another has one. -/
def found {α : Type} : Outcome Unit α → Outcome Unit Bool
  | .ok _ => .ok true
  | .error () => .ok false
  | .unfinished => .unfinished

/-- Whether all stages that apply have a result. -/
def checked : Outcome Unit Bool := do
  if ← found s.shown.outcome then
    match s.expanded.outcome with
    | .ok x => if x.isPredicate then found s.negated.outcome else return true
    | .error () => return false
    | .unfinished => .unfinished
  else return false

def evaluated (arg : String) : Report String :=
  Report.next s.expanded.outcome fun x =>
  Report.next s.parsed.outcome fun doc =>
  Report.next s.lowered.outcome fun low =>
    x.evaluated doc low s.fuel (.root 2) arg

/-! ## What each query tells and reads -/

/-- What the query itself tells. -/
def own : Query → List Diagnostic
  | .parsed => s.parsed.diagnostics
  | .lowered => s.lowered.diagnostics
  | .expanded => s.expanded.diagnostics
  | .shown => s.shown.diagnostics
  | .negated => s.negated.diagnostics
  | .checked => []
  | .evaluated arg => (s.evaluated arg).diagnostics

def reads : Query → List Query
  | .parsed => []
  | .lowered => [.parsed]
  | .expanded => [.lowered]
  | .shown => [.expanded]
  | .negated => [.expanded]
  | .checked =>
    if s.shown.value?.isNone then [.shown]
    else if s.expanded.value?.any Expanded.isPredicate then [.shown, .expanded, .negated]
    else [.shown, .expanded]
  | .evaluated _ =>
    if s.expanded.value?.isNone then [.expanded]
    else if s.parsed.value?.isNone then [.expanded, .parsed]
    else [.expanded, .parsed, .lowered]

/-- The line for the result of a task, if its query has one; a check has one if it finds true. -/
def line : Task → Outcome Unit String
  | .expand => do return (← s.shown.outcome).after
  | .negate => do return (← s.negated.outcome).after
  | .check => do if ← s.checked then return Task.noErrors else .error ()
  | .eval arg => (s.evaluated arg).outcome

end Session

end PredicateTree
