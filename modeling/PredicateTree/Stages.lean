import PredicateTree.Document.Reader
import PredicateTree.Document.Termination
import PredicateTree.Evaluator
import PredicateTree.Predicate
import PredicateTree.Report

/-!
# Stages

What is done with a document, each stage working on the result of an earlier one:

* `Document.read`: text to document;
* `Document.resolved`: document to `Lowered`;
* `Lowered.expanded`: lowered document to `Expanded`, its predicate with every expandable call
  inlined;
* `Expanded.shown`: the predicate before and after expansion, as text;
* `Expanded.negated`: the expanded predicate and its inverse, as text;
* `Expanded.evaluated`: the value of the expanded predicate for one argument, as text.

`Analysis.ofText` runs the first three one after the other.

A document is known by `name` in the log.
-/

namespace PredicateTree

/-- A predicate as text before and after a pass. -/
structure Rendered where
  before : String
  after : String
deriving DecidableEq

/-- A predicate and what its expansion makes of it. -/
structure Expanded where
  source : Lambda
  expanded : Lambda
deriving DecidableEq

namespace Expanded

/-- Whether expansion found nothing to do. -/
def isUnchanged (x : Expanded) : Bool := x.expanded.body = x.source.body

/-- Whether the expanded lambda can be negated. -/
def isPredicate (x : Expanded) : Bool := x.expanded.params.length = 1 && x.expanded.body.isBool

def alike (x y : Expanded) : Bool := x.source.alike y.source && x.expanded.alike y.expanded

end Expanded

def Lowered.staticMembers (l : Lowered) : Statics := .ofTables l.statics

/-- The diagnostic of a text that is no document. -/
def DocumentError.inText (e : DocumentError) : Diagnostic :=
  let d := Diagnostic.error .parsing e.message
  match e with
  | .json ⟨_, some place⟩ => d.at_ place
  | _ => d

def Document.read (text : String) : Report Document :=
  .ofExcept DocumentError.inText (Document.ofText text)

def Document.resolved (doc : Document) (site : Site) : Report Lowered :=
  .ofExcept (fun e => .error .lowering e.message) (doc.lower site)

/-- Inlines the calls of the predicate against the statics of its document. -/
def Lowered.expanded (l : Lowered) (fuel : Nat) (site : Site) (name : String) :
    Report Expanded := do
  let t := Expander.expandLambda { resolver := l.staticMembers.resolver } fuel site l.predicate
  Report.record t.log
  let e ← Report.ofOutcome (fun e => .error .expansion e.message) t.outcome
  Report.record [⟨.debug, "expanded " ++ name⟩]
  return ⟨l.predicate, e⟩

namespace Expanded

def shown (x : Expanded) : Report Rendered := do
  if x.isUnchanged then Report.tell (.info .expansion "no expandable calls")
  return ⟨x.source.text, x.expanded.text⟩

def negated (x : Expanded) (site : Site) (name : String) : Report Rendered := do
  let p ← Report.ofExcept (fun e => .error .negation e.message) (Predicate.ofLambda x.expanded)
  Report.record [⟨.debug, "negated " ++ name⟩]
  return ⟨p.text, (p.inverse site).text⟩

/-- Every stage that applies: negation only for what can be negated. -/
def checked (x : Expanded) (site : Site) (name : String) : Report Unit := do
  let _ ← x.shown
  if x.isPredicate then
    let _ ← x.negated site name

/-- The expanded predicate applied to an argument that is written as a datum of the document. -/
def evaluated (x : Expanded) (doc : Document) (lowered : Lowered) (fuel : Nat) (site : Site)
    (arg : String) : Report String := do
  let refused (e : DocumentError) : Diagnostic :=
    .error .evaluation ("invalid argument: " ++ e.message)
  let v ← Report.ofExcept refused do
    let d ← Document.Datum.ofText arg
    doc.lowerDatum (site.child 0) d
  let ev : Evaluator := { statics := lowered.staticMembers }
  let w ← Report.ofOutcome (fun e => .error .evaluation e.message)
    (ev.apply fuel (site.child 1) x.expanded [v])
  return w.text

end Expanded

/-- A document after the stages that all others start from. -/
structure Analysis where
  document : Document
  lowered : Lowered
  expanded : Expanded

/-- All stages up to expansion, on a text met for the first time. -/
def Analysis.ofText (fuel : Nat) (name text : String) : Report Analysis := do
  let doc ← Document.read text
  let low ← doc.resolved (.root 0)
  let x ← low.expanded fuel (.root 1) name
  return ⟨doc, low, x⟩

end PredicateTree
