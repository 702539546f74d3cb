import PredicateTree.Disk
import PredicateTree.Document.Encode
import PredicateTree.Memo
import PredicateTree.Stages

/-!
# Workspace

Documents under edit. What the stages make of a document is kept, and after an edit only those
stages run again whose input has changed in its content: a change in layout stops at the document.

* `Workspace.Entry`: one document with what was made of it.
* `Workspace.Request`: an argument to evaluate the predicate of a document on.
* `Workspace`: all of them, numbered as they came, and which document is known by which path.
-/

namespace PredicateTree

namespace Workspace

structure Entry where
  /-- How the log calls it. -/
  name : String
  text : String
  /-- How often its text was set. -/
  edits : Nat := 0
  read : Option (Memo Nat Document) := none
  lowered : Option (Memo Nat Lowered) := none
  expanded : Option (Memo Nat Expanded) := none
  negated : Option (Memo Nat Rendered) := none
  /-- What its stages have logged. -/
  log : List LogEntry := []

namespace Entry

def setText (e : Entry) (text : String) : Entry := { e with text := text, edits := e.edits + 1 }

/-- The document itself. -/
def document : StateM Entry (Memo Nat Document) := do
  let e ← get
  let (m, log) := Memo.refresh Document.agrees e.read e.edits fun _ => Document.read e.text
  set { e with read := some m, log := e.log ++ log }
  return m

def lowering (site : Site) : StateM Entry (Memo Nat Lowered) := do
  let d ← document
  let e ← get
  let (m, log) := Memo.refresh Lowered.alike e.lowered d.stamp fun _ =>
    Report.next d.report.outcome fun doc => doc.resolved (site.child 0)
  set { e with lowered := some m, log := e.log ++ log }
  return m

def expansion (fuel : Nat) (site : Site) : StateM Entry (Memo Nat Expanded) := do
  let l ← lowering site
  let e ← get
  let (m, log) := Memo.refresh Expanded.alike e.expanded l.stamp fun _ =>
    Report.next l.report.outcome fun low => low.expanded fuel (site.child 1) e.name
  set { e with expanded := some m, log := e.log ++ log }
  return m

def negation (fuel : Nat) (site : Site) : StateM Entry (Memo Nat Rendered) := do
  let x ← expansion fuel site
  let e ← get
  let (m, log) := Memo.refresh (· = ·) e.negated x.stamp fun _ =>
    Report.next x.report.outcome fun p => p.negated (site.child 2) e.name
  set { e with negated := some m, log := e.log ++ log }
  return m

/-- The lowered document with all that was told on the way to it. -/
def loweredReport (site : Site) : StateM Entry (Report Lowered) := do
  let d ← document
  let l ← lowering site
  return { l.report with diagnostics := d.report.diagnostics ++ l.report.diagnostics }

/-- The expanded predicate with all that was told on the way to it. -/
def expandedReport (fuel : Nat) (site : Site) : StateM Entry (Report Expanded) := do
  let l ← loweredReport site
  let x ← expansion fuel site
  return { x.report with diagnostics := l.diagnostics ++ x.report.diagnostics }

def shownReport (fuel : Nat) (site : Site) : StateM Entry (Report Rendered) := do
  return (← expandedReport fuel site) >>= Expanded.shown

def negatedReport (fuel : Nat) (site : Site) : StateM Entry (Report Rendered) := do
  let x ← expandedReport fuel site
  let n ← negation fuel site
  return { n.report with diagnostics := x.diagnostics ++ n.report.diagnostics }

def checkedReport (fuel : Nat) (site : Site) : StateM Entry (Report Unit) := do
  let x ← expandedReport fuel site
  if x.value?.any Expanded.isPredicate then
    let n ← negation fuel site
    return do
      let _ ← x >>= Expanded.shown
      let _ ← n.report
  else
    return do let _ ← x >>= Expanded.shown

end Entry

structure Request where
  entry : Nat
  arg : String
  /-- How often it was changed. -/
  edits : Nat := 0
  /-- The value, made from the request, the document, its lowering and its expansion. -/
  value : Option (Memo (Nat × Nat × Nat × Nat) String) := none

namespace Request

def setArg (r : Request) (arg : String) : Request := { r with arg := arg, edits := r.edits + 1 }

def setEntry (r : Request) (entry : Nat) : Request := { r with entry := entry, edits := r.edits + 1 }

/-- Evaluates the predicate of the document on the argument. -/
def evaluation (fuel : Nat) (site : Site) (r : Request) :
    StateM Entry (Memo (Nat × Nat × Nat × Nat) String) := do
  let x ← Entry.expansion fuel site
  let d ← Entry.document
  let l ← Entry.lowering site
  let (m, log) := Memo.refresh (· = ·) r.value (r.edits, d.stamp, l.stamp, x.stamp) fun _ =>
    Report.next x.report.outcome fun p =>
    Report.next d.report.outcome fun doc =>
    Report.next l.report.outcome fun low =>
      p.evaluated doc low fuel (site.child 3) r.arg
  modify fun e => { e with log := e.log ++ log }
  return m

end Request

/-- Under which path a document is known. -/
inductive Origin where
  /-- A path on its own. -/
  | given (path : Path)
  /-- A path that continues that of the folder of files. -/
  | inFolder (path : Path)
deriving DecidableEq

namespace Origin

def ofText (text : String) : Origin := .given (.ofText text)

/-- A path followed from the folder, which it leaves if it starts at the root. -/
def fromFolder (text : String) : Origin :=
  if Path.isAbsolute text then .ofText text else .inFolder (.inFolder text)

/-- The path of a place that was found. -/
def ofPlace : Disk.Place → Origin
  | .top => .given Disk.Place.top.path
  | place => .inFolder place.path

end Origin

end Workspace

open Workspace

structure Workspace where
  fuel : Nat
  entries : Array Entry := #[]
  requests : Array Request := #[]
  known : List (Origin × Nat) := []
  /-- How many questions were asked. -/
  epoch : Nat := 0

namespace Workspace

/-- Adds a document and makes it the one known by its path. -/
def add (w : Workspace) (origin : Origin) (name text : String) : Nat × Workspace :=
  let n := w.entries.size
  (n, { w with
    entries := w.entries.push { name := name, text := text }
    known := (origin, n) :: w.known.filter (·.1 ≠ origin) })

def openText (w : Workspace) (path text : String) : Nat × Workspace :=
  w.add (.ofText path) path text

def find? (w : Workspace) (origin : Origin) : Option Nat := List.lookup origin w.known

/-- Forgets the path of a document. The document stays. -/
def close (w : Workspace) (origin : Origin) : Workspace :=
  { w with known := w.known.filter (·.1 ≠ origin) }

/-- Loads a file once: while its path is known, the document loaded first is answered. -/
def load (w : Workspace) (disk : Disk) (path : String) : Except LoadError (Nat × Workspace) := do
  let place ← disk.find path
  match w.find? (.ofPlace place) with
  | some n => return (n, w)
  | none =>
    let text ← disk.read place
    return w.add (.ofPlace place) place.text text

def setText (w : Workspace) (n : Nat) (text : String) : Workspace :=
  { w with entries := w.entries.modify n (·.setText text) }

/-- Asks something about a document. Answers it with what was logged meanwhile. -/
def ask {α : Type} (w : Workspace) (n : Nat) (question : Nat → Site → StateM Entry α) :
    Option (α × List LogEntry × Workspace) := do
  let e ← w.entries[n]?
  let (a, e') := (question w.fuel (.root w.epoch)).run { e with log := [] }
  return (a, e'.log, { w with entries := w.entries.setIfInBounds n e', epoch := w.epoch + 1 })

def request (w : Workspace) (entry : Nat) (arg : String) : Nat × Workspace :=
  (w.requests.size, { w with requests := w.requests.push { entry := entry, arg := arg } })

def changeRequest (w : Workspace) (n : Nat) (change : Request → Request) : Workspace :=
  { w with requests := w.requests.modify n change }

/-- The value of a request with all that was told on the way to it. -/
def evaluate (w : Workspace) (n : Nat) : Option (Report String × List LogEntry × Workspace) := do
  let r ← w.requests[n]?
  let ((x, m), log, w') ← w.ask r.entry fun fuel site => do
    let m ← r.evaluation fuel site
    let x ← Entry.expandedReport fuel site
    return (x, m)
  let report := { m.report with diagnostics := x.diagnostics ++ m.report.diagnostics }
  return (report, log, w'.changeRequest n fun r => { r with value := some m })

end Workspace

end PredicateTree
