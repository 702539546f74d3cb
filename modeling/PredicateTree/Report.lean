import PredicateTree.Diagnostic
import PredicateTree.Expansion

/-!
# Report

The result of a stage together with what the stage tells: diagnostics for the author of the
document and entries of a log. A stage that finds no result has said why in its diagnostics.

Stages follow each other by `>>=`: what the later one tells comes after what the earlier one told,
and a stage without an earlier result has nothing to add.
-/

namespace PredicateTree

structure Report (α : Type) where
  outcome : Outcome Unit α
  diagnostics : List Diagnostic := []
  log : List LogEntry := []

namespace Report

variable {ε α β : Type}

/-- The stage that works on an earlier result, and is silent if there is none. -/
def next (x : Outcome Unit α) (f : α → Report β) : Report β :=
  match x with
  | .ok a => f a
  | .error () => ⟨.error (), [], []⟩
  | .unfinished => ⟨.unfinished, [], []⟩

def bind (x : Report α) (f : α → Report β) : Report β :=
  let y := next x.outcome f
  ⟨y.outcome, x.diagnostics ++ y.diagnostics, x.log ++ y.log⟩

instance : Monad Report where
  pure a := ⟨.ok a, [], []⟩
  bind := bind

@[simp] theorem outcome_pure (a : α) : (pure a : Report α).outcome = .ok a := rfl

@[simp] theorem diagnostics_pure (a : α) : (pure a : Report α).diagnostics = [] := rfl

@[simp] theorem outcome_bind (x : Report α) (f : α → Report β) :
    (x >>= f).outcome = x.outcome >>= fun a => (f a).outcome := by
  show (next x.outcome f).outcome = x.outcome.bind fun a => (f a).outcome
  unfold next Outcome.bind
  cases x.outcome <;> rfl

@[simp] theorem diagnostics_bind (x : Report α) (f : α → Report β) :
    (x >>= f).diagnostics = x.diagnostics ++ (next x.outcome f).diagnostics := rfl

@[simp] theorem next_ok (a : α) (f : α → Report β) : next (.ok a) f = f a := rfl

@[simp] theorem diagnostics_next_error (u : Unit) (f : α → Report β) :
    (next (.error u) f).diagnostics = [] := rfl

@[simp] theorem diagnostics_next_unfinished (f : α → Report β) :
    (next .unfinished f).diagnostics = [] := rfl

/-- No result, for this reason. -/
def fail (d : Diagnostic) : Report α := ⟨.error (), [d], []⟩

def tell (d : Diagnostic) : Report Unit := ⟨.ok (), [d], []⟩

def record (entries : List LogEntry) : Report Unit := ⟨.ok (), [], entries⟩

/-- An outcome whose error is told as a diagnostic. -/
def ofOutcome (diagnose : ε → Diagnostic) : Outcome ε α → Report α
  | .ok a => pure a
  | .error e => fail (diagnose e)
  | .unfinished => ⟨.unfinished, [], []⟩

def ofExcept (diagnose : ε → Diagnostic) (x : Except ε α) : Report α :=
  ofOutcome diagnose (Outcome.ofExcept x)

/-- The result, if there is one. -/
def value? (r : Report α) : Option α :=
  match r.outcome with
  | .ok a => some a
  | _ => none

def hasError (r : Report α) : Bool := r.diagnostics.any Diagnostic.isError

end Report

end PredicateTree
