import PredicateTree.Report

/-!
# Memo

Reports that are kept until what they were made from changes. A memo has a stamp, and remembers in
`seen` the stamps of what it was made from. When those have changed it is made again; its own stamp
changes only if its result does, so that what was made from it may stay.
-/

namespace PredicateTree

structure Memo (κ α : Type) where
  seen : κ
  report : Report α
  stamp : Nat := 0

namespace Memo

variable {κ α : Type}

/-- Whether two outcomes are the same result. -/
def sameResult (same : α → α → Bool) : Outcome Unit α → Outcome Unit α → Bool
  | .ok a, .ok b => same a b
  | .error _, .error _ => true
  | .unfinished, .unfinished => true
  | _, _ => false

/-- The memo made again. -/
def renew (same : α → α → Bool) (m : Memo κ α) (seen : κ) (report : Report α) : Memo κ α :=
  ⟨seen, report, if sameResult same m.report.outcome report.outcome then m.stamp else m.stamp + 1⟩

/-- The memo for what is to be seen now, and what making it has logged. -/
def refresh [DecidableEq κ] (same : α → α → Bool) (kept : Option (Memo κ α)) (seen : κ)
    (make : Unit → Report α) : Memo κ α × List LogEntry :=
  match kept with
  | none =>
    let report := make ()
    (⟨seen, report, 0⟩, report.log)
  | some m =>
    if m.seen = seen then (m, [])
    else
      let report := make ()
      (m.renew same seen report, report.log)

theorem refresh_of_seen_eq [DecidableEq κ] (same : α → α → Bool) (m : Memo κ α)
    (make : Unit → Report α) : refresh same (some m) m.seen make = (m, []) := by
  simp [refresh]

/-- A refreshed memo is one for what is to be seen now. -/
theorem seen_refresh [DecidableEq κ] (same : α → α → Bool) (kept : Option (Memo κ α)) (seen : κ)
    (make : Unit → Report α) : (refresh same kept seen make).1.seen = seen := by
  cases kept with
  | none => rfl
  | some m =>
    by_cases h : m.seen = seen
    · simp [refresh, h]
    · simp [refresh, renew, h]

end Memo

end PredicateTree
