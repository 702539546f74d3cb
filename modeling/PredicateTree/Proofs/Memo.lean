import Mathlib.Order.Basic
import Mathlib.Order.Defs.Unbundled
import Mathlib.Order.Nat
import PredicateTree.Memo

/-!
# Proofs.Memo

What a memo may be trusted for. A memo of a later stage is known to be up to date by one stamp of
the memo it was made from, so two things have to be kept up from edit to edit:

* `Follows`: a memo never goes back to an earlier stamp, and as long as it has the same stamp it
  holds the same result (`SameResult`).
* `Sound`: a memo has seen nothing later than there is, and if it has seen what there is now, it
  holds what is made of that now.

`follows_refresh` and `sound_refresh` say that a refresh keeps both up, and `Sound.mono` that a memo
stays sound while the memo it was made from is refreshed.
-/

namespace PredicateTree

namespace Memo

variable {κ α β : Type} {same : α → α → Bool}

/-- The outcomes are the same result. One that is kept is the same as itself, even if it holds
something that does not equal itself. -/
def SameResult (same : α → α → Bool) (x y : Outcome Unit α) : Prop :=
  x = y ∨ sameResult same x y = true

theorem SameResult.trans [IsTrans α (same · · = true)]
    {x y z : Outcome Unit α} (h : SameResult same x y) (h' : SameResult same y z) :
    SameResult same x z := by
  obtain rfl | h := h
  · exact h'
  · obtain rfl | h' := h'
    · exact .inr h
    · refine .inr ?_
      cases x <;> cases y <;> cases z <;> simp only [sameResult, Bool.false_eq_true] at h h' ⊢
      exact IsTrans.trans (r := (same · · = true)) _ _ _ h h'

/-- The memo `m'` is `m` after any number of refreshes. -/
structure Follows (same : α → α → Bool) (m m' : Memo κ α) : Prop where
  stamp_le : m.stamp ≤ m'.stamp
  result : m.stamp = m'.stamp → SameResult same m.report.outcome m'.report.outcome

theorem Follows.refl (m : Memo κ α) : Follows same m m := ⟨Nat.le_refl _, fun _ => .inl rfl⟩

theorem Follows.trans [IsTrans α (same · · = true)] {m m' m'' : Memo κ α}
    (h : Follows same m m') (h' : Follows same m' m'') : Follows same m m'' where
  stamp_le := Nat.le_trans h.stamp_le h'.stamp_le
  result hstamp := by
    have hle := h.stamp_le
    have hle' := h'.stamp_le
    exact (h.result (by omega)).trans (h'.result (by omega))

/-- The memo has seen nothing later than `now`, and if it has seen `now`, what it holds is
`fine`. -/
structure Sound [PartialOrder κ] (now : κ) (fine : Report β → Prop) (m : Memo κ β) : Prop where
  seen_le : m.seen ≤ now
  report : m.seen = now → fine m.report

/-- What was made stays sound while what it was made from gets later stamps. -/
theorem Sound.mono [PartialOrder κ] {now now' : κ} {fine fine' : Report β → Prop} {m : Memo κ β}
    (h : Sound now fine m) (hnow : now ≤ now') (hfine : now = now' → ∀ r, fine r → fine' r) :
    Sound now' fine' m where
  seen_le := h.seen_le.trans hnow
  report hseen := by
    have hback : now' ≤ now := hseen ▸ h.seen_le
    have hsame : now = now' := le_antisymm hnow hback
    exact hfine hsame _ (h.report (hseen.trans hsame.symm))

/-! ## Refreshing -/

section

variable [DecidableEq κ] {kept : Option (Memo κ α)} {now : κ} {make : Unit → Report α}

theorem follows_refresh (m : Memo κ α) : Follows same m (refresh same (some m) now make).1 := by
  by_cases hseen : m.seen = now
  · subst hseen
    rw [refresh_of_seen_eq]
    exact .refl m
  · simp only [refresh, if_neg hseen, renew]
    split
    · rename_i hresult
      exact ⟨Nat.le_refl _, fun _ => .inr hresult⟩
    · exact ⟨Nat.le_succ _, fun hstamp => absurd hstamp (Nat.ne_of_lt (Nat.lt_succ_self _))⟩

/-- What is handed out after a refresh is what was kept for the same input, or was made now. -/
theorem report_refresh {fine : Report α → Prop}
    (hkept : ∀ m, kept = some m → m.seen = now → fine m.report) (hmake : fine (make ())) :
    fine (refresh same kept now make).1.report := by
  cases kept with
  | none => exact hmake
  | some m =>
    by_cases hseen : m.seen = now
    · have hfine := hkept m rfl hseen
      subst hseen
      rwa [refresh_of_seen_eq]
    · simp only [refresh, if_neg hseen]
      exact hmake

theorem sound_refresh [PartialOrder κ] {fine : Report α → Prop}
    (hkept : ∀ m, kept = some m → m.seen = now → fine m.report) (hmake : fine (make ())) :
    Sound now fine (refresh same kept now make).1 where
  seen_le := le_of_eq (seen_refresh same kept now make)
  report _ := report_refresh hkept hmake

end

/-! ## Stages -/

/-- The report is what a stage makes, somewhere, of an outcome that is the same result as this. -/
def Made (same : α → α → Bool) (stage : Site → α → Report β) (x : Outcome Unit α)
    (r : Report β) : Prop :=
  ∃ site y, SameResult same y x ∧ r = Report.next y (stage site)

theorem Made.now (stage : Site → α → Report β) (site : Site) (x : Outcome Unit α) :
    Made same stage x (Report.next x (stage site)) := ⟨site, x, .inl rfl, rfl⟩

theorem Made.of_same [IsTrans α (same · · = true)] {stage : Site → α → Report β}
    {x y : Outcome Unit α} {r : Report β} (h : Made same stage x r) (hxy : SameResult same x y) :
    Made same stage y r := by
  obtain ⟨site, z, hz, hr⟩ := h
  exact ⟨site, z, hz.trans hxy, hr⟩

end Memo

end PredicateTree
