import PredicateTree.Proofs.Evaluator.Termination
import PredicateTree.Proofs.Expansion.Fuel
import PredicateTree.Proofs.Expansion.Termination
import PredicateTree.Proofs.Predicate.Invariant
import PredicateTree.Proofs.Report
import PredicateTree.Stages

/-!
# Proofs.Stages

What each stage owes the one that asks for it.

* `tells_read` .. `tells_evaluated`: a stage tells of one error if it fails, which is of its own
  phase, and of none otherwise.
* `shown_silent`, `checked_silent`: showing never fails, and a check that has a predicate to look at
  never fails either, since it negates only what can be negated.
* `expanded_approx`, `evaluated_approx`: with more fuel a stage tells the same and ends in the same
  way, unless it had not ended.
* `expanded_ends`, `evaluated_ends`: when the stages that take fuel end, and
  `expanded_unfinished`, when expansion never does.
-/

namespace PredicateTree

open Outcome (bind_ne_unfinished ok_ne_unfinished)
open Report (Tells errors)

/-! ## Errors -/

theorem Document.tells_read (text : String) : Tells .parsing (Document.read text) := by
  refine .ofExcept fun e => ?_
  unfold DocumentError.inText
  split <;> exact ⟨rfl, rfl⟩

theorem Document.tells_resolved (doc : Document) (site : Site) :
    Tells .lowering (doc.resolved site) := .ofExcept fun _ => ⟨rfl, rfl⟩

theorem Lowered.tells_expanded (l : Lowered) (fuel : Nat) (site : Site) (name : String) :
    Tells .expansion (l.expanded fuel site name) :=
  .bind (.record _) fun _ => .bind (.ofOutcome fun _ => ⟨rfl, rfl⟩) fun _ =>
    .bind (.record _) fun _ => .pure _

namespace Expanded

variable (x : Expanded) (site : Site) (name : String)

theorem outcome_shown : x.shown.outcome = .ok ⟨x.source.text, x.expanded.text⟩ := by
  unfold shown
  cases x.isUnchanged <;> rfl

theorem errors_shown : errors x.shown.diagnostics = [] := by
  unfold shown
  cases x.isUnchanged <;> rfl

theorem tells_negated : Tells .negation (x.negated site name) :=
  .bind (.ofExcept fun _ => ⟨rfl, rfl⟩) fun _ => .bind (.record _) fun _ => .pure _

theorem tells_evaluated (doc : Document) (low : Lowered) (fuel : Nat) (arg : String) :
    Tells .evaluation (x.evaluated doc low fuel site arg) :=
  .bind (.ofExcept fun _ => ⟨rfl, rfl⟩) fun _ => .bind (.ofOutcome fun _ => ⟨rfl, rfl⟩) fun _ =>
    .pure _

/-- What can be negated is what a predicate is made of. -/
theorem exists_ofLambda_iff :
    (∃ p, Predicate.ofLambda x.expanded = .ok p) ↔ x.isPredicate = true := by
  unfold isPredicate
  rw [Bool.and_eq_true, decide_eq_true_iff]
  constructor
  · rintro ⟨p, hp⟩
    obtain ⟨hlambda, hbool⟩ := Predicate.ofLambda_eq_ok.1 hp
    rw [hlambda]
    exact ⟨rfl, hbool⟩
  · rintro ⟨hlength, hbool⟩
    obtain ⟨q, hq⟩ := List.length_eq_one_iff.1 hlength
    exact ⟨⟨q, x.expanded.body⟩, Predicate.ofLambda_eq_ok.2 ⟨by rw [Predicate.lambda, ← hq], hbool⟩⟩

theorem exists_negated_iff :
    (∃ r, (x.negated site name).outcome = .ok r) ↔ x.isPredicate = true := by
  rw [← exists_ofLambda_iff]
  simp only [negated, Report.outcome_bind, Outcome.bind_eq_ok, Report.ofExcept,
    Report.outcome_ofOutcome_eq_ok, Outcome.ofExcept_eq_ok]
  constructor
  · rintro ⟨r, p, hp, -⟩
    exact ⟨p, hp⟩
  · rintro ⟨p, hp⟩
    exact ⟨_, p, hp, (), rfl, rfl⟩

theorem checked_silent :
    errors (x.checked site name).diagnostics = [] ∧ (x.checked site name).outcome = .ok () := by
  unfold checked
  simp only [Report.diagnostics_bind, Report.outcome_bind, outcome_shown, Report.next_ok,
    Outcome.ok_bind, Report.errors_append, errors_shown, List.nil_append]
  cases hpredicate : x.isPredicate with
  | false => exact ⟨rfl, rfl⟩
  | true =>
    obtain ⟨r, hr⟩ := (x.exists_negated_iff site name).2 hpredicate
    have hsilent := (x.tells_negated site name).silent (by rw [hr]; rfl)
    simp [hr, hsilent]

end Expanded

/-! ## More fuel -/

theorem Lowered.expanded_approx (l : Lowered) {fuel fuel' : Nat} (h : fuel ≤ fuel') (site : Site)
    (name : String) :
    Report.Approx Eq (l.expanded fuel site name) (l.expanded fuel' site name) := by
  have hexpand : ∀ x : Expander, (x.expandLambda fuel site l.predicate).outcome.Approx Eq
      (x.expandLambda fuel' site l.predicate).outcome := by
    intro x
    simp only [Expander.expandLambda, Traced.outcome_bind]
    exact ((Expander.expand_upto h site _).bind fun _ => .refl _).approx
  refine .bind (r := Eq) ⟨rfl, fun _ => rfl⟩ fun _ _ _ => .bind (.ofOutcome (hexpand _)) ?_
  rintro e _ rfl
  exact .refl (fun _ => rfl) _

theorem Expanded.evaluated_approx (x : Expanded) (doc : Document) (low : Lowered)
    {fuel fuel' : Nat} (h : fuel ≤ fuel') (site : Site) (arg : String) :
    Report.Approx Eq (x.evaluated doc low fuel site arg) (x.evaluated doc low fuel' site arg) := by
  refine .bind (r := Eq) (.refl (fun _ => rfl) _) ?_
  rintro v _ rfl
  have happly := Evaluator.apply_approx (Evaluator.pure_builtin low.staticMembers) h
    (site.child 1) (site.child 1) x.expanded x.expanded [v] [v] rfl rfl
  refine .bind (.ofOutcome happly) fun w w' hw => ?_
  have htext : w.text = w'.text := by rw [← w.text_bare, ← w'.text_bare, hw]
  exact ⟨htext, fun _ => rfl⟩

/-! ## Ends -/

theorem Document.read_ends (text : String) : (Document.read text).outcome ≠ .unfinished :=
  Report.outcome_ofExcept_ne_unfinished _ _

theorem Document.resolved_ends (doc : Document) (site : Site) :
    (doc.resolved site).outcome ≠ .unfinished :=
  Report.outcome_ofExcept_ne_unfinished _ _

theorem Expanded.negated_ends (x : Expanded) (site : Site) (name : String) :
    (x.negated site name).outcome ≠ .unfinished := by
  simp only [Expanded.negated, Report.outcome_bind]
  exact bind_ne_unfinished (Report.outcome_ofExcept_ne_unfinished _ _) fun _ _ => ok_ne_unfinished _

theorem Lowered.expanded_ends (l : Lowered)
    (h : l.staticMembers.resolver.Grounded l.predicate.body) :
    ∃ bound, ∀ fuel, bound ≤ fuel → ∀ site name,
      (l.expanded fuel site name).outcome ≠ .unfinished := by
  obtain ⟨bound, hbound⟩ := Expander.expand_ends (x := { resolver := l.staticMembers.resolver }) h
  refine ⟨bound, fun fuel hfuel site name => ?_⟩
  have hexpand : (Expander.expandLambda { resolver := l.staticMembers.resolver } fuel site
      l.predicate).outcome ≠ .unfinished := by
    simp only [Expander.expandLambda, Traced.outcome_bind]
    exact bind_ne_unfinished (hbound fuel hfuel site) fun _ _ => ok_ne_unfinished _
  simp only [Lowered.expanded, Report.outcome_bind]
  exact bind_ne_unfinished (ok_ne_unfinished _) fun _ _ =>
    bind_ne_unfinished (Report.outcome_ofOutcome_ne_unfinished hexpand) fun _ _ =>
      ok_ne_unfinished _

/-- Rules that hand on to each other without end are not expanded. -/
theorem Lowered.expanded_unfinished (l : Lowered) {P : Expr → Prop}
    (hP : ∀ e, P e → ∃ k, l.staticMembers.resolver.Forwards e k ∧ P k.body)
    (h : P l.predicate.body) (fuel : Nat) (site : Site) (name : String) :
    (l.expanded fuel site name).outcome = .unfinished := by
  have hexpand : (Expander.expandLambda { resolver := l.staticMembers.resolver } fuel site
      l.predicate).outcome = .unfinished := by
    simp only [Expander.expandLambda, Expander.expand, Traced.outcome_bind]
    rw [Expander.expandIn_unfinished rfl hP h]
    rfl
  simp only [Lowered.expanded, Report.outcome_bind, hexpand]
  rfl

theorem Expanded.evaluated_ends (x : Expanded) (doc : Document) (low : Lowered)
    (h : low.staticMembers.Grounded x.expanded.body) :
    ∃ bound, ∀ fuel, bound ≤ fuel → ∀ site arg,
      (x.evaluated doc low fuel site arg).outcome ≠ .unfinished := by
  obtain ⟨bound, hbound⟩ := Evaluator.eval_ends (Evaluator.idle_builtin low.staticMembers)
    (Evaluator.pure_builtin _) h
  refine ⟨bound + 1, fun fuel hfuel site arg => ?_⟩
  cases fuel with
  | zero => cases hfuel
  | succ fuel =>
    have happly := Evaluator.apply_ends (hbound fuel (Nat.le_of_succ_le_succ hfuel))
    simp only [Expanded.evaluated, Report.outcome_bind]
    exact bind_ne_unfinished (Report.outcome_ofExcept_ne_unfinished _ _) fun v _ =>
      bind_ne_unfinished (Report.outcome_ofOutcome_ne_unfinished (happly _ [v])) fun _ _ =>
        ok_ne_unfinished _

end PredicateTree
