import PredicateTree.Expansion
import PredicateTree.Proofs.Outcome

/-!
# Proofs.Expansion.Fuel

Expansion with more room.

* `node_upto`: how far two runs over one tree agree depends on what they inline and on how far they
  agree on the bodies. `expandIn_upto` follows by induction on the fuel.
* `expand_upto`: a run that has come to an end with some fuel comes to the same end with more.
-/

namespace PredicateTree

namespace Expander

open Outcome

variable {x y : Expander} {inline inline' : Inline} {depth : Nat} {stop : PassError → Prop}

mutual

theorem node_upto (hinlinee : ∀ callee n,
      (x.inlinee depth callee n).outcome.Upto stop (y.inlinee depth callee n).outcome)
    (hinline : ∀ site τ b, (inline site τ b).outcome.Upto stop (inline' site τ b).outcome) :
    ∀ (e : Expr) (σ : Substitution) (site : Site),
      (x.node inline depth σ site e).outcome.Upto stop (y.node inline' depth σ site e).outcome
  | .parameter .., _, _ | .static .., _, _ | .constant .., _, _ | .default _, _, _ => .refl _
  | .call l t m [], σ, site => by
    have ht := optional_upto hinlinee hinline t σ (site.child 0)
    simp only [node]
    split
    · simp only [Traced.outcome_bind]
      exact (Upto.refl _).bind fun _ => ht.bind fun _ => .refl _
    · simp only [Traced.outcome_bind]
      exact ht.bind fun _ => .refl _
  | .call l t m (callee :: as), σ, site => by
    have ht := optional_upto hinlinee hinline t σ (site.child 0)
    have hcallee := node_upto hinlinee hinline callee σ (site.child 1)
    have has := list_upto hinlinee hinline as σ site 2
    simp only [node]
    cases m.isExpandable with
    | false =>
      simp only [Bool.false_eq_true, if_false, Traced.outcome_bind, Traced.outcome_pure,
        Outcome.ok_bind]
      exact ht.bind fun _ => hcallee.bind fun _ => has.bind fun _ => .refl _
    | true =>
      simp only [if_true, Traced.outcome_bind]
      refine (hinlinee callee as.length).bind fun found => ?_
      cases found with
      | none =>
        simp only [Traced.outcome_bind]
        exact ht.bind fun _ => hcallee.bind fun _ => has.bind fun _ => .refl _
      | some called =>
        obtain ⟨chain, k⟩ := called
        simp only [Traced.outcome_bind]
        exact (Upto.refl _).bind fun _ => has.bind fun _ => hinline ..
  | .binary l op a b, σ, site => by
    simp only [node, Traced.outcome_bind]
    exact (node_upto hinlinee hinline a σ (site.child 0)).bind fun _ =>
      (node_upto hinlinee hinline b σ (site.child 1)).bind fun _ => .refl _
  | .unary l op a, σ, site => by
    simp only [node, Traced.outcome_bind]
    exact (node_upto hinlinee hinline a σ (site.child 0)).bind fun _ => .refl _
  | .member l t r, σ, site => by
    simp only [node, Traced.outcome_bind]
    exact (node_upto hinlinee hinline t σ (site.child 0)).bind fun _ => .refl _
  | .conditional l a b c, σ, site => by
    simp only [node, Traced.outcome_bind]
    exact (node_upto hinlinee hinline a σ (site.child 0)).bind fun _ =>
      (node_upto hinlinee hinline b σ (site.child 1)).bind fun _ =>
        (node_upto hinlinee hinline c σ (site.child 2)).bind fun _ => .refl _
  | .dynamic l binder as, σ, site => by
    simp only [node, Traced.outcome_bind]
    exact (list_upto hinlinee hinline as σ site 0).bind fun _ => .refl _
  | .lambda l ps b, σ, site => by
    simp only [node, Traced.outcome_bind]
    exact (node_upto hinlinee hinline b σ (site.child 0)).bind fun _ => .refl _

theorem optional_upto (hinlinee : ∀ callee n,
      (x.inlinee depth callee n).outcome.Upto stop (y.inlinee depth callee n).outcome)
    (hinline : ∀ site τ b, (inline site τ b).outcome.Upto stop (inline' site τ b).outcome) :
    ∀ (t : Option Expr) (σ : Substitution) (site : Site),
      (x.optional inline depth σ site t).outcome.Upto stop
        (y.optional inline' depth σ site t).outcome
  | none, _, _ => .refl _
  | some a, σ, site => by
    simp only [optional, Traced.outcome_bind]
    exact (node_upto hinlinee hinline a σ site).bind fun _ => .refl _

theorem list_upto (hinlinee : ∀ callee n,
      (x.inlinee depth callee n).outcome.Upto stop (y.inlinee depth callee n).outcome)
    (hinline : ∀ site τ b, (inline site τ b).outcome.Upto stop (inline' site τ b).outcome) :
    ∀ (as : List Expr) (σ : Substitution) (site : Site) (i : Nat),
      (x.list inline depth σ site i as).outcome.Upto stop
        (y.list inline' depth σ site i as).outcome
  | [], _, _, _ => .refl _
  | a :: as, σ, site, i => by
    simp only [list, Traced.outcome_bind]
    exact (node_upto hinlinee hinline a σ (site.child i)).bind fun _ =>
      (list_upto hinlinee hinline as σ site (i + 1)).bind fun _ => .refl _

end

theorem expandIn_upto (hinlinee : ∀ depth callee n,
      (x.inlinee depth callee n).outcome.Upto stop (y.inlinee depth callee n).outcome)
    {fuel : Nat} : ∀ {fuel' : Nat}, fuel ≤ fuel' →
    ∀ (depth : Nat) (site : Site) (σ : Substitution) (e : Expr),
      (x.expandIn fuel depth site σ e).outcome.Upto stop
        (y.expandIn fuel' depth site σ e).outcome := by
  induction fuel with
  | zero =>
    intro fuel' _ depth site σ e
    cases fuel' with
    | zero => exact node_upto (hinlinee depth) (fun _ _ _ => .refl _) e σ site
    | succ fuel' => exact node_upto (hinlinee depth) (fun _ _ _ => .unfinished _) e σ site
  | succ fuel ih =>
    intro fuel' hle depth site σ e
    obtain ⟨fuel', rfl⟩ : ∃ m, fuel' = m + 1 := ⟨fuel' - 1, by omega⟩
    have hbodies := ih (Nat.le_of_succ_le_succ hle) (depth + 1)
    exact node_upto (hinlinee depth) hbodies e σ site

/-- With more fuel a run ends as it has ended. -/
theorem expand_upto {fuel fuel' : Nat} (h : fuel ≤ fuel') (site : Site) (e : Expr) :
    (x.expand fuel site e).outcome.Upto stop (x.expand fuel' site e).outcome :=
  expandIn_upto (fun _ _ _ => .refl _) h 0 site [] e

end Expander

end PredicateTree
