import Mathlib.Data.List.Forall2
import PredicateTree.Proofs.Expr.Parts
import PredicateTree.Substitution

/-!
# Proofs.Expr.Walk

One step of a pass without effects, whatever kind of node it is at: where the visit answers, its
answer stands, and everywhere else the node is put together over what the pass made of its parts.
`fold_induction` is the induction over a tree and what a pass makes of it that follows.
-/

namespace PredicateTree

namespace Expr

variable {visit : Expr → Option Expr}

theorem forall₂_foldListM (site : Site) (as : List Expr) : ∀ i,
    List.Forall₂ (fun a a' => ∃ s, a' = a.fold visit s) as
      (Id.run (foldListM (fun _ a => pure (visit a)) site i as)) := by
  induction as with
  | nil => exact fun _ => .nil
  | cons a as ih => exact fun i => .cons ⟨site.child i, rfl⟩ (ih (i + 1))

theorem fold_of_visit {e r : Expr} (h : visit e = some r) (site : Site) :
    e.fold visit site = r := by
  unfold fold
  cases e <;> simp [foldM, orDescend, h]

theorem fold_of_descent {e : Expr} (h : visit e = none) (site : Site) :
    ∃ cs, List.Forall₂ (fun c c' => ∃ s, c' = c.fold visit s) e.children cs ∧
      e.fold visit site = e.orNew e.children cs (e.withChildren site cs) := by
  have hdescend : ∀ below : Id Expr, orDescend (pure (visit e)) below = below := by
    intro below
    rw [h]
    rfl
  cases e with
  | binary l op a b =>
    exact ⟨[_, _], .cons ⟨site.child 0, rfl⟩ (.cons ⟨site.child 1, rfl⟩ .nil), hdescend _⟩
  | unary l op a => exact ⟨[_], .cons ⟨site.child 0, rfl⟩ .nil, hdescend _⟩
  | member l t r => exact ⟨[_], .cons ⟨site.child 0, rfl⟩ .nil, hdescend _⟩
  | call l t m as =>
    cases t with
    | none => exact ⟨_, forall₂_foldListM site as 1, hdescend _⟩
    | some t => exact ⟨_ :: _, .cons ⟨site.child 0, rfl⟩ (forall₂_foldListM site as 1), hdescend _⟩
  | conditional l a b c =>
    exact ⟨[_, _, _], .cons ⟨site.child 0, rfl⟩ (.cons ⟨site.child 1, rfl⟩
      (.cons ⟨site.child 2, rfl⟩ .nil)), hdescend _⟩
  | dynamic l binder as => exact ⟨_, forall₂_foldListM site as 0, hdescend _⟩
  | lambda l ps b => exact ⟨[_], .cons ⟨site.child 0, rfl⟩ .nil, hdescend _⟩
  | static | constant | parameter | default => exact ⟨[], .nil, hdescend _⟩

/-- What holds between a node and each answer of the visit, and between a node and the node over
other parts whenever it holds between the parts, holds between a tree and what the pass makes of
it. -/
theorem fold_induction {S : Expr → Expr → Prop} {P : Expr → Prop}
    (answer : ∀ e r, visit e = some r → S e r)
    (node : ∀ e cs s, P e → visit e = none → List.Forall₂ S e.children cs →
      S e (e.withChildren s cs))
    {e : Expr} (he : e.All P) (site : Site) : S e (e.fold visit site) := by
  induction e using byChildren generalizing site with
  | node e ih =>
    obtain ⟨hhead, hparts⟩ := (all_iff e).1 he
    cases hvisit : visit e with
    | some r =>
      rw [fold_of_visit hvisit]
      exact answer e r hvisit
    | none =>
      obtain ⟨cs, hcs, hfold⟩ := fold_of_descent hvisit site
      have hrelated : List.Forall₂ S e.children cs := by
        refine ((List.forall₂_and_left _ _).2 ⟨fun _ hc => hc, hcs⟩).imp ?_
        rintro c _ ⟨hc, s, rfl⟩
        exact ih c hc (hparts c hc) s
      obtain ⟨s, hmade⟩ := e.orNew_eq_withChildren cs site
      rw [hfold, hmade]
      exact node e cs s hhead hvisit hrelated

/-- Without an answer nothing changes. -/
theorem fold_eq_self (h : ∀ a, visit a = none) (e : Expr) (site : Site) :
    e.fold visit site = e := by
  induction e using byChildren generalizing site with
  | node e ih =>
    obtain ⟨cs, hcs, hfold⟩ := fold_of_descent (h e) site
    have hsame : List.Forall₂ Eq e.children cs := by
      refine ((List.forall₂_and_left _ _).2 ⟨fun _ hc => hc, hcs⟩).imp ?_
      rintro c _ ⟨hc, s, rfl⟩
      exact (ih c hc s).symm
    rw [List.forall₂_eq_eq_eq] at hsame
    rw [hfold, orNew, if_pos hsame]

/-- The empty substitution is no exception. -/
theorem substitute_eq_fold (site : Site) (σ : Substitution) (e : Expr) :
    e.substitute site σ = e.fold σ.visit site := by
  unfold substitute
  split
  · rename_i hempty
    obtain rfl := List.isEmpty_iff.1 hempty
    refine (fold_eq_self (fun a => ?_) e site).symm
    cases a <;> rfl
  · rfl

end Expr

end PredicateTree
