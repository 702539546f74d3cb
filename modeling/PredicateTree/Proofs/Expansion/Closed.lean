import PredicateTree.Proofs.Evaluator.Safety
import PredicateTree.Proofs.Expansion.Derivation

/-!
# Proofs.Expansion.Closed

Expansion with closed static members leaves no loose reference.

The body that takes the place of a call refers to the parameters of its lambda only. All of them
have an argument, so in the end it refers to what the arguments refer to.
-/

namespace PredicateTree

def ChainRoot.Closed : ChainRoot → Prop
  | .constant v => v.Closed
  | .static _ => True

theorem Expr.Closed.chain {e : Expr} :
    ∀ {Γ : List Param} {c : MemberChain}, e.Closed Γ → e.chain = .ok c → c.root.Closed := by
  induction e using Expr.byChildren with
  | node e ih =>
    intro Γ c he h
    cases e with
    | member l t r =>
      rw [Expr.chain_member] at h
      cases ht : t.chain with
      | error a =>
        rw [ht] at h
        cases h
      | ok c' =>
        rw [ht] at h
        cases h
        have hroot : c'.root.Closed := ih t (by simp [Expr.children]) he ht
        exact hroot
    | static l r =>
      cases h
      trivial
    | constant l v =>
      cases h
      exact he
    | _ => cases h

theorem Value.Closed.readMembers {ms : List String} :
    ∀ {v w : Value}, v.Closed → v.readMembers ms = .ok w → w.Closed := by
  induction ms with
  | nil =>
    intro v w hv h
    cases h
    exact hv
  | cons m ms ih =>
    intro v w hv h
    rw [Value.readMembers] at h
    cases hm : v.readMember m with
    | ok u =>
      rw [hm] at h
      exact ih (hv.readMember hm) h
    | error e =>
      rw [hm] at h
      cases h

theorem Statics.Closed.read {s : Statics} (hs : s.Closed) {c : MemberChain} (hc : c.root.Closed)
    {v : Value} (h : s.read c = .ok v) : v.Closed := by
  obtain ⟨root, members⟩ := c
  cases root with
  | constant u => exact Value.Closed.readMembers hc h
  | static t =>
    simp only [Statics.read] at h
    cases ht : s.holder t with
    | ok u =>
      rw [ht] at h
      exact (hs.holder ht).readMembers h
    | error e =>
      rw [ht] at h
      cases h

/-- A call in a closed tree names a closed lambda. -/
theorem Resolver.Calls.closed {s : Statics} (hs : s.Closed) {e : Expr} {l : Lambda}
    {as : List Expr} (h : s.resolver.Calls e l as) {Γ : List Param} (he : e.Closed Γ) :
    l.Closed := by
  obtain ⟨c, hspelled, hc⟩ := h
  obtain ⟨l', t, m, callee, rfl, -, hchain⟩ := Expr.eq_of_spelled hspelled
  have hcallee : callee.Closed Γ := he.2.1
  have hroot : c.root.Closed := hcallee.chain hchain
  unfold Statics.resolver at hc
  cases hread : s.read c with
  | error e =>
    rw [hread] at hc
    cases hc
  | ok v =>
    rw [hread] at hc
    have hv : v.Closed := hs.read hroot hread
    exact hv.asLambda? (Except.ok.inj hc)

theorem Expands.closed {s : Statics} (hs : s.Closed) {epoch : Nat} {σ : Substitution}
    {e e' : Expr} (h : Expands s.resolver epoch σ e e') :
    ∀ {Γ Δ : List Param}, e.Closed Γ → (∀ p a, σ.get? p = some a → a.Closed Δ) →
      (∀ p ∈ Γ, σ.get? p = none → p ∈ Δ) → e'.Closed Δ := by
  induction h with
  | @reference σ l p =>
    intro Γ Δ he hσ hrest
    cases hp : σ.get? p with
    | none => exact hrest p he hp
    | some a => exact hσ p a hp
  | @inlined σ e l as as' e' hcalls hparams hlen _ _ ihargs ihbody =>
    intro Γ Δ he hσ hrest
    apply ihbody (hcalls.closed hs he)
    · intro p a' ha'
      obtain ⟨a, hmem⟩ := exists_mem_zip hlen (Substitution.mem_of_get?_ofList ha')
      have ha : a ∈ e.children := hcalls.mem_children (List.of_mem_zip hmem).1
      obtain ⟨c, hspelled, -⟩ := hcalls
      obtain ⟨_, _, _, _, rfl, -, -⟩ := Expr.eq_of_spelled hspelled
      exact ihargs _ _ hmem (((Expr.closed_iff _).1 he).2 a ha) hσ hrest
    · -- Every parameter has an argument, so nothing is left to be bound.
      intro p hp hnone
      have hzip : l.params.length = as'.length := hparams.trans hlen
      exact absurd hp (Substitution.not_mem_of_get?_ofList hzip hnone)
  | @rebuilt σ e cs site _ hparam _ hlen _ ih =>
    intro Γ Δ he hσ hrest
    obtain ⟨hhead, hparts⟩ := (Expr.closed_iff e).1 he
    obtain ⟨s', hs'⟩ := e.orNew_eq_withChildren cs site
    rw [hs', Expr.closed_iff, Expr.closedHead_withChildren, Expr.declared_withChildren,
      e.children_withChildren s' hlen]
    refine ⟨?_, fun c' hc' => ?_⟩
    · cases e with
      | parameter => cases hparam
      | constant => exact hhead
      | _ => trivial
    · obtain ⟨c, hmem⟩ := exists_mem_zip hlen hc'
      refine ih c c' hmem (hparts c (List.of_mem_zip hmem).1) (fun p a ha => ?_) fun p hp hnone => ?_
      · exact (hσ p a ha).mono (List.subset_append_right _ _)
      · rcases List.mem_append.1 hp with hp | hp
        · exact List.mem_append_left _ hp
        · exact List.mem_append_right _ (hrest p hp hnone)

end PredicateTree
