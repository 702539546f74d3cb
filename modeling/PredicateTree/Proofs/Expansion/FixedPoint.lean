import PredicateTree.Proofs.Expansion.Derivation

/-!
# Proofs.Expansion.FixedPoint

When a second expansion changes nothing.

A call is inlined or left by its first argument as it is written, and the parts of a call that is
left are still replaced. So the expanded tree may hold calls that a second expansion inlines, but
only among the nodes that the first one has made:

* `Expands.leaves_or_made`: every node of an expansion is left by the resolver or made by the run.
* `outcome_node_of_leaves`: a tree whose nodes are all left expands to itself.
* `expand_expand_iff`: the second expansion gives the same tree exactly if the calls that the first
  one has made are left. Calls whose first argument is neither a reference nor an expandable call
  never stand in the way.
-/

namespace PredicateTree

/-- The first argument of an expandable call is no reference, for which a member may be put in, and
no expandable call, which may be replaced by one. -/
def Expr.Direct : Expr → Prop
  | .call _ _ m (callee :: _) =>
    m.isExpandable = true → callee.isParameter = false ∧ callee.spelled = none
  | _ => True

instance : DecidablePred Expr.Direct
  | .call _ _ m (callee :: _) =>
    inferInstanceAs
      (Decidable (m.isExpandable = true → callee.isParameter = false ∧ callee.spelled = none))
  | .call _ _ _ [] | .binary .. | .unary .. | .member .. | .static .. | .constant .. | .parameter ..
  | .conditional .. | .default _ | .dynamic .. | .lambda .. => inferInstanceAs (Decidable True)

theorem Expr.memberChain_withChildren {e : Expr} {site : Site} {cs : List Expr}
    (h : e.memberChain = none) : (e.withChildren site cs).memberChain = none := by
  unfold Expr.withChildren
  split
  case h_3 => cases h
  case h_9 => exact h
  all_goals rfl

theorem Expr.spelled_withChildren {e : Expr} {site : Site} {cs : List Expr}
    (h : ∀ l t m as, e ≠ .call l t m as) : (e.withChildren site cs).spelled = none := by
  unfold Expr.withChildren
  split
  case h_4 => exact absurd rfl (h _ _ _ _)
  case h_5 => exact absurd rfl (h _ _ _ _)
  case h_9 =>
    cases e with
    | call l t m as => exact absurd rfl (h l t m as)
    | _ => rfl
  all_goals rfl

/-! ## The nodes of an expansion -/

namespace Expands

variable {r : Resolver} {epoch : Nat} {σ : Substitution}

theorem leaves_or_made {e e' : Expr} (h : Expands r epoch [] e e') :
    e'.All fun a => r.Leaves a ∨ a.label.site.epoch = epoch := by
  -- Nothing is asked of the trees on the way.
  have hany : ∀ a : Expr, a.All fun _ => True := Expr.all_of_forall fun _ => trivial
  refine h.all (fun l p _ => ?_) (fun σ e cs site _ hleaves hsite hcs => ?_) (hany e)
    (fun l _ => hany l.body) (fun p a hp => by cases hp)
  · exact .inl (Resolver.leaves_of_spelled rfl)
  · unfold Expr.orNew
    split
    · exact .inl hleaves
    · rename_i hne
      refine .inr ?_
      rw [e.label_withChildren site hcs.length_eq hne]
      exact hsite

/-- What spells a chain has nothing to expand. -/
theorem eq_of_chain {e e' : Expr} {c : MemberChain} (hc : e.chain = .ok c)
    (h : Expands r epoch σ e e') : e' = e := by
  induction h generalizing c with
  | reference => cases hc
  | @inlined σ e l as as' e' hcalls =>
    obtain ⟨c', hspelled, -⟩ := hcalls
    cases e with
    | call => cases hc
    | _ => cases hspelled
  | @rebuilt σ e cs site _ _ _ hlen _ ih =>
    suffices hcs : e.children = cs by rw [Expr.orNew, if_pos hcs]
    cases e with
    | member l t m =>
      obtain ⟨t', rfl⟩ := List.length_eq_one_iff.1 hlen.symm
      rw [Expr.chain_member] at hc
      cases ht : t.chain with
      | error => rw [ht] at hc; cases hc
      | ok d =>
        have := ih t t' (by simp [Expr.children]) ht
        simp [Expr.children, this]
    | static | constant => exact (List.length_eq_zero_iff.1 hlen.symm).symm
    | _ => cases hc

/-- The first argument of a call that was left still spells what it spelled, if it is direct. -/
theorem memberChain_eq {e e' : Expr} (h : Expands r epoch σ e e') (hparam : e.isParameter = false)
    (hspelled : e.spelled = none)
    (hchain : ∀ chain, e.memberChain = some chain → ∃ c, chain = .ok c) :
    e'.memberChain = e.memberChain := by
  cases hm : e.memberChain with
  | none =>
    cases h with
    | reference => cases hparam
    | inlined hcalls =>
      obtain ⟨c, hc, -⟩ := hcalls
      rw [hspelled] at hc
      cases hc
    | @rebuilt _ _ cs site =>
      obtain ⟨s, hs⟩ := e.orNew_eq_withChildren cs site
      rw [hs]
      exact Expr.memberChain_withChildren hm
  | some chain =>
    obtain ⟨c, rfl⟩ := hchain chain hm
    have he : e.chain = .ok c := by
      cases e with
      | member | static => exact Option.some.inj hm
      | _ => cases hm
    rw [h.eq_of_chain he, hm]

theorem leaves_withChildren {e : Expr} {cs : List Expr} {site : Site} (hdirect : e.Direct)
    (hleaves : r.Leaves e) (hcs : List.Forall₂ (Expands r epoch σ) e.children cs) :
    r.Leaves (e.withChildren site cs) := by
  cases e with
  | call l t m as =>
    obtain ⟨t', as', hmade, -, has⟩ := Expr.withChildren_call hcs
    rw [hmade]
    cases hm : m.isExpandable with
    | false => exact Resolver.leaves_of_spelled (Expr.spelled_call hm)
    | true =>
      cases has with
      | nil => exact Resolver.leaves_of_spelled rfl
      | @cons callee callee' as as' hcallee _ =>
        -- Only the first argument counts, and it spells what it spelled before.
        obtain ⟨hparam, hspelled⟩ := hdirect hm
        have hleft : ∀ chain, callee.memberChain = some chain →
            ∃ c, chain = .ok c ∧ r c = .ok none := by
          intro chain hchain
          exact hleaves chain as (by simp [Expr.spelled, hm, hchain])
        have hsame : callee'.memberChain = callee.memberChain := by
          refine hcallee.memberChain_eq hparam hspelled fun chain hchain => ?_
          obtain ⟨c, hc, -⟩ := hleft chain hchain
          exact ⟨c, hc⟩
        intro chain bs hchain
        simp only [Expr.spelled, hm, if_true, hsame, Option.map_eq_some_iff,
          Prod.mk.injEq] at hchain
        obtain ⟨chain', hchain, rfl, -⟩ := hchain
        exact hleft chain' hchain
  | _ => exact Resolver.leaves_of_spelled (Expr.spelled_withChildren fun _ _ _ _ h => by cases h)

theorem leaves_of_direct {e e' : Expr} (h : Expands r epoch [] e e') (he : e.All Expr.Direct)
    (hl : ∀ l, r.Inlines e l → l.body.All Expr.Direct) : e'.All r.Leaves := by
  refine h.all (fun l p _ => ?_) (fun σ e cs site hdirect hleaves _ hcs => ?_) he hl
    (fun p a hp => by cases hp)
  · exact Resolver.leaves_of_spelled rfl
  · obtain ⟨s, hs⟩ := e.orNew_eq_withChildren cs site
    rw [hs]
    exact leaves_withChildren hdirect hleaves hcs

end Expands

/-! ## Trees that stay -/

namespace Expander

variable {x : Expander} {inline : Inline} {depth : Nat}

theorem outcome_inlinee {callee : Expr} {n : Nat}
    (h : ∀ chain, callee.memberChain = some chain → ∃ c, chain = .ok c ∧ x.resolver c = .ok none) :
    (x.inlinee depth callee n).outcome = .ok none := by
  unfold inlinee
  cases hchain : callee.memberChain with
  | none => rfl
  | some chain =>
    obtain ⟨c, rfl, hc⟩ := h chain hchain
    simp only [outcome_consult, hc]

mutual

theorem outcome_node_of_leaves : ∀ (e : Expr) (site : Site), e.All x.resolver.Leaves →
    (x.node inline depth [] site e).outcome = .ok e
  | .parameter l p, site, _ => rfl
  | .call l t m [], site, h => by
    obtain ⟨-, hparts⟩ := (Expr.all_iff _).1 h
    have ht := outcome_optional_of_leaves t (site.child 0)
      fun a ha => hparts a (by simp [Expr.children, ha])
    simp only [node]
    split
    · simp [ht, Expr.orNew]
    · simp [ht, Expr.orNew]
  | .call l t m (callee :: as), site, h => by
    obtain ⟨hleaves, hparts⟩ := (Expr.all_iff _).1 h
    have ht := outcome_optional_of_leaves t (site.child 0)
      fun a ha => hparts a (by simp [Expr.children, ha])
    have hcallee := outcome_node_of_leaves callee (site.child 1)
      (hparts callee (by simp [Expr.children]))
    have has := outcome_list_of_leaves as site 2 fun a ha => hparts a (by simp [Expr.children, ha])
    simp only [node]
    cases hm : m.isExpandable with
    | false => simp [ht, hcallee, has, Expr.orNew]
    | true =>
      have hnone : (x.inlinee depth callee as.length).outcome = .ok none := by
        refine outcome_inlinee fun chain hchain => hleaves chain as ?_
        simp [Expr.spelled, hm, hchain]
      simp [hnone, ht, hcallee, has, Expr.orNew]
  | .binary l op a b, site, h => by
    obtain ⟨-, hparts⟩ := (Expr.all_iff _).1 h
    have ha := outcome_node_of_leaves a (site.child 0) (hparts a (by simp [Expr.children]))
    have hb := outcome_node_of_leaves b (site.child 1) (hparts b (by simp [Expr.children]))
    simp [node, ha, hb, Expr.orNew]
  | .unary l op a, site, h => by
    obtain ⟨-, hparts⟩ := (Expr.all_iff _).1 h
    have ha := outcome_node_of_leaves a (site.child 0) (hparts a (by simp [Expr.children]))
    simp [node, ha, Expr.orNew]
  | .member l t r, site, h => by
    obtain ⟨-, hparts⟩ := (Expr.all_iff _).1 h
    have ht := outcome_node_of_leaves t (site.child 0) (hparts t (by simp [Expr.children]))
    simp [node, ht, Expr.orNew]
  | .conditional l a b c, site, h => by
    obtain ⟨-, hparts⟩ := (Expr.all_iff _).1 h
    have ha := outcome_node_of_leaves a (site.child 0) (hparts a (by simp [Expr.children]))
    have hb := outcome_node_of_leaves b (site.child 1) (hparts b (by simp [Expr.children]))
    have hc := outcome_node_of_leaves c (site.child 2) (hparts c (by simp [Expr.children]))
    simp [node, ha, hb, hc, Expr.orNew]
  | .dynamic l binder as, site, h => by
    obtain ⟨-, hparts⟩ := (Expr.all_iff _).1 h
    have has := outcome_list_of_leaves as site 0 hparts
    simp [node, has, Expr.orNew]
  | .lambda l ps b, site, h => by
    obtain ⟨-, hparts⟩ := (Expr.all_iff _).1 h
    have hb := outcome_node_of_leaves b (site.child 0) (hparts b (by simp [Expr.children]))
    simp [node, hb, Expr.orNew]
  | .static .., _, _ => rfl
  | .constant .., _, _ => rfl
  | .default _, _, _ => rfl

theorem outcome_optional_of_leaves : ∀ (t : Option Expr) (site : Site),
    (∀ a ∈ t.toList, a.All x.resolver.Leaves) →
      (x.optional inline depth [] site t).outcome = .ok t
  | none, _, _ => rfl
  | some a, site, h => by
    have ha := outcome_node_of_leaves a site (h a (by simp))
    simp [optional, ha]

theorem outcome_list_of_leaves : ∀ (as : List Expr) (site : Site) (i : Nat),
    (∀ a ∈ as, a.All x.resolver.Leaves) → (x.list inline depth [] site i as).outcome = .ok as
  | [], _, _, _ => rfl
  | a :: as, site, i, h => by
    have ha := outcome_node_of_leaves a (site.child i) (h a (by simp))
    have has := outcome_list_of_leaves as site (i + 1) fun b hb => h b (by simp [hb])
    simp [list, ha, has]

end

theorem outcome_expand_of_leaves {e : Expr} (h : e.All x.resolver.Leaves) (fuel : Nat)
    (site : Site) : (x.expand fuel site e).outcome = .ok e := by
  cases fuel with
  | zero => exact outcome_node_of_leaves e site h
  | succ fuel => exact outcome_node_of_leaves e site h

/-! ## The second expansion -/

/-- A second expansion of `t'` gives `t'` again if all calls on the way are direct. In general it
does so exactly if the resolver leaves every node that the first expansion has made. The site of the
second run is one where no node of `t'` was made. -/
theorem expand_expand_iff {fuel : Nat} {site : Site} {t t' : Expr}
    (h : (x.expand fuel site t).outcome = .ok t') :
    (t.All Expr.Direct → (∀ l, x.resolver.Inlines t l → l.body.All Expr.Direct) →
      ∀ fuel' site', (x.expand fuel' site' t').outcome = .ok t') ∧
    ∀ fuel' site', t'.All (fun a => a.label.site.epoch ≠ site'.epoch) →
      ((x.expand fuel' site' t').outcome = .ok t' ↔
        t'.All fun a => a.label.site.epoch = site.epoch → x.resolver.Leaves a) := by
  have hexpands := expands_of_expand h
  constructor
  · intro ht hl fuel' site'
    exact outcome_expand_of_leaves (hexpands.leaves_of_direct ht hl) fuel' site'
  intro fuel' site' hfresh
  constructor
  · intro hagain
    refine (expands_of_expand hagain).leaves_or_made.imp₂ (fun a ha hne _ => ?_) hfresh
    exact ha.resolve_right hne
  · intro hmade
    refine outcome_expand_of_leaves ?_ fuel' site'
    refine hexpands.leaves_or_made.imp₂ (fun a ha hleaves => ?_) hmade
    exact ha.elim id hleaves

end Expander

/-! ## A rule that calls the rule it is given -/

namespace Handed

def place (i : Nat) : Site := (Site.root 0).child i

def f : Param := ⟨place 0, "f", .fn [.int] .bool⟩

def z : Param := ⟨place 1, "z", .int⟩

def call : Lambda :=
  ⟨[f], .expandAt (place 2) (.parameterAt (place 3) f) [.intAt (place 4) 1] .bool⟩

def positive : Lambda :=
  ⟨[z], .binaryAt (place 5) .gt (.parameterAt (place 6) z) (.intAt (place 7) 0)⟩

def expander : Expander where
  resolver := Statics.resolver [("R", [("call", call.toValue), ("positive", positive.toValue)])]

/-- `expand(R::call, R::positive)` -/
def tree : Expr :=
  .expandAt (place 8) (.staticAt (place 9) "R" "call" call.ty)
    [.staticAt (place 10) "R" "positive" positive.ty] .bool

/-- `expand(R::positive, 1)` -/
def direct (site : Site) : Expr :=
  .expandAt site (.staticAt (place 10) "R" "positive" positive.ty) [.intAt (place 4) 1] .bool

/-- `1 > 0` -/
def answer (site : Site) : Expr := .binaryAt site .gt (.intAt (place 4) 1) (.intAt (place 7) 0)

end Handed

open Handed in
/-- The rule that was handed over is inlined by the second expansion only, and not even the structure
stays the same. -/
theorem expand_expand_ne :
    (expander.expand 1 (.root 1) tree).outcome = .ok (direct ((Site.root 1).child 0)) ∧
      (expander.expand 1 (.root 2) (direct ((Site.root 1).child 0))).outcome =
        .ok (answer ((Site.root 2).child 0)) ∧
      (answer ((Site.root 2).child 0)).alike (direct ((Site.root 1).child 0)) = false :=
  ⟨rfl, rfl, by decide⟩

open Handed in
theorem expand_expand_iff_handed :
    ((direct (place 8)).All Expr.Direct ∧
      (∀ l, expander.resolver.Inlines (direct (place 8)) l → l.body.All Expr.Direct) ∧
      ∀ fuel site, (expander.expand fuel site (answer ((Site.root 1).child 0))).outcome =
        .ok (answer ((Site.root 1).child 0))) ∧
    (direct ((Site.root 1).child 0)).All (fun a => a.label.site.epoch ≠ 2) ∧
      ¬(direct ((Site.root 1).child 0)).All fun a =>
        a.label.site.epoch = 1 → expander.resolver.Leaves a := by
  have hdirect : (direct (place 8)).All Expr.Direct := by decide
  have hinlines : ∀ l, expander.resolver.Inlines (direct (place 8)) l → l.body.All Expr.Direct := by
    intro l hl
    have hcalls : expander.resolver.Calls (direct (place 8)) positive [.intAt (place 4) 1] :=
      ⟨_, rfl, rfl⟩
    rw [hcalls.eq_of_inlines (by decide) (by decide) hl]
    decide
  have hfresh : (direct ((Site.root 1).child 0)).All fun a => a.label.site.epoch ≠ 2 := by decide
  have honce : (expander.expand 1 (.root 1) (direct (place 8))).outcome =
      .ok (answer ((Site.root 1).child 0)) := rfl
  have hhanded : (expander.expand 1 (.root 1) tree).outcome =
      .ok (direct ((Site.root 1).child 0)) := rfl
  refine ⟨⟨hdirect, hinlines, ?_⟩, hfresh, fun hleaves => ?_⟩
  · exact (Expander.expand_expand_iff honce).1 hdirect hinlines
  · have hagain := ((Expander.expand_expand_iff hhanded).2 1 (.root 2) hfresh).2 hleaves
    cases hagain

end PredicateTree
