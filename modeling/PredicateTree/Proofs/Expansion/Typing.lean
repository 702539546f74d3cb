import PredicateTree.Proofs.Expansion.Termination

/-!
# Proofs.Expansion.Typing

Static types of expanded trees.

A node that is rebuilt keeps the type in its label whatever has become of its parts. What takes the
place of a call or of a reference is another tree with a label of its own, so there the types are to
agree from the start.

* `Expr.Typed`: a reference has the type of its variable.
* `Resolver.Fits`: and a call that names a lambda has the type of its body and passes arguments of
  the types of its parameters.
* `Expands.ty_eq`: then expansion keeps the type of a tree. The bindings have the types of their
  variables, which is the invariant for the bodies on the way.
* `MemorySource.expandedWhere_eq`: the second check of a predicate, after expansion, is the first one
  again.
* `expand_typed`: an expanded tree has its type and typed references, and only what was no predicate
  before is found to be none after.
-/

namespace PredicateTree

/-! ## Agreement -/

def Expr.Typed (e : Expr) : Prop := ∀ p, e.reference? = some p → e.ty = p.ty

namespace Resolver

variable {r : Resolver}

structure Fits (r : Resolver) (e : Expr) : Prop where
  reference : e.Typed
  result : ∀ l as, r.Calls e l as → e.ty = l.body.ty
  arguments : ∀ l as, r.Calls e l as → ∀ p a, (p, a) ∈ l.params.zip as → a.ty = p.ty

/-- The lambda that an expandable call names, and the arguments it passes. -/
def call? (r : Resolver) (e : Expr) : Option (Lambda × List Expr) :=
  e.spelled.bind fun q => (r.callee? e).map (·, q.2)

theorem call?_eq_some {e : Expr} {l : Lambda} {as : List Expr} :
    r.call? e = some (l, as) ↔ r.Calls e l as := by
  constructor
  · intro h
    obtain ⟨⟨chain, bs⟩, hspelled, hmap⟩ := Option.bind_eq_some_iff.1 h
    obtain ⟨k, hcallee, hpair⟩ := Option.map_eq_some_iff.1 hmap
    cases hpair
    obtain ⟨l', as', hcalls⟩ := callee?_isSome_iff.1 (Option.isSome_of_eq_some hcallee)
    cases (callee?_of_calls hcalls).symm.trans hcallee
    obtain ⟨c, hc, hr⟩ := hcalls
    cases hc.symm.trans hspelled
    exact ⟨c, hspelled, hr⟩
  · intro h
    have hcallee := callee?_of_calls h
    obtain ⟨c, hspelled, -⟩ := h
    simp [call?, hspelled, hcallee]

theorem fits_iff {e : Expr} : r.Fits e ↔ (∀ p ∈ e.reference?, e.ty = p.ty) ∧
    ∀ q ∈ r.call? e, e.ty = q.1.body.ty ∧ ∀ b ∈ q.1.params.zip q.2, b.2.ty = b.1.ty := by
  constructor
  · rintro ⟨href, hresult, harguments⟩
    refine ⟨href, ?_⟩
    rintro ⟨l, as⟩ hq
    have hcalls : r.Calls e l as := call?_eq_some.1 hq
    exact ⟨hresult l as hcalls, fun b hb => harguments l as hcalls b.1 b.2 hb⟩
  · rintro ⟨href, hcall⟩
    have hcalls : ∀ l as, r.Calls e l as →
        e.ty = l.body.ty ∧ ∀ b ∈ l.params.zip as, b.2.ty = b.1.ty :=
      fun l as h => hcall (l, as) (call?_eq_some.2 h)
    exact ⟨href, fun l as h => (hcalls l as h).1, fun l as h p a hpa => (hcalls l as h).2 (p, a) hpa⟩

instance : DecidablePred r.Fits := fun _ => decidable_of_iff _ fits_iff.symm

/-- All types agree in a tree and in the bodies on the way. -/
structure Agrees (r : Resolver) (e : Expr) : Prop where
  tree : e.All r.Fits
  bodies : ∀ l, r.Inlines e l → l.body.All r.Fits

end Resolver

theorem Expands.ty_eq {r : Resolver} {epoch : Nat} {σ : Substitution} {e e' : Expr}
    (h : Expands r epoch σ e e') : r.Agrees e → (∀ p a, σ.get? p = some a → a.ty = p.ty) →
      e'.ty = e.ty := by
  induction h with
  | @reference σ l p =>
    intro he hσ
    have hp : l.ty = p.ty := ((Expr.all_iff _).1 he.tree).1.reference p rfl
    cases hget : σ.get? p with
    | none => rfl
    | some a => exact (hσ p a hget).trans hp.symm
  | @inlined σ e l as as' e' hcalls hparams hlen _ _ ihargs ihbody =>
    intro he hσ
    obtain ⟨hfits, hparts⟩ := (Expr.all_iff e).1 he.tree
    have hagrees : ∀ a ∈ as, r.Agrees a := fun a ha =>
      ⟨hparts a (hcalls.mem_children ha), fun k hk => he.bodies k (.argument hcalls ha hk)⟩
    have has : List.Forall₂ (fun a p => a.ty = p.ty) as l.params :=
      (List.forall₂_iff_zip.2 ⟨hparams, hfits.arguments l as hcalls _ _⟩).flip
    have has' : List.Forall₂ (fun a a' => a'.ty = a.ty) as as' :=
      List.forall₂_iff_zip.2 ⟨hlen, fun hmem =>
        ihargs _ _ hmem (hagrees _ (List.of_mem_zip hmem).1) hσ⟩
    have hbound : List.Forall₂ (fun p a' => a'.ty = p.ty) l.params as' :=
      forall₂_of_common (fun _ _ _ hp ha' => ha'.trans hp) has has'
    have hbody : e'.ty = l.body.ty := by
      refine ihbody ⟨he.bodies l (.here hcalls), fun k hk => he.bodies k (.body hcalls hk)⟩ ?_
      intro p a' ha'
      exact List.forall₂_zip hbound (Substitution.mem_zip_of_get?_ofList ha')
    exact hbody.trans (hfits.result l as hcalls).symm
  | @rebuilt σ e cs site =>
    intro _ _
    obtain ⟨s, hs⟩ := e.orNew_eq_withChildren cs site
    rw [hs, Expr.ty_withChildren]

theorem Expands.typed {r : Resolver} {epoch : Nat} {e e' : Expr} (h : Expands r epoch [] e e')
    (he : r.Agrees e) : e'.All Expr.Typed := by
  refine h.all (Q := r.Fits) (fun l p hfits => hfits.reference) ?_ he.tree he.bodies
    (fun p a hp => by cases hp)
  intro σ e cs site hfits _ _ _ p hp
  obtain ⟨s, hs⟩ := e.orNew_eq_withChildren cs site
  rw [hs, Expr.reference?_withChildren] at hp
  rw [hs, Expr.ty_withChildren]
  exact hfits.reference p hp

/-! ## Errors -/

/-- A source refuses a lambda because it is no predicate. -/
def SourceError.IsNotAPredicate : Option SourceError → Prop
  | some (.pass (.notAPredicate _)) => True
  | _ => False

namespace Expander

variable {x : Expander}

/-- What the search for a lambda to inline never ends in, no expansion ends in. -/
theorem expandIn_evades {bad : Option PassError → Prop} (hnone : ¬bad none)
    (hinlinee : ∀ depth callee n, (x.inlinee depth callee n).outcome.Evades bad) :
    ∀ (fuel depth : Nat) (site : Site) (σ : Substitution) (e : Expr),
      (x.expandIn fuel depth site σ e).outcome.Evades bad := by
  intro fuel
  induction fuel with
  | zero =>
    intro depth site σ e
    refine node_evades e σ site (Expr.all_of_forall ?_ e)
    rintro a l t m callee as rfl -
    exact ⟨hinlinee depth callee as.length, fun _ _ _ _ _ => hnone⟩
  | succ fuel ih =>
    intro depth site σ e
    refine node_evades e σ site (Expr.all_of_forall ?_ e)
    rintro a l t m callee as rfl -
    exact ⟨hinlinee depth callee as.length, fun _ k _ s τ => ih (depth + 1) s τ k.body⟩

theorem inlinee_evades_notAPredicate (depth : Nat) (callee : Expr) (n : Nat) :
    (x.inlinee depth callee n).outcome.Evades
      fun e => SourceError.IsNotAPredicate (e.map .pass) :=
  inlinee_evades (fun _ => id) (fun _ _ => id) (fun _ _ => id) fun _ _ _ _ => id

theorem expandLambda_evades_notAPredicate (fuel : Nat) (site : Site) (l : Lambda) :
    (x.expandLambda fuel site l).outcome.Evades
      fun e => SourceError.IsNotAPredicate (e.map .pass) := by
  have hbody : (x.expand fuel site l.body).outcome.Evades
      fun e => SourceError.IsNotAPredicate (e.map .pass) :=
    expandIn_evades id inlinee_evades_notAPredicate fuel 0 site [] l.body
  simp only [expandLambda, Traced.outcome_bind]
  exact hbody.bind fun _ _ => .ok _

end Expander

namespace MemorySource

variable {s : MemorySource} {fuel : Nat} {site : Site}

open SourceError (IsNotAPredicate)

theorem filter_evades_notAPredicate (p : Predicate) :
    (s.filter fuel site p).Evades IsNotAPredicate := by
  have hcheck : (s.check p.lambda).Evades IsNotAPredicate := by
    unfold check
    split
    · exact id
    · trivial
  refine hcheck.bind fun _ _ => .bind (.mapError (.of_never fun e => ?_)) fun _ _ => .ok _
  cases e with
  | none => exact id
  | some e => exact id

theorem expanded_evades_notAPredicate (l : Lambda) :
    (s.expanded fuel site l).Evades IsNotAPredicate :=
  .mapError (Expander.expandLambda_evades_notAPredicate fuel site l)

/-- Where types agree, the expanded body is boolean if the body is, and nothing else is looked at
when a predicate is made of it. -/
theorem expandedWhere_eq {p : Predicate} (h : s.statics.resolver.Agrees p.body) :
    s.expandedWhere fuel site p = (do
      let l ← s.expanded fuel (site.child 0) p.lambda
      if p.body.isBool then s.filter fuel (site.child 1) ⟨p.param, l.body⟩
      else .error (.pass (.notAPredicate l))) := by
  unfold expandedWhere
  cases hl : s.expanded fuel (site.child 0) p.lambda with
  | error e => rfl
  | unfinished => rfl
  | ok l =>
    obtain ⟨body, hbody, rfl⟩ := Expander.expandLambda_eq_ok (Outcome.mapError_eq_ok.1 hl)
    have hty : body.ty = p.body.ty :=
      (Expander.expands_of_expand hbody).ty_eq h fun q a hq => by cases hq
    have hbool : p.body.isBool = body.isBool := congrArg Ty.isBool hty.symm
    have hmade : Predicate.ofLambda (p.lambda.withBody body) =
        if p.body.isBool then .ok ⟨p.param, body⟩
        else .error (.notAPredicate (p.lambda.withBody body)) := by
      rw [hbool]
      rfl
    rw [Outcome.ok_bind, hmade]
    split <;> rfl

theorem expandedWhere_notAPredicate_iff {p : Predicate} (h : s.statics.resolver.Agrees p.body) :
    (∃ l, s.expandedWhere fuel site p = .error (.pass (.notAPredicate l))) ↔
      p.body.isBool = false ∧ ∃ l, s.expanded fuel (site.child 0) p.lambda = .ok l := by
  rw [expandedWhere_eq h]
  have hexpanded : (s.expanded fuel (site.child 0) p.lambda).Evades IsNotAPredicate :=
    expanded_evades_notAPredicate p.lambda
  cases hl : s.expanded fuel (site.child 0) p.lambda with
  | ok l =>
    cases hbool : p.body.isBool with
    | true =>
      have hfilter : (s.filter fuel (site.child 1) ⟨p.param, l.body⟩).Evades IsNotAPredicate :=
        filter_evades_notAPredicate _
      simpa using fun k => hfilter.ne_error (e := .pass (.notAPredicate k)) trivial
    | false => simp
  | error e =>
    rw [hl] at hexpanded
    simpa using fun k => hexpanded.ne_error (e := .pass (.notAPredicate k)) trivial
  | unfinished => simp

end MemorySource

/-- Where types agree, an expanded tree has its type and typed references. So a source that expands a
predicate finds out that it is none only if it was none before: if its body was not boolean. -/
theorem expand_typed {x : Expander} {t : Expr} (h : x.resolver.Agrees t) :
    (∀ fuel site t', (x.expand fuel site t).outcome = .ok t' →
      t'.ty = t.ty ∧ t'.All Expr.Typed) ∧
    ∀ s : MemorySource, s.statics.resolver = x.resolver → ∀ p : Predicate, p.body = t →
      ∀ fuel site,
        (∃ l, s.expandedWhere fuel site p = .error (.pass (.notAPredicate l))) ↔
          t.isBool = false ∧ ∃ l, s.expanded fuel (site.child 0) p.lambda = .ok l := by
  constructor
  · intro fuel site t' ht'
    have hexpands : Expands x.resolver site.epoch [] t t' := Expander.expands_of_expand ht'
    exact ⟨hexpands.ty_eq h (fun p a hp => by cases hp), hexpands.typed h⟩
  · rintro s hs p rfl fuel site
    rw [← hs] at h
    exact MemorySource.expandedWhere_notAPredicate_iff h

open Nested in
/-- The calls of a predicate and of the rules it leads to have the types of what they call. -/
theorem expand_typed_nested :
    expander.resolver.Agrees predicate.body ∧
    (∃ t', (expander.expand 2 (.root 1) predicate.body).outcome = .ok t' ∧
      t'.ty = .bool ∧ t'.All Expr.Typed) ∧
    ∀ l, source.expandedWhere 2 (.root 1) predicate ≠ .error (.pass (.notAPredicate l)) := by
  have hagrees : expander.resolver.Agrees predicate.body := by
    refine ⟨by decide, fun l hl => ?_⟩
    obtain rfl | rfl | rfl := inlines_cases hl
    all_goals decide
  obtain ⟨htyped, hwhere⟩ := expand_typed hagrees
  obtain ⟨t', ht'⟩ : ∃ t', (expander.expand 2 (.root 1) predicate.body).outcome = .ok t' := ⟨_, rfl⟩
  refine ⟨hagrees, ⟨t', ht', htyped 2 (.root 1) t' ht'⟩, fun l hl => ?_⟩
  obtain ⟨hbool, -⟩ := (hwhere source rfl predicate rfl 2 (.root 1)).1 ⟨l, hl⟩
  cases hbool

open Predicate.Uncovered in
/-- The inverse of `|x: int| !x` has the body `x`, in which types agree. No source takes it when it
expands it, not even one that is empty. -/
theorem inverse_refused :
    Predicate.ofLambda notInt.lambda = .ok notInt ∧
    (∀ r : Resolver, r.Agrees (notInt.inverse (.root 3)).body) ∧
    (∃ l, MemorySource.expandedWhere { items := [], statics := [] } 1 (.root 4)
      (notInt.inverse (.root 3)) = .error (.pass (.notAPredicate l))) ∧
    ¬ ∀ (s : MemorySource) (p : Predicate), s.statics.resolver.Agrees p.body →
      ∀ fuel site l, s.expandedWhere fuel site p ≠ .error (.pass (.notAPredicate l)) := by
  have hagrees : ∀ r : Resolver, r.Agrees (notInt.inverse (.root 3)).body := by
    intro r
    have hcalls : ∀ l as, ¬r.Calls (notInt.inverse (.root 3)).body l as := by
      rintro l as ⟨c, hspelled, -⟩
      cases hspelled
    refine ⟨(Expr.all_iff _).2 ⟨⟨?_, ?_, ?_⟩, List.forall_mem_nil _⟩, fun l hl => ?_⟩
    · rintro p ⟨⟩
      rfl
    · exact fun l as h => absurd h (hcalls l as)
    · exact fun l as h => absurd h (hcalls l as)
    · exact absurd hl (Resolver.not_inlines (by decide))
  have hrefused : MemorySource.expandedWhere { items := [], statics := [] } 1 (.root 4)
      (notInt.inverse (.root 3)) =
        .error (.pass (.notAPredicate (notInt.inverse (.root 3)).lambda)) := rfl
  exact ⟨rfl, hagrees, ⟨_, hrefused⟩, fun hall => hall _ _ (hagrees _) _ _ _ hrefused⟩

end PredicateTree
