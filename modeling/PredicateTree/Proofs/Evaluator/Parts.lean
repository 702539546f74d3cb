import Mathlib.Data.List.Forall2
import PredicateTree.Proofs.Evaluator.Likeness

/-!
# Proofs.Evaluator.Parts

A node over other parts evaluates as the parts do.

* `Evaluator.Related`: one tree in one environment bears out another tree in another environment,
  in whichever way, up to the identity of nodes. `Evaluator.Follows` is the way in which only values
  count.
* `binary_related` and the others: one lemma for each kind of node that is evaluated through its
  parts.
* `node_related`: so a node over other parts bears out the node, if the new parts bear out the old
  ones. The exceptions are references and lambdas.
-/

namespace PredicateTree

namespace Evaluator

variable {ev : Evaluator} {a b : Site → Apply} {η env : Env}

/-! ## Rows of parts -/

theorem list_eq_ok {as : List Expr} {vs : List Value} : ∀ {site : Site} {i : Nat},
    ev.list a η site i as = .ok vs →
      List.Forall₂ (fun e v => ∃ s, ev.node a η s e = .ok v) as vs := by
  induction as generalizing vs with
  | nil =>
    intro site i h
    cases h
    exact .nil
  | cons e as ih =>
    intro site i h
    simp only [list, Outcome.bind_eq_ok, Outcome.pure_eq, Outcome.ok.injEq] at h
    obtain ⟨v, hv, ws, hws, rfl⟩ := h
    exact .cons ⟨_, hv⟩ (ih hws)

/-- With the parts at hand: `e'` in the one environment bears out `e` in the other, wherever the two
are evaluated. -/
def Related (R : Outcome.Lifting EvalError) (ev : Evaluator) (a : Site → Apply) (η : Env)
    (b : Site → Apply) (env : Env) (e e' : Expr) : Prop :=
  ∀ s s', R.rel Value.Like (ev.node a η s e) (ev.node b env s' e')

/-- Where `e` has a value, `e'` has it too. -/
abbrev Follows (ev : Evaluator) (a : Site → Apply) (η : Env) (b : Site → Apply) (env : Env)
    (e e' : Expr) : Prop :=
  ev.Related .leads a η b env e e'

variable {R : Outcome.Lifting EvalError}

theorem list_related {as as' : List Expr} (h : List.Forall₂ (ev.Related R a η b env) as as') :
    ∀ s s' i, R.rel Value.LikeAll (ev.list a η s i as) (ev.list b env s' i as') := by
  induction h with
  | nil => exact fun s s' i => R.of_approx rfl
  | cons he _ ih =>
    intro s s' i
    refine R.bind (he _ _) fun v w hvw => R.bind (ih s s' (i + 1)) fun vs ws hvs => ?_
    exact R.of_approx (congrArg₂ List.cons hvw hvs)

theorem optional_related {t t' : Option Expr}
    (h : List.Forall₂ (ev.Related R a η b env) t.toList t'.toList) :
    ∀ s s', R.rel Value.LikeAll (ev.optional a η s t) (ev.optional b env s' t') := by
  intro s s'
  cases t with
  | none =>
    cases t' with
    | none => exact R.of_approx rfl
    | some => cases h
  | some e =>
    cases t' with
    | none => cases h
    | some e' =>
      cases h with
      | cons he _ =>
        refine R.bind (he s s') fun v w hvw => ?_
        exact R.of_approx (congrArg ([·]) hvw)

/-! ## Nodes -/

/-- What a test decides between is decided in the same way for values that are alike. -/
theorem branch_related {α β : Type} {r : α → β → Prop} {v w : Value} (hvw : v.Like w)
    {x y : Outcome EvalError α} {x' y' : Outcome EvalError β} (hx : R.rel r x x')
    (hy : R.rel r y y') :
    R.rel r (do if ← Outcome.ofExcept v.expectBool then x else y)
      (do if ← Outcome.ofExcept w.expectBool then x' else y') := by
  refine R.bind (R.of_approx (Value.approx_expectBool hvw)) ?_
  rintro c _ rfl
  cases c with
  | true => exact hx
  | false => exact hy

theorem binary_related {l l' : Label} {op : BinaryOp} {x y x' y' : Expr}
    (hx : ev.Related R a η b env x x') (hy : ev.Related R a η b env y y') :
    ev.Related R a η b env (.binary l op x y) (.binary l' op x' y') := by
  intro s s'
  have hx := hx (s.child 0) (s'.child 0)
  have hy := hy (s.child 1) (s'.child 1)
  have hsecond := R.bind hy fun v w hvw => R.of_approx (Value.approx_bool hvw)
  cases op with
  | and =>
    simp only [node]
    exact R.bind hx fun v w hvw => branch_related hvw hsecond (R.of_approx rfl)
  | or =>
    simp only [node]
    exact R.bind hx fun v w hvw => branch_related hvw (R.of_approx rfl) hsecond
  | _ =>
    simp only [node]
    exact R.bind hx fun v w hvw => R.bind hy fun v' w' hvw' =>
      R.of_approx (BinaryOp.approx_compute _ hvw hvw')

theorem unary_related {l l' : Label} {op : UnaryOp} {x x' : Expr}
    (hx : ev.Related R a η b env x x') :
    ev.Related R a η b env (.unary l op x) (.unary l' op x') :=
  fun _ _ => R.bind (hx _ _) fun _ _ hvw => R.of_approx (UnaryOp.approx_compute _ hvw)

theorem member_related {l l' : Label} {t t' : Expr} {r : MemberRef}
    (ht : ev.Related R a η b env t t') :
    ev.Related R a η b env (.member l t r) (.member l' t' r) := by
  intro s s'
  refine R.bind (ht _ _) fun v w hvw => R.of_approx (approx_ofMember ?_)
  rw [← v.readMember_bare, hvw, w.readMember_bare]

theorem conditional_related {l l' : Label} {t x y t' x' y' : Expr}
    (ht : ev.Related R a η b env t t') (hx : ev.Related R a η b env x x')
    (hy : ev.Related R a η b env y y') :
    ev.Related R a η b env (.conditional l t x y) (.conditional l' t' x' y') := by
  intro s s'
  simp only [node]
  exact R.bind (ht _ _) fun v w hvw => branch_related hvw (hx _ _) (hy _ _)

theorem expandable_related (hab : ∀ s t, Apply.Approx (a s) (b t)) {l l' : Label}
    {t t' : Option Expr} {m : Method} {as as' : List Expr} (hm : m.isExpandable = true)
    (has : List.Forall₂ (ev.Related R a η b env) as as') :
    ev.Related R a η b env (.call l t m as) (.call l' t' m as') := by
  intro s s'
  cases has with
  | nil =>
    simp only [node, hm, if_true]
    exact R.of_approx rfl
  | cons hcallee has =>
    rw [node_expandable hm, node_expandable hm]
    refine R.bind (hcallee _ _) fun f g hfg => ?_
    obtain ⟨hf, hg, he⟩ | ⟨k, k', hf, hg, hk⟩ := Value.Like.asLambda? hfg
    · simp only [hf, hg]
      exact R.of_approx he
    · simp only [hf, hg]
      exact R.bind (list_related has s s' 2) fun vs ws hvs =>
        R.of_approx (hab _ _ k k' vs ws hk hvs)

theorem method_related (hev : ev.Pure) (hab : ∀ s t, Apply.Approx (a s) (b t)) {l l' : Label}
    {t t' : Option Expr} {m : Method} {as as' : List Expr} (hm : m.isExpandable = false)
    (ht : List.Forall₂ (ev.Related R a η b env) t.toList t'.toList)
    (has : List.Forall₂ (ev.Related R a η b env) as as') :
    ev.Related R a η b env (.call l t m as) (.call l' t' m as') := by
  intro s s'
  have ht := optional_related ht (s.child 1) (s'.child 1)
  have has := list_related has s s' 2
  rw [node_method hm, node_method hm]
  cases hf : ev.method? m with
  | none => exact R.of_approx rfl
  | some f =>
    refine R.bind ht fun vs vs' hvs => R.bind has fun ws ws' hws => R.of_approx ?_
    exact hev.methods m f hf _ _ _ _ (hab _ _) (by simp [Value.LikeAll, hvs, hws])

theorem call_related (hev : ev.Pure) (hab : ∀ s t, Apply.Approx (a s) (b t)) {l l' : Label}
    {t t' : Option Expr} {m : Method} {as as' : List Expr}
    (ht : List.Forall₂ (ev.Related R a η b env) t.toList t'.toList)
    (has : List.Forall₂ (ev.Related R a η b env) as as') :
    ev.Related R a η b env (.call l t m as) (.call l' t' m as') := by
  cases hm : m.isExpandable with
  | true => exact expandable_related hab hm has
  | false => exact method_related hev hab hm ht has

theorem dynamic_related (hev : ev.Pure) (hab : ∀ s t, Apply.Approx (a s) (b t)) {l l' : Label}
    {binder : String} {as as' : List Expr} (has : List.Forall₂ (ev.Related R a η b env) as as') :
    ev.Related R a η b env (.dynamic l binder as) (.dynamic l' binder as') := by
  intro s s'
  have has := list_related has s s' 1
  simp only [node]
  cases hf : ev.binder? binder with
  | none => exact R.of_approx rfl
  | some f =>
    exact R.bind has fun vs ws hvs => R.of_approx (hev.binders binder f hf _ _ vs ws (hab _ _) hvs)

theorem node_related (hev : ev.Pure) (hab : ∀ s t, Apply.Approx (a s) (b t)) {e : Expr}
    {cs : List Expr} (hparam : e.isParameter = false) (hlambda : e.isLambda = false)
    (hcs : List.Forall₂ (ev.Related R a η b env) e.children cs) (site : Site) :
    ev.Related R a η b env e (e.withChildren site cs) := by
  cases e with
  | binary l op x y =>
    obtain _ | ⟨hx, _ | ⟨hy, ⟨⟩⟩⟩ := hcs
    exact binary_related hx hy
  | unary l op x =>
    obtain _ | ⟨hx, ⟨⟩⟩ := hcs
    exact unary_related hx
  | member l t r =>
    obtain _ | ⟨ht, ⟨⟩⟩ := hcs
    exact member_related ht
  | call l t m as =>
    obtain ⟨t', as', hmade, ht, has⟩ := Expr.withChildren_call hcs
    rw [hmade]
    exact call_related hev hab ht has
  | conditional l t x y =>
    obtain _ | ⟨ht, _ | ⟨hx, _ | ⟨hy, ⟨⟩⟩⟩⟩ := hcs
    exact conditional_related ht hx hy
  | dynamic l binder as => exact dynamic_related hev hab hcs
  | static | constant | default =>
    cases hcs
    exact fun s s' => R.of_approx (Outcome.Approx.refl fun _ => rfl)
  | parameter => cases hparam
  | lambda => cases hlambda

end Evaluator

end PredicateTree
