import PredicateTree.Proofs.Evaluator.Values
import PredicateTree.Proofs.Expr.Walk

/-!
# Proofs.Evaluator.Substitution

Substitution and evaluation.

* `Evaluator.bindings`: a substitution as an environment, every key bound to the value that its
  replacement has where the substitution is made.
* `Evaluator.Matches`: with the same room, one tree ends in one environment as another tree does in
  another environment. `matches_withChildren` says that a node over other parts keeps this.
* `eval_substitute`: to evaluate a tree after a substitution is to evaluate it with the keys bound.
  A replacement may mention keys: what is put in is not looked at again, and its value is found
  outside the new bindings.
-/

namespace PredicateTree

namespace Evaluator

variable {ev : Evaluator} {a b : Site → Apply} {η env : Env} {R : Outcome.Lifting EvalError}

/-! ## Nodes over other parts -/

theorem related_withChildren (hev : ev.Pure) (hab : ∀ s t, Apply.Approx (a s) (b t)) {e : Expr}
    {cs : List Expr} (hreference : e.isParameter = true → ev.Related R a η b env e e)
    (hlambda : e.isLambda = false) (hcs : List.Forall₂ (ev.Related R a η b env) e.children cs)
    (site : Site) : ev.Related R a η b env e (e.withChildren site cs) := by
  cases hparam : e.isParameter with
  | true =>
    cases e with
    | parameter => exact hreference hparam
    | _ => cases hparam
  | false => exact node_related hev hab hparam hlambda hcs site

theorem withChildren_related (hev : ev.Pure) (hab : ∀ s t, Apply.Approx (a s) (b t)) {e : Expr}
    {cs : List Expr} (hreference : e.isParameter = true → ev.Related R a η b env e e)
    (hlambda : e.isLambda = false) (hcs : List.Forall₂ (ev.Related R a η b env) cs e.children)
    (site : Site) : ev.Related R a η b env (e.withChildren site cs) e := by
  have hlen : e.children.length = cs.length := hcs.length_eq.symm
  have hparts : List.Forall₂ (ev.Related R a η b env) (e.withChildren site cs).children
      e.children := by
    rwa [e.children_withChildren site hlen]
  have h := related_withChildren hev hab (e := e.withChildren site cs) (fun hparam => ?_)
    (by rwa [Expr.isLambda_withChildren]) hparts e.label.site
  · rwa [e.withChildren_restore site hlen] at h
  · rw [Expr.isParameter_withChildren] at hparam
    cases e with
    | parameter => exact hreference hparam
    | _ => cases hparam

/-! ## Substitutions as environments -/

def bindings (ev : Evaluator) (fuel : Nat) (site : Site) (env : Env) (σ : Substitution) : Env :=
  σ.filterMap fun b =>
    match ev.eval fuel site env b.2 with
    | .ok v => some (b.1, v)
    | .error _ | .unfinished => none

theorem bindings_cons_ok {n : Nat} {q : Site} {p : Param} {r : Expr} {v : Value}
    (h : ev.eval n q env r = .ok v) (σ : Substitution) :
    ev.bindings n q env ((p, r) :: σ) = (p, v) :: ev.bindings n q env σ := by
  simp [bindings, h]

theorem lookup_bindings_cons_of_ne {n : Nat} {q : Site} {p k : Param} (h : (p == k) = false)
    (r : Expr) (σ : Substitution) :
    List.lookup p (ev.bindings n q env ((k, r) :: σ)) = List.lookup p (ev.bindings n q env σ) := by
  cases hr : ev.eval n q env r with
  | ok v => rw [bindings_cons_ok hr, List.lookup_cons, h]
  | error | unfinished => simp [bindings, hr]

theorem lookup_bindings_of_none {n : Nat} {q : Site} {σ : Substitution} {p : Param}
    (h : σ.get? p = none) : List.lookup p (ev.bindings n q env σ) = none := by
  induction σ with
  | nil => rfl
  | cons b σ ih =>
    obtain ⟨k, r⟩ := b
    rw [Substitution.get?, List.lookup_cons] at h
    cases hk : p == k with
    | true => simp [hk] at h
    | false =>
      rw [lookup_bindings_cons_of_ne hk]
      rw [hk] at h
      exact ih h

theorem lookup_bindings_of_some {n : Nat} {q : Site} {σ : Substitution} {p : Param} {r : Expr}
    {v : Value} (h : σ.get? p = some r) (hv : ev.eval n q env r = .ok v) :
    List.lookup p (ev.bindings n q env σ) = some v := by
  induction σ with
  | nil => cases h
  | cons b σ ih =>
    obtain ⟨k, r'⟩ := b
    rw [Substitution.get?, List.lookup_cons] at h
    cases hk : p == k with
    | true =>
      simp only [hk, Option.some.injEq] at h
      rw [bindings_cons_ok (h ▸ hv), List.lookup_cons, hk]
    | false =>
      rw [lookup_bindings_cons_of_ne hk]
      rw [hk] at h
      exact ih h

/-! ## Evaluation after a substitution -/

/-- With the same room, `e` ends in the one environment as `e'` does in the other. -/
def Matches (ev : Evaluator) (n : Nat) (η env : Env) (e e' : Expr) : Prop :=
  ev.Related .approx (ev.apply n) η (ev.apply n) env e e' ∧
    ev.Related .approx (ev.apply n) env (ev.apply n) η e' e

variable {n : Nat}

theorem matches_of_fill (hev : ev.Pure) {e e' : Expr} (h : e.fill η.consts = e'.fill env.consts) :
    ev.Matches n η env e e' :=
  ⟨fun s s' => eval_approx hev (Nat.le_refl n) h s s',
    fun s s' => eval_approx hev (Nat.le_refl n) h.symm s s'⟩

theorem Matches.eval_eq {e e' : Expr} (h : ev.Matches n η env e e') (s s' : Site) :
    Value.bare <$> ev.eval n s η e = Value.bare <$> ev.eval n s' env e' :=
  Outcome.Approx.map_eq (h.1 s s') (h.2 s' s)

theorem matches_withChildren (hev : ev.Pure) {e : Expr} {cs : List Expr}
    (hreference : e.isParameter = true → ev.Matches n η env e e) (hlambda : e.isLambda = false)
    (hcs : List.Forall₂ (ev.Matches n η env) e.children cs) (site : Site) :
    ev.Matches n η env e (e.withChildren site cs) := by
  have happly := apply_approx hev (Nat.le_refl n)
  constructor
  · exact related_withChildren hev happly (fun h => (hreference h).1) hlambda
      (hcs.imp fun _ _ h => h.1) site
  · exact withChildren_related hev happly (fun h => (hreference h).2) hlambda
      (hcs.flip.imp fun _ _ h => h.2) site

variable {q : Site} {σ : Substitution}

/-- A reference that stays has the value that it has beside the bindings, or none both times. -/
theorem matches_reference (hev : ev.Pure) {e : Expr} (hparam : e.isParameter = true)
    (hvisit : σ.visit e = none) : ev.Matches n (ev.bindings n q env σ ++ env) env e e := by
  cases e with
  | parameter l p =>
    have hlookup : List.lookup p (ev.bindings n q env σ ++ env) = List.lookup p env := by
      rw [List.lookup_append, lookup_bindings_of_none hvisit, Option.none_or]
    refine matches_of_fill hev ?_
    simp only [Expr.fill, Env.consts, hlookup]
  | _ => cases hparam

/-- A key is bound to the value of what is put in its place. -/
theorem matches_replacement (hev : ev.Pure) {e r : Expr} (hvisit : σ.visit e = some r)
    (hr : ∃ v, ev.eval n q env r = .ok v) :
    ev.Matches n (ev.bindings n q env σ ++ env) env e r := by
  cases e with
  | parameter l p =>
    obtain ⟨v, hv⟩ := hr
    have heval : ∀ s, ev.node (ev.apply n) (ev.bindings n q env σ ++ env) s (.parameter l p) =
        ev.eval n q env r := by
      intro s
      rw [node, Env.lookup, List.lookup_append, lookup_bindings_of_some hvisit hv, hv]
      rfl
    constructor
    · intro s s'
      rw [heval]
      exact eval_approx hev (Nat.le_refl n) rfl q s'
    · intro s s'
      rw [heval]
      exact eval_approx hev (Nat.le_refl n) rfl s q
  | _ => cases hvisit

/-- A tree without lambdas ends after a substitution as it does with every key bound to the value of
its replacement: with the same value up to the identity of nodes, or with the same error. -/
theorem eval_substitute (hev : ev.Pure) {t : Expr} (ht : t.All fun a => a.isLambda = false)
    (hσ : ∀ p r, σ.get? p = some r → ∃ v, ev.eval n q env r = .ok v) (site s s' : Site) :
    Value.bare <$> ev.eval n s env (t.substitute site σ) =
      Value.bare <$> ev.eval n s' (ev.bindings n q env σ ++ env) t := by
  have hfold : ev.Matches n (ev.bindings n q env σ ++ env) env t (t.fold σ.visit site) := by
    refine Expr.fold_induction (S := ev.Matches n (ev.bindings n q env σ ++ env) env)
      (fun e r hvisit => ?_) (fun e cs s hlambda hvisit hcs => ?_) ht site
    · refine matches_replacement hev hvisit ?_
      cases e with
      | parameter l p => exact hσ p r hvisit
      | _ => cases hvisit
    · exact matches_withChildren hev (fun hparam => matches_reference hev hparam hvisit) hlambda
        hcs s
  rw [Expr.substitute_eq_fold]
  exact (hfold.eval_eq s' s).symm

end Evaluator

/-! ## Two keys that replace each other -/

namespace Crossed

def x : Param := ⟨.root 0, "x", .int⟩

def y : Param := ⟨.child (.root 0) 1, "y", .int⟩

def ref (p : Param) : Expr := .parameterAt (.root 1) p

/-- Each key is replaced by a tree that mentions the other. -/
def σ : Substitution :=
  [(x, .binaryAt (.root 2) .add (ref y) (.intAt (.root 2) 1)), (y, ref x)]

def env : Env := [(x, .int 1), (y, .int 5)]

def evaluator : Evaluator where
  statics := []

/-- The branch that fails is not taken. -/
def tree : Expr :=
  .conditionalAt (.root 3) (.binaryAt (.root 3) .gt (ref x) (ref y))
    (.binaryAt (.root 3) .sub (ref x) (ref y))
    (.binaryAt (.root 3) .div (ref x) (.intAt (.root 3) 0))

end Crossed

open Crossed Evaluator in
theorem eval_substitute_crossed :
    evaluator.bindings 0 (.root 4) env σ = [(x, .int 6), (y, .int 1)] ∧
      Value.bare <$> evaluator.eval 0 (.root 6) env (tree.substitute (.root 5) σ) =
        .ok (.int 5) := by
  have hbindings : evaluator.bindings 0 (.root 4) env σ = [(x, .int 6), (y, .int 1)] := by
    decide +kernel
  have hlambda : tree.All fun a => a.isLambda = false := by decide +kernel
  have hσ : ∀ p r, σ.get? p = some r → ∃ v, evaluator.eval 0 (.root 4) env r = .ok v := by
    intro p r h
    have hmem := mem_of_lookup h
    simp only [σ, List.mem_cons, Prod.mk.injEq, List.not_mem_nil, or_false] at hmem
    obtain ⟨-, rfl⟩ | ⟨-, rfl⟩ := hmem
    · exact ⟨.int 6, by decide +kernel⟩
    · exact ⟨.int 1, by decide +kernel⟩
  have hpure : evaluator.Pure := pure_builtin []
  refine ⟨hbindings, ?_⟩
  rw [eval_substitute hpure hlambda hσ (.root 5) (.root 6) (.root 7), hbindings]
  decide +kernel

end PredicateTree
