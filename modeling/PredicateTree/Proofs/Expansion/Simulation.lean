import PredicateTree.Proofs.Evaluator.Chains
import PredicateTree.Proofs.Evaluator.Values
import PredicateTree.Proofs.Expansion.Derivation

/-!
# Proofs.Expansion.Simulation

What an expanded tree evaluates to.

The evaluator calls a rule with values and in an environment of its own; the expander puts the
argument trees into the body, which is then evaluated where the call stood. `Expands.stands` says
that both come to the same, and under which condition on the expanded tree:

* lambdas are only called (`Expr.operands` lists the parts that must be none), since an inlined
  argument is computed inside a lambda and not when the lambda is made;
* no reference stands below two lambdas that declare its variable (`Expr.BoundOnce`), since a lambda
  that is made inside a call takes the outer binding along and overlooks its own.

`Expr.Clear` is both of them at every node.

* `Scope`: where an expanded tree is evaluated, with the parameters of the lambdas around it.
* `Evaluator.Stands`: the tree stands for the value. A lambda does if its body has, for all
  arguments, the value that the call has.
* `Evaluator.Agrees`: the bindings of the expander stand for those of the evaluator, also in all
  scopes further in, where the bound trees may end up.
-/

namespace PredicateTree

namespace Expr

/-- The parts whose values a node works with. An expandable call works with its arguments; the
lambda that it calls is another matter. -/
def operands : Expr → List Expr
  | .call _ t m (callee :: as) => if m.isExpandable then as else t.toList ++ callee :: as
  | e => e.children

theorem operands_eq_children {e : Expr} (h : e.isExpandable = false) : e.operands = e.children := by
  cases e with
  | call l t m as =>
    cases as with
    | nil => rfl
    | cons callee as => exact if_neg (by simpa [isExpandable] using h)
  | _ => rfl

theorem mem_children_of_mem_operands {e c : Expr} (h : c ∈ e.operands) : c ∈ e.children := by
  unfold operands at h
  split at h
  · split at h
    · simp [children, h]
    · exact h
  · exact h

def BoundOnce (Γ : List (List Param)) : Expr → Prop
  | .parameter _ p => Γ.countP (p ∈ ·) ≤ 1
  | _ => True

instance (Γ : List (List Param)) : DecidablePred (BoundOnce Γ)
  | .parameter _ p => inferInstanceAs (Decidable (Γ.countP (p ∈ ·) ≤ 1))
  | .call .. | .binary .. | .unary .. | .member .. | .static .. | .constant .. | .conditional ..
  | .default _ | .dynamic .. | .lambda .. => inferInstanceAs (Decidable True)

/-- Lambdas are only called, and references bound once. -/
def Clear (Γ : List (List Param)) (e : Expr) : Prop :=
  e.Every (fun Γ a => (∀ c ∈ a.operands, c.isLambda = false) ∧ a.BoundOnce Γ) Γ

instance (Γ : List (List Param)) (e : Expr) : Decidable (e.Clear Γ) :=
  inferInstanceAs
    (Decidable (e.Every (fun Γ a => (∀ c ∈ a.operands, c.isLambda = false) ∧ a.BoundOnce Γ) Γ))

theorem clear_iff {Γ : List (List Param)} (e : Expr) :
    e.Clear Γ ↔ ((∀ c ∈ e.operands, c.isLambda = false) ∧ e.BoundOnce Γ) ∧
      ∀ c ∈ e.children, c.Clear (e.layers Γ) :=
  every_iff e

end Expr

/-! ## Scopes -/

/-- An environment, and the parameters of the lambdas that have bound its variables. -/
structure Scope where
  layers : List (List Param)
  env : Env
  covered : ∀ b ∈ env, ∃ ps ∈ layers, b.1 ∈ ps

namespace Scope

/-- The scope of the body of a lambda that is called in `w`. -/
def enter (w : Scope) (ps : List Param) (vs : List Value) : Scope where
  layers := ps :: w.layers
  env := w.env ++ Env.extend [] (ps.zip vs)
  covered := by
    intro b hb
    rcases List.mem_append.1 hb with hb | hb
    · obtain ⟨qs, hqs, hmem⟩ := w.covered b hb
      exact ⟨qs, List.mem_cons_of_mem _ hqs, hmem⟩
    · simp only [Env.extend, List.append_nil, List.mem_reverse] at hb
      exact ⟨ps, List.mem_cons_self, (List.of_mem_zip (show (b.1, b.2) ∈ _ from hb)).1⟩

/-- `w'` is `w` or a scope further in. -/
def Within (w w' : Scope) : Prop := w.layers <:+ w'.layers ∧ w.env <+: w'.env

theorem Within.refl (w : Scope) : w.Within w := ⟨List.suffix_rfl, List.prefix_rfl⟩

theorem Within.trans {w w' w'' : Scope} (h : w.Within w') (h' : w'.Within w'') : w.Within w'' :=
  ⟨h.1.trans h'.1, h.2.trans h'.2⟩

theorem within_enter (w : Scope) (ps : List Param) (vs : List Value) : w.Within (w.enter ps vs) :=
  ⟨List.suffix_cons ps w.layers, List.prefix_append _ _⟩

theorem Within.lookup {w w' : Scope} (h : w.Within w') {p : Param} {v : Value}
    (hp : List.lookup p w.env = some v) : List.lookup p w'.env = some v :=
  h.2.lookup_eq_some hp

/-- A variable bound once is not found outside the lambda that binds it. -/
theorem lookup_enter {w w' : Scope} {ps : List Param} {vs : List Value}
    (h : (w.enter ps vs).Within w') {p : Param} {v : Value}
    (hp : List.lookup p (Env.extend [] (ps.zip vs)) = some v)
    (honce : w'.layers.countP (p ∈ ·) ≤ 1) : List.lookup p w'.env = some v := by
  have hps : p ∈ ps := by
    have hmem := mem_of_lookup hp
    simp only [Env.extend, List.append_nil, List.mem_reverse] at hmem
    exact (List.of_mem_zip hmem).1
  apply h.lookup
  show List.lookup p (w.env ++ Env.extend [] (ps.zip vs)) = some v
  cases hw : List.lookup p w.env with
  | none => rw [List.lookup_append, hw, Option.none_or, hp]
  | some u =>
    obtain ⟨qs, hqs, hmem⟩ := w.covered (p, u) (mem_of_lookup hw)
    have hcount : 1 ≤ w.layers.countP (p ∈ ·) :=
      List.countP_pos_iff.2 ⟨qs, hqs, by simpa using hmem⟩
    have hle : (ps :: w.layers).countP (p ∈ ·) ≤ w'.layers.countP (p ∈ ·) :=
      h.1.sublist.countP_le
    rw [List.countP_cons_of_pos (by simpa using hps)] at hle
    omega

end Scope

/-! ## Trees that stand for values -/

namespace Evaluator

variable {ev : Evaluator}

def Stands (ev : Evaluator) (env : Env) (e : Expr) (v : Value) : Prop :=
  match e with
  | .lambda _ qs body => ∃ b, v = .lambda qs b ∧ ∀ n s vs r, ev.apply n s ⟨qs, b⟩ vs = .ok r →
      ev.Yields (env ++ Env.extend [] (qs.zip vs)) body r
  | e => ev.Yields env e v

theorem Stands.yields {env : Env} {e : Expr} {v : Value} (h : ev.Stands env e v)
    (he : e.isLambda = false) : ev.Yields env e v := by
  cases e with
  | lambda => cases he
  | _ => exact h

theorem stands_of_yields {env : Env} {e : Expr} {v : Value} (h : ev.Yields env e v)
    (he : e.isLambda = false) : ev.Stands env e v := by
  cases e with
  | lambda => cases he
  | _ => exact h

theorem yields_parameter {env : Env} {p : Param} {v : Value} (l : Label)
    (h : List.lookup p env = some v) : ev.Yields env (.parameter l p) v := by
  refine ⟨0, fun fuel _ site => ⟨v, ?_, rfl⟩⟩
  simp only [eval, node, Env.lookup, h]
  rfl

/-- What the parameters of a call are bound to, as trees and as values. -/
theorem lookup_zip {R : Expr → Value → Prop} {as : List Expr} {vs : List Value}
    (h : List.Forall₂ R as vs) : ∀ (ps : List Param) (p : Param),
    (List.lookup p (ps.zip as).reverse = none ∧ List.lookup p (ps.zip vs).reverse = none) ∨
    ∃ a v, List.lookup p (ps.zip as).reverse = some a ∧
      List.lookup p (ps.zip vs).reverse = some v ∧ R a v := by
  induction h with
  | nil =>
    intro ps p
    exact .inl ⟨by simp, by simp⟩
  | @cons a v as vs hav _ ih =>
    intro ps p
    cases ps with
    | nil => exact .inl ⟨rfl, rfl⟩
    | cons q ps =>
      simp only [List.zip_cons_cons, List.reverse_cons, List.lookup_append]
      obtain ⟨ha, hv⟩ | ⟨b, u, hb, hu, hbu⟩ := ih ps p
      · rw [ha, hv]
        by_cases hpq : p = q
        · subst hpq
          exact .inr ⟨a, v, by simp, by simp, hav⟩
        · exact .inl ⟨by simp [hpq], by simp [hpq]⟩
      · exact .inr ⟨b, u, by simp [hb], by simp [hu], hbu⟩

structure Agrees (ev : Evaluator) (σ : Substitution) (η : Env) (w : Scope) : Prop where
  bound : ∀ p, List.lookup p η = none → σ.get? p = none
  stands : ∀ p v l w', List.lookup p η = some v → w.Within w' →
    ((σ.get? p).getD (.parameter l p)).Clear w'.layers →
      ev.Stands w'.env ((σ.get? p).getD (.parameter l p)) v

namespace Agrees

theorem within {σ : Substitution} {η : Env} {w w' : Scope} (h : ev.Agrees σ η w)
    (hw : w.Within w') : ev.Agrees σ η w' where
  bound := h.bound
  stands p v l w'' hp hw' := h.stands p v l w'' hp (hw.trans hw')

theorem start (w : Scope) : ev.Agrees [] w.env w where
  bound _ _ := rfl
  stands _ _ l _ hp hw _ := yields_parameter l (hw.lookup hp)

theorem enter {σ : Substitution} {η : Env} {w : Scope} (h : ev.Agrees σ η w) (qs : List Param)
    (vs : List Value) : ev.Agrees σ (η ++ Env.extend [] (qs.zip vs)) (w.enter qs vs) where
  bound p hp := by
    rw [List.lookup_append, Option.or_eq_none_iff] at hp
    exact h.bound p hp.1
  stands p v l w' hp hw hclear := by
    rw [List.lookup_append] at hp
    cases hη : List.lookup p η with
    | some u =>
      rw [hη, Option.some_or] at hp
      cases hp
      exact h.stands p v l w' hη ((w.within_enter qs vs).trans hw) hclear
    | none =>
      rw [hη, Option.none_or] at hp
      rw [h.bound p hη] at hclear ⊢
      exact yields_parameter l (Scope.lookup_enter hw hp ((Expr.clear_iff _).1 hclear).1.2)

theorem call {ps : List Param} {as : List Expr} {vs : List Value} {w : Scope}
    (h : List.Forall₂ (fun a v => ∀ w', w.Within w' → a.Clear w'.layers → ev.Stands w'.env a v)
      as vs) :
    ev.Agrees (.ofList (ps.zip as)) (Env.extend [] (ps.zip vs)) w where
  bound p hp := by
    rw [Env.extend, List.append_nil] at hp
    obtain ⟨ha, -⟩ | ⟨a, v, -, hv, -⟩ := lookup_zip h ps p
    · exact ha
    · rw [hv] at hp
      cases hp
  stands p v l w' hp hw hclear := by
    rw [Env.extend, List.append_nil] at hp
    obtain ⟨-, hv⟩ | ⟨a, u, ha, hu, hau⟩ := lookup_zip h ps p
    · rw [hv] at hp
      cases hp
    · rw [hu] at hp
      cases hp
      have hget : Substitution.get? (.ofList (ps.zip as)) p = some a := ha
      rw [hget] at hclear ⊢
      exact hau w' hw hclear

end Agrees

/-! ## Calls -/

variable {η env : Env} {n : Nat} {s : Site} {v : Value}

theorem apply_eq_ok {l : Lambda} {vs : List Value} (h : ev.apply n s l vs = .ok v) :
    ∃ k, n = k + 1 ∧ l.params.length = vs.length ∧
      ev.eval k s (Env.extend [] (l.params.zip vs)) l.body = .ok v := by
  cases n with
  | zero => cases h
  | succ k =>
    simp only [apply] at h
    split at h
    · cases h
    · rename_i hlen
      exact ⟨k, rfl, not_not.1 hlen, h⟩

theorem eval_expandable_eq_ok {l : Label} {t : Option Expr} {m : Method} {callee : Expr}
    {as : List Expr} (hm : m.isExpandable = true)
    (h : ev.eval n s η (.call l t m (callee :: as)) = .ok v) :
    ∃ f k vs, ev.eval n (s.child 1) η callee = .ok f ∧ f.asLambda? = some k ∧
      ev.list (ev.apply n) η s 2 as = .ok vs ∧ ev.apply n (s.child 0) k vs = .ok v := by
  rw [eval, node_expandable hm, Outcome.bind_eq_ok] at h
  obtain ⟨f, hf, h⟩ := h
  cases hk : f.asLambda? with
  | none => rw [hk] at h; cases h
  | some k =>
    rw [hk] at h
    obtain ⟨vs, hvs, h⟩ := Outcome.bind_eq_ok.1 h
    exact ⟨f, k, vs, hf, hk, hvs, h⟩

/-- A call that would be inlined evaluates the body of the lambda that it names. -/
theorem eval_calls {e : Expr} {l : Lambda} {as : List Expr}
    (hcalls : ev.statics.resolver.Calls e l as) (h : ev.eval n s η e = .ok v) :
    ∃ k vs, List.Forall₂ (fun a u => ∃ q, ev.eval n q η a = .ok u) as vs ∧
      ev.eval k (s.child 0) (Env.extend [] (l.params.zip vs)) l.body = .ok v := by
  obtain ⟨c, hspelled, hc⟩ := hcalls
  obtain ⟨label, t, m, callee, rfl, hm, hchain⟩ := Expr.eq_of_spelled hspelled
  obtain ⟨f, k, vs, hf, hk, hvs, happly⟩ := eval_expandable_eq_ok hm h
  have hread : ev.statics.read c = .ok f := by
    rw [eval, node_of_chain _ hchain] at hf
    cases hread : ev.statics.read c with
    | error e => rw [hread] at hf; cases hf
    | ok g => rw [hread] at hf; cases hf; rfl
  have hkl : k = l := by
    simp only [Statics.resolver, hread, hk] at hc
    cases hc
    rfl
  subst hkl
  obtain ⟨j, -, -, hbody⟩ := apply_eq_ok happly
  exact ⟨j, vs, list_eq_ok hvs, hbody⟩

/-- A lambda over the body `b'` stands for the closure over `b`, if `b'` stands for the value of `b`
whatever the arguments are. -/
theorem stands_lambda (hev : ev.Pure) {l : Label} {qs : List Param} {b b' : Expr}
    (h : ∀ vs n s r, ev.eval n s (η ++ Env.extend [] (qs.zip vs)) b = .ok r →
      ev.Yields (env ++ Env.extend [] (qs.zip vs)) b' r) :
    ev.Stands env (.lambda l qs b') (Lambda.close s η ⟨qs, b⟩).toValue := by
  refine ⟨_, rfl, fun n q vs r happly => ?_⟩
  obtain ⟨k, -, -, hr⟩ := apply_eq_ok happly
  have hfill : (Lambda.close s η ⟨qs, b⟩).body.fill (Env.extend [] (qs.zip vs)).consts =
      b.fill (η ++ Env.extend [] (qs.zip vs)).consts := by
    rw [Env.fill_append, ← Expr.bare_fill, Env.bare_close]
  obtain ⟨r', hr', hlike⟩ := (eval_approx hev (Nat.le_refl k) hfill q q).leads r hr
  exact (h vs k q r' hr').congr hev rfl hlike.symm

/-- A lambda that is called where it stands gives what its body gives. -/
theorem apply_close (hev : ev.Pure) {qs : List Param} {b : Expr} {vs : List Value}
    (hlen : qs.length = vs.length) (h : ev.Yields (env ++ Env.extend [] (qs.zip vs)) b v) :
    ∃ bound, ∀ m, bound ≤ m → ∀ site q ws, Value.LikeAll vs ws →
      ∃ u, ev.apply m q (Lambda.close site env ⟨qs, b⟩) ws = .ok u ∧ v.Like u := by
  obtain ⟨bound, hbound⟩ := h
  refine ⟨bound + 1, fun m hm site q ws hvs => ?_⟩
  obtain ⟨k, rfl⟩ : ∃ k, m = k + 1 := ⟨m - 1, by omega⟩
  have hfill : b.fill (env ++ Env.extend [] (qs.zip vs)).consts =
      (Lambda.close site env ⟨qs, b⟩).body.fill (Env.extend [] (qs.zip ws)).consts := by
    rw [Env.consts_extend hvs env, Env.fill_append, ← Expr.bare_fill (Lambda.close _ _ _).body,
      Env.bare_close]
  have hlen' : qs.length = ws.length := by
    rw [hlen]
    simpa using congrArg List.length hvs
  obtain ⟨u, hu, hvu⟩ := hbound k (by omega) q
  obtain ⟨u', hu', huu'⟩ := (eval_approx hev (Nat.le_refl k) hfill q q).leads u hu
  exact ⟨u', (apply_succ hlen').trans hu', hvu.trans huu'⟩

/-- What stands for a value that can be called can be called with the same result. -/
theorem Stands.call (hev : ev.Pure) {e : Expr} {f : Value} {k : Lambda} {vs : List Value}
    (h : ev.Stands env e f) (hk : f.asLambda? = some k) (happly : ev.apply n s k vs = .ok v) :
    ∃ bound, ∀ m, bound ≤ m → ∀ site q, ∃ g k', ev.eval m site env e = .ok g ∧
      g.asLambda? = some k' ∧ ∀ ws, Value.LikeAll vs ws →
        ∃ u, ev.apply m q k' ws = .ok u ∧ v.Like u := by
  cases hlambda : e.isLambda with
  | true =>
    cases e with
    | lambda l qs b =>
      obtain ⟨b₀, rfl, hbody⟩ := h
      cases hk
      obtain ⟨-, -, hlen, -⟩ := apply_eq_ok happly
      obtain ⟨bound, hcall⟩ := apply_close hev hlen (hbody n s vs v happly)
      exact ⟨bound, fun m hm site q => ⟨_, _, rfl, rfl, hcall m hm site q⟩⟩
    | _ => cases hlambda
  | false =>
    obtain ⟨bound, hbound⟩ := h.yields hlambda
    refine ⟨max bound n, fun m hm site q => ?_⟩
    obtain ⟨g, hg, hfg⟩ := hbound m (Nat.le_trans (Nat.le_max_left _ _) hm) site
    obtain ⟨hnone, -, -⟩ | ⟨k₀, k', hk₀, hk', hlike⟩ := hfg.asLambda?
    · rw [hk] at hnone
      cases hnone
    · cases hk.symm.trans hk₀
      refine ⟨g, k', hg, hk', fun ws hvs => ?_⟩
      have hnm : n ≤ m := Nat.le_trans (Nat.le_max_right _ _) hm
      exact (apply_approx hev hnm s q k k' vs ws hlike hvs).leads v happly

theorem yields_expandable (hev : ev.Pure) {l l' : Label} {t t' : Option Expr} {m : Method}
    {callee callee' : Expr} {as as' : List Expr} (hm : m.isExpandable = true)
    (hcallee : ∀ q f, ev.eval n q η callee = .ok f → ev.Stands env callee' f)
    (has : List.Forall₂ (fun a a' => ∀ q u, ev.eval n q η a = .ok u → ev.Yields env a' u) as as')
    (h : ev.eval n s η (.call l t m (callee :: as)) = .ok v) :
    ev.Yields env (.call l' t' m (callee' :: as')) v := by
  obtain ⟨f, k, vs, hf, hk, hvs, happly⟩ := eval_expandable_eq_ok hm h
  obtain ⟨bound, hargs⟩ := exists_follows_all hev has
  obtain ⟨bound', hcall⟩ := (hcallee _ f hf).call hev hk happly
  have hargs := hargs (max bound bound') (Nat.le_max_left _ _)
  obtain ⟨ws, hws, hlike⟩ := list_related hargs s (.root 0) 2 vs hvs
  obtain ⟨g, k', hg, hk', hcall⟩ := hcall (max bound bound') (Nat.le_max_right _ _)
    ((Site.root 0).child 1) ((Site.root 0).child 0)
  obtain ⟨u, hu, hvu⟩ := hcall ws hlike
  have heval : ev.eval (max bound bound') (.root 0) env (.call l' t' m (callee' :: as')) =
      .ok u := by
    rw [eval, node_expandable hm]
    refine Outcome.bind_eq_ok.2 ⟨g, hg, ?_⟩
    rw [hk']
    exact Outcome.bind_eq_ok.2 ⟨ws, hws, hu⟩
  exact (yields_of_eval hev heval).congr hev rfl hvu.symm

end Evaluator

/-! ## The simulation -/

/-- A node that is no reference and no lambda has the same value over parts that stand for the values
of its own, if those that it works with are no lambdas. -/
theorem Evaluator.yields_withChildren {ev : Evaluator} (hev : ev.Pure) {η env : Env} {e : Expr}
    {cs : List Expr} {n : Nat} {s site : Site} {v : Value} (hparam : e.isParameter = false)
    (hlambda : e.isLambda = false)
    (hoperands : ∀ c ∈ (e.withChildren site cs).operands, c.isLambda = false)
    (hcs : List.Forall₂ (fun c c' => ∀ t u, ev.eval n t η c = .ok u → ev.Stands env c' u)
      e.children cs)
    (hv : ev.eval n s η e = .ok v) : ev.Yields env (e.withChildren site cs) v := by
  cases hcall : e.isExpandable with
  | false =>
    rw [Expr.operands_eq_children (by simpa using hcall),
      e.children_withChildren site hcs.length_eq] at hoperands
    have hyields : List.Forall₂ (fun c c' => ∀ t u, ev.eval n t η c = .ok u → ev.Yields env c' u)
        e.children cs := by
      refine List.forall₂_iff_zip.2 ⟨hcs.length_eq, fun hmem t u hu => ?_⟩
      exact (List.forall₂_zip hcs hmem t u hu).yields (hoperands _ (List.of_mem_zip hmem).2)
    obtain ⟨bound, hbound⟩ := exists_follows_all hev hyields
    have happly := fun s t => apply_approx hev (Nat.le_max_right bound n) s t
    have hparts := hbound (max bound n) (Nat.le_max_left bound n)
    exact yields_of_follows hev (node_related hev happly hparam hlambda hparts site) hv
  | true =>
    cases e with
    | call l t m as =>
      obtain ⟨t', as', hmade, -, has⟩ := Expr.withChildren_call hcs
      rw [hmade] at hoperands ⊢
      cases has with
      | nil =>
        simp only [eval, node, (show m.isExpandable = true from hcall), if_true] at hv
        cases hv
      | @cons callee callee' as as' hcallee has =>
        simp only [Expr.operands, (show m.isExpandable = true from hcall), if_true] at hoperands
        refine yields_expandable hev hcall hcallee ?_ hv
        refine List.forall₂_iff_zip.2 ⟨has.length_eq, fun hmem t u hu => ?_⟩
        exact (List.forall₂_zip has hmem t u hu).yields (hoperands _ (List.of_mem_zip hmem).2)
    | _ => cases hcall

open Evaluator in
theorem Expands.stands {ev : Evaluator} (hev : ev.Pure) {epoch : Nat} {σ : Substitution}
    {e e' : Expr} (h : Expands ev.statics.resolver epoch σ e e') :
    ∀ (w : Scope) (η : Env), ev.Agrees σ η w → e'.Clear w.layers →
      ∀ n s v, ev.eval n s η e = .ok v → ev.Stands w.env e' v := by
  induction h with
  | @reference σ l p =>
    intro w η hagrees hclear n s v hv
    have hp : List.lookup p η = some v := by
      simp only [eval, node, Env.lookup] at hv
      cases hp : List.lookup p η with
      | none => rw [hp] at hv; cases hv
      | some u => rw [hp] at hv; cases hv; rfl
    exact hagrees.stands p v l w hp (.refl w) hclear
  | @inlined σ e l as as' e' hcalls _ hlen _ _ ihargs ihbody =>
    intro w η hagrees hclear n s v hv
    obtain ⟨k, vs, hvs, hbody⟩ := eval_calls hcalls hv
    refine ihbody w _ (.call ?_) hclear k _ v hbody
    refine forall₂_of_common ?_ (List.forall₂_iff_zip.2 ⟨hlen, ihargs _ _⟩) hvs
    rintro a a' u iha ⟨q, hu⟩ w' hw hclear'
    exact iha w' η (hagrees.within hw) hclear' n q u hu
  | @rebuilt σ e cs site _ hparam _ hlen _ ih =>
    intro w η hagrees hclear n s v hv
    obtain ⟨q, hq⟩ := e.orNew_eq_withChildren cs site
    rw [hq] at hclear ⊢
    have hparts := List.forall₂_iff_zip.2 ⟨hlen, ih _ _⟩
    obtain ⟨⟨hoperands, -⟩, hclears⟩ := (Expr.clear_iff _).1 hclear
    rw [e.children_withChildren q hlen] at hclears
    cases hlambda : e.isLambda with
    | true =>
      cases e with
      | lambda l qs b =>
        obtain _ | ⟨ihb, ⟨⟩⟩ := hparts
        cases hv
        refine stands_lambda hev fun vs m t r hr => ?_
        have hb := ihb (w.enter qs vs) _ (hagrees.enter qs vs) (hclears _ (by simp)) m t r hr
        exact hb.yields (hoperands _ (by simp [Expr.operands, Expr.children, Expr.withChildren]))
      | _ => cases hlambda
    | false =>
      rw [Expr.layers_eq (by simpa using hlambda)] at hclears
      have hstands : List.Forall₂
          (fun c c' => ∀ t u, ev.eval n t η c = .ok u → ev.Stands w.env c' u) e.children cs := by
        refine List.forall₂_iff_zip.2 ⟨hlen, fun hmem t u hu => ?_⟩
        exact ih _ _ hmem w η hagrees (hclears _ (List.of_mem_zip hmem).2) n t u hu
      refine stands_of_yields ?_ (by simpa using hlambda)
      exact yields_withChildren hev hparam hlambda hoperands hstands hv

end PredicateTree
