import PredicateTree.Proofs.Evaluator.Parts

/-!
# Proofs.Evaluator.Values

What the result of an evaluation depends on.

* `node_approx`: two trees that look alike once the bindings in sight are put in evaluate alike. So
  the place of evaluation does not matter, more room changes no answer, and an environment may be
  put into a tree or kept beside it.
* `apply_approx`, `eval_approx`: by induction on the fuel, calls and evaluations with more of it.
* `Evaluator.Yields`: the tree has this value. `yields_of_eval` says that one evaluation shows it.
* `exists_follows`: a value that is there with room enough is followed from some bound on.
-/

namespace PredicateTree

namespace Evaluator

variable {ev : Evaluator} {a b : Site → Apply} {env env' : Env}

/-! ## Alike trees evaluate alike -/

/-- Only a reference or a value is filled to one. -/
theorem isAtom_fill (env : Env) (e : Expr) : (e.fill env.consts).isAtom = e.isAtom := by
  cases e with
  | parameter l p =>
    simp only [Expr.fill, Env.consts]
    cases List.lookup p env <;> rfl
  | _ => rfl

theorem isAtom_eq {e e' : Expr} (h : e.fill env.consts = e'.fill env'.consts) :
    e.isAtom = e'.isAtom := by
  rw [← isAtom_fill env e, h, isAtom_fill]

/-- A reference or a value is filled to what it is evaluated to. -/
theorem node_atom (ev : Evaluator) (a : Site → Apply) (env : Env) (s : Site) {e : Expr}
    (he : e.isAtom = true) :
    (∃ l v, e.fill env.consts = .constant l v.bare ∧ ev.node a env s e = .ok v) ∨
    ∃ l p, e.fill env.consts = .parameter l p ∧
      ev.node a env s e = .error (.unboundParameter p.name) := by
  cases e with
  | constant l v => exact .inl ⟨l.bare, v, rfl, rfl⟩
  | parameter l p =>
    simp only [Expr.fill, Env.consts, node, Env.lookup]
    cases List.lookup p env with
    | none => exact .inr ⟨l.bare, p, rfl, rfl⟩
    | some v => exact .inl ⟨_, v, rfl, rfl⟩
  | _ => cases he

theorem atom_approx {e e' : Expr} (he : e.isAtom = true)
    (h : e.fill env.consts = e'.fill env'.consts) :
    ev.Related .approx a env b env' e e' := by
  intro s s'
  have he' : e'.isAtom = true := (isAtom_eq h).symm.trans he
  obtain ⟨l, v, hv, hnode⟩ | ⟨l, p, hp, hnode⟩ := ev.node_atom a env s he
  · obtain ⟨l', w, hw, hnode'⟩ | ⟨l', q, hq, -⟩ := ev.node_atom b env' s' he'
    · rw [hv, hw, Expr.constant.injEq] at h
      rw [hnode, hnode']
      exact h.2
    · rw [hv, hq] at h
      cases h
  · obtain ⟨l', w, hw, -⟩ | ⟨l', q, hq, hnode'⟩ := ev.node_atom b env' s' he'
    · rw [hp, hw] at h
      cases h
    · rw [hp, hq] at h
      cases h
      rw [hnode, hnode']
      exact rfl

mutual

-- Induction on the first tree. The second has the same head, unless one of them is a reference and
-- the other the constant that stands for it.
theorem node_approx (hev : ev.Pure) (hab : ∀ s t, Apply.Approx (a s) (b t)) :
    ∀ (e e' : Expr), e.fill env.consts = e'.fill env'.consts →
      ev.Related .approx a env b env' e e'
  | .parameter .., _, h | .constant .., _, h => atom_approx rfl h
  | .binary l o x y, e', h => by
    cases e' with
    | binary l' o' x' y' =>
      simp only [Expr.fill, Expr.binary.injEq] at h
      obtain ⟨-, rfl, hx, hy⟩ := h
      exact binary_related (node_approx hev hab x x' hx) (node_approx hev hab y y' hy)
    | parameter => cases isAtom_eq h
    | _ => cases h
  | .unary l o x, e', h => by
    cases e' with
    | unary l' o' x' =>
      simp only [Expr.fill, Expr.unary.injEq] at h
      obtain ⟨-, rfl, hx⟩ := h
      exact unary_related (node_approx hev hab x x' hx)
    | parameter => cases isAtom_eq h
    | _ => cases h
  | .member l t r, e', h => by
    cases e' with
    | member l' t' r' =>
      simp only [Expr.fill, Expr.member.injEq] at h
      obtain ⟨-, ht, rfl⟩ := h
      exact member_related (node_approx hev hab t t' ht)
    | parameter => cases isAtom_eq h
    | _ => cases h
  | .static l r, e', h => by
    cases e' with
    | static l' r' =>
      simp only [Expr.fill, Expr.static.injEq] at h
      obtain ⟨-, rfl⟩ := h
      exact fun _ _ => approx_ofMember rfl
    | parameter => cases isAtom_eq h
    | _ => cases h
  | .call l t m as, e', h => by
    cases e' with
    | call l' t' m' as' =>
      simp only [Expr.fill, Expr.call.injEq] at h
      obtain ⟨-, ht, rfl, has⟩ := h
      exact call_related hev hab (optional_approx hev hab t t' ht) (list_approx hev hab as as' has)
    | parameter => cases isAtom_eq h
    | _ => cases h
  | .conditional l t x y, e', h => by
    cases e' with
    | conditional l' t' x' y' =>
      simp only [Expr.fill, Expr.conditional.injEq] at h
      obtain ⟨-, ht, hx, hy⟩ := h
      exact conditional_related (node_approx hev hab t t' ht) (node_approx hev hab x x' hx)
        (node_approx hev hab y y' hy)
    | parameter => cases isAtom_eq h
    | _ => cases h
  | .default l, e', h => by
    cases e' with
    | default l' =>
      simp only [Expr.fill, Expr.default.injEq, Label.bare, Label.mk.injEq, true_and] at h
      intro s s'
      simp only [node, h]
      exact rfl
    | parameter => cases isAtom_eq h
    | _ => cases h
  | .dynamic l binder as, e', h => by
    cases e' with
    | dynamic l' binder' as' =>
      simp only [Expr.fill, Expr.dynamic.injEq] at h
      obtain ⟨-, rfl, has⟩ := h
      exact dynamic_related hev hab (list_approx hev hab as as' has)
    | parameter => cases isAtom_eq h
    | _ => cases h
  | .lambda l ps x, e', h => by
    cases e' with
    | lambda l' ps' x' =>
      simp only [Expr.fill, Expr.lambda.injEq] at h
      obtain ⟨-, rfl, hx⟩ := h
      intro s s'
      refine congrArg (Value.lambda ps) ?_
      exact (Env.bare_close s env ⟨ps, x⟩).trans (hx.trans (Env.bare_close s' env' ⟨ps, x'⟩).symm)
    | parameter => cases isAtom_eq h
    | _ => cases h

theorem optional_approx (hev : ev.Pure) (hab : ∀ s t, Apply.Approx (a s) (b t)) :
    ∀ (t t' : Option Expr), Expr.fillOption env.consts t = Expr.fillOption env'.consts t' →
      List.Forall₂ (ev.Related .approx a env b env') t.toList t'.toList
  | none, none, _ => .nil
  | none, some _, h => by cases h
  | some _, none, h => by cases h
  | some x, some x', h => .cons (node_approx hev hab x x' (Option.some.inj h)) .nil

theorem list_approx (hev : ev.Pure) (hab : ∀ s t, Apply.Approx (a s) (b t)) :
    ∀ (as as' : List Expr), Expr.fillList env.consts as = Expr.fillList env'.consts as' →
      List.Forall₂ (ev.Related .approx a env b env') as as'
  | [], [], _ => .nil
  | [], _ :: _, h => by cases h
  | _ :: _, [], h => by cases h
  | x :: xs, x' :: xs', h => by
    simp only [Expr.fillList, List.cons.injEq] at h
    exact .cons (node_approx hev hab x x' h.1) (list_approx hev hab xs xs' h.2)

end

theorem apply_succ {n : Nat} {s : Site} {l : Lambda} {vs : List Value}
    (h : l.params.length = vs.length) :
    ev.apply (n + 1) s l vs = ev.eval n s (Env.extend [] (l.params.zip vs)) l.body :=
  if_neg (not_not.2 h)

theorem apply_approx (hev : ev.Pure) {n : Nat} :
    ∀ {m : Nat}, n ≤ m → ∀ s t, Apply.Approx (ev.apply n s) (ev.apply m t) := by
  induction n with
  | zero =>
    intro m _ s t l k vs ws _ _
    trivial
  | succ n ih =>
    intro m hm s t l k vs ws hl hvs
    obtain ⟨m, rfl⟩ : ∃ m', m = m' + 1 := ⟨m - 1, by omega⟩
    obtain ⟨ps, body⟩ := l
    obtain ⟨qs, body'⟩ := k
    simp only [Lambda.bare, Lambda.mk.injEq] at hl
    obtain ⟨rfl, hbody⟩ := hl
    have hlen : vs.length = ws.length := by simpa using congrArg List.length hvs
    simp only [apply, hlen]
    split
    · exact rfl
    · refine node_approx hev (ih (Nat.le_of_succ_le_succ hm)) body body' ?_ s t
      have henv : (Env.extend [] (ps.zip vs)).consts = (Env.extend [] (ps.zip ws)).consts :=
        Env.consts_extend hvs []
      rw [henv, ← Expr.bare_fill, hbody, Expr.bare_fill]

theorem eval_approx (hev : ev.Pure) {n m : Nat} (hnm : n ≤ m) {e e' : Expr}
    (h : e.fill env.consts = e'.fill env'.consts) (s s' : Site) :
    (ev.eval n s env e).Approx Value.Like (ev.eval m s' env' e') :=
  node_approx hev (apply_approx hev hnm) e e' h s s'

/-! ## The value of a tree -/

/-- The tree has the value `v`: with room enough, and wherever it is evaluated, evaluation ends with
`v` up to the identity of nodes. -/
def Yields (ev : Evaluator) (env : Env) (e : Expr) (v : Value) : Prop :=
  ∃ bound, ∀ fuel, bound ≤ fuel → ∀ site, ∃ w, ev.eval fuel site env e = .ok w ∧ v.Like w

theorem yields_of_eval (hev : ev.Pure) {n : Nat} {s : Site} {e : Expr} {v : Value}
    (h : ev.eval n s env e = .ok v) : ev.Yields env e v :=
  ⟨n, fun _ hm site => (eval_approx hev hm rfl s site).leads v h⟩

theorem Yields.congr (hev : ev.Pure) {e e' : Expr} {v w : Value} (h : ev.Yields env e v)
    (hfill : e.fill env.consts = e'.fill env'.consts) (hvw : v.Like w) :
    ev.Yields env' e' w := by
  obtain ⟨n, hn⟩ := h
  refine ⟨n, fun m hm site => ?_⟩
  obtain ⟨u, hu, hvu⟩ := hn m hm site
  obtain ⟨u', hu', huu'⟩ := (eval_approx hev (Nat.le_refl m) hfill site site).leads u hu
  exact ⟨u', hu', hvw.symm.trans (hvu.trans huu')⟩

/-! ## Room enough -/

variable {η : Env}

/-- A value that is there with room enough is followed from some bound on. -/
theorem exists_follows (hev : ev.Pure) {n : Nat} {e e' : Expr}
    (h : ∀ s v, ev.eval n s η e = .ok v → ev.Yields env e' v) :
    ∃ bound, ∀ m, bound ≤ m → ev.Follows (ev.apply n) η (ev.apply m) env e e' := by
  by_cases hv : ∃ s v, ev.eval n s η e = .ok v
  · obtain ⟨s, v, hv⟩ := hv
    obtain ⟨bound, hbound⟩ := h s v hv
    refine ⟨bound, fun m hm t t' u hu => ?_⟩
    obtain ⟨w, hw, hvw⟩ := hbound m hm t'
    obtain ⟨u', hu', hvu⟩ := (eval_approx hev (Nat.le_refl n) rfl t s).leads u hu
    cases hv.symm.trans hu'
    exact ⟨w, hw, hvu.trans hvw⟩
  · refine ⟨0, fun m _ t t' u hu => ?_⟩
    exact absurd ⟨t, u, hu⟩ hv

theorem exists_follows_all (hev : ev.Pure) {n : Nat} {cs cs' : List Expr}
    (h : List.Forall₂ (fun e e' => ∀ s v, ev.eval n s η e = .ok v → ev.Yields env e' v) cs cs') :
    ∃ bound, ∀ m, bound ≤ m →
      List.Forall₂ (ev.Follows (ev.apply n) η (ev.apply m) env) cs cs' := by
  induction h with
  | nil => exact ⟨0, fun _ _ => .nil⟩
  | cons he _ ih =>
    obtain ⟨bound, hbound⟩ := exists_follows hev he
    obtain ⟨bounds, hbounds⟩ := ih
    refine ⟨max bound bounds, fun m hm => .cons (hbound m ?_) (hbounds m ?_)⟩
    · exact Nat.le_trans (Nat.le_max_left _ _) hm
    · exact Nat.le_trans (Nat.le_max_right _ _) hm

theorem yields_of_follows (hev : ev.Pure) {n m : Nat} {e e' : Expr}
    (h : ev.Follows (ev.apply n) η (ev.apply m) env e e') {s : Site} {v : Value}
    (hv : ev.eval n s η e = .ok v) : ev.Yields env e' v := by
  obtain ⟨w, hw, hvw⟩ := h s (.root 0) v hv
  exact (yields_of_eval hev hw).congr hev rfl hvw.symm

end Evaluator

end PredicateTree
