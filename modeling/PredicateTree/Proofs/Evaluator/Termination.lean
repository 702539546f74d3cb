import PredicateTree.Proofs.Evaluator.Chains
import PredicateTree.Proofs.Evaluator.Values

/-!
# Proofs.Evaluator.Termination

When evaluation comes to an end. Only calls of lambdas take fuel, and only expandable calls and host
functions call lambdas.

* `Evaluator.Idle`: host functions that call no lambda without end.
* `Expr.callees`: what is called by the expandable calls of a tree.
* `Statics.Grounded`: every call says which lambda it calls, by writing it in place or by a chain of
  members, and there is no endless sequence of bodies, each called in the one before.
* `node_ends`: one tree is evaluated to the end if the lambdas that it calls are.
* `eval_ends`: with fuel enough a grounded tree is evaluated to the end. The induction follows
  `Grounded`; there is fuel enough for all environments, since a body with the bindings in sight put
  in evaluates like the body below these bindings.
-/

namespace PredicateTree

/-! ## What is called -/

namespace Expr

mutual

/-- The first arguments of the expandable calls of a tree, without those in the bodies of lambdas,
which are not evaluated with it. -/
def callees : Expr → List Expr
  | .binary _ _ a b => a.callees ++ b.callees
  | .unary _ _ a => a.callees
  | .member _ t _ => t.callees
  | .call _ t m as =>
    (if m.isExpandable then as.take 1 else []) ++ (calleesOption t ++ calleesList as)
  | .conditional _ a b c => a.callees ++ (b.callees ++ c.callees)
  | .dynamic _ _ as => calleesList as
  | .static .. | .constant .. | .parameter .. | .default _ | .lambda .. => []

def calleesOption : Option Expr → List Expr
  | none => []
  | some a => a.callees

def calleesList : List Expr → List Expr
  | [] => []
  | a :: as => a.callees ++ calleesList as

end

/-- A lambda that is written in place, or a chain of members. -/
def Names (e : Expr) : Prop := e.isLambda = true ∨ ∃ c, e.chain = .ok c

end Expr

namespace Statics

variable {s : Statics}

/-- A call of the first tree runs the second one, the body of the lambda that is named. -/
inductive Runs (s : Statics) : Expr → Expr → Prop where
  | written {l : Label} {ps : List Param} {b : Expr} : s.Runs (.lambda l ps b) b
  | read {e : Expr} {c : MemberChain} {v : Value} {k : Lambda} : e.chain = .ok c →
      s.read c = .ok v → v.asLambda? = some k → s.Runs e k.body

inductive Grounded (s : Statics) : Expr → Prop where
  | of_bodies {e : Expr} : (∀ c ∈ e.callees, c.Names) →
      (∀ c ∈ e.callees, ∀ b, s.Runs c b → s.Grounded b) → s.Grounded e

theorem Runs.unique {e b b' : Expr} (h : s.Runs e b) (h' : s.Runs e b') : b = b' := by
  cases h with
  | written =>
    cases h' with
    | written => rfl
    | read hchain => cases hchain
  | read hchain hread hk =>
    cases h' with
    | written => cases hchain
    | read hchain' hread' hk' =>
      obtain rfl := Except.ok.inj (hchain.symm.trans hchain')
      obtain rfl := Except.ok.inj (hread.symm.trans hread')
      rw [Option.some.inj (hk.symm.trans hk')]

end Statics

/-- The function comes to an end, whatever becomes of the lambdas that it calls. -/
def HostFn.Idle (f : HostFn) : Prop := ∀ a vs, f a vs ≠ .unfinished

structure Evaluator.Idle (ev : Evaluator) : Prop where
  methods : ∀ m f, ev.method? m = some f → HostFn.Idle f
  binders : ∀ name f, ev.binder? name = some f → HostFn.Idle f

namespace Evaluator

variable {ev : Evaluator} {apply : Site → Apply} {env : Env}

open Outcome (bind_ne_unfinished error_ne_unfinished ofExcept_ne_unfinished ok_ne_unfinished)

theorem ofMember_ne_unfinished (x : Except MemberError Value) : ofMember x ≠ .unfinished := by
  cases x with
  | ok v => exact ok_ne_unfinished v
  | error e => exact error_ne_unfinished _

/-- The lambdas that these trees come to are called to the end. -/
def CallsEnd (ev : Evaluator) (apply : Site → Apply) (env : Env) (cs : List Expr) : Prop :=
  ∀ c ∈ cs, ∀ s v k, ev.node apply env s c = .ok v → v.asLambda? = some k →
    ∀ t vs, apply t k vs ≠ .unfinished

theorem CallsEnd.of_subset {cs ds : List Expr} (h : ev.CallsEnd apply env cs) (hds : ds ⊆ cs) :
    ev.CallsEnd apply env ds := fun c hc => h c (hds hc)

theorem method_ends (hev : ev.Idle) {s : Site} {l : Label} {t : Option Expr} {m : Method}
    {as : List Expr} (hm : m.isExpandable = false)
    (ht : ev.optional apply env (s.child 1) t ≠ .unfinished)
    (has : ev.list apply env s 2 as ≠ .unfinished) :
    ev.node apply env s (.call l t m as) ≠ .unfinished := by
  rw [node_method hm]
  cases hf : ev.method? m with
  | none => exact error_ne_unfinished _
  | some f =>
    exact bind_ne_unfinished ht fun _ _ => bind_ne_unfinished has fun _ _ => hev.methods m f hf _ _

mutual

theorem node_ends (hev : ev.Idle) :
    ∀ (e : Expr) (s : Site), ev.CallsEnd apply env e.callees → ev.node apply env s e ≠ .unfinished
  | .binary l o a b, s, h => by
    have ha := node_ends hev a (s.child 0) (h.of_subset (List.subset_append_left _ _))
    have hb := node_ends hev b (s.child 1) (h.of_subset (List.subset_append_right _ _))
    cases o with
    | and =>
      simp only [node]
      refine bind_ne_unfinished ha fun v _ =>
        bind_ne_unfinished (ofExcept_ne_unfinished _) fun c _ => ?_
      cases c with
      | true =>
        exact bind_ne_unfinished hb fun _ _ =>
          bind_ne_unfinished (ofExcept_ne_unfinished _) fun _ _ => ok_ne_unfinished _
      | false => exact ok_ne_unfinished _
    | or =>
      simp only [node]
      refine bind_ne_unfinished ha fun v _ =>
        bind_ne_unfinished (ofExcept_ne_unfinished _) fun c _ => ?_
      cases c with
      | true => exact ok_ne_unfinished _
      | false =>
        exact bind_ne_unfinished hb fun _ _ =>
          bind_ne_unfinished (ofExcept_ne_unfinished _) fun _ _ => ok_ne_unfinished _
    | _ =>
      simp only [node]
      exact bind_ne_unfinished ha fun _ _ => bind_ne_unfinished hb fun _ _ =>
        ofExcept_ne_unfinished _
  | .unary l o a, s, h =>
    bind_ne_unfinished (node_ends hev a (s.child 0) h) fun _ _ => ofExcept_ne_unfinished _
  | .member l t r, s, h =>
    bind_ne_unfinished (node_ends hev t (s.child 0) h) fun _ _ => ofMember_ne_unfinished _
  | .static l r, s, _ => ofMember_ne_unfinished _
  | .call l t m [], s, h => by
    have hparts := h.of_subset (List.subset_append_right _ _)
    have ht := optional_ends hev t (s.child 1) (hparts.of_subset (List.subset_append_left _ _))
    cases hm : m.isExpandable with
    | false => exact method_ends hev hm ht (ok_ne_unfinished _)
    | true =>
      simp only [node, hm]
      exact error_ne_unfinished _
  | .call l t m (callee :: as), s, h => by
    have hparts := h.of_subset (List.subset_append_right _ _)
    have ht := optional_ends hev t (s.child 1) (hparts.of_subset (List.subset_append_left _ _))
    have hargs := hparts.of_subset (List.subset_append_right _ _)
    have hcallee := fun i => node_ends hev callee (s.child i)
      (hargs.of_subset (List.subset_append_left _ _))
    have has := fun i => list_ends hev as s i (hargs.of_subset (List.subset_append_right _ _))
    cases hm : m.isExpandable with
    | false =>
      exact method_ends hev hm ht <| bind_ne_unfinished (hcallee 2) fun _ _ =>
        bind_ne_unfinished (has 3) fun _ _ => ok_ne_unfinished _
    | true =>
      rw [node_expandable hm]
      refine bind_ne_unfinished (hcallee 1) fun v hv => ?_
      cases hk : v.asLambda? with
      | none => exact error_ne_unfinished _
      | some k =>
        have hmem : callee ∈ (Expr.call l t m (callee :: as)).callees := by
          simp [Expr.callees, hm]
        exact bind_ne_unfinished (has 2) fun vs _ => h callee hmem _ v k hv hk _ vs
  | .constant l v, s, _ => ok_ne_unfinished _
  | .parameter l p, s, _ => ofExcept_ne_unfinished _
  | .conditional l t a b, s, h => by
    have ht := node_ends hev t (s.child 0) (h.of_subset (List.subset_append_left _ _))
    have hbranches := h.of_subset (List.subset_append_right _ _)
    have ha := node_ends hev a (s.child 1) (hbranches.of_subset (List.subset_append_left _ _))
    have hb := node_ends hev b (s.child 2) (hbranches.of_subset (List.subset_append_right _ _))
    simp only [node]
    refine bind_ne_unfinished ht fun v _ =>
      bind_ne_unfinished (ofExcept_ne_unfinished _) fun c _ => ?_
    cases c with
    | true => exact ha
    | false => exact hb
  | .default l, s, _ => ok_ne_unfinished _
  | .dynamic l binder as, s, h => by
    have has := list_ends hev as s 1 h
    simp only [node]
    cases hf : ev.binder? binder with
    | none => exact error_ne_unfinished _
    | some f => exact bind_ne_unfinished has fun _ _ => hev.binders binder f hf _ _
  | .lambda l ps b, s, _ => ok_ne_unfinished _

theorem optional_ends (hev : ev.Idle) :
    ∀ (t : Option Expr) (s : Site), ev.CallsEnd apply env (Expr.calleesOption t) →
      ev.optional apply env s t ≠ .unfinished
  | none, _, _ => ok_ne_unfinished _
  | some a, s, h => bind_ne_unfinished (node_ends hev a s h) fun _ _ => ok_ne_unfinished _

theorem list_ends (hev : ev.Idle) :
    ∀ (as : List Expr) (s : Site) (i : Nat), ev.CallsEnd apply env (Expr.calleesList as) →
      ev.list apply env s i as ≠ .unfinished
  | [], _, _, _ => ok_ne_unfinished _
  | a :: as, s, i, h => by
    have ha := node_ends hev a (s.child i) (h.of_subset (List.subset_append_left _ _))
    have has := list_ends hev as s (i + 1) (h.of_subset (List.subset_append_right _ _))
    exact bind_ne_unfinished ha fun _ _ => bind_ne_unfinished has fun _ _ => ok_ne_unfinished _

end

/-- A lambda is called to the end if its body is evaluated to the end with one unit of fuel less. -/
theorem apply_ends {k : Lambda} {fuel : Nat} (h : ∀ η s, ev.eval fuel s η k.body ≠ .unfinished)
    (s : Site) (vs : List Value) : ev.apply (fuel + 1) s k vs ≠ .unfinished := by
  rw [Evaluator.apply]
  split
  · exact error_ne_unfinished _
  · exact h _ s

/-- The lambda that is named has the body that is named, or this body with bindings put in. -/
theorem body_ends (hev : ev.Pure) {fuel : Nat} {c : Expr} (hnames : c.Names)
    (hbody : ∀ b, ev.statics.Runs c b → ∀ η t, ev.eval fuel t η b ≠ .unfinished)
    {s : Site} {v : Value} {k : Lambda} (hv : ev.node apply env s c = .ok v)
    (hk : v.asLambda? = some k) (η : Env) (t : Site) : ev.eval fuel t η k.body ≠ .unfinished := by
  rcases hnames with hlambda | ⟨d, hd⟩
  · cases c with
    | lambda l ps b =>
      cases hv
      cases hk
      have hclosed : b.fill (env ++ η).consts =
          (Lambda.close s env ⟨ps, b⟩).body.fill η.consts := by
        rw [Env.fill_append, ← Env.bare_close s env ⟨ps, b⟩, Expr.bare_fill]
      exact (eval_approx hev (Nat.le_refl fuel) hclosed t t).ended (hbody b .written _ t)
    | _ => cases hlambda
  · rw [node_of_chain s hd] at hv
    cases hread : ev.statics.read d with
    | ok w =>
      rw [hread] at hv
      cases hv
      exact hbody k.body (.read hd hread hk) η t
    | error e =>
      rw [hread] at hv
      cases hv

theorem eval_ends (hidle : ev.Idle) (hpure : ev.Pure) {e : Expr} (h : ev.statics.Grounded e) :
    ∃ bound, ∀ fuel, bound ≤ fuel → ∀ env s, ev.eval fuel s env e ≠ .unfinished := by
  induction h with
  | @of_bodies e hnames _ ih =>
    have hbodies : ∀ c ∈ e.callees, ∃ bound, ∀ fuel, bound ≤ fuel →
        ∀ b, ev.statics.Runs c b → ∀ env s, ev.eval fuel s env b ≠ .unfinished := by
      intro c hc
      by_cases hruns : ∃ b, ev.statics.Runs c b
      · obtain ⟨b, hb⟩ := hruns
        obtain ⟨bound, hbound⟩ := ih c hc b hb
        refine ⟨bound, fun fuel hfuel b' hb' => ?_⟩
        rw [hb'.unique hb]
        exact hbound fuel hfuel
      · exact ⟨0, fun _ _ b hb => absurd ⟨b, hb⟩ hruns⟩
    obtain ⟨bound, hbound⟩ := Outcome.exists_bound_forall_mem hbodies
    refine ⟨bound + 1, fun fuel hfuel env s => ?_⟩
    cases fuel with
    | zero => cases hfuel
    | succ fuel =>
      have hbody := hbound fuel (Nat.le_of_succ_le_succ hfuel)
      refine node_ends hidle e s fun c hc s' v k hv hk => ?_
      exact apply_ends (body_ends hpure (hnames c hc) (hbody c hc) hv hk)

/-! ## The built-in methods -/

theorem idle_onString (f : String → Value) : HostFn.Idle (Methods.onString f) := by
  intro a vs
  unfold Methods.onString
  split
  · exact ok_ne_unfinished _
  · exact error_ne_unfinished _
  · exact error_ne_unfinished _

theorem idle_onStrings (f : String → String → Value) : HostFn.Idle (Methods.onStrings f) := by
  intro a vs
  unfold Methods.onStrings
  split
  · exact ok_ne_unfinished _
  · exact error_ne_unfinished _
  · exact error_ne_unfinished _
  · exact error_ne_unfinished _

theorem idle_abs : HostFn.Idle Methods.abs := by
  intro a vs
  unfold Methods.abs
  split
  · exact ok_ne_unfinished _
  · exact error_ne_unfinished _
  · exact error_ne_unfinished _

theorem idle_builtin (statics : Statics) : Evaluator.Idle { statics } where
  methods := builtin_induction (fun _ => idle_onStrings _) (fun _ => idle_onString _)
    (fun _ => idle_onString _) (fun _ => idle_onString _) idle_abs
  binders name f h := by cases h

end Evaluator

end PredicateTree
