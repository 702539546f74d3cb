import PredicateTree.Evaluator
import PredicateTree.Proofs.Evaluator.Operators
import PredicateTree.Proofs.Outcome

/-!
# Proofs.Evaluator.Likeness

Values, calls and environments that look alike.

* `HostFn.Pure`: a host function that sees the structure of its arguments and not the identity of
  their nodes, and that cannot tell how far it may still call. Hosts have no other functions: sites
  and bounds are devices of the evaluator.
* `Env.consts`: the bindings in sight as constants, as a lambda takes them along.
* `Value.approx_expectBool`, `BinaryOp.approx_compute`, `approx_ofMember`: what the evaluator does
  with values gives results that look alike when the values do.
* `pure_builtin`: the methods that an evaluator has without a host are pure.
-/

namespace PredicateTree

/-- Equal up to the identity of nodes. -/
abbrev Value.Like (v w : Value) : Prop := v.bare = w.bare

abbrev Value.LikeAll (vs ws : List Value) : Prop := vs.map Value.bare = ws.map Value.bare

def Apply.Approx (a b : Apply) : Prop :=
  ∀ (l m : Lambda) (vs ws : List Value), l.bare = m.bare → Value.LikeAll vs ws →
    (a l vs).Approx Value.Like (b m ws)

/-- A function of values as values compare: what looks alike gives results that look alike, and an
answer stays when calls that had not ended come to one. -/
def HostFn.Pure (f : HostFn) : Prop :=
  ∀ (a b : Apply) (vs ws : List Value), Apply.Approx a b → Value.LikeAll vs ws →
    (f a vs).Approx Value.Like (f b ws)

/-- All functions of the host that can be reached are pure. -/
structure Evaluator.Pure (ev : Evaluator) : Prop where
  methods : ∀ m f, ev.method? m = some f → HostFn.Pure f
  binders : ∀ name f, ev.binder? name = some f → HostFn.Pure f

/-! ## Environments put into trees -/

namespace Env

/-- The constant that stands for a variable in the body of a lambda closed here. -/
def consts (env : Env) (p : Param) : Option Expr :=
  (List.lookup p env).map fun v => .constant ⟨.root 0, p.ty⟩ v.bare

theorem map_get?_constantsFrom (site : Site) (env : Env) (p : Param) :
    ∀ i, (Substitution.get? (env.constantsFrom site i) p).map Expr.bare = env.consts p := by
  induction env with
  | nil => intro i; rfl
  | cons b env ih =>
    intro i
    obtain ⟨q, v⟩ := b
    have ih := ih (i + 1)
    simp only [constantsFrom, consts, Substitution.get?, List.lookup_cons] at ih ⊢
    cases hq : p == q with
    | true =>
      obtain rfl := beq_iff_eq.1 hq
      rfl
    | false => exact ih

/-- Only the structure of the values counts. -/
theorem consts_eq {env env' : Env}
    (h : env.map (fun b => (b.1, b.2.bare)) = env'.map fun b => (b.1, b.2.bare)) :
    env.consts = env'.consts := by
  funext p
  have lookup_map : ∀ env : Env,
      (List.lookup p env).map Value.bare = List.lookup p (env.map fun b => (b.1, b.2.bare)) := by
    intro env
    induction env with
    | nil => rfl
    | cons b env ih =>
      obtain ⟨q, v⟩ := b
      simp only [List.lookup_cons, List.map_cons]
      cases p == q with
      | true => rfl
      | false => exact ih
  have hp : (List.lookup p env).map Value.bare = (List.lookup p env').map Value.bare := by
    rw [lookup_map, lookup_map, h]
  simpa only [consts, Option.map_map, Function.comp_def] using
    congrArg (Option.map fun v => Expr.constant ⟨.root 0, p.ty⟩ v) hp

theorem consts_extend {ps : List Param} {vs ws : List Value} (h : Value.LikeAll vs ws) (env : Env) :
    (env ++ Env.extend [] (ps.zip vs)).consts = (env ++ Env.extend [] (ps.zip ws)).consts := by
  have map_zip : ∀ us : List Value,
      (ps.zip us).map (fun b => (b.1, b.2.bare)) = ps.zip (us.map Value.bare) := by
    intro us
    rw [List.zip_map_right]
    rfl
  apply consts_eq
  simp only [extend, List.append_nil, List.map_append, List.map_reverse, map_zip]
  rw [h]

/-- Closing a lambda puts the bindings into its body. -/
theorem bare_close (site : Site) (env : Env) (l : Lambda) :
    (l.close site env).body.bare = l.body.fill env.consts := by
  show (l.body.substitute _ _).bare = _
  rw [Expr.bare_substitute]
  congr 1
  funext p
  exact map_get?_constantsFrom _ env p 0

/-- The bindings in front count, and after them those behind. -/
theorem fill_append (env more : Env) (e : Expr) :
    e.fill (env ++ more).consts = (e.fill env.consts).fill more.consts := by
  rw [Expr.fill_fill]
  congr 1
  funext p
  simp only [consts, List.lookup_append]
  cases List.lookup p env with
  | none => simp
  | some v => simp [Expr.fill, Label.bare]

end Env

/-! ## Operators and members -/

theorem Value.approx_expectBool {v w : Value} (h : v.Like w) :
    (Outcome.ofExcept v.expectBool).Approx Eq (Outcome.ofExcept w.expectBool) := by
  rw [← v.expectBool_bare, h, w.expectBool_bare]
  exact Outcome.Approx.refl fun _ => rfl

theorem Value.approx_bool {v w : Value} (h : v.Like w) :
    (do return Value.bool (← Outcome.ofExcept v.expectBool)).Approx Value.Like
      (do return Value.bool (← Outcome.ofExcept w.expectBool)) :=
  (Value.approx_expectBool h).bind fun b c hbc => by
    subst hbc
    exact rfl

theorem BinaryOp.approx_compute (op : BinaryOp) {v v' w w' : Value} (hv : v.Like v')
    (hw : w.Like w') :
    (Outcome.ofExcept (op.compute v w)).Approx Value.Like
      (Outcome.ofExcept (op.compute v' w')) := by
  apply Outcome.Approx.ofExcept
  rw [← op.compute_bare, ← op.compute_bare, hv, hw]

theorem UnaryOp.approx_compute (op : UnaryOp) {v w : Value} (h : v.Like w) :
    (Outcome.ofExcept (op.compute v)).Approx Value.Like (Outcome.ofExcept (op.compute w)) := by
  apply Outcome.Approx.ofExcept
  rw [← op.compute_bare, ← op.compute_bare, h]

/-- Of two values that are alike both can be called or neither, and then with the same complaint. -/
theorem Value.Like.asLambda? {v w : Value} (h : v.Like w) :
    (v.asLambda? = none ∧ w.asLambda? = none ∧ v.mismatch "lambda" = w.mismatch "lambda") ∨
    ∃ l m, v.asLambda? = some l ∧ w.asLambda? = some m ∧ l.bare = m.bare := by
  have hl : v.asLambda?.map Lambda.bare = w.asLambda?.map Lambda.bare := by
    rw [← v.asLambda?_bare, h, w.asLambda?_bare]
  cases hv : v.asLambda? with
  | none =>
    refine .inl ⟨rfl, by simpa [hv] using hl.symm, ?_⟩
    rw [Value.mismatch, Value.mismatch, ← v.kindName_bare, h, w.kindName_bare]
  | some l =>
    rw [hv] at hl
    obtain ⟨m, hw, hm⟩ := Option.map_eq_some_iff.1 hl.symm
    exact .inr ⟨l, m, rfl, hw, hm.symm⟩

namespace Evaluator

theorem node_expandable {ev : Evaluator} {apply : Site → Apply} {env : Env} {site : Site}
    {l : Label} {t : Option Expr} {m : Method} {callee : Expr} {as : List Expr}
    (hm : m.isExpandable = true) :
    ev.node apply env site (.call l t m (callee :: as)) =
      (ev.node apply env (site.child 1) callee >>= fun f =>
        match f.asLambda? with
        | none => .error (f.mismatch "lambda")
        | some k => ev.list apply env site 2 as >>= apply (site.child 0) k) := by
  rw [node]
  exact if_pos hm

theorem node_method {ev : Evaluator} {apply : Site → Apply} {env : Env} {site : Site}
    {l : Label} {t : Option Expr} {m : Method} {as : List Expr} (hm : m.isExpandable = false) :
    ev.node apply env site (.call l t m as) =
      match ev.method? m with
      | none => .error (.unknownMethod m.declaringType m.name)
      | some f =>
        ev.optional apply env (site.child 1) t >>= fun vs =>
          ev.list apply env site 2 as >>= fun ws => f (apply (site.child 0)) (vs ++ ws) := by
  rw [node.eq_def]
  exact if_neg (by simp [hm])

theorem approx_ofMember {x y : Except MemberError Value} (h : x.map Value.bare = y.map Value.bare) :
    (ofMember x).Approx Value.Like (ofMember y) := by
  cases x <;> cases y <;> simp_all [Except.map, ofMember, Outcome.Approx, Value.Like]

/-! ## The built-in methods -/

/-- What holds of every method of strings with an answer of its kind, and of `abs`, holds of every
method that an evaluator has without a host. -/
theorem builtin_induction {statics : Statics} {P : HostFn → Prop}
    (comparing : ∀ p : String → String → Bool, P (Methods.onStrings fun s t => .bool (p s t)))
    (measuring : ∀ n : String → Int64, P (Methods.onString fun s => .int (n s)))
    (testing : ∀ p : String → Bool, P (Methods.onString fun s => .bool (p s)))
    (changing : ∀ g : String → String, P (Methods.onString fun s => .str (g s)))
    (abs : P Methods.abs) (m : Method) (f : HostFn)
    (h : Evaluator.method? { statics } m = some f) : P f := by
  have hf : ((m.declaringType, m.name), f) ∈ Methods.builtin := mem_of_lookup h
  simp only [Methods.builtin, List.mem_cons, Prod.mk.injEq, List.not_mem_nil, or_false] at hf
  obtain ⟨-, rfl⟩ | ⟨-, rfl⟩ | ⟨-, rfl⟩ | ⟨-, rfl⟩ | ⟨-, rfl⟩ | ⟨-, rfl⟩ | ⟨-, rfl⟩ := hf
  · exact comparing _
  · exact comparing _
  · exact comparing _
  · exact measuring _
  · exact testing _
  · exact changing _
  · exact abs

theorem pure_of_bare {f : HostFn} (h : ∀ a b vs, f a vs = f b (vs.map Value.bare)) :
    HostFn.Pure f := by
  intro a b vs ws _ hvs
  rw [h a b vs, hvs, ← h b b ws]
  exact Outcome.Approx.refl fun _ => rfl

theorem pure_onString (f : String → Value) : HostFn.Pure (Methods.onString f) := by
  refine pure_of_bare fun a b vs => ?_
  match vs with
  | [] => rfl
  | [v] => cases v <;> rfl
  | _ :: _ :: vs => simp [Methods.onString]

theorem pure_onStrings (f : String → String → Value) : HostFn.Pure (Methods.onStrings f) := by
  refine pure_of_bare fun a b vs => ?_
  match vs with
  | [] => rfl
  | [v] => cases v <;> rfl
  | [v, w] => cases v <;> cases w <;> rfl
  | _ :: _ :: _ :: vs => simp [Methods.onStrings]

theorem pure_abs : HostFn.Pure Methods.abs := by
  refine pure_of_bare fun a b vs => ?_
  match vs with
  | [] => rfl
  | [v] => cases v <;> rfl
  | _ :: _ :: vs => simp [Methods.abs]

theorem pure_builtin (statics : Statics) : Evaluator.Pure { statics } where
  methods := builtin_induction (fun _ => pure_onStrings _) (fun _ => pure_onString _)
    (fun _ => pure_onString _) (fun _ => pure_onString _) pure_abs
  binders name f h := by cases h

end Evaluator

end PredicateTree
