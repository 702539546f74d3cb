import PredicateTree.Proofs.Expansion.Simulation
import PredicateTree.Proofs.Report
import PredicateTree.Stages

/-!
# Proofs.Expansion.Meaning

A tree means the same before and after expansion, as far as it does.

* `yields_expand`: without lambda nodes in the tree and in the rule bodies inlined from it, the
  expanded tree has the value of the tree, in every environment and for all pure host functions.
* `evaluated_expanded`: with lambda nodes, the expanded predicate of a document has the value of
  the predicate as written if it is `Clear`. The stage that evaluates the document prints that value.
* `evaluated_nested_ne`: without that condition the value may change. A rule that calls a lambda of
  its own gives another value once a call of the rule stands in an argument of the same rule.
-/

namespace PredicateTree

/-! ## First-order trees -/

abbrev Expr.FirstOrder (e : Expr) : Prop := e.All fun a => a.isLambda = false

namespace Expr.FirstOrder

theorem clear {e : Expr} (h : e.FirstOrder) {Γ : List (List Param)} (hΓ : Γ.length ≤ 1) :
    e.Clear Γ := by
  induction e using Expr.byChildren with
  | node e ih =>
    obtain ⟨he, hparts⟩ := (Expr.all_iff e).1 h
    refine (Expr.clear_iff e).2 ⟨⟨fun c hc => ?_, ?_⟩, fun c hc => ?_⟩
    · exact ((Expr.all_iff c).1 (hparts c (Expr.mem_children_of_mem_operands hc))).1
    · cases e with
      | parameter l p => exact Nat.le_trans List.countP_le_length hΓ
      | _ => trivial
    · rw [Expr.layers_eq he]
      exact ih c hc (hparts c hc)

end Expr.FirstOrder

theorem Expands.firstOrder {r : Resolver} {epoch : Nat} {e e' : Expr}
    (h : Expands r epoch [] e e') (he : e.FirstOrder)
    (hl : ∀ l, r.Inlines e l → l.body.FirstOrder) : e'.FirstOrder := by
  refine h.all (fun l p _ => rfl) (fun σ e cs site he _ _ _ => ?_) he hl
    (fun p a hp => by cases hp)
  obtain ⟨s, hs⟩ := e.orNew_eq_withChildren cs site
  rw [hs, Expr.isLambda_withChildren]
  exact he

/-- The scope of an environment, all of whose variables are bound at once. -/
def Scope.ofEnv (env : Env) : Scope where
  layers := [env.map Prod.fst]
  env := env
  covered _ hb := ⟨_, List.mem_singleton.2 rfl, List.mem_map_of_mem hb⟩

/-- Expansion preserves evaluation on first-order trees. -/
theorem yields_expand {ev : Evaluator} (hev : ev.Pure) {x : Expander}
    (hx : x.resolver = ev.statics.resolver) {t t' : Expr} (ht : t.FirstOrder)
    (hrules : ∀ l, ev.statics.resolver.Inlines t l → l.body.FirstOrder) {fuel : Nat} {site : Site}
    (hexpand : (x.expand fuel site t).outcome = .ok t') {n : Nat} {s : Site} {env : Env} {v : Value}
    (hv : ev.eval n s env t = .ok v) : ev.Yields env t' v := by
  have hexpands := Expander.expands_of_expand hexpand
  rw [hx] at hexpands
  have ht' : t'.FirstOrder := hexpands.firstOrder ht hrules
  have hagrees : ev.Agrees [] env (.ofEnv env) := .start (.ofEnv env)
  have hstands := hexpands.stands hev _ env hagrees (ht'.clear (Nat.le_refl 1)) n s v hv
  exact hstands.yields ((Expr.all_iff t').1 ht').1

namespace Applied

/-- A binder of the host that calls what it is given twice. -/
def twice : HostFn := fun apply args =>
  match args with
  | [f, v] =>
    match f.asLambda? with
    | some l => apply l [v] >>= fun w => apply l [w]
    | none => .error (f.mismatch "lambda")
  | args => .error (.arity 2 args.length)

theorem pure_twice : HostFn.Pure twice := by
  intro a b vs ws hab hvs
  have hlen : vs.length = ws.length := by simpa using congrArg List.length hvs
  match vs, ws with
  | [f, v], [g, w] =>
    simp only [Value.LikeAll, List.map_cons, List.cons.injEq] at hvs
    obtain ⟨hfg, hvw, -⟩ := hvs
    obtain ⟨hf, hg, he⟩ | ⟨k, l, hf, hg, hkl⟩ := Value.Like.asLambda? hfg
    · simp only [twice, hf, hg]
      exact he
    · simp only [twice, hf, hg]
      refine (hab k l [v] [w] hkl (by simp [Value.LikeAll, hvw])).bind fun u u' hu => ?_
      exact hab k l [u] [u'] hkl (by simpa [Value.LikeAll] using hu)
  | [], [] => rfl
  | [_], [_] => rfl
  | _ :: _ :: _ :: vs, _ :: _ :: _ :: ws =>
    simp only [List.length_cons] at hlen
    simp only [twice, List.length_cons, hlen]
    exact rfl
  | [], _ :: _ | _ :: _, [] | [_], _ :: _ :: _ | _ :: _ :: _, [_] | [_, _], _ :: _ :: _ :: _
  | _ :: _ :: _ :: _, [_, _] => simp at hlen

def place (i : Nat) : Site := (Site.root 0).child i

def f : Param := ⟨place 0, "f", .fn [.int] .int⟩

def x : Param := ⟨place 1, "x", .int⟩

def p : Param := ⟨place 2, "p", .int⟩

/-- `|x| x + 1` -/
def bump : Lambda :=
  ⟨[x], .binaryAt (place 3) .add (.parameterAt (place 4) x) (.intAt (place 5) 1)⟩

/-- `|f, x, x| expand(f, twice(f, x))`, with one parameter listed twice -/
def thrice : Lambda :=
  ⟨[f, x, x],
    .expandAt (place 6) (.parameterAt (place 7) f)
      [.dynamicAt (place 8) "twice" [.parameterAt (place 9) f, .parameterAt (place 10) x] .int] .int⟩

def evaluator : Evaluator where
  statics := [("R", [("bump", bump.toValue), ("thrice", thrice.toValue)])]
  binders := [("twice", twice)]

theorem pure_evaluator : evaluator.Pure where
  methods := (Evaluator.pure_builtin []).methods
  binders name g h := by
    have hg := mem_of_lookup h
    cases List.mem_singleton.1 hg
    exact pure_twice

/-- `expand(R::thrice, R::bump, 1 / 1, p)` -/
def tree : Expr :=
  .expandAt (place 11) (.staticAt (place 12) "R" "thrice" thrice.ty)
    [.staticAt (place 13) "R" "bump" bump.ty,
      .binaryAt (place 14) .div (.intAt (place 15) 1) (.intAt (place 16) 1),
      .parameterAt (place 17) p] .int

/-- `expand(R::bump, twice(R::bump, p))` -/
def expanded (site : Site) : Expr :=
  .expandAt site (.staticAt (place 13) "R" "bump" bump.ty)
    [.dynamicAt (site.child 2) "twice"
      [.staticAt (place 13) "R" "bump" bump.ty, .parameterAt (place 17) p] .int] .int

end Applied

open Applied in
theorem yields_expand_applied :
    tree.FirstOrder ∧
      (Expander.expand { resolver := evaluator.statics.resolver } 1 (.root 1) tree).outcome =
        .ok (expanded ((Site.root 1).child 0)) ∧
      evaluator.eval 2 (.root 2) [(p, .int 3)] tree = .ok (.int 6) ∧
      evaluator.Yields [(p, .int 3)] (expanded ((Site.root 1).child 0)) (.int 6) := by
  have hfirst : tree.FirstOrder := by decide
  have hexpand :
      (Expander.expand { resolver := evaluator.statics.resolver } 1 (.root 1) tree).outcome =
        .ok (expanded ((Site.root 1).child 0)) := rfl
  have heval : evaluator.eval 2 (.root 2) [(p, .int 3)] tree = .ok (.int 6) := by decide
  have hrules : ∀ l, evaluator.statics.resolver.Inlines tree l → l.body.FirstOrder := by
    intro l hl
    have hcalls : evaluator.statics.resolver.Calls tree thrice tree.children.tail := ⟨_, rfl, rfl⟩
    rw [hcalls.eq_of_inlines (by decide) (by decide) hl]
    decide
  exact ⟨hfirst, hexpand, heval, yields_expand pure_evaluator rfl hfirst hrules hexpand heval⟩

/-! ## Values without lambdas -/

mutual

def Value.lambdaFree : Value → Bool
  | .object _ fs => Value.lambdaFreeFields fs
  | .lambda .. => false
  | .null | .bool _ | .int _ | .float _ | .str _ => true

def Value.lambdaFreeFields : List (String × Value) → Bool
  | [] => true
  | (_, v) :: fs => v.lambdaFree && Value.lambdaFreeFields fs

end

mutual

/-- Without nodes there are no identities to tell two alike values apart. -/
theorem Value.eq_of_like : ∀ {v w : Value}, v.lambdaFree = true → v.Like w → v = w
  | .object c fs, w, hfree, h => by
    cases w with
    | object d gs =>
      simp only [Value.Like, Value.bare, Value.relabel, Value.object.injEq] at h
      rw [h.1, Value.eq_of_likeFields hfree h.2]
    | _ => cases h
  | .lambda .., _, hfree, _ => by cases hfree
  | .null, w, _, h => by cases w <;> first | rfl | cases h
  | .bool _, w, _, h => by cases w <;> first | exact h | cases h
  | .int _, w, _, h => by cases w <;> first | exact h | cases h
  | .float _, w, _, h => by cases w <;> first | exact h | cases h
  | .str _, w, _, h => by cases w <;> first | exact h | cases h

theorem Value.eq_of_likeFields : ∀ {fs gs : List (String × Value)},
    Value.lambdaFreeFields fs = true →
      Value.relabelFields Label.bare fs = Value.relabelFields Label.bare gs → fs = gs
  | [], gs, _, h => by
    cases gs with
    | nil => rfl
    | cons g gs => cases h
  | (k, v) :: fs, gs, hfree, h => by
    cases gs with
    | nil => cases h
    | cons g gs =>
      obtain ⟨l, w⟩ := g
      simp only [Value.lambdaFreeFields, Bool.and_eq_true] at hfree
      simp only [Value.relabelFields, List.cons.injEq, Prod.mk.injEq] at h
      rw [h.1.1, Value.eq_of_like hfree.1 h.1.2, Value.eq_of_likeFields hfree.2 h.2]

end

/-! ## Documents -/

theorem Lowered.expanded_eq_ok {low : Lowered} {fuel : Nat} {site : Site} {name : String}
    {x : Expanded} (h : (low.expanded fuel site name).outcome = .ok x) :
    ∃ body, (Expander.expand { resolver := low.staticMembers.resolver } fuel site
        low.predicate.body).outcome = .ok body ∧
      x.expanded = low.predicate.withBody body := by
  simp only [Lowered.expanded, Report.outcome_bind, Outcome.bind_eq_ok,
    Report.outcome_ofOutcome_eq_ok, Expander.expandLambda, Traced.outcome_bind,
    Traced.outcome_pure] at h
  obtain ⟨_, -, l, ⟨body, hbody, hl⟩, _, -, hx⟩ := h
  cases hl
  cases hx
  exact ⟨body, hbody, rfl⟩

theorem Expanded.evaluated_eq_ok {x : Expanded} {doc : Document} {low : Lowered} {fuel : Nat}
    {site : Site} {text : String} {arg v : Value}
    (harg : (Document.Datum.ofText text >>= doc.lowerDatum (site.child 0)) = .ok arg)
    (hv : Evaluator.apply { statics := low.staticMembers } fuel (site.child 1) x.expanded [arg] =
      .ok v) :
    (x.evaluated doc low fuel site text).outcome = .ok v.text := by
  simp only [Expanded.evaluated, Report.outcome_bind, Outcome.bind_eq_ok, Report.ofExcept,
    Report.outcome_ofOutcome_eq_ok, Outcome.ofExcept_eq_ok]
  exact ⟨arg, harg, v, hv, rfl⟩

def Scope.empty : Scope := ⟨[], [], fun _ h => by cases h⟩

/-- The expanded predicate of a document has the value of the predicate as written, if it is clear and
the value holds no lambda; and the stage that evaluates the document prints this value. -/
theorem evaluated_expanded {low : Lowered} {fuel : Nat} {site : Site} {name : String} {x : Expanded}
    (hx : (low.expanded fuel site name).outcome = .ok x)
    (hclear : x.expanded.body.Clear [x.expanded.params]) {n : Nat} {s : Site} {arg v : Value}
    (hv : Evaluator.apply { statics := low.staticMembers } n s low.predicate [arg] = .ok v)
    (hfree : v.lambdaFree = true) :
    ∃ bound, ∀ m, bound ≤ m →
      (∀ q, Evaluator.apply { statics := low.staticMembers } m q x.expanded [arg] = .ok v) ∧
      ∀ (doc : Document) (q : Site) (text : String),
        (Document.Datum.ofText text >>= doc.lowerDatum (q.child 0)) = .ok arg →
          (x.evaluated doc low m q text).outcome = .ok v.text := by
  obtain ⟨body, hbody, hexpanded⟩ := Lowered.expanded_eq_ok hx
  obtain ⟨k, -, hlen, heval⟩ := Evaluator.apply_eq_ok hv
  let w := Scope.empty.enter low.predicate.params [arg]
  rw [hexpanded] at hclear
  have hpure := Evaluator.pure_builtin low.staticMembers
  have hexpands := Expander.expands_of_expand hbody
  have hstands := hexpands.stands hpure w w.env (.start w) hclear k s v heval
  have hlambda : body.isLambda = false := by
    cases body with
    | lambda =>
      obtain ⟨b, rfl, -⟩ := hstands
      cases hfree
    | _ => rfl
  obtain ⟨bound, hbound⟩ := hstands.yields hlambda
  have happly : ∀ m, bound + 1 ≤ m → ∀ q,
      Evaluator.apply { statics := low.staticMembers } m q x.expanded [arg] = .ok v := by
    intro m hm q
    obtain ⟨j, rfl⟩ : ∃ j, m = j + 1 := ⟨m - 1, by omega⟩
    have hlen' : (low.predicate.withBody body).params.length = [arg].length := hlen
    obtain ⟨u, hu, hvu⟩ := hbound j (by omega) q
    rw [Value.eq_of_like hfree hvu, hexpanded]
    exact (Evaluator.apply_succ hlen').trans hu
  refine ⟨bound + 1, fun m hm => ⟨happly m hm, fun doc q text harg => ?_⟩⟩
  exact Expanded.evaluated_eq_ok harg (happly m hm (q.child 1))

namespace Nested

/-- `|x| expand(|y| x + y, x)` -/
def twice (site : Site) : Lambda :=
  let inner := (site.child 1).child 0
  let x : Param := ⟨(site.child 0).child 0, "x", .int⟩
  let y : Param := ⟨(inner.child 0).child 0, "y", .int⟩
  let sum := .binaryAt (inner.child 1) .add (.parameterAt ((inner.child 1).child 0) x)
    (.parameterAt ((inner.child 1).child 1) y)
  ⟨[x], .expandAt (site.child 1) (.lambdaAt inner ⟨[y], sum⟩)
    [.parameterAt ((site.child 1).child 1) x] .int⟩

def p : Param := ⟨(((Site.root 0).child 2).child 0).child 0, "p", .int⟩

/-- `expand(R::twice, arg)` -/
def call (site : Site) (arg : Site → Expr) : Expr :=
  .expandAt site (.staticAt (site.child 0) "R" "twice" (.fn [.int] .int)) [arg (site.child 1)] .int

def lowered (body : Site → Expr) : Lowered where
  statics := [("R", [("twice", (twice ((((Site.root 0).child 1).child 0).child 0)).toValue)])]
  constants := []
  predicate := ⟨[p], body (((Site.root 0).child 2).child 1)⟩

/-- The predicate `|p| twice(p)` -/
def once : Lowered := lowered (call · (.parameterAt · p))

/-- The predicate `|p| twice(twice(p))` -/
def nested : Lowered := lowered (call · (call · (.parameterAt · p)))

def document : Document :=
  let call (arg : Document.Node) : Document.Node :=
    .expand (.member none (some "R") "twice" "fn(int) -> int") [arg] "int"
  let sum : Document.Node := .lambda [⟨"y", "int"⟩] (.binary .add (.param "x") (.param "y"))
  { statics := [("R", [("twice", .node (.lambda [⟨"x", "int"⟩] (.expand sum [.param "x"] "int")))])]
    constants := []
    predicate := .lambda [⟨"p", "int"⟩] (call (call (.param "p"))) }

end Nested

open Nested in
/-- In the expanded predicate the lambda of the inner call stands below that of the outer call, which
declares the same variable, and takes its value from there. -/
theorem evaluated_nested_ne :
    document.lower (.root 0) = .ok nested ∧ ∃ x,
      (nested.expanded 2 (.root 1) "nested").outcome = .ok x ∧
      Evaluator.apply { statics := nested.staticMembers } 4 (.root 2) nested.predicate [.int 5] =
        .ok (.int 20) ∧
      Evaluator.apply { statics := nested.staticMembers } 4 (.root 2) x.expanded [.int 5] =
        .ok (.int 25) ∧
      ¬x.expanded.body.Clear [x.expanded.params] :=
  ⟨by decide +kernel, _, rfl, rfl, rfl, by decide⟩

open Nested in
theorem evaluated_expanded_once : ∃ x,
    (once.expanded 1 (.root 1) "once").outcome = .ok x ∧
      x.expanded.body.Clear [x.expanded.params] ∧
      Evaluator.apply { statics := once.staticMembers } 3 (.root 2) once.predicate [.int 5] =
        .ok (.int 10) ∧
      ∃ bound, ∀ m, bound ≤ m → (x.evaluated document once m (.root 3) "5").outcome = .ok "10" := by
  obtain ⟨x, hx, hclear⟩ : ∃ x, (once.expanded 1 (.root 1) "once").outcome = .ok x ∧
      x.expanded.body.Clear [x.expanded.params] := ⟨_, rfl, by decide⟩
  have hv : Evaluator.apply { statics := once.staticMembers } 3 (.root 2) once.predicate [.int 5] =
      .ok (.int 10) := rfl
  obtain ⟨bound, hbound⟩ := evaluated_expanded hx hclear hv rfl
  refine ⟨x, hx, hclear, hv, bound, fun m hm => ?_⟩
  have hten : (Value.int 10).text = "10" := by decide +kernel
  rw [← hten]
  exact (hbound m hm).2 document (.root 3) "5" (by decide +kernel)

end PredicateTree
