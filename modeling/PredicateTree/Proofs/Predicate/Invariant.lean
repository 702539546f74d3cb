import PredicateTree.Predicate

/-!
# Proofs.Predicate.Invariant

What stays true of a predicate however it was made.

Only `ofLambda` looks at the type of a body. Joining and inverting build a predicate without looking
again, so that its body is boolean is an invariant of the operations. Joins keep it, for their
bodies are conjunctions and disjunctions. An inversion that takes a negation off the top uncovers an
operand that nobody has looked at.

* `Expr.negatesBool`: the negations at the top of a tree are negations of boolean operands.
* `Expr.Lasting`: such a tree, boolean itself. This is what every operation keeps.
* `Made`: the predicates that the operations make of given lambdas.
* `made_accepted_iff`: `ofLambda` takes back all that can be made exactly if the bodies it was made
  of negate boolean operands only.
-/

namespace PredicateTree

namespace Expr

/-- The negations at the top of the tree, one below the other, have boolean operands. -/
def negatesBool : Expr → Bool
  | .unary _ .not a | .unary _ .isFalse a => a.isBool && a.negatesBool
  | _ => true

/-- A boolean tree that stays one when it is negated, once or any number of times. -/
structure Lasting (e : Expr) : Prop where
  isBool : e.isBool = true
  negatesBool : e.negatesBool = true

theorem Lasting.boolAt (site : Site) (b : Bool) : (boolAt site b).Lasting := ⟨rfl, rfl⟩

theorem Lasting.binaryAt {op : BinaryOp} (hop : op.isBoolean = true) (site : Site) (a b : Expr) :
    (binaryAt site op a b).Lasting := by
  refine ⟨?_, rfl⟩
  simp [Expr.binaryAt, Expr.isBool, ty, label, hop, Ty.isBool]

theorem isBoolean_of_complement {op flipped : BinaryOp} (h : op.complement = some flipped) :
    flipped.isBoolean = true := by
  cases op <;> cases h <;> rfl

theorem Lasting.leafNegation {e : Expr} (he : e.Lasting) (site : Site) :
    (leafNegation site e).Lasting := by
  rw [Expr.leafNegation, if_pos he.isBool]
  exact .binaryAt rfl _ _ _

theorem Lasting.negate {e : Expr} (he : e.Lasting) (site : Site) : (e.negate site).Lasting := by
  -- Only a negation loses its top; every other tree keeps its type or becomes a comparison.
  cases e with
  | binary l op a b =>
    cases hop : op.complement with
    | some flipped =>
      have hnegate : (Expr.binary l op a b).negate site = .binaryAt site flipped a b := by
        cases op <;> cases hop <;> rfl
      rw [hnegate]
      exact .binaryAt (isBoolean_of_complement hop) _ _ _
    | none =>
      cases op with
      | and => exact .binaryAt rfl _ _ _
      | or => exact .binaryAt rfl _ _ _
      | add | sub | mul | div | rem => exact he
      | eq | ne | lt | le | gt | ge => cases hop
  | unary l op a =>
    cases op with
    | not | isFalse =>
      have hoperand : a.isBool = true ∧ a.negatesBool = true := by
        simpa [Expr.negatesBool] using he.negatesBool
      exact ⟨hoperand.1, hoperand.2⟩
    | isTrue => exact .binaryAt rfl _ _ _
    | neg => exact he
  | conditional l test a b =>
    have hnegate : (Expr.conditional l test a b).negate site = .conditional ⟨site, l.ty⟩ test b a :=
      if_pos he.isBool
    rw [hnegate]
    exact ⟨he.isBool, rfl⟩
  | constant l v =>
    cases v with
    | bool b => exact ⟨he.isBool, rfl⟩
    | null | int | float | str | object | lambda => exact he.leafNegation site
  | default l =>
    have hnegate : (Expr.default l).negate site = Expr.boolAt site true := if_pos he.isBool
    rw [hnegate]
    exact .boolAt _ _
  | lambda l ps b => exact he
  | member | static | call | dynamic | parameter => exact he.leafNegation site

end Expr

namespace Predicate

theorem ofLambda_eq_ok {l : Lambda} {p : Predicate} :
    ofLambda l = .ok p ↔ l = p.lambda ∧ p.body.isBool = true := by
  constructor
  · intro h
    obtain ⟨params, body⟩ := l
    unfold ofLambda at h
    split at h
    · rename_i q hq
      split at h
      · rename_i hbool
        cases h
        have hparams : params = [q] := hq
        exact ⟨by rw [hparams]; rfl, hbool⟩
      · cases h
    · cases h
  · rintro ⟨rfl, hbool⟩
    exact if_pos hbool

theorem lasting_join {op : BinaryOp} (hop : op.isBoolean = true) {site : Site} {p q r : Predicate}
    (h : join site op p q = .ok r) : r.body.Lasting := by
  unfold Predicate.join at h
  split at h
  · cases h
  · cases h
    exact .binaryAt hop _ _ _

theorem lasting_joinAll {op : BinaryOp} (hop : op.isBoolean = true) {site : Site}
    {qs : List Predicate} {r : Predicate} :
    ∀ {i : Nat} {p : Predicate}, p.body.Lasting → joinAll site op i p qs = .ok r →
      r.body.Lasting := by
  induction qs with
  | nil =>
    intro i p hp h
    cases h
    exact hp
  | cons q qs ih =>
    intro i p hp h
    rw [Predicate.joinAll] at h
    cases hjoin : Predicate.join (site.child i) op p q with
    | ok r₁ =>
      rw [hjoin] at h
      exact ih (lasting_join hop hjoin) h
    | error e =>
      rw [hjoin] at h
      cases h

/-- The predicates that can be made of the lambdas in `start`. -/
inductive Made (start : Lambda → Prop) : Predicate → Prop
  | ofLambda {l p} : start l → ofLambda l = .ok p → Made start p
  | alwaysTrue (site ty) : Made start (alwaysTrue site ty)
  | alwaysFalse (site ty) : Made start (alwaysFalse site ty)
  | and {site p q r} : Made start p → Made start q → and site p q = .ok r → Made start r
  | or {site p q r} : Made start p → Made start q → or site p q = .ok r → Made start r
  | all {site ty ps r} : (∀ p ∈ ps, Made start p) → all site ty ps = .ok r → Made start r
  | any {site ty ps r} : (∀ p ∈ ps, Made start p) → any site ty ps = .ok r → Made start r
  | inverse {p} (site) : Made start p → Made start (p.inverse site)

theorem Made.lasting {start : Lambda → Prop}
    (hstart : ∀ l p, start l → Predicate.ofLambda l = .ok p → p.body.negatesBool = true)
    {r : Predicate} (h : Made start r) : r.body.Lasting := by
  induction h with
  | ofLambda hl hp => exact ⟨(ofLambda_eq_ok.1 hp).2, hstart _ _ hl hp⟩
  | alwaysTrue | alwaysFalse => exact .boolAt _ _
  | and _ _ hr | or _ _ hr => exact lasting_join rfl hr
  | all _ hr | any _ hr => exact lasting_joinAll rfl (.boolAt _ _) hr
  | inverse site _ ih => exact ih.negate site

/-- Inverting a predicate again and again takes off its negations one by one. -/
theorem Made.negatesBool {start : Lambda → Prop}
    (hall : ∀ r, Made start r → r.body.isBool = true) (site : Site) (e : Expr) :
    ∀ p, Made start p → p.body = e → e.negatesBool = true := by
  fun_induction Expr.negatesBool e with
  | case1 l a ih | case2 l a ih =>
    intro p hp he
    have hbody : (p.inverse site).body = a := by rw [Predicate.inverse, he]; rfl
    have hmade : Made start (p.inverse site) := hp.inverse site
    have hbool : a.isBool = true := hbody ▸ hall _ hmade
    simp [hbool, ih _ hmade hbody]
  | case3 => exact fun _ _ _ => rfl

/-- All that can be made of some lambdas is a predicate again exactly if the bodies of those that
are predicates negate boolean operands only. -/
theorem made_accepted_iff (start : Lambda → Prop) :
    (∀ r, Made start r → ofLambda r.lambda = .ok r) ↔
      ∀ l p, start l → ofLambda l = .ok p → p.body.negatesBool = true := by
  constructor
  · intro hall l p hl hp
    have hbool : ∀ r, Made start r → r.body.isBool = true := fun r hr =>
      (ofLambda_eq_ok.1 (hall r hr)).2
    exact Made.negatesBool hbool (.root 0) _ p (.ofLambda hl hp) rfl
  · intro hstart r hr
    exact ofLambda_eq_ok.2 ⟨rfl, (hr.lasting hstart).isBool⟩

namespace Uncovered

def x : Param := ⟨.root 0, "x", .int⟩

/-- `|x: int| !x` -/
def notInt : Predicate :=
  ⟨x, .unaryAt (.root 1) .not (.parameterAt (.root 2) x)⟩

/-- `|x: int| !!(x > 0)` -/
def twice : Predicate :=
  let positive := .binaryAt (.root 1) .gt (.parameterAt (.root 2) x) (.intAt (.root 3) 0)
  ⟨x, .unaryAt (.root 4) .not (.unaryAt (.root 5) .not positive)⟩

end Uncovered

open Uncovered in
/-- Negations of a comparison can be taken off, however many. -/
theorem made_accepted_twice :
    ∀ r, Made (· = twice.lambda) r → ofLambda r.lambda = .ok r := by
  refine (made_accepted_iff _).2 fun l p hl hp => ?_
  subst hl
  cases hp
  rfl

open Uncovered in
/-- A number can be negated as a truth value, and the inverse of that is no predicate. -/
theorem inverse_not_accepted :
    ofLambda notInt.lambda = .ok notInt ∧
      ofLambda (notInt.inverse (.root 3)).lambda =
        .error (.notAPredicate (notInt.inverse (.root 3)).lambda) ∧
      ¬ ∀ start r, Made start r → ofLambda r.lambda = .ok r := by
  refine ⟨rfl, rfl, fun hall => ?_⟩
  have hmade : Made (· = notInt.lambda) (notInt.inverse (.root 3)) :=
    .inverse _ (.ofLambda rfl rfl)
  have hok := hall _ _ hmade
  cases hok

end Predicate

end PredicateTree
