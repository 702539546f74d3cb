import PredicateTree.Predicate
import PredicateTree.Proofs.Negation

/-!
# Proofs.Predicate.Joining

Joined predicates test what their parts test, one after the other.

To join two predicates the variable of the second is renamed to that of the first, below nested
lambdas as well. The test of the second part is not changed by this, unless the first variable was
there already.

* `fill_rename`: what the renamed tree looks like once the subject is put in.
* `Evaluator.testEach`: the tests of all predicates from left to right, up to the first that
  decides or fails.
* `test_join`, `test_joinAll`: the joined predicate and the tests of its parts have the same outcome:
  the same answer, the same error, or none within the same bound.
* `test_joined`: all of this for conjunctions and disjunctions, of lists and of pairs.
-/

namespace PredicateTree

/-! ## Renaming -/

/-- A renamed tree looks the same once a value is put in for the new variable. -/
theorem Expr.fill_rename {p q : Param} (hty : q.ty = p.ty) {e : Expr} (he : q = p ∨ e.Avoids q)
    (v : Value) (site s : Site) :
    (e.substitute site (Substitution.rename s p q)).fill (Env.consts [(q, v)]) =
      e.fill (Env.consts [(p, v)]) := by
  rw [← Expr.bare_fill, Expr.bare_substitute, Expr.fill_fill]
  apply Expr.fill_congr
  have hother : e.All fun a => ∀ r, a.reference? = some r → r ≠ p → r ≠ q := by
    rcases he with rfl | havoids
    · exact Expr.all_of_forall (fun _ _ _ hr => hr) e
    · refine havoids.imp fun a ha r hr _ hrq => ha ?_
      rw [hr, hrq]
  refine hother.imp fun a ha r hr => ?_
  by_cases hrp : r = p
  · subst hrp
    simp [Substitution.rename, Substitution.get?, Env.consts, Expr.bare, Expr.relabel,
      Expr.parameterAt, Expr.fill, Label.bare, hty]
  · have hrq : r ≠ q := ha r hr hrp
    have hp : (r == p) = false := by simpa using hrp
    have hq : (r == q) = false := by simpa using hrq
    simp [Substitution.rename, Substitution.get?, Env.consts, List.lookup_cons, hp, hq]

namespace Evaluator

variable {ev : Evaluator} {n : Nat} {v : Value}

/-! ## Tests -/

theorem test_succ (p : Predicate) (s : Site) :
    ev.test (n + 1) s p.lambda v =
      ev.eval n s [(p.param, v)] p.body >>= fun w => Outcome.ofExcept w.expectBool := rfl

theorem test_approx (hev : ev.Pure) {p q : Predicate}
    (h : p.body.fill (Env.consts [(p.param, v)]) = q.body.fill (Env.consts [(q.param, v)]))
    (s t : Site) :
    (ev.test n s p.lambda v).Approx Eq (ev.test n t q.lambda v) := by
  cases n with
  | zero => trivial
  | succ n =>
    rw [test_succ, test_succ]
    have heval := eval_approx hev (Nat.le_refl n) h s t
    exact heval.bind fun w w' hw => Value.approx_expectBool hw

/-- Predicates that look alike once the subject is put in answer alike, wherever they are tested. -/
theorem test_congr (hev : ev.Pure) {p q : Predicate}
    (h : p.body.fill (Env.consts [(p.param, v)]) = q.body.fill (Env.consts [(q.param, v)]))
    (s t : Site) : ev.test n s p.lambda v = ev.test n t q.lambda v :=
  (test_approx hev h s t).antisymm (test_approx hev h.symm t s)

/-- Tests predicates one after the other, the next one at position `i`. The answer `decisive` of one
of them settles it, and then the others are not tested. -/
def testEach (ev : Evaluator) (fuel : Nat) (site : Site) (decisive : Bool) (v : Value) (i : Nat) :
    List Predicate → Outcome EvalError Bool
  | [] => .ok !decisive
  | p :: ps => do
    let b ← ev.test fuel (site.child i) p.lambda v
    if b = decisive then return decisive
    ev.testEach fuel site decisive v (i + 1) ps

theorem test_junction {op : BinaryOp} {d : Bool} (hop : op.decider? = some d) (q : Param)
    (a b : Expr) (site s : Site) :
    ev.test (n + 1) s (Predicate.lambda ⟨q, .binaryAt site op a b⟩) v = (do
      let c ← ev.test (n + 1) (s.child 0) (Predicate.lambda ⟨q, a⟩) v
      if c = d then return d
      ev.test (n + 1) (s.child 1) (Predicate.lambda ⟨q, b⟩) v) := by
  simp only [test_succ, Expr.binaryAt]
  rw [eval_junction hop]
  simp only [bind_assoc]
  refine bind_congr fun w => bind_congr fun c => ?_
  by_cases hc : c = d
  · simp only [hc, if_true]
    rfl
  · simp only [hc, if_false, bind_assoc]
    refine bind_congr fun u => ?_
    cases Value.expectBool u <;> rfl

end Evaluator

namespace Predicate

variable {ev : Evaluator} {n : Nat} {v : Value} {op : BinaryOp} {d : Bool}

/-! ## Two predicates -/

theorem join_eq_ok {p q : Predicate} (h : p.subject = q.subject) (site : Site) (op : BinaryOp) :
    join site op p q = .ok ⟨p.param, .binaryAt site op p.body
      (q.body.substitute (site.child 1) (.rename (site.child 0) q.param p.param))⟩ :=
  if_neg (not_not.2 h)

theorem test_join (hev : ev.Pure) (hop : op.decider? = some d) {p q r : Predicate} {site : Site}
    (hjoin : join site op p q = .ok r) (hparam : p.param = q.param ∨ q.body.Avoids p.param)
    (s s₁ s₂ : Site) :
    ev.test (n + 1) s r.lambda v = (do
      let b ← ev.test (n + 1) s₁ p.lambda v
      if b = d then return d
      ev.test (n + 1) s₂ q.lambda v) := by
  have hty : p.subject = q.subject := by
    by_contra hne
    rw [join, if_pos hne] at hjoin
    cases hjoin
  rw [join_eq_ok hty] at hjoin
  cases hjoin
  rw [Evaluator.test_junction hop]
  have hp : ev.test (n + 1) (s.child 0) p.lambda v = ev.test (n + 1) s₁ p.lambda v :=
    Evaluator.test_congr hev rfl _ _
  have hq := Expr.fill_rename hty hparam v (site.child 1) (site.child 0)
  refine congrArg₂ _ hp (funext fun b => ?_)
  rw [Evaluator.test_congr hev hq (s.child 1) s₂]

/-! ## Lists of predicates -/

/-- The type of the first subject that is not `ty`. -/
def misfit? (ty : Ty) (ps : List Predicate) : Option Ty := (ps.map subject).find? (· ≠ ty)

theorem joinAll_of_misfit (site : Site) (op : BinaryOp) {t : Ty} {qs : List Predicate} :
    ∀ (i : Nat) (p : Predicate), misfit? p.subject qs = some t →
      joinAll site op i p qs = .error (.subjectMismatch p.subject t) := by
  induction qs with
  | nil =>
    intro i p h
    cases h
  | cons q qs ih =>
    intro i p h
    by_cases hq : p.subject = q.subject
    · have hrest : misfit? p.subject qs = some t := by simpa [misfit?, hq] using h
      rw [joinAll, join_eq_ok hq]
      exact ih (i + 1) _ hrest
    · have hne : q.subject ≠ p.subject := fun hqp => hq hqp.symm
      have ht : q.subject = t := by simpa [misfit?, hne] using h
      rw [joinAll, join, if_pos hq, ← ht]

/-- Predicates with one type of subjects can be joined. The parts are tested in order, the first one
with what has been joined so far. -/
theorem test_joinAll (hev : ev.Pure) (hop : op.decider? = some d) (site : Site)
    {qs : List Predicate} :
    ∀ (i : Nat) (p : Predicate), misfit? p.subject qs = none →
      ∃ r, joinAll site op i p qs = .ok r ∧
        ((∀ q ∈ qs, q.body.Avoids p.param) → ∀ n s s₁ s₂ j,
          ev.test (n + 1) s r.lambda v = (do
            let b ← ev.test (n + 1) s₁ p.lambda v
            if b = d then return d
            ev.testEach (n + 1) s₂ d v j qs)) := by
  induction qs with
  | nil =>
    intro i p _
    refine ⟨p, rfl, fun _ n s s₁ s₂ j => ?_⟩
    rw [Evaluator.test_congr hev rfl s s₁]
    cases ev.test (n + 1) s₁ p.lambda v with
    | ok b =>
      simp only [Outcome.ok_bind, Evaluator.testEach]
      cases b <;> cases d <;> rfl
    | error e => rfl
    | unfinished => rfl
  | cons q qs ih =>
    intro i p hfit
    have hq : p.subject = q.subject := by
      by_contra hne
      have hqp : q.subject ≠ p.subject := fun h => hne h.symm
      simp [misfit?, hqp] at hfit
    obtain ⟨r₁, hjoin, hsame⟩ : ∃ r₁, join (site.child i) op p q = .ok r₁ ∧ r₁.param = p.param :=
      ⟨_, join_eq_ok hq (site.child i) op, rfl⟩
    have hsubject : r₁.subject = p.subject := congrArg Param.ty hsame
    have hrest : misfit? r₁.subject qs = none := by simpa [misfit?, hq, hsubject] using hfit
    obtain ⟨r, hr, htest⟩ := ih (i + 1) r₁ hrest
    refine ⟨r, by rw [joinAll, hjoin]; exact hr, fun havoids n s s₁ s₂ j => ?_⟩
    have hq' : q.body.Avoids p.param := havoids q (by simp)
    have hqs : ∀ q' ∈ qs, q'.body.Avoids r₁.param := by
      intro q' hmem
      rw [hsame]
      exact havoids q' (by simp [hmem])
    rw [htest hqs n s s₁ s₂ (j + 1), test_join hev hop hjoin (.inr hq') s₁ s₁ (s₂.child j),
      bind_assoc]
    refine bind_congr fun b => ?_
    by_cases hb : b = d
    · simp [hb]
    · simp only [hb, if_false]
      rfl

/-- Joining a list starts from a predicate that decides nothing. -/
theorem test_fold (hev : ev.Pure) (hop : op.decider? = some d) (site : Site) {ty : Ty}
    {ps : List Predicate} (hfit : misfit? ty ps = none) :
    ∃ r, joinAll site op 1 (constant (site.child 0) ty !d) ps = .ok r ∧
      ((∀ p ∈ ps, p.body.Avoids (constant (site.child 0) ty !d).param) → ∀ n s s',
        ev.test (n + 1) s r.lambda v = ev.testEach (n + 1) s' d v 0 ps) := by
  obtain ⟨r, hr, htest⟩ :=
    test_joinAll hev hop site (v := v) 1 (constant (site.child 0) ty !d) hfit
  refine ⟨r, hr, fun havoids n s s' => ?_⟩
  have hstart : ev.test (n + 1) s (constant (site.child 0) ty !d).lambda v = .ok !d := rfl
  rw [htest havoids n s s s' 0, hstart]
  cases d <;> rfl

/-- Conjunctions and disjunctions test exactly their parts. A list is refused for the first of its
predicates that has other subjects, and joined otherwise. The variable that the list is joined under
is a new one, and that of the first of a pair is the second's own or does not stand in its body. -/
theorem test_joined {ev : Evaluator} (hev : ev.Pure) (v : Value) :
    (∀ site ty ps,
      match misfit? ty ps with
      | some t => all site ty ps = .error (.subjectMismatch ty t)
      | none => ∃ r, all site ty ps = .ok r ∧
        ((∀ p ∈ ps, p.body.Avoids (alwaysTrue (site.child 0) ty).param) → ∀ n s s',
          ev.test (n + 1) s r.lambda v = ev.testEach (n + 1) s' false v 0 ps)) ∧
    (∀ site ty ps,
      match misfit? ty ps with
      | some t => any site ty ps = .error (.subjectMismatch ty t)
      | none => ∃ r, any site ty ps = .ok r ∧
        ((∀ p ∈ ps, p.body.Avoids (alwaysFalse (site.child 0) ty).param) → ∀ n s s',
          ev.test (n + 1) s r.lambda v = ev.testEach (n + 1) s' true v 0 ps)) ∧
    ∀ site p q, p.subject = q.subject → (p.param = q.param ∨ q.body.Avoids p.param) →
      (∃ r, and site p q = .ok r ∧ ∀ n s s₁ s₂,
        ev.test (n + 1) s r.lambda v = (do
          if ← ev.test (n + 1) s₁ p.lambda v then ev.test (n + 1) s₂ q.lambda v
          else return false)) ∧
      ∃ r, or site p q = .ok r ∧ ∀ n s s₁ s₂,
        ev.test (n + 1) s r.lambda v = (do
          if ← ev.test (n + 1) s₁ p.lambda v then return true
          else ev.test (n + 1) s₂ q.lambda v) := by
  refine ⟨fun site ty ps => ?_, fun site ty ps => ?_, fun site p q hty hparam => ⟨?_, ?_⟩⟩
  · split
    · rename_i t ht
      exact joinAll_of_misfit site .and 1 (alwaysTrue (site.child 0) ty) ht
    · rename_i hfit
      have hop : BinaryOp.decider? .and = some false := rfl
      exact test_fold hev hop site hfit
  · split
    · rename_i t ht
      exact joinAll_of_misfit site .or 1 (alwaysFalse (site.child 0) ty) ht
    · rename_i hfit
      have hop : BinaryOp.decider? .or = some true := rfl
      exact test_fold hev hop site hfit
  · refine ⟨_, join_eq_ok hty site .and, fun n s s₁ s₂ => ?_⟩
    rw [test_join hev rfl (join_eq_ok hty site .and) hparam s s₁ s₂]
    refine bind_congr fun b => ?_
    cases b <;> rfl
  · refine ⟨_, join_eq_ok hty site .or, fun n s s₁ s₂ => ?_⟩
    exact test_join hev rfl (join_eq_ok hty site .or) hparam s s₁ s₂

namespace Guarded

def place (i : Nat) : Site := (Site.root 0).child i

def a : Param := ⟨place 0, "a", .int⟩

def b : Param := ⟨place 1, "b", .int⟩

def c : Param := ⟨place 2, "c", .int⟩

/-- `|a| a > 0` -/
def positive : Predicate :=
  ⟨a, .binaryAt (place 3) .gt (.parameterAt (place 4) a) (.intAt (place 5) 0)⟩

/-- `|b| expand(|c| c / b == 3, 6)` -/
def third : Predicate :=
  let quotient := .binaryAt (place 6) .div (.parameterAt (place 7) c) (.parameterAt (place 8) b)
  let same := .binaryAt (place 9) .eq quotient (.intAt (place 10) 3)
  ⟨b, .expandAt (place 11) (.lambdaAt (place 12) ⟨[c], same⟩) [.intAt (place 13) 6] .bool⟩

end Guarded

open Guarded in
/-- A division by zero is met or passed over as the order of the parts has it. -/
theorem test_joined_guarded :
    (∃ r, all (.root 1) .int [third, positive] = .ok r ∧
      Evaluator.test { statics := [] } 2 (.root 2) r.lambda (.int 0) = .error .divisionByZero) ∧
    ∃ r, and (.root 1) positive third = .ok r ∧
      Evaluator.test { statics := [] } 2 (.root 2) r.lambda (.int 0) = .ok false := by
  obtain ⟨hall, -, hpair⟩ := test_joined (Evaluator.pure_builtin []) (.int 0)
  constructor
  · obtain ⟨r, hr, htest⟩ := hall (.root 1) .int [third, positive]
    refine ⟨r, hr, ?_⟩
    rw [htest (by decide) 1 (.root 2) (.root 3)]
    decide
  · obtain ⟨⟨r, hr, htest⟩, -⟩ := hpair (.root 1) positive third rfl (.inr (by decide))
    refine ⟨r, hr, ?_⟩
    rw [htest 1 (.root 2) (.root 3) (.root 4)]
    decide

end Predicate

end PredicateTree
