import PredicateTree.Evaluator
import PredicateTree.Proofs.Number.Rounding

/-!
# Proofs.Evaluator.Comparison

The six comparisons on two whole numbers. Order compares them exactly; equality takes both as
floating point numbers, so it compares what is left of them in 53 binary digits.

* `Agree`: what equality and order owe each other on two numbers.
* `eval_comparisons`: what each comparison evaluates to, and that the two agree on a pair of numbers
  exactly if the pair is not rounded to one number.
* `not_agree_beyond`: on 2⁵³ and the number after it they do not agree.
-/

namespace PredicateTree

namespace Evaluator

/-- Equality is equality of the numbers, exactly one of `<`, `==` and `>` holds, and `<=` and `>=`
hold where `<` or `==`, `>` or `==` does. -/
structure Agree (holds : BinaryOp → Prop) (a b : Int64) : Prop where
  eq_iff : holds .eq ↔ a = b
  exactly_one : (holds .lt ∧ ¬holds .eq ∧ ¬holds .gt) ∨ (¬holds .lt ∧ holds .eq ∧ ¬holds .gt) ∨
    (¬holds .lt ∧ ¬holds .eq ∧ holds .gt)
  le_iff : holds .le ↔ holds .lt ∨ holds .eq
  ge_iff : holds .ge ↔ holds .gt ∨ holds .eq

variable (ev : Evaluator) (fuel : Nat) (site : Site) (env : Env)

/-- A comparison of two whole numbers, evaluated. -/
def compareInts (op : BinaryOp) (a b : Int64) : Outcome EvalError Value :=
  ev.eval fuel site env (.binary ⟨site, .bool⟩ op (.constant ⟨site.child 0, .int⟩ (.int a))
    (.constant ⟨site.child 1, .int⟩ (.int b)))

def Holds (a b : Int64) (op : BinaryOp) : Prop :=
  ev.compareInts fuel site env op a b = .ok (.bool true)

variable (a b : Int64)

theorem natAbs_toInt_lt (n : Int64) : n.toInt.natAbs < 2 ^ 64 := by
  have hlo : -2 ^ 63 ≤ n.toInt := n.le_toInt
  have hhi : n.toInt < 2 ^ 63 := n.toInt_lt
  omega

theorem compareInts_eq : ev.compareInts fuel site env .eq a b =
    .ok (.bool (Binary64.nearest a.toInt = Binary64.nearest b.toInt)) := by
  have hequals := Binary64.equals_ofInt (natAbs_toInt_lt a) (natAbs_toInt_lt b)
  show Outcome.ok (Value.bool ((Binary64.ofInt a.toInt).equals (Binary64.ofInt b.toInt))) = _
  congr 2
  rwa [Bool.eq_iff_iff, decide_eq_true_iff]

theorem compareInts_lt : ev.compareInts fuel site env .lt a b = .ok (.bool (a < b)) := by
  show Outcome.ok (Value.bool (compare a.toInt b.toInt == .lt)) = _
  congr 2
  rw [Bool.eq_iff_iff, decide_eq_true_iff, beq_iff_eq, compare_lt_iff_lt, Int64.lt_iff_toInt_lt]

theorem compareInts_gt : ev.compareInts fuel site env .gt a b = .ok (.bool (b < a)) := by
  show Outcome.ok (Value.bool (compare a.toInt b.toInt == .gt)) = _
  congr 2
  rw [Bool.eq_iff_iff, decide_eq_true_iff, beq_iff_eq, compare_gt_iff_gt, Int64.lt_iff_toInt_lt]

theorem compareInts_le : ev.compareInts fuel site env .le a b = .ok (.bool (a ≤ b)) := by
  show Outcome.ok (Value.bool (compare a.toInt b.toInt != .gt)) = _
  congr 2
  rw [Bool.eq_iff_iff, decide_eq_true_iff, bne_iff_ne, ne_eq, compare_gt_iff_gt, not_lt,
    Int64.le_iff_toInt_le]

theorem compareInts_ge : ev.compareInts fuel site env .ge a b = .ok (.bool (b ≤ a)) := by
  show Outcome.ok (Value.bool (compare a.toInt b.toInt != .lt)) = _
  congr 2
  rw [Bool.eq_iff_iff, decide_eq_true_iff, bne_iff_ne, ne_eq, compare_lt_iff_lt, not_lt,
    Int64.le_iff_toInt_le]

/-- The laws come down to this: what is one number in 53 digits is one number. -/
theorem agree_iff {holds : BinaryOp → Prop} {nearby : Prop} (hnearby : a = b → nearby)
    (heq : holds .eq ↔ nearby) (hlt : holds .lt ↔ a < b) (hgt : holds .gt ↔ b < a)
    (hle : holds .le ↔ a ≤ b) (hge : holds .ge ↔ b ≤ a) :
    Agree holds a b ↔ (nearby → a = b) := by
  constructor
  · intro h hn
    exact h.eq_iff.1 (heq.2 hn)
  · intro h
    have heq : holds .eq ↔ a = b := heq.trans ⟨h, hnearby⟩
    refine ⟨heq, ?_, ?_, ?_⟩
    · rw [hlt, heq, hgt, Int64.lt_iff_toInt_lt, Int64.lt_iff_toInt_lt, ← Int64.toInt_inj]
      omega
    · rw [hle, hlt, heq, Int64.le_iff_toInt_le, Int64.lt_iff_toInt_lt, ← Int64.toInt_inj]
      omega
    · rw [hge, hgt, heq, Int64.le_iff_toInt_le, Int64.lt_iff_toInt_lt, ← Int64.toInt_inj]
      omega

/-- Order compares two whole numbers exactly and equality compares their nearest numbers of 53
binary digits. So the comparisons agree on a pair exactly if it is not rounded to one number, and
they do whenever neither number is beyond 2⁵³. -/
theorem eval_comparisons :
    ev.compareInts fuel site env .eq a b =
      .ok (.bool (Binary64.nearest a.toInt = Binary64.nearest b.toInt)) ∧
    ev.compareInts fuel site env .lt a b = .ok (.bool (a < b)) ∧
    ev.compareInts fuel site env .gt a b = .ok (.bool (b < a)) ∧
    ev.compareInts fuel site env .le a b = .ok (.bool (a ≤ b)) ∧
    ev.compareInts fuel site env .ge a b = .ok (.bool (b ≤ a)) ∧
    (Agree (ev.Holds fuel site env a b) a b ↔
      (Binary64.nearest a.toInt = Binary64.nearest b.toInt → a = b)) ∧
    (a.toInt.natAbs ≤ 2 ^ 53 → b.toInt.natAbs ≤ 2 ^ 53 →
      Agree (ev.Holds fuel site env a b) a b) := by
  have hagree : Agree (ev.Holds fuel site env a b) a b ↔
      (Binary64.nearest a.toInt = Binary64.nearest b.toInt → a = b) := by
    refine agree_iff a b (fun h => h ▸ rfl) ?_ ?_ ?_ ?_ ?_
    · simp [Holds, compareInts_eq]
    · simp [Holds, compareInts_lt]
    · simp [Holds, compareInts_gt]
    · simp [Holds, compareInts_le]
    · simp [Holds, compareInts_ge]
  refine ⟨ev.compareInts_eq fuel site env a b, ev.compareInts_lt fuel site env a b,
    ev.compareInts_gt fuel site env a b, ev.compareInts_le fuel site env a b,
    ev.compareInts_ge fuel site env a b, hagree, fun ha hb => hagree.2 fun h => ?_⟩
  rw [Binary64.nearest_of_le ha, Binary64.nearest_of_le hb] at h
  exact Int64.toInt_inj.1 h

theorem eval_comparisons_within :
    (9007199254740992 : Int64).toInt.natAbs ≤ 2 ^ 53 ∧
      (-9007199254740992 : Int64).toInt.natAbs ≤ 2 ^ 53 ∧
      Agree (Evaluator.Holds { statics := [] } 0 (.root 0) [] 9007199254740992 (-9007199254740992))
        9007199254740992 (-9007199254740992) := by
  have ha : (9007199254740992 : Int64).toInt.natAbs ≤ 2 ^ 53 := by decide
  have hb : (-9007199254740992 : Int64).toInt.natAbs ≤ 2 ^ 53 := by decide
  exact ⟨ha, hb, (eval_comparisons _ 0 (.root 0) [] _ _).2.2.2.2.2.2 ha hb⟩

/-- 2⁵³ and the number after it are equal, and the one is also less than the other. -/
theorem not_agree_beyond :
    ¬Agree (Evaluator.Holds { statics := [] } 0 (.root 0) [] 9007199254740992 9007199254740993)
      9007199254740992 9007199254740993 := by
  intro h
  have heq : Evaluator.Holds { statics := [] } 0 (.root 0) [] 9007199254740992 9007199254740993
      .eq := by
    unfold Holds
    rw [compareInts_eq]
    decide +kernel
  exact absurd (h.eq_iff.1 heq) (by decide)

end Evaluator

end PredicateTree
