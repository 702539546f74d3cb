import Mathlib.Algebra.Group.Int.Defs
import Mathlib.Algebra.Group.Nat.Defs
import PredicateTree.Evaluator

/-!
# Proofs.Evaluator.Arithmetic

Arithmetic on whole numbers of 64 bits: the exact result, modulo 2⁶⁴.

* `BinaryOp.onIntegers`: what an operator gives on the integers.
* `Modular`: an outcome is that result modulo 2⁶⁴, or the failure of a division by zero where there
  is none.
* `BinaryOp.Overflows`: the one quotient that does not fit into 64 bits. It fails like a division by
  zero, and so does its remainder.
* `eval_arithmetic`: this pair is the only exception.
* `not_modular_overflow`: it is one, for the quotient and for the remainder.
-/

namespace PredicateTree

namespace BinaryOp

/-- The exact result, if there is one. A quotient is cut off toward zero. -/
def onIntegers (op : BinaryOp) (m n : Int) : Option Int :=
  match op with
  | add => some (m + n)
  | sub => some (m - n)
  | mul => some (m * n)
  | div => if n = 0 then none else some (m.tdiv n)
  | rem => if n = 0 then none else some (m.tmod n)
  | _ => none

def Overflows (op : BinaryOp) (a b : Int64) : Prop :=
  (op = div ∨ op = rem) ∧ a = Int64.minValue ∧ b = -1

instance (op : BinaryOp) (a b : Int64) : Decidable (op.Overflows a b) :=
  inferInstanceAs (Decidable (_ ∧ _ ∧ _))

end BinaryOp

namespace Evaluator

/-- The outcome is the integer, taken modulo 2⁶⁴ into the range of 64 bits. -/
def Modular (o : Outcome EvalError Value) : Option Int → Prop
  | some z => ∃ n : Int64, o = .ok (.int n) ∧ n.toInt = z.bmod (2 ^ 64)
  | none => o = .error .divisionByZero

variable {a b : Int64}

theorem modular_int {n : Int64} {z : Int} (h : n.toInt = z.bmod (2 ^ 64)) :
    Modular (.ok (.int n)) (some z) := ⟨n, rfl, h⟩

theorem not_modular_error {e : EvalError} {z : Int} : ¬Modular (.error e) (some z) := by
  rintro ⟨n, h, -⟩
  cases h

/-- A quotient or a remainder `f`, whose exact result is `g`. -/
theorem modular_divided {f : Int64 → Int64 → Int64} {g : Int → Int → Int}
    (hfg : (f a b).toInt = (g a.toInt b.toInt).bmod (2 ^ 64)) :
    Modular (.ofExcept ((Value.divided f a b).map .int))
        (if b.toInt = 0 then none else some (g a.toInt b.toInt)) ↔
      ¬(a = Int64.minValue ∧ b = -1) := by
  have hzero : b.toInt = 0 ↔ b = 0 := by rw [← Int64.toInt_inj, Int64.toInt_zero]
  by_cases hb : b = 0
  · rw [if_pos (hzero.2 hb), Value.divided, if_pos (.inl hb)]
    refine iff_of_true rfl ?_
    rintro ⟨-, h⟩
    cases hb.symm.trans h
  · rw [if_neg (mt hzero.1 hb)]
    by_cases hover : a = Int64.minValue ∧ b = -1
    · rw [Value.divided, if_pos (.inr hover)]
      exact iff_of_false not_modular_error (not_not_intro hover)
    · rw [Value.divided, if_neg (not_or_intro hb hover)]
      exact iff_of_true (modular_int hfg) hover

theorem modular_compute {op : BinaryOp} (hop : op.isBoolean = false) :
    Modular (.ofExcept (op.compute (.int a) (.int b))) (op.onIntegers a.toInt b.toInt) ↔
      ¬op.Overflows a b := by
  cases op with
  | add => exact iff_of_true (modular_int (Int64.toInt_add a b)) (by simp [BinaryOp.Overflows])
  | sub => exact iff_of_true (modular_int (Int64.toInt_sub a b)) (by simp [BinaryOp.Overflows])
  | mul => exact iff_of_true (modular_int (Int64.toInt_mul a b)) (by simp [BinaryOp.Overflows])
  | div =>
    refine (modular_divided (Int64.toInt_div a b)).trans (not_congr ?_)
    exact ⟨fun h => ⟨.inl rfl, h⟩, And.right⟩
  | rem =>
    have hrem : (a % b).toInt = (a.toInt.tmod b.toInt).bmod (2 ^ 64) := by
      rw [← Int64.toInt_mod]
      exact (Int64.toInt_bmod (a % b)).symm
    refine (modular_divided hrem).trans (not_congr ?_)
    exact ⟨fun h => ⟨.inr rfl, h⟩, And.right⟩
  | _ => cases hop

theorem compute_of_overflows {op : BinaryOp} (h : op.Overflows a b) :
    op.compute (.int a) (.int b) = .error .divisionByZero := by
  obtain ⟨rfl | rfl, rfl, rfl⟩ := h
  · rfl
  · rfl

variable {ev : Evaluator} {fuel : Nat} {site : Site} {env : Env} {x y : Expr}

theorem eval_binary_of_ints {op : BinaryOp} (hop : op.isBoolean = false)
    (hx : ev.eval fuel (site.child 0) env x = .ok (.int a))
    (hy : ev.eval fuel (site.child 1) env y = .ok (.int b)) (l : Label) :
    ev.eval fuel site env (.binary l op x y) = .ofExcept (op.compute (.int a) (.int b)) := by
  rw [eval] at hx hy ⊢
  cases op with
  | add | sub | mul | div | rem => simp only [node, hx, hy, Outcome.ok_bind]
  | _ => cases hop

/-- Arithmetic on operands with whole values is exact modulo 2⁶⁴ and fails on a zero divisor only.
The one exception is the least number divided by −1: its quotient and its remainder fail as well. -/
theorem eval_arithmetic (hx : ev.eval fuel (site.child 0) env x = .ok (.int a))
    (hy : ev.eval fuel (site.child 1) env y = .ok (.int b)) (l : Label) :
    (∀ op : BinaryOp, op.isBoolean = false →
      (Modular (ev.eval fuel site env (.binary l op x y)) (op.onIntegers a.toInt b.toInt) ↔
        ¬op.Overflows a b) ∧
      (op.Overflows a b →
        ev.eval fuel site env (.binary l op x y) = .error .divisionByZero)) ∧
    Modular (ev.eval fuel site env (.unary l .neg x)) (some (-a.toInt)) := by
  constructor
  · intro op hop
    rw [eval_binary_of_ints hop hx hy l]
    refine ⟨modular_compute hop, fun hover => ?_⟩
    rw [compute_of_overflows hover]
    rfl
  · have hneg : ev.eval fuel site env (.unary l .neg x) = .ok (.int (-a)) := by
      rw [eval] at hx ⊢
      simp only [node, hx, Outcome.ok_bind]
      rfl
    rw [hneg]
    exact modular_int (Int64.toInt_neg a)

end Evaluator

/-! ## Both ends of the range -/

namespace Extremes

def n : Param := ⟨.root 0, "n", .int⟩

/-- `n` is one. -/
def env : Env := [(n, .int 1)]

def evaluator : Evaluator where
  statics := []

/-- `9223372036854775807 + n` -/
def sum : Expr :=
  .binaryAt (.root 1) .add (.intAt (.root 2) Int64.maxValue) (.parameterAt (.root 3) n)

/-- `-9223372036854775808` divided by `-1` -/
def divided (op : BinaryOp) : Expr :=
  .binaryAt (.root 4) op (.intAt (.root 5) Int64.minValue) (.intAt (.root 6) (-1))

end Extremes

open Extremes Evaluator in
theorem eval_arithmetic_wrapped :
    evaluator.eval 0 (.child (.root 7) 0) env (.intAt (.root 2) Int64.maxValue) =
        .ok (.int Int64.maxValue) ∧
      evaluator.eval 0 (.child (.root 7) 1) env (.parameterAt (.root 3) n) = .ok (.int 1) ∧
      ¬BinaryOp.Overflows .add Int64.maxValue 1 ∧
      Modular (evaluator.eval 0 (.root 7) env sum) (some (2 ^ 63)) := by
  have hover : ¬BinaryOp.Overflows .add Int64.maxValue 1 := by decide
  exact ⟨rfl, rfl, hover, ((eval_arithmetic rfl rfl _).1 .add rfl).1.2 hover⟩

open Extremes Evaluator in
/-- The divisor is not zero, and there is a quotient modulo 2⁶⁴ and a remainder. -/
theorem not_modular_overflow :
    (evaluator.eval 0 (.root 7) [] (divided .div) = .error .divisionByZero ∧
      BinaryOp.onIntegers .div Int64.minValue.toInt (-1) = some (2 ^ 63) ∧
      ¬Modular (evaluator.eval 0 (.root 7) [] (divided .div)) (some (2 ^ 63))) ∧
    evaluator.eval 0 (.root 7) [] (divided .rem) = .error .divisionByZero ∧
      BinaryOp.onIntegers .rem Int64.minValue.toInt (-1) = some 0 ∧
      ¬Modular (evaluator.eval 0 (.root 7) [] (divided .rem)) (some 0) :=
  ⟨⟨rfl, rfl, not_modular_error⟩, rfl, rfl, not_modular_error⟩

end PredicateTree
