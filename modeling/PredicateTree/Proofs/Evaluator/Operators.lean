import PredicateTree.Evaluator.Methods
import PredicateTree.Proofs.Expr.Fill

/-!
# Proofs.Evaluator.Operators

No operator and no member access looks at the identity of nodes: on bare values each gives the bare
result, and the same error.
-/

namespace PredicateTree

namespace Value

@[simp] theorem kindName_bare (v : Value) : v.bare.kindName = v.kindName := by cases v <;> rfl

@[simp] theorem asNumber?_bare (v : Value) : v.bare.asNumber? = v.asNumber? := by cases v <;> rfl

@[simp] theorem expectBool_bare (v : Value) : v.bare.expectBool = v.expectBool := by
  cases v <;> rfl

@[simp] theorem bare_bool (b : Bool) : (bool b).bare = bool b := rfl

theorem asLambda?_bare (v : Value) : v.bare.asLambda? = v.asLambda?.map Lambda.bare := by
  cases v <;> rfl

theorem bare_eq_bool {v : Value} {b : Bool} (h : v.bare = bool b) : v = bool b := by
  cases v with
  | bool c => exact h
  | _ => cases h

theorem equals_bare (v w : Value) : v.bare.equals w.bare = v.equals w := by
  have h : v.bare.alike w.bare = v.alike w := by
    rw [Bool.eq_iff_iff, alike_iff, alike_iff, bare_bare, bare_bare]
  simp only [equals, asNumber?_bare, h]

theorem order_bare (v w : Value) : v.bare.order w.bare = v.order w := by
  cases v <;> cases w <;> rfl

theorem arithmetic_bare (onInt : Int64 → Int64 → Except EvalError Int64)
    (onFloat : Binary64 → Binary64 → Binary64) (v w : Value) :
    v.bare.arithmetic onInt onFloat w.bare = (v.arithmetic onInt onFloat w).map bare := by
  cases v with
  | int m =>
    cases w with
    | int n =>
      show (onInt m n).map int = ((onInt m n).map int).map bare
      cases onInt m n <;> rfl
    | _ => rfl
  | _ => cases w <;> rfl

/-- The field of a bare object is the bare field. -/
theorem get?_relabelFields (fs : List (String × Value)) (name : String) :
    Table.get? (relabelFields Label.bare fs) name = (Table.get? fs name).map bare := by
  induction fs with
  | nil => rfl
  | cons f fs ih =>
    obtain ⟨k, v⟩ := f
    simp only [relabelFields, Table.get?, List.lookup_cons] at ih ⊢
    cases name == k with
    | true => rfl
    | false => exact ih

theorem readMember_bare (v : Value) (name : String) :
    v.bare.readMember name = (v.readMember name).map bare := by
  cases v with
  | object c fs =>
    simp only [bare, relabel, readMember, get?_relabelFields]
    cases Table.get? fs name <;> rfl
  | _ => rfl

end Value

theorem BinaryOp.compute_bare (op : BinaryOp) (v w : Value) :
    op.compute v.bare w.bare = (op.compute v w).map Value.bare := by
  cases op with
  | add => cases v <;> cases w <;> rfl
  | sub => exact Value.arithmetic_bare _ _ v w
  | mul => exact Value.arithmetic_bare _ _ v w
  | div => exact Value.arithmetic_bare _ _ v w
  | rem => exact Value.arithmetic_bare _ _ v w
  | eq => simp [compute, Value.equals_bare, Except.map]
  | ne => simp [compute, Value.equals_bare, Except.map]
  | lt | le | gt | ge =>
    simp only [compute, Value.order_bare]
    cases v.order w <;> rfl
  | and | or =>
    simp only [compute, Value.expectBool_bare]
    cases v.expectBool with
    | error e => rfl
    | ok a => cases w.expectBool <;> rfl

theorem UnaryOp.compute_bare (op : UnaryOp) (v : Value) :
    op.compute v.bare = (op.compute v).map Value.bare := by
  cases op <;> cases v <;> rfl

end PredicateTree
