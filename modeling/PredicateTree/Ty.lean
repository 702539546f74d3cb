import PredicateTree.Text.Comma

/-!
# Ty

Static types of nodes: the scalars, host classes known by name, and functions.

* `Ty.text`: the printed form. A class may be called `bool`; it prints like the scalar and is
  still another type.
* `Ty.className`: the name under which members read from a value of the type are declared.
-/

namespace PredicateTree

inductive Ty where
  | bool
  | int
  | float
  | string
  | named (name : String)
  | fn (params : List Ty) (result : Ty)
deriving Inhabited

namespace Ty

mutual

def text : Ty → String
  | bool => "bool"
  | int => "int"
  | float => "float"
  | string => "string"
  | named name => name
  | fn params result => "fn(" ++ commaSeparated (texts params) ++ ") -> " ++ result.text

def texts : List Ty → List String
  | [] => []
  | t :: ts => t.text :: texts ts

end

def className : Ty → String
  | named name => name
  | t => t.text

def isBool : Ty → Bool
  | bool => true
  | _ => false

/-! ## Equality -/

mutual

def beq : Ty → Ty → Bool
  | bool, bool => true
  | int, int => true
  | float, float => true
  | string, string => true
  | named a, named b => a == b
  | fn ps r, fn qs s => beqAll ps qs && beq r s
  | _, _ => false

def beqAll : List Ty → List Ty → Bool
  | [], [] => true
  | p :: ps, q :: qs => beq p q && beqAll ps qs
  | _, _ => false

end

mutual

theorem beq_iff : ∀ a b : Ty, beq a b = true ↔ a = b
  | fn ps r, b => by cases b <;> simp [beq, beqAll_iff ps, beq_iff r]
  | bool, b => by cases b <;> simp [beq]
  | int, b => by cases b <;> simp [beq]
  | float, b => by cases b <;> simp [beq]
  | string, b => by cases b <;> simp [beq]
  | named _, b => by cases b <;> simp [beq]

theorem beqAll_iff : ∀ ps qs : List Ty, beqAll ps qs = true ↔ ps = qs
  | [], qs => by cases qs <;> simp [beqAll]
  | p :: ps, qs => by cases qs <;> simp [beqAll, beq_iff p, beqAll_iff ps]

end

instance : DecidableEq Ty := fun _ _ => decidable_of_iff _ (beq_iff _ _)

end Ty

end PredicateTree
