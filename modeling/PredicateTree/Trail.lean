/-!
# Trail

A sequence that is put together from parts. Joining two parts takes one step however long they are,
so a walk over a tree can join what it finds below each node; the members are listed once, at the
end.

* `Trail.toList`: the members in order, the view of a trail.
-/

namespace PredicateTree

inductive Trail (α : Type) where
  | empty
  | one (a : α)
  | join (s t : Trail α)

namespace Trail

variable {α : Type}

/-- The members, in front of those that follow. -/
def onto : Trail α → List α → List α
  | empty, rest => rest
  | one a, rest => a :: rest
  | join s t, rest => s.onto (t.onto rest)

def toList (s : Trail α) : List α := s.onto []

/-- One trail after the other. -/
def append (s t : Trail α) : Trail α :=
  match s, t with
  | empty, t => t
  | s, empty => s
  | s, t => join s t

instance : Append (Trail α) := ⟨append⟩

theorem onto_eq (s : Trail α) (rest : List α) : s.onto rest = s.toList ++ rest := by
  induction s generalizing rest with
  | empty => rfl
  | one _ => rfl
  | join s t ihs iht =>
    simp only [toList, onto]
    rw [ihs, iht, ihs (t.onto []), iht []]
    simp

@[simp] theorem toList_empty : (empty : Trail α).toList = [] := rfl

@[simp] theorem toList_one (a : α) : (one a).toList = [a] := rfl

theorem toList_join (s t : Trail α) : (join s t).toList = s.toList ++ t.toList := by
  show s.onto (t.onto []) = s.toList ++ t.toList
  rw [onto_eq s]
  rfl

@[simp] theorem toList_append (s t : Trail α) : (s ++ t).toList = s.toList ++ t.toList := by
  show (append s t).toList = s.toList ++ t.toList
  unfold append
  split <;> simp [toList_join]

end Trail

end PredicateTree
