/-!
# Outcome

How a computation with a bound on its depth ends: with a value, with an error, or not within the
bound.
-/

namespace PredicateTree

inductive Outcome (ε α : Type) where
  | ok (a : α)
  | error (e : ε)
  | unfinished
deriving DecidableEq

namespace Outcome

variable {ε δ α β : Type}

def bind (x : Outcome ε α) (f : α → Outcome ε β) : Outcome ε β :=
  match x with
  | ok a => f a
  | error e => error e
  | unfinished => unfinished

instance : Monad (Outcome ε) where
  pure := ok
  bind := bind

@[simp] theorem pure_eq (a : α) : (pure a : Outcome ε α) = ok a := rfl

@[simp] theorem ok_bind (a : α) (f : α → Outcome ε β) : (ok a >>= f) = f a := rfl

@[simp] theorem error_bind (e : ε) (f : α → Outcome ε β) : (error e >>= f) = error e := rfl

@[simp] theorem unfinished_bind (f : α → Outcome ε β) : (unfinished >>= f) = unfinished := rfl

instance : LawfulMonad (Outcome ε) :=
  LawfulMonad.mk' _ (fun x => by cases x <;> rfl) (fun _ _ => rfl)
    (fun x _ _ => by cases x <;> rfl)

theorem ok_ne_unfinished (a : α) : (ok a : Outcome ε α) ≠ .unfinished := by
  intro h
  cases h

theorem error_ne_unfinished (e : ε) : (error e : Outcome ε α) ≠ .unfinished := by
  intro h
  cases h

theorem bind_ne_unfinished {x : Outcome ε α} {f : α → Outcome ε β} (hx : x ≠ .unfinished)
    (hf : ∀ a, x = .ok a → f a ≠ .unfinished) : x >>= f ≠ .unfinished := by
  cases x with
  | ok a => exact hf a rfl
  | error e => exact error_ne_unfinished e
  | unfinished => exact absurd rfl hx

def ofExcept : Except ε α → Outcome ε α
  | .ok a => ok a
  | .error e => error e

theorem ofExcept_ne_unfinished (x : Except ε α) : ofExcept x ≠ .unfinished := by
  cases x with
  | ok a => exact ok_ne_unfinished a
  | error e => exact error_ne_unfinished e

/-- What a computation that has ended gives. -/
def toExcept : (x : Outcome ε α) → x ≠ .unfinished → Except ε α
  | ok a, _ => .ok a
  | error e, _ => .error e
  | unfinished, h => absurd rfl h

@[simp] theorem ofExcept_toExcept {x : Outcome ε α} (h : x ≠ .unfinished) :
    ofExcept (x.toExcept h) = x := by
  cases x with
  | ok a => rfl
  | error e => rfl
  | unfinished => exact absurd rfl h

/-- The same outcome with its error seen as one of another kind. -/
def mapError (f : ε → δ) : Outcome ε α → Outcome δ α
  | ok a => ok a
  | error e => error (f e)
  | unfinished => unfinished

end Outcome

end PredicateTree
