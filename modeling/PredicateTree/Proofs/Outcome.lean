import Mathlib.Order.Filter.AtTopBot.Basic
import Mathlib.Order.Filter.Finite
import PredicateTree.Outcome

/-!
# Proofs.Outcome

Ways in which one outcome bears out another, all kept by `>>=`:

* `Outcome.Approx r x y`: where `x` has ended, `y` ends in the same way, with values related by `r`
  or with the same error. So `y` is `x` with more room.
* `Outcome.Leads r x y`: where `x` has a value, `y` has one related by `r`. Nothing is said when `x`
  fails.
* `Outcome.Lifting`: any such way that `Approx` is a case of and that `>>=` keeps, so that what both
  need is proved once.
* `Outcome.Upto stop x y`: `x` ends like `y` unless it was cut short, by its bound or by an error of
  the kind `stop`.

`Outcome.Evades bad x` is about one outcome: it is not of the kind `bad`. This too is kept by `>>=`.
-/

namespace PredicateTree

namespace Outcome

variable {ε α β γ δ : Type}

theorem bind_eq_ok {x : Outcome ε α} {f : α → Outcome ε β} {b : β} :
    (x >>= f) = .ok b ↔ ∃ a, x = .ok a ∧ f a = .ok b := by
  cases x <;> simp

theorem pure_eq_ok {a b : α} : (pure a : Outcome ε α) = .ok b ↔ a = b := by
  rw [pure_eq, ok.injEq]

theorem mapError_eq_ok {f : ε → δ} {x : Outcome ε α} {a : α} : x.mapError f = .ok a ↔ x = .ok a := by
  cases x <;> simp [mapError]

@[simp] theorem ofExcept_eq_ok {x : Except ε α} {a : α} :
    (ofExcept x : Outcome ε α) = .ok a ↔ x = .ok a := by
  cases x <;> simp [ofExcept]

@[simp] theorem ofExcept_eq_error {x : Except ε α} {e : ε} :
    (ofExcept x : Outcome ε α) = .error e ↔ x = .error e := by
  cases x <;> simp [ofExcept]

@[simp] theorem toExcept_eq_ok {x : Outcome ε α} {h : x ≠ .unfinished} {a : α} :
    x.toExcept h = .ok a ↔ x = .ok a := by
  rw [← ofExcept_eq_ok, ofExcept_toExcept]

@[simp] theorem toExcept_eq_error {x : Outcome ε α} {h : x ≠ .unfinished} {e : ε} :
    x.toExcept h = .error e ↔ x = .error e := by
  rw [← ofExcept_eq_error, ofExcept_toExcept]

/-- What holds of each of finitely many things with room enough holds of all with room enough. -/
theorem exists_bound_forall_mem {xs : List α} {P : α → Nat → Prop}
    (h : ∀ x ∈ xs, ∃ bound, ∀ n, bound ≤ n → P x n) :
    ∃ bound, ∀ n, bound ≤ n → ∀ x ∈ xs, P x n := by
  have hall : ∀ᶠ n in Filter.atTop, ∀ x ∈ xs, P x n :=
    (Filter.eventually_all_finite xs.finite_toSet).2 fun x hx =>
      Filter.eventually_atTop.2 (h x hx)
  exact Filter.eventually_atTop.1 hall

def Approx (r : α → β → Prop) : Outcome ε α → Outcome ε β → Prop
  | .unfinished, _ => True
  | .ok a, .ok b => r a b
  | .error e, .error f => e = f
  | _, _ => False

def Leads (r : α → β → Prop) (x : Outcome ε α) (y : Outcome ε β) : Prop :=
  ∀ a, x = .ok a → ∃ b, y = .ok b ∧ r a b

variable {r : α → β → Prop} {q : γ → δ → Prop} {x : Outcome ε α} {y : Outcome ε β}

theorem Approx.refl {r : α → α → Prop} (h : ∀ a, r a a) : x.Approx r x := by
  cases x with
  | ok a => exact h a
  | error e => rfl
  | unfinished => trivial

/-- Outcomes that bear out each other are the same as far as their values are looked at. -/
theorem Approx.map_eq {x : Outcome ε α} {y : Outcome ε β} {f : α → γ} {g : β → γ}
    (h : x.Approx (fun a b => f a = g b) y) (h' : y.Approx (fun b a => g b = f a) x) :
    f <$> x = g <$> y := by
  cases x with
  | ok a =>
    cases y with
    | ok b => exact congrArg ok h
    | error e => exact h.elim
    | unfinished => exact h.elim
  | error e =>
    cases y with
    | error e' => exact congrArg error h
    | ok b => exact h.elim
    | unfinished => exact h.elim
  | unfinished =>
    cases y with
    | unfinished => rfl
    | ok b => exact h'.elim
    | error e => exact h'.elim

theorem Approx.antisymm {x y : Outcome ε α} (h : x.Approx Eq y) (h' : y.Approx Eq x) :
    x = y := by
  have hid : id <$> x = id <$> y := Approx.map_eq h h'
  rwa [id_map, id_map] at hid

theorem Approx.eq_of_ended {x y : Outcome ε α} (h : x.Approx Eq y) (hx : x ≠ .unfinished) :
    x = y := by
  cases x with
  | unfinished => exact absurd rfl hx
  | ok a =>
    cases y with
    | ok b => exact congrArg ok h
    | error | unfinished => exact h.elim
  | error e =>
    cases y with
    | error e' => exact congrArg error h
    | ok | unfinished => exact h.elim

theorem Approx.ended (h : x.Approx r y) (hx : x ≠ .unfinished) : y ≠ .unfinished := by
  rintro rfl
  cases x with
  | unfinished => exact hx rfl
  | ok | error => exact h.elim

theorem Approx.leads (h : x.Approx r y) : x.Leads r y := by
  intro a hx
  subst hx
  cases y with
  | ok b => exact ⟨b, rfl, h⟩
  | error e => exact h.elim
  | unfinished => exact h.elim

theorem Approx.ofExcept {x : Except ε α} {y : Except ε β} {f : α → γ} {g : β → γ}
    (h : x.map f = y.map g) :
    (Outcome.ofExcept x).Approx (fun a b => f a = g b) (Outcome.ofExcept y) := by
  cases x <;> cases y <;> simp_all [Except.map, Outcome.ofExcept, Approx]

theorem Approx.bind {f : α → Outcome ε γ} {g : β → Outcome ε δ} (h : x.Approx r y)
    (hf : ∀ a b, r a b → (f a).Approx q (g b)) : (x >>= f).Approx q (y >>= g) := by
  cases x with
  | unfinished => trivial
  | ok a =>
    cases y with
    | ok b => exact hf a b h
    | error e => exact h.elim
    | unfinished => exact h.elim
  | error e =>
    cases y with
    | error f => exact h
    | ok b => exact h.elim
    | unfinished => exact h.elim

theorem Leads.bind {f : α → Outcome ε γ} {g : β → Outcome ε δ} (h : x.Leads r y)
    (hf : ∀ a b, x = .ok a → r a b → (f a).Leads q (g b)) : (x >>= f).Leads q (y >>= g) := by
  intro c hc
  obtain ⟨a, hx, ha⟩ := bind_eq_ok.1 hc
  obtain ⟨b, hy, hab⟩ := h a hx
  obtain ⟨d, hd, hcd⟩ := hf a b hx hab c ha
  exact ⟨d, bind_eq_ok.2 ⟨b, hy, hd⟩, hcd⟩

/-- A way in which one outcome bears out another. -/
structure Lifting (ε : Type) where
  rel {α β : Type} (r : α → β → Prop) : Outcome ε α → Outcome ε β → Prop
  of_approx {α β : Type} {r : α → β → Prop} {x : Outcome ε α} {y : Outcome ε β} :
    x.Approx r y → rel r x y
  bind {α β γ δ : Type} {r : α → β → Prop} {q : γ → δ → Prop} {x : Outcome ε α} {y : Outcome ε β}
    {f : α → Outcome ε γ} {g : β → Outcome ε δ} :
    rel r x y → (∀ a b, r a b → rel q (f a) (g b)) → rel q (x >>= f) (y >>= g)

namespace Lifting

def approx : Lifting ε := ⟨Approx, id, Approx.bind⟩

def leads : Lifting ε := ⟨Leads, Approx.leads, fun h hf => h.bind fun a b _ => hf a b⟩

end Lifting

/-! ## Cut short -/

def Upto (stop : ε → Prop) (x y : Outcome ε α) : Prop :=
  x = y ∨ x = .unfinished ∨ ∃ e, stop e ∧ x = .error e

variable {stop : ε → Prop}

theorem Upto.refl (x : Outcome ε α) : x.Upto stop x := .inl rfl

theorem Upto.unfinished (y : Outcome ε α) : Outcome.unfinished.Upto stop y := .inr (.inl rfl)

theorem Upto.bind {x y : Outcome ε α} {f g : α → Outcome ε β} (h : x.Upto stop y)
    (hf : ∀ a, (f a).Upto stop (g a)) : (x >>= f).Upto stop (y >>= g) := by
  obtain rfl | rfl | ⟨e, he, rfl⟩ := h
  · cases x with
    | ok a => exact hf a
    | error e => exact .refl _
    | unfinished => exact .unfinished _
  · exact .unfinished _
  · exact .inr (.inr ⟨e, he, rfl⟩)

/-- What no error cuts short may still be cut short by its bound. -/
theorem Upto.approx {x y : Outcome ε α} (h : x.Upto (fun _ => False) y) : x.Approx Eq y := by
  obtain rfl | rfl | ⟨e, he, -⟩ := h
  · exact .refl fun _ => rfl
  · trivial
  · exact he.elim

theorem Upto.eq {x y : Outcome ε α} (h : x.Upto stop y) (hx : x ≠ .unfinished)
    (hstop : ∀ e, stop e → x ≠ .error e) : x = y := by
  obtain rfl | rfl | ⟨e, he, rfl⟩ := h
  · rfl
  · exact absurd rfl hx
  · exact absurd rfl (hstop e he)

/-! ## Not in this way -/

/-- `bad` says which errors are meant, and of `none` whether not to end is. -/
def Evades (bad : Option ε → Prop) : Outcome ε α → Prop
  | .ok _ => True
  | .error e => ¬bad (some e)
  | .unfinished => ¬bad none

variable {bad : Option ε → Prop}

theorem Evades.ok (a : α) : (ok a : Outcome ε α).Evades bad := trivial

theorem Evades.bind {x : Outcome ε α} {f : α → Outcome ε β} (h : x.Evades bad)
    (hf : ∀ a, x = .ok a → (f a).Evades bad) : (x >>= f).Evades bad := by
  cases x with
  | ok a => exact hf a rfl
  | error e => exact h
  | unfinished => exact h

theorem Evades.of_never {x : Outcome ε α} (h : ∀ e, ¬bad e) : x.Evades bad := by
  cases x with
  | ok a => trivial
  | error e => exact h (some e)
  | unfinished => exact h none

theorem Evades.mapError {f : ε → δ} {bad : Option δ → Prop} {x : Outcome ε α}
    (h : x.Evades fun e => bad (e.map f)) : (x.mapError f).Evades bad := by
  cases x with
  | ok a => trivial
  | error e => exact h
  | unfinished => exact h

theorem evades_none_iff {x : Outcome ε α} : x.Evades (· = none) ↔ x ≠ .unfinished := by
  cases x <;> simp [Evades]

theorem Evades.ne_error {x : Outcome ε α} (h : x.Evades bad) {e : ε} (he : bad (some e)) :
    x ≠ .error e := by
  rintro rfl
  exact h he

end Outcome

end PredicateTree
