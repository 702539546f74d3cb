import PredicateTree.Proofs.Expr.Fill

/-!
# Proofs.Expr.Closed

Trees and values without loose references.

* `Expr.Closed Γ e`: every reference in `e` is to a variable of `Γ` or of a lambda around it, and
  every value in `e` is closed.
* `Value.Closed v`: the lambdas in `v` refer to variables of their own only. Nothing closes a value
  later, so what stands around it does not count.
* `closed_fill`: a tree stays closed when closed trees are put in for variables.
-/

namespace PredicateTree

mutual

def Expr.Closed (Γ : List Param) : Expr → Prop
  | .binary _ _ a b => a.Closed Γ ∧ b.Closed Γ
  | .unary _ _ a => a.Closed Γ
  | .member _ t _ => t.Closed Γ
  | .call _ t _ as => Expr.ClosedOption Γ t ∧ Expr.ClosedList Γ as
  | .constant _ v => v.Closed
  | .parameter _ p => p ∈ Γ
  | .conditional _ a b c => a.Closed Γ ∧ b.Closed Γ ∧ c.Closed Γ
  | .dynamic _ _ as => Expr.ClosedList Γ as
  | .lambda _ ps b => b.Closed (ps ++ Γ)
  | .static .. | .default _ => True

def Expr.ClosedOption (Γ : List Param) : Option Expr → Prop
  | none => True
  | some a => a.Closed Γ

def Expr.ClosedList (Γ : List Param) : List Expr → Prop
  | [] => True
  | a :: as => a.Closed Γ ∧ Expr.ClosedList Γ as

def Value.Closed : Value → Prop
  | .object _ fs => Value.ClosedFields fs
  | .lambda ps b => b.Closed ps
  | .null | .bool _ | .int _ | .float _ | .str _ => True

def Value.ClosedFields : List (String × Value) → Prop
  | [] => True
  | (_, v) :: fs => v.Closed ∧ Value.ClosedFields fs

end

def Lambda.Closed (l : Lambda) : Prop := l.body.Closed l.params

theorem Value.closedFields_iff (fs : List (String × Value)) :
    Value.ClosedFields fs ↔ ∀ f ∈ fs, f.2.Closed := by
  induction fs with
  | nil => simp [Value.ClosedFields]
  | cons f fs ih => simp [Value.ClosedFields, ih]

theorem Value.Closed.asLambda? {v : Value} (hv : v.Closed) {l : Lambda}
    (h : v.asLambda? = some l) : l.Closed := by
  cases v with
  | lambda ps b =>
    cases h
    exact hv
  | _ => cases h

namespace Expr

variable {Γ : List Param}

theorem closedOption_iff (t : Option Expr) :
    ClosedOption Γ t ↔ ∀ a ∈ t.toList, a.Closed Γ := by
  cases t <;> simp [ClosedOption]

theorem closedList_iff (as : List Expr) : ClosedList Γ as ↔ ∀ a ∈ as, a.Closed Γ := by
  induction as with
  | nil => simp [ClosedList]
  | cons a as ih => simp [ClosedList, ih]

/-- What a closed tree has at its top. -/
def ClosedHead (Γ : List Param) : Expr → Prop
  | .parameter _ p => p ∈ Γ
  | .constant _ v => v.Closed
  | _ => True

theorem closed_iff (e : Expr) :
    e.Closed Γ ↔ e.ClosedHead Γ ∧ ∀ c ∈ e.children, c.Closed (e.declared ++ Γ) := by
  cases e with
  | call l t m as =>
    simp [Closed, ClosedHead, children, declared, closedOption_iff, closedList_iff, or_imp,
      forall_and]
  | dynamic l b as => simp [Closed, ClosedHead, children, declared, closedList_iff]
  | _ => simp [Closed, ClosedHead, children, declared]

theorem closedHead_of_isAtom {e : Expr} (h : e.isAtom = false) : e.ClosedHead Γ := by
  cases e with
  | parameter | constant => cases h
  | _ => trivial

theorem closedHead_withChildren (site : Site) (e : Expr) (cs : List Expr) :
    (e.withChildren site cs).ClosedHead Γ ↔ e.ClosedHead Γ := by
  unfold withChildren
  split <;> rfl

@[simp] theorem declared_withChildren (site : Site) (e : Expr) (cs : List Expr) :
    (e.withChildren site cs).declared = e.declared := by
  unfold withChildren
  split <;> rfl

theorem Closed.mono {e : Expr} : ∀ {Γ Δ : List Param}, Γ ⊆ Δ → e.Closed Γ → e.Closed Δ := by
  induction e using byChildren with
  | node e ih =>
    intro Γ Δ hsub he
    obtain ⟨hhead, hparts⟩ := (closed_iff e).1 he
    refine (closed_iff e).2 ⟨?_, fun c hc => ih c hc ?_ (hparts c hc)⟩
    · cases e with
      | parameter l p => exact hsub hhead
      | constant l v => exact hhead
      | _ => trivial
    · exact List.append_subset.2
        ⟨List.subset_append_left _ _, fun p hp => List.mem_append_right _ (hsub hp)⟩

end Expr

/-! ## Bare trees and filled trees -/

mutual

theorem Expr.closed_relabel (f : Label → Label) :
    ∀ (e : Expr) (Γ : List Param), (e.relabel f).Closed Γ ↔ e.Closed Γ
  | .binary _ _ a b, Γ => by
    simp [Expr.relabel, Expr.Closed, Expr.closed_relabel f a, Expr.closed_relabel f b]
  | .unary _ _ a, Γ => by simp [Expr.relabel, Expr.Closed, Expr.closed_relabel f a]
  | .member _ t _, Γ => by simp [Expr.relabel, Expr.Closed, Expr.closed_relabel f t]
  | .static .., _ => Iff.rfl
  | .call _ t _ as, Γ => by
    simp [Expr.relabel, Expr.Closed, Expr.closedOption_relabel f t, Expr.closedList_relabel f as]
  | .constant _ v, _ => by simp [Expr.relabel, Expr.Closed, Value.closed_relabel f v]
  | .parameter .., _ => Iff.rfl
  | .conditional _ a b c, Γ => by
    simp [Expr.relabel, Expr.Closed, Expr.closed_relabel f a, Expr.closed_relabel f b,
      Expr.closed_relabel f c]
  | .default _, _ => Iff.rfl
  | .dynamic _ _ as, Γ => by simp [Expr.relabel, Expr.Closed, Expr.closedList_relabel f as]
  | .lambda _ _ a, Γ => by simp [Expr.relabel, Expr.Closed, Expr.closed_relabel f a]

theorem Expr.closedOption_relabel (f : Label → Label) :
    ∀ (t : Option Expr) (Γ : List Param),
      Expr.ClosedOption Γ (Expr.relabelOption f t) ↔ Expr.ClosedOption Γ t
  | none, _ => Iff.rfl
  | some a, Γ => Expr.closed_relabel f a Γ

theorem Expr.closedList_relabel (f : Label → Label) :
    ∀ (as : List Expr) (Γ : List Param),
      Expr.ClosedList Γ (Expr.relabelList f as) ↔ Expr.ClosedList Γ as
  | [], _ => Iff.rfl
  | a :: as, Γ => and_congr (Expr.closed_relabel f a Γ) (Expr.closedList_relabel f as Γ)

theorem Value.closed_relabel (f : Label → Label) : ∀ v : Value, (v.relabel f).Closed ↔ v.Closed
  | .object _ fs => Value.closedFields_relabel f fs
  | .lambda ps a => Expr.closed_relabel f a ps
  | .null | .bool _ | .int _ | .float _ | .str _ => Iff.rfl

theorem Value.closedFields_relabel (f : Label → Label) : ∀ fs : List (String × Value),
    Value.ClosedFields (Value.relabelFields f fs) ↔ Value.ClosedFields fs
  | [] => Iff.rfl
  | (_, v) :: fs => and_congr (Value.closed_relabel f v) (Value.closedFields_relabel f fs)

end

@[simp] theorem Value.closed_bare (v : Value) : v.bare.Closed ↔ v.Closed := v.closed_relabel _

@[simp] theorem Expr.closed_bare (e : Expr) (Γ : List Param) : e.bare.Closed Γ ↔ e.Closed Γ :=
  e.closed_relabel _ Γ

/-- What is put in for a variable may stand below any lambda, so it is to be closed by itself. -/
structure Fills (g : Param → Option Expr) (Γ Δ : List Param) : Prop where
  closed : ∀ p a, g p = some a → a.Closed []
  rest : ∀ p ∈ Γ, g p = none → p ∈ Δ

theorem Fills.append {g : Param → Option Expr} {Γ Δ : List Param} (h : Fills g Γ Δ)
    (ps : List Param) : Fills g (ps ++ Γ) (ps ++ Δ) where
  closed := h.closed
  rest p hp hg := by
    rcases List.mem_append.1 hp with hp | hp
    · exact List.mem_append_left _ hp
    · exact List.mem_append_right _ (h.rest p hp hg)

mutual

theorem Expr.closed_fill {g : Param → Option Expr} :
    ∀ (e : Expr) {Γ Δ : List Param}, Fills g Γ Δ → e.Closed Γ → (e.fill g).Closed Δ
  | .binary _ _ a b, _, _, hg, he => ⟨Expr.closed_fill a hg he.1, Expr.closed_fill b hg he.2⟩
  | .unary _ _ a, _, _, hg, he => Expr.closed_fill a hg he
  | .member _ t _, _, _, hg, he => Expr.closed_fill t hg he
  | .static .., _, _, _, _ => trivial
  | .call _ t _ as, _, _, hg, he =>
    ⟨Expr.closedOption_fill t hg he.1, Expr.closedList_fill as hg he.2⟩
  | .constant _ v, _, _, _, he => v.closed_bare.2 he
  | .parameter l p, Γ, Δ, hg, he => by
    rw [Expr.fill]
    cases hp : g p with
    | none => exact hg.rest p he hp
    | some a => exact (hg.closed p a hp).mono (List.nil_subset _)
  | .conditional _ a b c, _, _, hg, he =>
    ⟨Expr.closed_fill a hg he.1, Expr.closed_fill b hg he.2.1, Expr.closed_fill c hg he.2.2⟩
  | .default _, _, _, _, _ => trivial
  | .dynamic _ _ as, _, _, hg, he => Expr.closedList_fill as hg he
  | .lambda _ ps a, _, _, hg, he => Expr.closed_fill a (hg.append ps) he

theorem Expr.closedOption_fill {g : Param → Option Expr} :
    ∀ (t : Option Expr) {Γ Δ : List Param}, Fills g Γ Δ → Expr.ClosedOption Γ t →
      Expr.ClosedOption Δ (Expr.fillOption g t)
  | none, _, _, _, _ => trivial
  | some a, _, _, hg, ha => Expr.closed_fill a hg ha

theorem Expr.closedList_fill {g : Param → Option Expr} :
    ∀ (as : List Expr) {Γ Δ : List Param}, Fills g Γ Δ → Expr.ClosedList Γ as →
      Expr.ClosedList Δ (Expr.fillList g as)
  | [], _, _, _, _ => trivial
  | a :: as, _, _, hg, has => ⟨Expr.closed_fill a hg has.1, Expr.closedList_fill as hg has.2⟩

end

end PredicateTree
