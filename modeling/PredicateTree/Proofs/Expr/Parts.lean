import Mathlib.Data.List.Forall2
import PredicateTree.Expr.Fold

/-!
# Proofs.Expr.Parts

A node and its parts, whatever kind of node it is.

* `Expr.byChildren`: induction in which every part of a node has an induction hypothesis.
* `Expr.withChildren`: the node made anew at a site over other parts. A pass that rebuilds a node
  gives `withChildren` of it; `withChildren_spec` says what its parts and its label are.
* `Expr.Every`: a property of all nodes of a tree, each judged together with the parameters of the
  lambdas around it, the nearest first. `Expr.All` is the case where these do not matter.
* `Expr.Avoids p`: no node refers to the variable `p`.

Constants have no parts, so what stands inside a constant is never meant.
-/

namespace PredicateTree

theorem mem_of_lookup {α β : Type} [BEq α] [LawfulBEq α] {l : List (α × β)} {k : α} {v : β}
    (h : List.lookup k l = some v) : (k, v) ∈ l := by
  obtain ⟨before, after, rfl, -⟩ := List.lookup_eq_some_iff.1 h
  simp

theorem exists_lookup_of_mem {α β : Type} [BEq α] [LawfulBEq α] {l : List (α × β)} {k : α} {v : β}
    (h : (k, v) ∈ l) : ∃ w, List.lookup k l = some w := by
  cases hlookup : List.lookup k l with
  | some w => exact ⟨w, rfl⟩
  | none =>
    have hne := List.lookup_eq_none_iff.1 hlookup (k, v) h
    simp at hne

theorem forall₂_of_common {α β γ : Type} {P : α → β → Prop} {Q : α → γ → Prop} {R : β → γ → Prop}
    (h : ∀ a b c, P a b → Q a c → R b c) {as : List α} {bs : List β} {cs : List γ}
    (hP : List.Forall₂ P as bs) (hQ : List.Forall₂ Q as cs) : List.Forall₂ R bs cs := by
  induction hP generalizing cs with
  | nil =>
    cases hQ
    exact .nil
  | cons hab _ ih =>
    obtain _ | ⟨hac, hQ⟩ := hQ
    exact .cons (h _ _ _ hab hac) (ih hQ)

namespace Expr

def isParameter : Expr → Bool
  | .parameter .. => true
  | _ => false

/-- A reference or a value. -/
def isAtom : Expr → Bool
  | .parameter .. | .constant .. => true
  | _ => false

/-- The variable that a node refers to, if it is a reference. -/
def reference? : Expr → Option Param
  | .parameter _ p => some p
  | _ => none

/-- The parameters that a node declares for its parts. -/
def declared : Expr → List Param
  | .lambda _ ps _ => ps
  | _ => []

def isLambda : Expr → Bool
  | .lambda .. => true
  | _ => false

/-- A call that is evaluated by calling the lambda in its first argument. -/
def isExpandable : Expr → Bool
  | .call _ _ m _ => m.isExpandable
  | _ => false

theorem sizeOf_lt_of_mem_children {e c : Expr} (h : c ∈ e.children) : sizeOf c < sizeOf e := by
  cases e with
  | call l t m as =>
    simp only [children, List.mem_append] at h
    rcases h with h | h
    · cases t with
      | none => simp at h
      | some a =>
        have hc : c = a := by simpa using h
        subst hc
        simp only [call.sizeOf_spec, Option.some.sizeOf_spec]
        omega
    · have := List.sizeOf_lt_of_mem h
      simp only [call.sizeOf_spec]
      omega
  | dynamic l b as =>
    have := List.sizeOf_lt_of_mem (show c ∈ as from h)
    simp only [dynamic.sizeOf_spec]
    omega
  | binary l o a b =>
    simp only [children, List.mem_cons, List.not_mem_nil, or_false] at h
    simp only [binary.sizeOf_spec]
    rcases h with rfl | rfl <;> omega
  | conditional l a b c =>
    simp only [children, List.mem_cons, List.not_mem_nil, or_false] at h
    simp only [conditional.sizeOf_spec]
    rcases h with rfl | rfl | rfl <;> omega
  | unary l o a =>
    obtain rfl := List.mem_singleton.1 h
    simp only [unary.sizeOf_spec]
    omega
  | member l t r =>
    obtain rfl := List.mem_singleton.1 h
    simp only [member.sizeOf_spec]
    omega
  | lambda l ps b =>
    obtain rfl := List.mem_singleton.1 h
    simp only [lambda.sizeOf_spec]
    omega
  | static | constant | parameter | default => cases h

/-- Induction over trees: what holds of a node whenever it holds of its parts holds of all trees. -/
@[elab_as_elim]
theorem byChildren {motive : Expr → Prop}
    (node : ∀ e, (∀ c ∈ e.children, motive c) → motive e) (e : Expr) : motive e :=
  node e fun c hc =>
    have := sizeOf_lt_of_mem_children hc
    byChildren node c
termination_by sizeOf e

/-! ## Other parts under the same head -/

def withChildren (site : Site) : Expr → List Expr → Expr
  | .binary l op _ _, [a, b] => .binary ⟨site, l.ty⟩ op a b
  | .unary l op _, [a] => .unary ⟨site, l.ty⟩ op a
  | .member l _ r, [t] => .member ⟨site, l.ty⟩ t r
  | .call l none m _, as => .call ⟨site, l.ty⟩ none m as
  | .call l (some _) m _, t :: as => .call ⟨site, l.ty⟩ (some t) m as
  | .conditional l _ _ _, [a, b, c] => .conditional ⟨site, l.ty⟩ a b c
  | .dynamic l binder _, as => .dynamic ⟨site, l.ty⟩ binder as
  | .lambda l ps _, [b] => .lambda ⟨site, l.ty⟩ ps b
  | e, _ => e

/-- The new parts are the parts, and other parts make a new node, which keeps the type. -/
theorem withChildren_spec (site : Site) (e : Expr) {cs : List Expr}
    (h : e.children.length = cs.length) :
    (e.withChildren site cs).children = cs ∧
      (e.children ≠ cs → (e.withChildren site cs).label = ⟨site, e.ty⟩) := by
  cases e with
  | binary l op a b =>
    obtain ⟨a', b', rfl⟩ := List.length_eq_two.1 h.symm
    exact ⟨rfl, fun _ => rfl⟩
  | unary l op a =>
    obtain ⟨a', rfl⟩ := List.length_eq_one_iff.1 h.symm
    exact ⟨rfl, fun _ => rfl⟩
  | member l t r =>
    obtain ⟨t', rfl⟩ := List.length_eq_one_iff.1 h.symm
    exact ⟨rfl, fun _ => rfl⟩
  | call l t m as =>
    cases t with
    | none => exact ⟨rfl, fun _ => rfl⟩
    | some t =>
      cases cs with
      | nil => simp [children] at h
      | cons t' as' => exact ⟨rfl, fun _ => rfl⟩
  | conditional l a b c =>
    obtain ⟨a', b', c', rfl⟩ := List.length_eq_three.1 h.symm
    exact ⟨rfl, fun _ => rfl⟩
  | lambda l ps b =>
    obtain ⟨b', rfl⟩ := List.length_eq_one_iff.1 h.symm
    exact ⟨rfl, fun _ => rfl⟩
  | dynamic => exact ⟨rfl, fun _ => rfl⟩
  | static | constant | parameter | default =>
    obtain rfl := List.length_eq_zero_iff.1 h.symm
    exact ⟨rfl, fun hne => absurd rfl hne⟩

theorem children_withChildren (site : Site) (e : Expr) {cs : List Expr}
    (h : e.children.length = cs.length) : (e.withChildren site cs).children = cs :=
  (e.withChildren_spec site h).1

theorem label_withChildren (site : Site) (e : Expr) {cs : List Expr}
    (h : e.children.length = cs.length) (hne : e.children ≠ cs) :
    (e.withChildren site cs).label = ⟨site, e.ty⟩ :=
  (e.withChildren_spec site h).2 hne

/-- A call over another target and other arguments. -/
theorem withChildren_append {l : Label} {t t' : Option Expr} {m : Method} {as as' : List Expr}
    {site : Site} (h : t.toList.length = t'.toList.length) :
    (Expr.call l t m as).withChildren site (t'.toList ++ as') = .call ⟨site, l.ty⟩ t' m as' := by
  cases t <;> cases t' <;> first | rfl | cases h

theorem withChildren_call {R : Expr → Expr → Prop} {l : Label} {t : Option Expr} {m : Method}
    {as cs : List Expr} {site : Site} (h : List.Forall₂ R (t.toList ++ as) cs) :
    ∃ t' as', (Expr.call l t m as).withChildren site cs = .call ⟨site, l.ty⟩ t' m as' ∧
      List.Forall₂ R t.toList t'.toList ∧ List.Forall₂ R as as' := by
  cases t with
  | none => exact ⟨none, cs, rfl, .nil, h⟩
  | some t =>
    cases h with
    | @cons _ t' _ as' ht has => exact ⟨some t', as', rfl, .cons ht .nil, has⟩

@[simp] theorem isLambda_withChildren (site : Site) (e : Expr) (cs : List Expr) :
    (e.withChildren site cs).isLambda = e.isLambda := by
  unfold withChildren
  split <;> rfl

@[simp] theorem isParameter_withChildren (site : Site) (e : Expr) (cs : List Expr) :
    (e.withChildren site cs).isParameter = e.isParameter := by
  unfold withChildren
  split <;> rfl

@[simp] theorem isExpandable_withChildren (site : Site) (e : Expr) (cs : List Expr) :
    (e.withChildren site cs).isExpandable = e.isExpandable := by
  unfold withChildren
  split <;> rfl

@[simp] theorem ty_withChildren (site : Site) (e : Expr) (cs : List Expr) :
    (e.withChildren site cs).ty = e.ty := by
  unfold withChildren
  split <;> rfl

@[simp] theorem reference?_withChildren (site : Site) (e : Expr) (cs : List Expr) :
    (e.withChildren site cs).reference? = e.reference? := by
  unfold withChildren
  split <;> rfl

/-- A node over its own parts is the node. -/
theorem withChildren_children (e : Expr) : e.withChildren e.label.site e.children = e := by
  cases e with
  | call l t m as => cases t <;> rfl
  | _ => rfl

/-- The node is back when its own parts are put back. -/
theorem withChildren_restore (site : Site) (e : Expr) {cs : List Expr}
    (h : e.children.length = cs.length) :
    (e.withChildren site cs).withChildren e.label.site e.children = e := by
  cases e with
  | binary l op a b =>
    obtain ⟨a', b', rfl⟩ := List.length_eq_two.1 h.symm
    rfl
  | unary l op a =>
    obtain ⟨a', rfl⟩ := List.length_eq_one_iff.1 h.symm
    rfl
  | member l t r =>
    obtain ⟨t', rfl⟩ := List.length_eq_one_iff.1 h.symm
    rfl
  | call l t m as =>
    cases t with
    | none => rfl
    | some t =>
      cases cs with
      | nil => simp [children] at h
      | cons t' as' => rfl
  | conditional l a b c =>
    obtain ⟨a', b', c', rfl⟩ := List.length_eq_three.1 h.symm
    rfl
  | lambda l ps b =>
    obtain ⟨b', rfl⟩ := List.length_eq_one_iff.1 h.symm
    rfl
  | dynamic => rfl
  | static | constant | parameter | default => rfl

/-- Whether its parts stayed or not, a node that a pass has been through is its head over what the
pass made of the parts. -/
theorem orNew_eq_withChildren (e : Expr) (cs : List Expr) (site : Site) :
    ∃ s, e.orNew e.children cs (e.withChildren site cs) = e.withChildren s cs := by
  unfold orNew
  split
  · rename_i h
    exact ⟨e.label.site, by rw [← h, withChildren_children]⟩
  · exact ⟨site, rfl⟩

/-! ## Properties of all nodes -/

/-- The parameters of the lambdas around the parts of a node. -/
def layers (Γ : List (List Param)) : Expr → List (List Param)
  | .lambda _ ps _ => ps :: Γ
  | _ => Γ

theorem layers_eq {e : Expr} (h : e.isLambda = false) (Γ : List (List Param)) : e.layers Γ = Γ := by
  cases e with
  | lambda => cases h
  | _ => rfl

mutual

def Every (P : List (List Param) → Expr → Prop) (Γ : List (List Param)) (e : Expr) : Prop :=
  P Γ e ∧
    match e with
    | .binary _ _ a b => a.Every P Γ ∧ b.Every P Γ
    | .unary _ _ a => a.Every P Γ
    | .member _ t _ => t.Every P Γ
    | .call _ t _ as => EveryOption P Γ t ∧ EveryList P Γ as
    | .conditional _ a b c => a.Every P Γ ∧ b.Every P Γ ∧ c.Every P Γ
    | .dynamic _ _ as => EveryList P Γ as
    | .lambda _ ps b => b.Every P (ps :: Γ)
    | .static .. | .constant .. | .parameter .. | .default _ => True

def EveryOption (P : List (List Param) → Expr → Prop) (Γ : List (List Param)) :
    Option Expr → Prop
  | none => True
  | some a => a.Every P Γ

def EveryList (P : List (List Param) → Expr → Prop) (Γ : List (List Param)) : List Expr → Prop
  | [] => True
  | a :: as => a.Every P Γ ∧ EveryList P Γ as

end

/-- A property of all nodes wherever they stand. -/
def All (P : Expr → Prop) (e : Expr) : Prop := e.Every (fun _ a => P a) []

section

variable {P : List (List Param) → Expr → Prop} [∀ Γ a, Decidable (P Γ a)]

mutual

def decidableEvery (Γ : List (List Param)) : (e : Expr) → Decidable (e.Every P Γ)
  | .binary l o a b =>
    have := decidableEvery Γ a
    have := decidableEvery Γ b
    inferInstanceAs (Decidable (P Γ (.binary l o a b) ∧ a.Every P Γ ∧ b.Every P Γ))
  | .unary l o a =>
    have := decidableEvery Γ a
    inferInstanceAs (Decidable (P Γ (.unary l o a) ∧ a.Every P Γ))
  | .member l t r =>
    have := decidableEvery Γ t
    inferInstanceAs (Decidable (P Γ (.member l t r) ∧ t.Every P Γ))
  | .call l t m as =>
    have := decidableEveryOption Γ t
    have := decidableEveryList Γ as
    inferInstanceAs (Decidable (P Γ (.call l t m as) ∧ EveryOption P Γ t ∧ EveryList P Γ as))
  | .conditional l a b c =>
    have := decidableEvery Γ a
    have := decidableEvery Γ b
    have := decidableEvery Γ c
    inferInstanceAs
      (Decidable (P Γ (.conditional l a b c) ∧ a.Every P Γ ∧ b.Every P Γ ∧ c.Every P Γ))
  | .dynamic l b as =>
    have := decidableEveryList Γ as
    inferInstanceAs (Decidable (P Γ (.dynamic l b as) ∧ EveryList P Γ as))
  | .lambda l ps b =>
    have := decidableEvery (ps :: Γ) b
    inferInstanceAs (Decidable (P Γ (.lambda l ps b) ∧ b.Every P (ps :: Γ)))
  | .static l r => inferInstanceAs (Decidable (P Γ (.static l r) ∧ True))
  | .constant l v => inferInstanceAs (Decidable (P Γ (.constant l v) ∧ True))
  | .parameter l p => inferInstanceAs (Decidable (P Γ (.parameter l p) ∧ True))
  | .default l => inferInstanceAs (Decidable (P Γ (.default l) ∧ True))

def decidableEveryOption (Γ : List (List Param)) :
    (t : Option Expr) → Decidable (EveryOption P Γ t)
  | none => inferInstanceAs (Decidable True)
  | some a => decidableEvery Γ a

def decidableEveryList (Γ : List (List Param)) : (as : List Expr) → Decidable (EveryList P Γ as)
  | [] => inferInstanceAs (Decidable True)
  | a :: as =>
    have := decidableEvery Γ a
    have := decidableEveryList Γ as
    inferInstanceAs (Decidable (a.Every P Γ ∧ EveryList P Γ as))

end

instance (Γ : List (List Param)) (e : Expr) : Decidable (e.Every P Γ) := decidableEvery Γ e

end

instance {P : Expr → Prop} [DecidablePred P] (e : Expr) : Decidable (e.All P) :=
  inferInstanceAs (Decidable (e.Every (fun _ a => P a) []))

variable {P : List (List Param) → Expr → Prop} {Γ : List (List Param)}

theorem everyOption_iff (t : Option Expr) :
    EveryOption P Γ t ↔ ∀ a ∈ t.toList, a.Every P Γ := by
  cases t <;> simp [EveryOption]

theorem everyList_iff (as : List Expr) : EveryList P Γ as ↔ ∀ a ∈ as, a.Every P Γ := by
  induction as with
  | nil => simp [EveryList]
  | cons a as ih => simp [EveryList, ih]

theorem every_iff (e : Expr) :
    e.Every P Γ ↔ P Γ e ∧ ∀ c ∈ e.children, c.Every P (e.layers Γ) := by
  rw [Every.eq_def]
  cases e with
  | call l t m as =>
    simp [children, layers, everyOption_iff, everyList_iff, or_imp, forall_and]
  | dynamic l b as => simp [children, layers, everyList_iff]
  | _ => simp [children, layers]

/-- Where the lambdas around a node do not matter, neither do those around the tree. -/
theorem every_iff_all {P : Expr → Prop} (e : Expr) :
    ∀ Γ, e.Every (fun _ a => P a) Γ ↔ e.All P := by
  induction e using byChildren with
  | node e ih =>
    intro Γ
    rw [All, every_iff, every_iff]
    refine and_congr_right fun _ => ?_
    constructor
    · intro h c hc
      exact (ih c hc _).2 ((ih c hc _).1 (h c hc))
    · intro h c hc
      exact (ih c hc _).2 ((ih c hc _).1 (h c hc))

theorem all_iff {P : Expr → Prop} (e : Expr) : e.All P ↔ P e ∧ ∀ c ∈ e.children, c.All P := by
  rw [All, every_iff]
  exact and_congr_right fun _ => forall₂_congr fun c _ => every_iff_all c _

theorem all_of_forall {P : Expr → Prop} (h : ∀ a, P a) (e : Expr) : e.All P := by
  induction e using byChildren with
  | node e ih => exact (all_iff e).2 ⟨h e, ih⟩

/-- A lambda that only declares `p` does not refer to it. -/
abbrev Avoids (p : Param) (e : Expr) : Prop := e.All fun a => a.reference? ≠ some p

theorem All.imp₂ {P Q R : Expr → Prop} (h : ∀ a, P a → Q a → R a) {e : Expr} (hP : e.All P)
    (hQ : e.All Q) : e.All R := by
  induction e using byChildren with
  | node e ih =>
    obtain ⟨hPe, hPc⟩ := (all_iff e).1 hP
    obtain ⟨hQe, hQc⟩ := (all_iff e).1 hQ
    exact (all_iff e).2 ⟨h e hPe hQe, fun c hc => ih c hc (hPc c hc) (hQc c hc)⟩

theorem All.imp {P Q : Expr → Prop} (h : ∀ a, P a → Q a) {e : Expr} (hP : e.All P) : e.All Q :=
  hP.imp₂ (fun a ha _ => h a ha) hP

end Expr

end PredicateTree
