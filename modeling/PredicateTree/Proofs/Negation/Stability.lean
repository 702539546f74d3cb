import PredicateTree.Proofs.Negation
import PredicateTree.Proofs.Predicate.Invariant

/-!
# Proofs.Negation.Stability

Negating a tree again and again.

What negation cannot see into becomes a comparison with false, and a comparison has a complement. So
the negation of a tree is made of nodes that change to and fro, and after one step every second
negation is the same tree. A tree that is made of such nodes from the start comes back itself.

* `Expr.Restorable`: a node of the spine of which this is known.
* `bare_negate`: negation looks at no identity.
* `bare_negate_negate`: over restorable nodes the second negation undoes the first.
* `restorable_negate`: the first negation gives restorable nodes, unless it takes a negation away.
  An operand that was under a negation may be anything.
* `negate_stable`: both of these for a whole tree.
-/

namespace PredicateTree

theorem Ty.eq_bool_of_isBool {t : Ty} (h : t.isBool = true) : t = .bool := by
  cases t with
  | bool => rfl
  | _ => cases h

namespace BinaryOp

theorem complement_complement {op flipped : BinaryOp} (h : op.complement = some flipped) :
    flipped.complement = some op := by
  cases op <;> cases h <;> rfl

end BinaryOp

namespace Expr

def isJunction : Expr → Bool
  | .binary _ .and _ _ | .binary _ .or _ _ => true
  | _ => false

/-- A comparison of two operands, which has a complement. -/
def isComparison : Expr → Bool
  | .binary _ op _ _ => op.complement.isSome
  | _ => false

/-- A negation as an operator of its own. -/
def isNegation : Expr → Bool
  | .unary _ .not _ | .unary _ .isFalse _ => true
  | _ => false

def isTruth : Expr → Bool
  | .constant _ (.bool _) => true
  | _ => false

def isConditional : Expr → Bool
  | .conditional .. => true
  | _ => false

/-- A node that negation restores: a junction, a comparison, a boolean constant, a boolean
conditional, or one that negation keeps. The negation of a junction or a comparison is typed as a
boolean whatever the node was, so these are to be boolean from the start. -/
structure Restorable (e : Expr) : Prop where
  typed : e.isJunction = true ∨ e.isComparison = true → e.isBool = true
  undone : e.isJunction = true ∨ e.isComparison = true ∨ e.isTruth = true ∨
    (e.isConditional = true ∧ e.isBool = true) ∨ ∃ site, (e.negate site).alike e = true

theorem negate_comparison {op flipped : BinaryOp} (h : op.complement = some flipped) (l : Label)
    (a b : Expr) (site : Site) : (binary l op a b).negate site = binaryAt site flipped a b := by
  cases op <;> cases h <;> rfl

theorem isJunction_eq_false {e : Expr} (hand : ∀ l a b, e ≠ .binary l .and a b)
    (hor : ∀ l a b, e ≠ .binary l .or a b) : e.isJunction = false := by
  fun_cases Expr.isJunction e with
  | case1 l a b => exact absurd rfl (hand l a b)
  | case2 l a b => exact absurd rfl (hor l a b)
  | case3 => rfl

theorem spine_of_leaf {e : Expr} (h : e.isJunction = false) : e.spine = [e] := by
  fun_cases Expr.spine e with
  | case1 | case2 => cases h
  | case3 => rfl

@[simp] theorem isBool_bare (e : Expr) : e.bare.isBool = e.isBool := by cases e <;> rfl

/-! ## Identity -/

theorem bare_binaryAt {op : BinaryOp} (hop : op.isBoolean = true) (site : Site) (a b : Expr) :
    (binaryAt site op a b).bare = .binary ⟨Site.root 0, .bool⟩ op a.bare b.bare := by
  simp [binaryAt, hop, bare, relabel, Label.bare]

theorem bare_equalsFalse (e : Expr) (site : Site) :
    (e.equalsFalse site).bare =
      .binary ⟨Site.root 0, .bool⟩ .eq e.bare (.constant ⟨Site.root 0, .bool⟩ (.bool false)) :=
  rfl

/-- What is done to boolean trees only is done to a tree or not, whatever its nodes are. -/
theorem bare_ifBool {e a b : Expr} (h : b.bare = a.bare) :
    (if e.bare.isBool then b else e.bare).bare = (if e.isBool then a else e).bare := by
  rw [isBool_bare]
  split
  · exact h
  · exact e.bare_bare

theorem bare_leafNegation (e : Expr) (s s' : Site) :
    (leafNegation s' e.bare).bare = (leafNegation s e).bare :=
  bare_ifBool (by rw [bare_equalsFalse, bare_equalsFalse, bare_bare])

-- Induction along the spine. All other nodes are looked at on their own.
theorem bare_negate : ∀ (e : Expr) (s s' : Site), (e.bare.negate s').bare = (e.negate s).bare
  | .binary l op a b, s, s' => by
    have ha := bare_negate a (s.child 0) (s'.child 0)
    have hb := bare_negate b (s.child 1) (s'.child 1)
    have hbare : (binary l op a b).bare = .binary l.bare op a.bare b.bare := rfl
    cases hop : op.complement with
    | some flipped =>
      have hflipped : flipped.isBoolean = true := isBoolean_of_complement hop
      rw [hbare, negate_comparison hop, negate_comparison hop, bare_binaryAt hflipped,
        bare_binaryAt hflipped, bare_bare, bare_bare]
    | none =>
      cases op with
      | and | or => exact congrArg₂ (Expr.binary ⟨Site.root 0, .bool⟩ _) ha hb
      | add | sub | mul | div | rem => exact bare_bare _
      | eq | ne | lt | le | gt | ge => cases hop
  | .unary l op a, s, s' => by
    cases op with
    | isTrue => exact congrArg (Expr.binary ⟨Site.root 0, .bool⟩ .eq · _) a.bare_bare
    | isFalse | not | neg => exact bare_bare _
  | .conditional l test a b, s, s' => by
    have hswapped : Expr.conditional ⟨Site.root 0, l.ty⟩ test.bare.bare b.bare.bare a.bare.bare =
        .conditional ⟨Site.root 0, l.ty⟩ test.bare b.bare a.bare := by simp only [bare_bare]
    exact bare_ifBool (e := .conditional l test a b) hswapped
  | .constant l v, s, s' => by
    cases v with
    | bool b => rfl
    | _ => exact bare_leafNegation _ s s'
  | .default l, s, s' => bare_ifBool (e := .default l) rfl
  | .lambda .., _, _ => bare_bare _
  | .member .., s, s' | .static .., s, s' | .call .., s, s' | .dynamic .., s, s'
  | .parameter .., s, s' => bare_leafNegation _ s s'

theorem negate_congr {a b : Expr} (h : a.bare = b.bare) (s s' : Site) :
    (a.negate s).bare = (b.negate s').bare := by
  rw [← bare_negate a s s', ← bare_negate b s' s', h]

/-! ## Twice -/

theorem bare_binary_of_isBool {l : Label} (h : l.ty.isBool = true) (op : BinaryOp) (a b : Expr) :
    (binary l op a b).bare = .binary ⟨Site.root 0, .bool⟩ op a.bare b.bare := by
  rw [bare, relabel, Label.bare, Ty.eq_bool_of_isBool h]
  rfl

theorem Restorable.negate_negate {e : Expr} (he : e.Restorable) (hleaf : e.isJunction = false)
    (s₁ s₂ : Site) : ((e.negate s₁).negate s₂).bare = e.bare := by
  obtain hjunction | hcomparison | htruth | ⟨hconditional, hbool⟩ | ⟨site, hkept⟩ := he.undone
  · rw [hleaf] at hjunction
    cases hjunction
  · have hbool : e.isBool = true := he.typed (.inr hcomparison)
    cases e with
    | binary l op a b =>
      obtain ⟨flipped, hop⟩ := Option.isSome_iff_exists.1 hcomparison
      have hback := BinaryOp.complement_complement hop
      have hboolean : op.isBoolean = true := isBoolean_of_complement hback
      rw [negate_comparison hop, binaryAt, negate_comparison hback, bare_binaryAt hboolean]
      exact (bare_binary_of_isBool (l := l) hbool op a b).symm
    | _ => cases hcomparison
  · cases e with
    | constant l v =>
      cases v with
      | bool b =>
        have htwice : (!!b) = b := Bool.not_not b
        simp only [negate, htwice]
        rfl
      | _ => cases htruth
    | _ => cases htruth
  · cases e with
    | conditional l test a b =>
      have honce : (conditional l test a b).negate s₁ = .conditional ⟨s₁, l.ty⟩ test b a :=
        if_pos hbool
      have htwice : (conditional ⟨s₁, l.ty⟩ test b a).negate s₂ = .conditional ⟨s₂, l.ty⟩ test a b :=
        if_pos hbool
      rw [honce, htwice]
      rfl
    | _ => cases hconditional
  · rw [alike_iff] at hkept
    have hs₁ : (e.negate s₁).bare = e.bare := (negate_congr rfl s₁ site).trans hkept
    exact (negate_congr hs₁ s₂ s₁).trans hs₁

/-- Along the spine negation undoes itself if it does so at every node. -/
theorem bare_negate_negate (t : Expr) :
    (∀ a ∈ t.spine, a.Restorable) → ∀ s₁ s₂ : Site, ((t.negate s₁).negate s₂).bare = t.bare := by
  fun_induction Expr.spine t with
  | case1 l a b iha ihb | case2 l a b iha ihb =>
    intro h s₁ s₂
    have hbool : l.ty.isBool = true := (h _ List.mem_cons_self).typed (.inl rfl)
    have ha := iha (fun c hc => h c (by simp [hc])) (s₁.child 0) (s₂.child 0)
    have hb := ihb (fun c hc => h c (by simp [hc])) (s₁.child 1) (s₂.child 1)
    rw [bare_binary_of_isBool hbool]
    exact congrArg₂ (Expr.binary ⟨Site.root 0, .bool⟩ _) ha hb
  | case3 e hand hor =>
    intro h s₁ s₂
    have hleaf : e.isJunction = false := isJunction_eq_false hand hor
    exact (h e List.mem_cons_self).negate_negate hleaf s₁ s₂

/-! ## Once -/

/-- A restorable node at which the spine ends. -/
structure RestorableLeaf (e : Expr) : Prop extends Restorable e where
  isLeaf : e.isJunction = false

theorem RestorableLeaf.of_kept {e : Expr} (hleaf : e.isJunction = false)
    (hcomparison : e.isComparison = false) (hkept : ∀ site, e.negate site = e) :
    e.RestorableLeaf where
  typed := by simp [hleaf, hcomparison]
  undone := by
    refine .inr (.inr (.inr (.inr ⟨.root 0, ?_⟩)))
    rw [hkept, alike_iff]
  isLeaf := hleaf

theorem RestorableLeaf.of_comparison {op flipped : BinaryOp} (h : op.complement = some flipped)
    (site : Site) (a b : Expr) : (binaryAt site op a b).RestorableLeaf where
  typed _ := by
    have hboolean : op.isBoolean = true :=
      isBoolean_of_complement (BinaryOp.complement_complement h)
    exact (Lasting.binaryAt hboolean site a b).isBool
  undone := .inr (.inl (by simp [binaryAt, isComparison, h]))
  isLeaf := by
    cases op <;> cases h <;> rfl

theorem RestorableLeaf.of_truth {l : Label} {b : Bool} :
    (constant l (.bool b)).RestorableLeaf where
  typed := by rintro (h | h) <;> cases h
  undone := .inr (.inr (.inl rfl))
  isLeaf := rfl

theorem RestorableLeaf.of_conditional {l : Label} {test a b : Expr} (h : l.ty.isBool = true) :
    (conditional l test a b).RestorableLeaf where
  typed _ := h
  undone := .inr (.inr (.inr (.inl ⟨rfl, h⟩)))
  isLeaf := rfl

/-- What negation looks into only if it is boolean. -/
theorem RestorableLeaf.ifBool {e : Expr} {f : Site → Expr} (hleaf : e.isJunction = false)
    (hcomparison : e.isComparison = false)
    (hnegate : ∀ site, e.negate site = if e.isBool then f site else e) (site : Site)
    (hf : e.isBool = true → (f site).RestorableLeaf) : (e.negate site).RestorableLeaf := by
  cases hbool : e.isBool with
  | true =>
    rw [hnegate, if_pos hbool]
    exact hf hbool
  | false =>
    have hkept : ∀ s, e.negate s = e := fun s => (hnegate s).trans (if_neg (by simp [hbool]))
    rw [hkept]
    exact .of_kept hleaf hcomparison hkept

theorem restorableLeaf_negate {e : Expr} (hleaf : e.isJunction = false)
    (hnegation : e.isNegation = false) (site : Site) : (e.negate site).RestorableLeaf := by
  cases e with
  | binary l op a b =>
    cases hop : op.complement with
    | some flipped =>
      rw [negate_comparison hop]
      exact .of_comparison (BinaryOp.complement_complement hop) _ _ _
    | none =>
      cases op with
      | and | or => cases hleaf
      | add | sub | mul | div | rem => exact .of_kept rfl rfl fun _ => rfl
      | eq | ne | lt | le | gt | ge => cases hop
  | unary l op a =>
    cases op with
    | isTrue => exact .of_comparison rfl _ _ _
    | neg => exact .of_kept rfl rfl fun _ => rfl
    | not | isFalse => cases hnegation
  | conditional l test a b =>
    exact .ifBool rfl rfl (fun _ => rfl) site fun hbool =>
      .of_conditional (l := ⟨site, l.ty⟩) hbool
  | constant l v =>
    cases v with
    | bool b => exact .of_truth
    | _ => exact .ifBool rfl rfl (fun _ => rfl) site fun _ => .of_comparison rfl _ _ _
  | default l => exact .ifBool rfl rfl (fun _ => rfl) site fun _ => .of_truth
  | lambda => exact .of_kept rfl rfl fun _ => rfl
  | member | static | call | dynamic | parameter =>
    exact .ifBool rfl rfl (fun _ => rfl) site fun _ => .of_comparison rfl _ _ _

theorem restorable_negate (t : Expr) : (∀ a ∈ t.spine, a.isNegation = false) →
    ∀ site, ∀ a ∈ (t.negate site).spine, a.Restorable := by
  fun_induction Expr.spine t with
  | case1 l a b iha ihb | case2 l a b iha ihb =>
    intro h site
    have ha := iha (fun c hc => h c (by simp [hc])) (site.child 0)
    have hb := ihb (fun c hc => h c (by simp [hc])) (site.child 1)
    refine List.forall_mem_cons.2 ⟨⟨fun _ => rfl, .inl rfl⟩, ?_⟩
    exact List.forall_mem_append.2 ⟨ha, hb⟩
  | case3 e hand hor =>
    intro h site
    have hleaf : e.isJunction = false := isJunction_eq_false hand hor
    have he := restorableLeaf_negate hleaf (h e List.mem_cons_self) site
    rw [spine_of_leaf he.isLeaf]
    exact List.forall_mem_singleton.2 he.toRestorable

/-- Negating three times is negating once, unless there is a negation on the spine; and negating
twice gives back a tree that is made of nodes which negation restores. -/
theorem negate_stable (t : Expr) :
    ((∀ a ∈ t.spine, a.isNegation = false) → ∀ s s₁ s₂ s₃ : Site,
      (((t.negate s₁).negate s₂).negate s₃).alike (t.negate s) = true) ∧
    ((∀ a ∈ t.spine, a.Restorable) → ∀ s₁ s₂ : Site,
      ((t.negate s₁).negate s₂).alike t = true) := by
  constructor
  · intro h s s₁ s₂ s₃
    rw [alike_iff, bare_negate_negate _ (restorable_negate t h s₁)]
    exact negate_congr rfl s₁ s
  · intro h s₁ s₂
    rw [alike_iff]
    exact bare_negate_negate t h s₁ s₂

end Expr

namespace Restored

/-- `x > 1 && (x > 3 ? true : false)` -/
def both : Expr :=
  .binaryAt (.root 4) .and (Spined.above 1)
    (.conditionalAt (.root 5) (Spined.above 3) (.boolAt (.root 6) true) (.boolAt (.root 7) false))

/-- A number as the last operand, which negation does not touch:
`x > 1 && (x > 3 ? true : false) || x` -/
def tree : Expr :=
  .binaryAt (.root 8) .or both (.parameterAt (.root 9) Spined.subject)

end Restored

open Restored in
theorem negate_stable_restored :
    (∀ a ∈ tree.spine, a.isNegation = false) ∧ (∀ a ∈ tree.spine, a.Restorable) ∧
    (((tree.negate (.root 10)).negate (.root 11)).negate (.root 12)).alike
      (tree.negate (.root 13)) = true ∧
    ((tree.negate (.root 10)).negate (.root 11)).alike tree = true := by
  have hnegation : ∀ a ∈ tree.spine, a.isNegation = false := by decide
  have hrestorable : ∀ a ∈ tree.spine, a.Restorable := by
    intro a ha
    have hspine : a = tree ∨ a = both ∨ a = Spined.above 1 ∨
        a = .conditionalAt (.root 5) (Spined.above 3) (.boolAt (.root 6) true)
          (.boolAt (.root 7) false) ∨ a = .parameterAt (.root 9) Spined.subject := by
      simpa [tree, both, Expr.spine, Expr.binaryAt, Spined.above, Expr.conditionalAt,
        Expr.parameterAt] using ha
    obtain rfl | rfl | rfl | rfl | rfl := hspine
    · exact ⟨fun _ => rfl, .inl rfl⟩
    · exact ⟨fun _ => rfl, .inl rfl⟩
    · exact (Expr.RestorableLeaf.of_comparison rfl _ _ _).toRestorable
    · exact (Expr.RestorableLeaf.of_conditional rfl).toRestorable
    · exact (Expr.RestorableLeaf.of_kept rfl rfl fun _ => rfl).toRestorable
  obtain ⟨hthrice, htwice⟩ := Expr.negate_stable tree
  exact ⟨hnegation, hrestorable, hthrice hnegation _ _ _ _, htwice hrestorable _ _⟩

end PredicateTree
