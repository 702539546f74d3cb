import PredicateTree.Proofs.Expansion.Derivation
import PredicateTree.Proofs.Expr.Walk

/-!
# Proofs.Sharing

What a pass leaves as it was.

* `Expr.at?`: the node at a position, a position being the indices of the parts on the way to it.
* `Expr.Outside stop e path`: neither the node at the position nor one on the way to it is a `stop`.
* `Expr.SameHead`: two nodes that differ in their identity and in their parts at most.
* `Expr.Keeps replaced made t t'`: at every position of `t` that is not at or below a replaced node,
  `t'` has the identical node if the tree below holds nothing to replace, and in any case a node of
  the same head over what the pass made of the parts, in the same order.
* `keeps_of_step`: so does every pass that makes a node that it does not replace anew over what it
  made of the parts, and only if one of these has changed.

`sharing` is about the three passes there are.
-/

namespace PredicateTree

namespace Expr

/-! ## Positions -/

def at? : Expr → List Nat → Option Expr
  | e, [] => some e
  | e, i :: path => e.children[i]?.bind fun c => c.at? path

def Outside (stop : Expr → Prop) (e : Expr) (path : List Nat) : Prop :=
  ∀ p, p <+: path → ∀ a, e.at? p = some a → ¬stop a

variable {stop : Expr → Prop} {e c : Expr} {i : Nat} {path : List Nat}

theorem at?_cons_eq_some {a : Expr} (h : e.at? (i :: path) = some a) :
    ∃ c, e.children[i]? = some c ∧ c.at? path = some a := Option.bind_eq_some_iff.1 h

theorem at?_cons_of_child (hc : e.children[i]? = some c) : e.at? (i :: path) = c.at? path := by
  rw [at?, hc, Option.bind_some]

theorem outside_nil : e.Outside stop [] ↔ ¬stop e := by
  constructor
  · intro h
    exact h [] List.nil_prefix e rfl
  · rintro h p hp _ ha
    obtain rfl := List.prefix_nil.1 hp
    cases ha
    exact h

theorem outside_cons (hc : e.children[i]? = some c) :
    e.Outside stop (i :: path) ↔ ¬stop e ∧ c.Outside stop path := by
  constructor
  · refine fun h => ⟨h [] List.nil_prefix e rfl, fun p hp a ha => ?_⟩
    refine h (i :: p) ((List.prefix_cons_inj i).2 hp) a ?_
    rwa [at?_cons_of_child hc]
  · rintro ⟨hroot, hchild⟩ p hp a ha
    obtain rfl | ⟨q, rfl, hq⟩ := List.prefix_cons_iff.1 hp
    · cases ha
      exact hroot
    · rw [at?_cons_of_child hc] at ha
      exact hchild q hq a ha

/-! ## Heads -/

/-- The same operator, member, method, binder, parameters, value and type, and as many parts. -/
def SameHead : Expr → Expr → Prop
  | binary l op _ _, binary l' op' _ _ => l.ty = l'.ty ∧ op = op'
  | unary l op _, unary l' op' _ => l.ty = l'.ty ∧ op = op'
  | member l _ r, member l' _ r' => l.ty = l'.ty ∧ r = r'
  | static l r, static l' r' => l.ty = l'.ty ∧ r = r'
  | call l t m as, call l' t' m' as' =>
    l.ty = l'.ty ∧ m = m' ∧ t.isSome = t'.isSome ∧ as.length = as'.length
  | constant l v, constant l' v' => l.ty = l'.ty ∧ v = v'
  | parameter l p, parameter l' p' => l.ty = l'.ty ∧ p = p'
  | conditional l _ _ _, conditional l' _ _ _ => l.ty = l'.ty
  | default l, default l' => l.ty = l'.ty
  | dynamic l b as, dynamic l' b' as' => l.ty = l'.ty ∧ b = b' ∧ as.length = as'.length
  | lambda l ps _, lambda l' ps' _ => l.ty = l'.ty ∧ ps = ps'
  | _, _ => False

theorem sameHead_withChildren (site : Site) (e : Expr) {cs : List Expr}
    (h : e.children.length = cs.length) : e.SameHead (e.withChildren site cs) := by
  cases e with
  | binary l op a b =>
    obtain ⟨a', b', rfl⟩ := List.length_eq_two.1 h.symm
    exact ⟨rfl, rfl⟩
  | unary l op a =>
    obtain ⟨a', rfl⟩ := List.length_eq_one_iff.1 h.symm
    exact ⟨rfl, rfl⟩
  | member l t r =>
    obtain ⟨t', rfl⟩ := List.length_eq_one_iff.1 h.symm
    exact ⟨rfl, rfl⟩
  | call l t m as =>
    cases t with
    | none => exact ⟨rfl, rfl, rfl, h⟩
    | some t =>
      cases cs with
      | nil => simp [children] at h
      | cons t' as' => exact ⟨rfl, rfl, rfl, by simpa [children] using h⟩
  | conditional l a b c =>
    obtain ⟨a', b', c', rfl⟩ := List.length_eq_three.1 h.symm
    exact rfl
  | lambda l ps b =>
    obtain ⟨b', rfl⟩ := List.length_eq_one_iff.1 h.symm
    exact ⟨rfl, rfl⟩
  | dynamic => exact ⟨rfl, rfl, h⟩
  | default => exact rfl
  | static | constant | parameter => exact ⟨rfl, rfl⟩

/-! ## Passes in steps -/

def Keeps (replaced : Expr → Prop) (made : Expr → Expr → Prop) (t t' : Expr) : Prop :=
  ∀ path a, t.at? path = some a → t.Outside replaced path →
    ∃ a', t'.at? path = some a' ∧ (a.All (fun b => ¬replaced b) → a' = a) ∧ a.SameHead a' ∧
      List.Forall₂ made a.children a'.children

/-- What such a pass makes of a node that it does not replace. -/
def Step (made : Expr → Expr → Prop) (e e' : Expr) : Prop :=
  ∃ cs site, List.Forall₂ made e.children cs ∧ e' = e.orNew e.children cs (e.withChildren site cs)

variable {replaced : Expr → Prop} {made : Expr → Expr → Prop}

theorem Step.spec {e e' : Expr} (h : Step made e e') :
    e.SameHead e' ∧ List.Forall₂ made e.children e'.children := by
  obtain ⟨cs, site, hcs, rfl⟩ := h
  obtain ⟨s, hmade⟩ := e.orNew_eq_withChildren cs site
  rw [hmade, e.children_withChildren s hcs.length_eq]
  exact ⟨e.sameHead_withChildren s hcs.length_eq, hcs⟩

theorem eq_of_step (hstep : ∀ e e', made e e' → ¬replaced e → Step made e e') {t t' : Expr}
    (h : made t t') (hnone : t.All fun a => ¬replaced a) : t' = t := by
  induction t using byChildren generalizing t' with
  | node t ih =>
    obtain ⟨hhead, hparts⟩ := (all_iff t).1 hnone
    obtain ⟨cs, site, hcs, rfl⟩ := hstep t t' h hhead
    have hsame : List.Forall₂ Eq t.children cs := by
      refine ((List.forall₂_and_left _ _).2 ⟨fun _ hc => hc, hcs⟩).imp ?_
      rintro c c' ⟨hc, hmade⟩
      exact (ih c hc hmade (hparts c hc)).symm
    rw [List.forall₂_eq_eq_eq] at hsame
    rw [orNew, if_pos hsame]

theorem keeps_of_step (hstep : ∀ e e', made e e' → ¬replaced e → Step made e e') {t t' : Expr}
    (h : made t t') : Keeps replaced made t t' := by
  intro path
  induction path generalizing t t' with
  | nil =>
    rintro _ ⟨⟩ houtside
    obtain ⟨hhead, hparts⟩ := (hstep t t' h (outside_nil.1 houtside)).spec
    exact ⟨t', rfl, eq_of_step hstep h, hhead, hparts⟩
  | cons i path ih =>
    intro a ha houtside
    obtain ⟨c, hc, ha⟩ := at?_cons_eq_some ha
    obtain ⟨hroot, houtside⟩ := (outside_cons hc).1 houtside
    obtain ⟨-, hparts⟩ := (hstep t t' h hroot).spec
    obtain ⟨c', hc', hmade⟩ : ∃ c', t'.children[i]? = some c' ∧ made c c' := by
      obtain ⟨hi, rfl⟩ := List.getElem?_eq_some_iff.1 hc
      have hi' : i < t'.children.length := hparts.length_eq ▸ hi
      exact ⟨t'.children[i], List.getElem?_eq_getElem hi',
        (List.forall₂_iff_get.1 hparts).2 i hi hi'⟩
    obtain ⟨a', ha', hspec⟩ := ih hmade a ha houtside
    exact ⟨a', (at?_cons_of_child hc').trans ha', hspec⟩

/-! ## The passes -/

theorem step_fold {visit : Expr → Option Expr} {e : Expr} (h : visit e = none) (site : Site) :
    Step (fun c c' => ∃ s, c' = c.fold visit s) e (e.fold visit site) := by
  obtain ⟨cs, hcs, hfold⟩ := fold_of_descent h site
  exact ⟨cs, site, hcs, hfold⟩

/-- A reference to a key of the substitution. -/
def IsKey (σ : Substitution) (e : Expr) : Prop := ∃ p, e.reference? = some p ∧ σ.get? p ≠ none

theorem visit_eq_none {σ : Substitution} {e : Expr} (h : ¬IsKey σ e) : σ.visit e = none := by
  cases e with
  | parameter l p => exact not_not.1 fun hp => h ⟨p, rfl, hp⟩
  | _ => rfl

theorem keeps_substitute (σ : Substitution) (t : Expr) (site : Site) :
    Keeps (IsKey σ) (fun c c' => ∃ s, c' = c.substitute s σ) t (t.substitute site σ) := by
  simp only [substitute_eq_fold]
  refine keeps_of_step ?_ ⟨site, rfl⟩
  rintro e _ ⟨s, rfl⟩ hkey
  exact step_fold (visit_eq_none hkey) s

theorem keeps_replace (target replacement t : Expr) (site : Site) :
    Keeps (· = target) (fun c c' => ∃ s, c' = c.replace s target replacement) t
      (t.replace site target replacement) := by
  refine keeps_of_step ?_ ⟨site, rfl⟩
  rintro e _ ⟨s, rfl⟩ hne
  exact step_fold (if_neg hne) s

end Expr

namespace Expander

variable {x : Expander} {fuel : Nat}

/-- Above all inlined bodies the pass goes with one way to inline, at depth zero and without
bindings. -/
theorem exists_expand_eq_node (x : Expander) (fuel : Nat) :
    ∃ inline, ∀ site e, x.expand fuel site e = x.node inline 0 [] site e := by
  cases fuel with
  | zero => exact ⟨_, fun _ _ => rfl⟩
  | succ fuel => exact ⟨_, fun _ _ => rfl⟩

theorem step_expand {e e' : Expr} {site : Site} (h : (x.expand fuel site e).outcome = .ok e')
    (hcall : ¬∃ l as, x.resolver.Calls e l as) :
    Expr.Step (fun c c' => ∃ s, (x.expand fuel s c).outcome = .ok c') e e' := by
  obtain ⟨inline, heq⟩ := x.exists_expand_eq_node fuel
  simp only [heq] at h ⊢
  cases hparam : e.isParameter with
  | true =>
    cases e with
    | parameter l p =>
      cases h
      exact ⟨[], site, .nil, rfl⟩
    | _ => cases hparam
  | false =>
    obtain ⟨-, cs, hcs, rfl⟩ | ⟨l, as, as', hcalls, -⟩ := node_eq_ok hparam h
    · exact ⟨cs, site, hcs.imp fun _ _ ⟨s, _, hs⟩ => ⟨s, hs⟩, rfl⟩
    · exact absurd ⟨l, as, hcalls⟩ hcall

theorem keeps_expand {t t' : Expr} {site : Site} (h : (x.expand fuel site t).outcome = .ok t') :
    Expr.Keeps (fun a => ∃ l as, x.resolver.Calls a l as)
      (fun c c' => ∃ s, (x.expand fuel s c).outcome = .ok c') t t' :=
  Expr.keeps_of_step (fun _ _ ⟨_, h⟩ hcall => step_expand h hcall) ⟨site, h⟩

end Expander

/-- Substitution, replacement of a node and expansion leave the identical node wherever the tree
below holds nothing to replace, and everywhere else above what they replace a node of the same head
over the rewritten parts. -/
theorem sharing (t : Expr) :
    (∀ σ site, Expr.Keeps (Expr.IsKey σ) (fun c c' => ∃ s, c' = c.substitute s σ) t
      (t.substitute site σ)) ∧
    (∀ target replacement site,
      Expr.Keeps (· = target) (fun c c' => ∃ s, c' = c.replace s target replacement) t
        (t.replace site target replacement)) ∧
    (∀ (x : Expander) fuel site t', (x.expand fuel site t).outcome = .ok t' →
      Expr.Keeps (fun a => ∃ l as, x.resolver.Calls a l as)
        (fun c c' => ∃ s, (x.expand fuel s c).outcome = .ok c') t t') :=
  ⟨fun σ site => Expr.keeps_substitute σ t site,
    fun target replacement site => Expr.keeps_replace target replacement t site,
    fun _ _ _ _ h => Expander.keeps_expand h⟩

/-! ## A call beside a node without any -/

namespace Beside

def p : Param := ⟨.root 0, "p", .bool⟩

def q : Param := ⟨.child (.root 0) 1, "q", .int⟩

def positive : Lambda :=
  ⟨[q], .binaryAt (.root 1) .gt (.parameterAt (.root 2) q) (.intAt (.root 3) 0)⟩

def expander : Expander where
  resolver := Statics.resolver [("R", [("positive", positive.toValue)])]

def kept : Expr := .unaryAt (.root 4) .not (.parameterAt (.root 5) p)

def call : Expr :=
  .expandAt (.root 6) (.staticAt (.root 7) "R" "positive" positive.ty) [.parameterAt (.root 8) q]
    .bool

/-- `(!p && expand(R::positive, q))` -/
def tree : Expr := .binaryAt (.root 9) .and kept call

/-- `(!p && (q > 0))` -/
def expanded : Expr :=
  .binaryAt (.root 10) .and kept
    (.binaryAt (.child (.child (.root 10) 1) 0) .gt (.parameterAt (.root 8) q) (.intAt (.root 3) 0))

end Beside

open Beside in
theorem sharing_beside :
    (expander.expand 1 (.root 10) tree).outcome = .ok expanded ∧ expanded.at? [0] = some kept ∧
      tree.SameHead expanded ∧
      (tree.substitute (.root 11) [(q, .intAt (.root 12) 1)]).at? [0] = some kept := by
  obtain ⟨hsubstitute, -, hexpand⟩ := sharing tree
  have houtcome : (expander.expand 1 (.root 10) tree).outcome = .ok expanded := by decide +kernel
  have hexpand := hexpand expander 1 (.root 10) expanded houtcome
  have hnocall : ∀ a : Expr, a.spelled = none → ¬∃ l as, expander.resolver.Calls a l as := by
    rintro a ha ⟨l, as, hcalls⟩
    exact (Resolver.leaves_of_spelled ha).not_calls hcalls
  have hnokey : ∀ a : Expr, a.reference? ≠ some q →
      ¬Expr.IsKey [(q, .intAt (.root 12) 1)] a := by
    rintro a ha ⟨r, hr, hbound⟩
    have hrq : (r == q) = false := beq_eq_false_iff_ne.2 fun h => ha (h ▸ hr)
    exact hbound (by rw [Substitution.get?, List.lookup_cons, hrq]; rfl)
  refine ⟨houtcome, ?_, ?_, ?_⟩
  · obtain ⟨a, ha, hsame, -⟩ := hexpand [0] kept rfl
      ((Expr.outside_cons rfl).2 ⟨hnocall _ rfl, Expr.outside_nil.2 (hnocall _ rfl)⟩)
    rw [ha, hsame (Expr.All.imp hnocall (by decide +kernel))]
  · obtain ⟨a, ha, -, hhead, -⟩ := hexpand [] tree rfl (Expr.outside_nil.2 (hnocall _ rfl))
    cases ha
    exact hhead
  · obtain ⟨a, ha, hsame, -⟩ := hsubstitute [(q, .intAt (.root 12) 1)] (.root 11) [0] kept rfl
      ((Expr.outside_cons rfl).2 ⟨hnokey _ (by decide), Expr.outside_nil.2 (hnokey _ (by decide))⟩)
    rw [ha, hsame (Expr.All.imp hnokey (by decide +kernel))]

end PredicateTree
