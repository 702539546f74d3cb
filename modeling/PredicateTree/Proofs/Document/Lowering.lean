import Mathlib.Data.List.Forall2
import PredicateTree.Document.Lowering
import PredicateTree.Proofs.Expr.Parts
import PredicateTree.Proofs.Outcome

/-!
# Proofs.Document.Lowering

What lowering gives, node by node.

* `Node.children`: the nodes right below a written node, each with the position it is lowered at.
* `Node.lower_children`: the nodes below a lowered node are the lowered nodes below, in the scope
  that the lowered node declares. The lemmas after it say what becomes of the node itself.
* `Datum.lower_object`, `Datum.lower_lambda`: what becomes of a written value.
-/

namespace PredicateTree

theorem exists_mem_of_forall₂ {α β : Type} {R : α → β → Prop} {as : List α} {bs : List β}
    (h : List.Forall₂ R as bs) {b : β} (hb : b ∈ bs) : ∃ a ∈ as, R a b := by
  induction h with
  | nil => cases hb
  | cons hab _ ih =>
    rcases List.mem_cons.1 hb with rfl | hb
    · exact ⟨_, List.mem_cons_self, hab⟩
    · obtain ⟨a, ha, hR⟩ := ih hb
      exact ⟨a, List.mem_cons_of_mem _ ha, hR⟩

theorem getElem?_of_forall₂ {α β : Type} {R : α → β → Prop} {as : List α} {bs : List β}
    (h : List.Forall₂ R as bs) :
    ∀ {i : Nat} {a : α}, as[i]? = some a → ∃ b, bs[i]? = some b ∧ R a b := by
  induction h with
  | nil =>
    intro i a ha
    cases ha
  | @cons a b as bs hab _ ih =>
    intro i x hx
    cases i with
    | zero =>
      cases hx
      exact ⟨b, rfl, hab⟩
    | succ i => exact ih hx

namespace Document

open Outcome (bind_eq_ok pure_eq_ok)

variable {α β : Type} {c : Constants} {scope : List Param} {site : Site}

/-! ## Declarations -/

/-- The declaration `d`, written at a position below `site`, makes the parameter `p`. -/
structure Declares (site : Site) (d : Declaration × Nat) (p : Param) : Prop where
  id : p.id = site.child d.2
  name : p.name = d.1.name
  ty : parseTy d.1.ty = .ok p.ty

theorem declare_params {ds : List Declaration} :
    ∀ {i : Nat} {ps : List Param}, declare site i ds = .ok ps →
      List.Forall₂ (Declares site) (ds.zipIdx i) ps := by
  induction ds with
  | nil =>
    intro i ps h
    cases h
    exact .nil
  | cons d ds ih =>
    intro i ps h
    simp only [declare, bind_eq_ok, pure_eq_ok] at h
    obtain ⟨t, ht, ps', hps, rfl⟩ := h
    exact .cons ⟨rfl, rfl, ht⟩ (ih hps)

theorem declare_names {ds : List Declaration} {ps : List Param} {i : Nat}
    (h : declare site i ds = .ok ps) : ps.map Param.name = ds.map Declaration.name := by
  have hnames : List.Forall₂ Eq ((ds.zipIdx i).map (Declaration.name ∘ Prod.fst))
      (ps.map Param.name) := by
    rw [List.forall₂_map_left_iff, List.forall₂_map_right_iff]
    exact (declare_params h).imp fun _ _ hp => hp.name.symm
  rw [List.forall₂_eq_eq_eq, ← List.map_map, List.zipIdx_map_fst] at hnames
  exact hnames.symm

theorem lookup_eq_ok {name : String} {p : Param} (h : lookup scope name = .ok p) :
    scope.find? (·.name == name) = some p := by
  unfold lookup at h
  cases hfind : scope.find? (·.name == name) with
  | some q =>
    rw [hfind] at h
    cases h
    rfl
  | none =>
    rw [hfind] at h
    cases h

/-! ## Nodes -/

/-- The parameters that a node declares for the nodes below. -/
def Node.declared : Node → List Declaration
  | .lambda ds _ => ds
  | _ => []

/-- A reference to a parameter or to a constant, or a literal. -/
def Node.isAtom : Node → Bool
  | .param _ | .literal .. | .constant _ => true
  | _ => false

/-- The nodes right below, left to right, each with its position. A literal has none. -/
def Node.children : Node → List (Node × Nat)
  | .lambda _ b => [(b, 1)]
  | .member t _ _ _ => t.toList.map (·, 0)
  | .call t _ _ as _ _ => t.toList.map (·, 0) ++ as.zipIdx 1
  | .expand l as _ => (l, 0) :: as.zipIdx 1
  | .binary _ a b => [(a, 0), (b, 1)]
  | .unary _ a => [(a, 0)]
  | .conditional a b c => [(a, 0), (b, 1), (c, 2)]
  | .dynamic _ as _ => as.zipIdx 0
  | .param _ | .literal .. | .constant _ | .default _ => []

theorem Node.sizeOf_lt_of_mem_children {n : Node} {q : Node × Nat} (h : q ∈ n.children) :
    sizeOf q.1 < sizeOf n := by
  have hrow : ∀ {ns : List Node} {i : Nat}, q ∈ ns.zipIdx i → sizeOf q.1 < sizeOf ns :=
    fun hq => List.sizeOf_lt_of_mem (List.fst_mem_of_mem_zipIdx hq)
  cases n with
  | lambda ds b =>
    obtain rfl := List.mem_singleton.1 h
    simp only [Node.lambda.sizeOf_spec]
    omega
  | member t declaring name ty =>
    cases t with
    | none => cases h
    | some t =>
      obtain rfl := List.mem_singleton.1 h
      simp only [Node.member.sizeOf_spec, Option.some.sizeOf_spec]
      omega
  | call t declaring method as markers ty =>
    simp only [Node.call.sizeOf_spec]
    rcases List.mem_append.1 h with h | h
    · cases t with
      | none => cases h
      | some t =>
        obtain rfl := List.mem_singleton.1 h
        simp only [Option.some.sizeOf_spec]
        omega
    · have := hrow h
      omega
  | expand l as ty =>
    simp only [Node.expand.sizeOf_spec]
    rcases List.mem_cons.1 h with rfl | h
    · simp only
      omega
    · have := hrow h
      omega
  | binary op a b =>
    simp only [Node.children, List.mem_cons, List.not_mem_nil, or_false] at h
    simp only [Node.binary.sizeOf_spec]
    rcases h with rfl | rfl <;> simp only <;> omega
  | unary op a =>
    obtain rfl := List.mem_singleton.1 h
    simp only [Node.unary.sizeOf_spec]
    omega
  | conditional a b d =>
    simp only [Node.children, List.mem_cons, List.not_mem_nil, or_false] at h
    simp only [Node.conditional.sizeOf_spec]
    rcases h with rfl | rfl | rfl <;> simp only <;> omega
  | dynamic binder as ty =>
    have := hrow h
    simp only [Node.dynamic.sizeOf_spec]
    omega
  | param | literal | constant | default => cases h

theorem Datum.sizeOf_lt_of_mem {fs : List (String × Datum)} {f : String × Datum} (h : f ∈ fs) :
    sizeOf f.2 < sizeOf fs := by
  have hf := List.sizeOf_lt_of_mem h
  obtain ⟨k, d⟩ := f
  simp only [Prod.mk.sizeOf_spec] at hf
  simp only
  omega

/-- The tree `a` comes from the child `q` of a node at `site`. -/
abbrev LowersChild (c : Constants) (scope : List Param) (site : Site) (q : Node × Nat) (a : Expr) :
    Prop :=
  Node.lower c scope (site.child q.2) q.1 = .ok a

theorem Node.lowerOption_children {t : Option Node} {t' : Option Expr}
    (h : Node.lowerOption c scope (site.child 0) t = .ok t') :
    List.Forall₂ (LowersChild c scope site) (t.toList.map (·, 0)) t'.toList := by
  cases t with
  | none =>
    cases h
    exact .nil
  | some n =>
    simp only [Node.lowerOption, bind_eq_ok, pure_eq_ok] at h
    obtain ⟨e, he, rfl⟩ := h
    exact .cons he .nil

theorem Node.lowerList_children {ns : List Node} :
    ∀ {i : Nat} {es : List Expr}, Node.lowerList c scope site i ns = .ok es →
      List.Forall₂ (LowersChild c scope site) (ns.zipIdx i) es := by
  induction ns with
  | nil =>
    intro i es h
    cases h
    exact .nil
  | cons n ns ih =>
    intro i es h
    simp only [Node.lowerList, bind_eq_ok, pure_eq_ok] at h
    obtain ⟨e, he, es', hes, rfl⟩ := h
    exact .cons he (ih hes)

theorem Node.lower_children {n : Node} {e : Expr} (h : Node.lower c scope site n = .ok e) :
    e.isAtom = n.isAtom ∧ declare (site.child 0) 0 n.declared = .ok e.declared ∧
      List.Forall₂ (LowersChild c (e.declared ++ scope) site) n.children e.children := by
  cases n with
  | lambda ds b =>
    simp only [Node.lower, bind_eq_ok, pure_eq_ok] at h
    obtain ⟨ps, hps, body, hbody, rfl⟩ := h
    exact ⟨rfl, hps, .cons hbody .nil⟩
  | param name =>
    simp only [Node.lower, bind_eq_ok, pure_eq_ok] at h
    obtain ⟨p, -, rfl⟩ := h
    exact ⟨rfl, rfl, .nil⟩
  | literal d ty =>
    cases ty with
    | none =>
      simp only [Node.lower, bind_eq_ok, pure_eq_ok] at h
      obtain ⟨v, -, rfl⟩ := h
      exact ⟨rfl, rfl, .nil⟩
    | some s =>
      simp only [Node.lower, bind_eq_ok, pure_eq_ok] at h
      obtain ⟨v, -, t, -, rfl⟩ := h
      exact ⟨rfl, rfl, .nil⟩
  | constant name =>
    simp only [Node.lower, bind_eq_ok, pure_eq_ok] at h
    obtain ⟨v, -, rfl⟩ := h
    exact ⟨rfl, rfl, .nil⟩
  | member t declaring name ty =>
    simp only [Node.lower, bind_eq_ok] at h
    obtain ⟨ty', -, t', ht, h⟩ := h
    have ht := Node.lowerOption_children ht
    cases t' with
    | some a =>
      cases h
      exact ⟨rfl, rfl, ht⟩
    | none =>
      cases declaring with
      | some k =>
        cases h
        exact ⟨rfl, rfl, ht⟩
      | none => cases h
  | call t declaring method as markers ty =>
    simp only [Node.lower, bind_eq_ok] at h
    obtain ⟨ty', -, t', ht, h⟩ := h
    have ht := Node.lowerOption_children ht
    split at h
    · cases h
    · simp only [bind_eq_ok, pure_eq_ok] at h
      obtain ⟨as', has, rfl⟩ := h
      exact ⟨rfl, rfl, List.rel_append ht (Node.lowerList_children has)⟩
  | expand l as ty =>
    simp only [Node.lower, bind_eq_ok, pure_eq_ok] at h
    obtain ⟨l', hl, as', has, ty', -, rfl⟩ := h
    exact ⟨rfl, rfl, .cons hl (Node.lowerList_children has)⟩
  | binary op a b =>
    simp only [Node.lower, bind_eq_ok, pure_eq_ok] at h
    obtain ⟨a', ha, b', hb, rfl⟩ := h
    exact ⟨rfl, rfl, .cons ha (.cons hb .nil)⟩
  | unary op a =>
    simp only [Node.lower, bind_eq_ok, pure_eq_ok] at h
    obtain ⟨a', ha, rfl⟩ := h
    exact ⟨rfl, rfl, .cons ha .nil⟩
  | conditional a b d =>
    simp only [Node.lower, bind_eq_ok, pure_eq_ok] at h
    obtain ⟨a', ha, b', hb, d', hd, rfl⟩ := h
    exact ⟨rfl, rfl, .cons ha (.cons hb (.cons hd .nil))⟩
  | default ty =>
    simp only [Node.lower, bind_eq_ok, pure_eq_ok] at h
    obtain ⟨ty', -, rfl⟩ := h
    exact ⟨rfl, rfl, .nil⟩
  | dynamic binder as ty =>
    simp only [Node.lower, bind_eq_ok, pure_eq_ok] at h
    obtain ⟨as', has, ty', -, rfl⟩ := h
    exact ⟨rfl, rfl, Node.lowerList_children has⟩

theorem Node.lower_param {name : String} {e : Expr}
    (h : Node.lower c scope site (.param name) = .ok e) :
    ∃ p, scope.find? (·.name == name) = some p ∧ e = .parameterAt site p := by
  simp only [Node.lower, bind_eq_ok, pure_eq_ok] at h
  obtain ⟨p, hp, rfl⟩ := h
  exact ⟨p, lookup_eq_ok hp, rfl⟩

theorem Node.lower_literal {d : Datum} {ty : Option String} {e : Expr}
    (h : Node.lower c scope site (.literal d ty) = .ok e) :
    ∃ l v, Datum.lower c scope (site.child 0) d = .ok v ∧ e = .constant l v := by
  cases ty with
  | none =>
    simp only [Node.lower, bind_eq_ok, pure_eq_ok] at h
    obtain ⟨v, hv, rfl⟩ := h
    exact ⟨_, v, hv, rfl⟩
  | some s =>
    simp only [Node.lower, bind_eq_ok, pure_eq_ok] at h
    obtain ⟨v, hv, t, -, rfl⟩ := h
    exact ⟨_, v, hv, rfl⟩

theorem Node.lower_constant {name : String} {e : Expr}
    (h : Node.lower c scope site (.constant name) = .ok e) :
    ∃ v, c name = .ok v ∧ e = .constantAt site v := by
  simp only [Node.lower, bind_eq_ok, pure_eq_ok] at h
  obtain ⟨v, hv, rfl⟩ := h
  exact ⟨v, hv, rfl⟩

/-! ## Data -/

/-- The entry `w` comes from the field `f` of an object at `site`. -/
abbrev LowersField (c : Constants) (scope : List Param) (site : Site)
    (f : (String × Datum) × Nat) (w : String × Value) : Prop :=
  w.1 = f.1.1 ∧ Datum.lower c scope (site.child f.2) f.1.2 = .ok w.2

theorem Datum.lowerFields_entries {fs : List (String × Datum)} :
    ∀ {i : Nat} {vs : List (String × Value)}, Datum.lowerFields c scope site i fs = .ok vs →
      List.Forall₂ (LowersField c scope site) (fs.zipIdx i) vs := by
  induction fs with
  | nil =>
    intro i vs h
    cases h
    exact .nil
  | cons f fs ih =>
    intro i vs h
    simp only [Datum.lowerFields, bind_eq_ok, pure_eq_ok] at h
    obtain ⟨v, hv, vs', hvs, rfl⟩ := h
    exact .cons ⟨rfl, hv⟩ (ih hvs)

theorem Datum.lower_object {k : String} {fs : List (String × Datum)} {v : Value}
    (h : Datum.lower c scope site (.object k fs) = .ok v) :
    ∃ vs, Datum.lowerFields c scope site 0 fs = .ok vs ∧ v = .objectOf k vs := by
  simp only [Datum.lower, bind_eq_ok, pure_eq_ok] at h
  obtain ⟨vs, hvs, rfl⟩ := h
  exact ⟨vs, hvs, rfl⟩

theorem Datum.lower_lambda {ds : List Declaration} {b : Node} {v : Value}
    (h : Datum.lower c scope site (.node (.lambda ds b)) = .ok v) :
    ∃ ps body, declare (site.child 0) 0 ds = .ok ps ∧
      Node.lower c (ps ++ scope) (site.child 1) b = .ok body ∧ v = .lambda ps body := by
  simp only [Datum.lower, bind_eq_ok, pure_eq_ok] at h
  obtain ⟨ps, hps, body, hbody, rfl⟩ := h
  exact ⟨ps, body, hps, hbody, rfl⟩

end Document

end PredicateTree
