import PredicateTree.Proofs.Document.Constants
import PredicateTree.Proofs.Expansion.Closed
import PredicateTree.Proofs.Expansion.Meaning

/-!
# Proofs.Document.Safety

When a document that lowers cannot meet an unbound variable.

Lowering finds the declaration of every name, also for a lambda in a literal that refers to a
parameter around the literal. A value is never closed, though: the lambda is called without the
bindings around the literal, and the parameter is missing.

* `Document.isSealed`: what is written in a literal refers to no parameter from outside.
* `Node.closed_lower`, `Datum.closed_lower`: then trees and values are lowered to closed ones.
* `apply_ne_unbound`: then neither the predicate nor its expansion meets an unbound variable.
* `apply_literal_unbound`: otherwise both may.
-/

namespace PredicateTree

mutual

theorem Value.closed_of_lambdaFree : ∀ {v : Value}, v.lambdaFree = true → v.Closed
  | .object _ _, h => Value.closedFields_of_lambdaFree h
  | .lambda .., h => by cases h
  | .null, _ | .bool _, _ | .int _, _ | .float _, _ | .str _, _ => trivial

theorem Value.closedFields_of_lambdaFree : ∀ {fs : List (String × Value)},
    Value.lambdaFreeFields fs = true → Value.ClosedFields fs
  | [], _ => trivial
  | (_, _) :: _, h => by
    simp only [Value.lambdaFreeFields, Bool.and_eq_true] at h
    exact ⟨Value.closed_of_lambdaFree h.1, Value.closedFields_of_lambdaFree h.2⟩

end

namespace Document

mutual

/-- All parameters are declared in the tree or among `names`. What is written in a literal does not
see `names`, nor what is declared around the literal. -/
def Node.sealedIn (names : List String) : Node → Bool
  | .lambda ds b => b.sealedIn (ds.map Declaration.name ++ names)
  | .param name => names.contains name
  | .literal d _ => d.isSealed
  | .member t _ _ _ => Node.sealedOption names t
  | .call t _ _ as _ _ => Node.sealedOption names t && Node.sealedList names as
  | .expand l as _ => l.sealedIn names && Node.sealedList names as
  | .binary _ a b => a.sealedIn names && b.sealedIn names
  | .unary _ a => a.sealedIn names
  | .conditional a b c => a.sealedIn names && (b.sealedIn names && c.sealedIn names)
  | .dynamic _ as _ => Node.sealedList names as
  | .constant _ | .default _ => true

def Node.sealedOption (names : List String) : Option Node → Bool
  | none => true
  | some n => n.sealedIn names

def Node.sealedList (names : List String) : List Node → Bool
  | [] => true
  | n :: ns => n.sealedIn names && Node.sealedList names ns

def Datum.isSealed : Datum → Bool
  | .object _ fs => Datum.sealedFields fs
  | .node (.lambda ds b) => b.sealedIn (ds.map Declaration.name)
  | _ => true

def Datum.sealedFields : List (String × Datum) → Bool
  | [] => true
  | (_, d) :: fs => d.isSealed && Datum.sealedFields fs

end

def isSealed (doc : Document) : Bool :=
  (Datum.node doc.predicate).isSealed && doc.constants.all (·.2.isSealed) &&
    doc.statics.all (·.2.all (·.2.isSealed))

theorem Node.sealedList_iff {names : List String} {ns : List Node} :
    Node.sealedList names ns = true ↔ ∀ n ∈ ns, n.sealedIn names = true := by
  induction ns with
  | nil => simp [Node.sealedList]
  | cons n ns ih => simp [Node.sealedList, ih]

theorem Datum.sealedFields_iff {fs : List (String × Datum)} :
    Datum.sealedFields fs = true ↔ ∀ f ∈ fs, f.2.isSealed = true := by
  induction fs with
  | nil => simp [Datum.sealedFields]
  | cons f fs ih => simp [Datum.sealedFields, ih]

theorem Node.sealedIn_children {names : List String} {n : Node} (h : n.sealedIn names = true)
    {q : Node × Nat} (hq : q ∈ n.children) :
    q.1.sealedIn (n.declared.map Declaration.name ++ names) = true := by
  cases n with
  | lambda ds b =>
    obtain rfl := List.mem_singleton.1 hq
    exact h
  | member t declaring name ty =>
    cases t with
    | none => cases hq
    | some t =>
      obtain rfl := List.mem_singleton.1 hq
      exact h
  | call t declaring method as markers ty =>
    simp only [Node.sealedIn, Bool.and_eq_true] at h
    rcases List.mem_append.1 hq with hq | hq
    · cases t with
      | none => cases hq
      | some t =>
        obtain rfl := List.mem_singleton.1 hq
        exact h.1
    · exact Node.sealedList_iff.1 h.2 q.1 (List.fst_mem_of_mem_zipIdx hq)
  | expand l as ty =>
    simp only [Node.sealedIn, Bool.and_eq_true] at h
    rcases List.mem_cons.1 hq with rfl | hq
    · exact h.1
    · exact Node.sealedList_iff.1 h.2 q.1 (List.fst_mem_of_mem_zipIdx hq)
  | binary op a b =>
    simp only [Node.sealedIn, Bool.and_eq_true] at h
    simp only [Node.children, List.mem_cons, List.not_mem_nil, or_false] at hq
    rcases hq with rfl | rfl
    · exact h.1
    · exact h.2
  | unary op a =>
    obtain rfl := List.mem_singleton.1 hq
    exact h
  | conditional a b d =>
    simp only [Node.sealedIn, Bool.and_eq_true] at h
    simp only [Node.children, List.mem_cons, List.not_mem_nil, or_false] at hq
    rcases hq with rfl | rfl | rfl
    · exact h.1
    · exact h.2.1
    · exact h.2.2
  | dynamic binder as ty =>
    exact Node.sealedList_iff.1 h q.1 (List.fst_mem_of_mem_zipIdx hq)
  | param | literal | constant | default => cases hq

variable {c : Constants}

theorem find?_append_mem {inner outer : List Param} {name : String} {p : Param}
    (hname : name ∈ inner.map Param.name)
    (h : (inner ++ outer).find? (·.name == name) = some p) : p ∈ inner := by
  obtain ⟨q, hq, rfl⟩ := List.mem_map.1 hname
  rw [List.find?_append] at h
  cases hfind : inner.find? (·.name == q.name) with
  | some r =>
    rw [hfind] at h
    cases h
    exact List.mem_of_find?_eq_some hfind
  | none =>
    have hnot := List.find?_eq_none.1 hfind q hq
    simp at hnot

mutual

theorem Node.closed_lower (hc : ∀ name v, c name = .ok v → v.Closed) (n : Node)
    {inner outer : List Param} {site : Site} {e : Expr}
    (hn : n.sealedIn (inner.map Param.name) = true)
    (h : Node.lower c (inner ++ outer) site n = .ok e) : e.Closed inner := by
  obtain ⟨hatom, hdeclared, hchildren⟩ := Node.lower_children h
  refine (Expr.closed_iff e).2 ⟨?_, fun a ha => ?_⟩
  · match n, hn, h, hatom with
    | .param name, hn, h, _ =>
      obtain ⟨p, hp, rfl⟩ := Node.lower_param h
      have hname : name ∈ inner.map Param.name := by simpa [Node.sealedIn] using hn
      exact find?_append_mem hname hp
    | .literal d ty, hn, h, _ =>
      obtain ⟨l, v, hv, rfl⟩ := Node.lower_literal h
      exact Datum.closed_lower hc d hn hv
    | .constant name, _, h, _ =>
      obtain ⟨v, hv, rfl⟩ := Node.lower_constant h
      exact hc name v hv
    | .lambda .., _, _, hatom | .member .., _, _, hatom | .call .., _, _, hatom
    | .expand .., _, _, hatom | .binary .., _, _, hatom | .unary .., _, _, hatom
    | .conditional .., _, _, hatom | .default _, _, _, hatom | .dynamic .., _, _, hatom =>
      exact Expr.closedHead_of_isAtom hatom
  · obtain ⟨q, hq, hlower⟩ := exists_mem_of_forall₂ hchildren ha
    have hsmaller := Node.sizeOf_lt_of_mem_children hq
    have hsealed : q.1.sealedIn ((e.declared ++ inner).map Param.name) = true := by
      rw [List.map_append, declare_names hdeclared]
      exact Node.sealedIn_children hn hq
    unfold LowersChild at hlower
    rw [← List.append_assoc] at hlower
    exact Node.closed_lower hc q.1 hsealed hlower
termination_by sizeOf n

theorem Datum.closed_lower (hc : ∀ name v, c name = .ok v → v.Closed) (d : Datum)
    {scope : List Param} {site : Site} {v : Value} (hd : d.isSealed = true)
    (h : Datum.lower c scope site d = .ok v) : v.Closed := by
  match d, hd, h with
  | .object k fs, hd, h =>
    obtain ⟨vs, hvs, rfl⟩ := Datum.lower_object h
    refine (Value.closedFields_iff _).2 fun w hw => ?_
    obtain ⟨f, hf, -, hlower⟩ :=
      exists_mem_of_forall₂ (Datum.lowerFields_entries hvs) (Table.mem_ofList hw)
    have hmem : f.1 ∈ fs := List.fst_mem_of_mem_zipIdx hf
    have hsmaller : sizeOf f.1.2 < sizeOf fs := Datum.sizeOf_lt_of_mem hmem
    exact Datum.closed_lower hc f.1.2 (Datum.sealedFields_iff.1 hd f.1 hmem) hlower
  | .node (.lambda ds b), hd, h =>
    obtain ⟨ps, body, hps, hbody, rfl⟩ := Datum.lower_lambda h
    rw [Datum.isSealed, ← declare_names hps] at hd
    exact Node.closed_lower hc b hd hbody
  | .node (.constant name), _, h => exact hc name v h
  | .null, _, h | .bool _, _, h | .int _, _, h | .float _, _, h | .str _, _, h =>
    cases h
    trivial
  | .unsigned _, _, h | .node (.param _), _, h | .node (.literal ..), _, h
  | .node (.member ..), _, h | .node (.call ..), _, h | .node (.expand ..), _, h
  | .node (.binary ..), _, h | .node (.unary ..), _, h | .node (.conditional ..), _, h
  | .node (.default _), _, h | .node (.dynamic ..), _, h => cases h
termination_by sizeOf d

end

/-! ## Documents -/

section

variable {doc : Document} {site : Site} {low : Lowered}

theorem closed_constant (hdoc : doc.isSealed = true) {name : String} {v : Value}
    (h : doc.constant site (doc.settled site) name = .ok v) : v.Closed := by
  refine constant_induction (P := fun _ => Value.Closed) (fun c name d v hc hd hv => ?_) h
  simp only [isSealed, Bool.and_eq_true, List.all_eq_true] at hdoc
  exact Datum.closed_lower hc d (hdoc.1.2 _ (mem_of_lookup hd)) hv

theorem closed_predicate (hdoc : doc.isSealed = true) (hlow : doc.lower site = .ok low) :
    low.predicate.Closed := by
  obtain ⟨-, -, hpredicate⟩ := lower_eq_ok hlow
  have hsealed : (Datum.node doc.predicate).isSealed = true := by
    simp only [isSealed, Bool.and_eq_true] at hdoc
    exact hdoc.1.1
  exact Datum.closed_lower (fun name v => closed_constant hdoc) _ hsealed hpredicate

theorem closed_staticMembers (hdoc : doc.isSealed = true) (hlow : doc.lower site = .ok low) :
    low.staticMembers.Closed := by
  obtain ⟨-, hstatics, -⟩ := lower_eq_ok hlow
  refine Statics.Closed.ofTables fun t ht m hm => ?_
  obtain ⟨t', ht', hmembers⟩ := exists_mem_of_forall₂ (lowerStatics_tables hstatics) ht
  obtain ⟨m', hm', -, hlower⟩ :=
    exists_mem_of_forall₂ (Datum.lowerFields_entries hmembers) hm
  have hsealed : m'.1.2.isSealed = true := by
    simp only [isSealed, Bool.and_eq_true, List.all_eq_true] at hdoc
    exact hdoc.2 _ (List.fst_mem_of_mem_zipIdx ht') _ (List.fst_mem_of_mem_zipIdx hm')
  exact Datum.closed_lower (fun name v => closed_constant hdoc) _ hsealed hlower

/-- The predicate of a sealed document, and what expansion makes of it, never meets an unbound
variable on arguments without lambdas. -/
theorem apply_ne_unbound (hdoc : doc.isSealed = true) (hlow : doc.lower site = .ok low)
    {args : List Value} (hargs : ∀ v ∈ args, v.lambdaFree = true) :
    (∀ n s name, Evaluator.apply { statics := low.staticMembers } n s low.predicate args ≠
      .error (.unboundParameter name)) ∧
    ∀ fuel s title x, (low.expanded fuel s title).outcome = .ok x →
      ∀ n s name, Evaluator.apply { statics := low.staticMembers } n s x.expanded args ≠
        .error (.unboundParameter name) := by
  have hstatics := closed_staticMembers hdoc hlow
  have hsealed := Evaluator.sealed_builtin hstatics
  have hpredicate := closed_predicate hdoc hlow
  have hclosed : ∀ v ∈ args, v.Closed := fun v hv => Value.closed_of_lambdaFree (hargs v hv)
  constructor
  · intro n s name
    exact (Evaluator.apply_safe hsealed n s low.predicate args hpredicate hclosed).ne_unbound name
  · intro fuel s title x hx n s' name
    obtain ⟨body, hbody, hexpanded⟩ := Lowered.expanded_eq_ok hx
    have hexpands := Expander.expands_of_expand hbody
    have hx' : x.expanded.Closed := by
      rw [hexpanded]
      exact hexpands.closed hstatics hpredicate (fun p a h => by cases h) fun p hp _ => hp
    exact (Evaluator.apply_safe hsealed n s' x.expanded args hx' hclosed).ne_unbound name

end

namespace Sealing

/-- `|name: int| left == name` -/
def sameNode (name left : String) : Node :=
  .lambda [⟨name, "int"⟩] (.binary .eq (.param left) (.param name))

/-- The same, lowered at a place where `left` stands for the parameter that it gives. -/
def same (site : Site) (name : String) (left : Param → Param) : Lambda :=
  let q : Param := ⟨(site.child 0).child 0, name, .int⟩
  let b := site.child 1
  ⟨[q], .binaryAt b .eq (.parameterAt (b.child 0) (left q)) (.parameterAt (b.child 1) q)⟩

def callNode (callee : Node) (arg : String) : Node := .expand callee [.param arg] "bool"

def call (site : Site) (callee : Site → Expr) (arg : Param) : Expr :=
  .expandAt site (callee (site.child 0)) [.parameterAt (site.child 1) arg] .bool

def p : Param := ⟨(((Site.root 0).child 2).child 0).child 0, "p", .int⟩

/-- `|p: int| expand(literal(|y: int| p == y), p)` -/
def looseDocument : Document where
  statics := []
  constants := []
  predicate := .lambda [⟨"p", "int"⟩] (callNode (.literal (.node (sameNode "y" "p")) none) "p")

def loose : Lowered where
  statics := []
  constants := []
  predicate := ⟨[p], call (((Site.root 0).child 2).child 1)
    (fun site => .constantAt site (same (site.child 0) "y" fun _ => p).toValue) p⟩

/-- The rule `R::is` is `|x: int| expand(|y: int| x == y, x)`, and the predicate
`|p: int| expand(R::is, p) && expand(literal(|p: int| p == p), p)`. -/
def ownDocument : Document where
  statics := [("R", [("is", .node (.lambda [⟨"x", "int"⟩] (callNode (sameNode "y" "x") "x")))])]
  constants := []
  predicate := .lambda [⟨"p", "int"⟩] (.binary .and
    (callNode (.member none (some "R") "is" "fn(int) -> bool") "p")
    (callNode (.literal (.node (sameNode "p" "p")) none) "p"))

def own : Lowered :=
  let rule := (((Site.root 0).child 1).child 0).child 0
  let x : Param := ⟨(rule.child 0).child 0, "x", .int⟩
  let is : Lambda :=
    ⟨[x], call (rule.child 1) (fun site => .lambdaAt site (same site "y" fun _ => x)) x⟩
  let body := ((Site.root 0).child 2).child 1
  { statics := [("R", [("is", is.toValue)])]
    constants := []
    predicate := ⟨[p], .binaryAt body .and
      (call (body.child 0) (.staticAt · "R" "is" (.fn [.int] .bool)) p)
      (call (body.child 1)
        (fun site => .constantAt site (same (site.child 0) "p" id).toValue) p)⟩ }

end Sealing

open Sealing in
theorem apply_ne_unbound_own :
    ownDocument.isSealed = true ∧ ownDocument.lower (.root 0) = .ok own ∧ ∃ x,
      (own.expanded 1 (.root 1) "own").outcome = .ok x ∧ ∀ n s name,
        Evaluator.apply { statics := own.staticMembers } n s own.predicate [.int 5] ≠
          .error (.unboundParameter name) ∧
        Evaluator.apply { statics := own.staticMembers } n s x.expanded [.int 5] ≠
          .error (.unboundParameter name) := by
  have hdoc : ownDocument.isSealed = true := by decide
  have hlow : ownDocument.lower (.root 0) = .ok own := by decide +kernel
  obtain ⟨x, hx⟩ : ∃ x, (own.expanded 1 (.root 1) "own").outcome = .ok x := ⟨_, rfl⟩
  have hfive : ∀ v ∈ [Value.int 5], v.lambdaFree = true := by decide
  obtain ⟨hpredicate, hexpanded⟩ := apply_ne_unbound hdoc hlow hfive
  exact ⟨hdoc, hlow, x, hx, fun n s name => ⟨hpredicate n s name, hexpanded _ _ _ x hx n s name⟩⟩

open Sealing in
/-- The lambda in the literal is lowered below the parameter `p` and called without it. -/
theorem apply_literal_unbound :
    looseDocument.lower (.root 0) = .ok loose ∧ looseDocument.isSealed = false ∧
      Evaluator.apply { statics := loose.staticMembers } 2 (.root 2) loose.predicate [.int 5] =
        .error (.unboundParameter "p") ∧
      ∃ x, (loose.expanded 1 (.root 1) "loose").outcome = .ok x ∧
        Evaluator.apply { statics := loose.staticMembers } 2 (.root 2) x.expanded [.int 5] =
          .error (.unboundParameter "p") :=
  ⟨by decide +kernel, by decide, rfl, _, rfl, rfl⟩

end Document

end PredicateTree
