import PredicateTree.Proofs.Expansion.Derivation
import PredicateTree.Proofs.Expr.Closed

/-!
# Proofs.Expansion.Hygiene

What an expanded tree refers to.

* `Expr.free`: the variables that a tree refers to and that no lambda around the reference declares.
  Constants are not looked into.
* `Expands.free`: a tree expanded under bindings refers to what it referred to and is not bound, to
  what the bound trees refer to, and to what the inlined bodies refer to beyond their parameters.
  The induction is for all sets of variables at once, because below a lambda its parameters are
  allowed.
* `free_expand`: this for a whole tree, where nothing is bound.
-/

namespace PredicateTree

namespace Expr

mutual

def free : Expr → List Param
  | .binary _ _ a b => a.free ++ b.free
  | .unary _ _ a => a.free
  | .member _ t _ => t.free
  | .call _ t _ as => freeOption t ++ freeList as
  | .parameter _ p => [p]
  | .conditional _ a b c => a.free ++ b.free ++ c.free
  | .dynamic _ _ as => freeList as
  | .lambda _ ps b => b.free.filter (· ∉ ps)
  | .static .. | .constant .. | .default _ => []

def freeOption : Option Expr → List Param
  | none => []
  | some a => a.free

def freeList : List Expr → List Param
  | [] => []
  | a :: as => a.free ++ freeList as

end

variable {p : Param}

theorem mem_freeOption (t : Option Expr) : p ∈ freeOption t ↔ ∃ a ∈ t.toList, p ∈ a.free := by
  cases t <;> simp [freeOption]

theorem mem_freeList (as : List Expr) : p ∈ freeList as ↔ ∃ a ∈ as, p ∈ a.free := by
  induction as with
  | nil => simp [freeList]
  | cons a as ih => simp [freeList, ih]

theorem mem_free_iff (e : Expr) :
    p ∈ e.free ↔ e.reference? = some p ∨ p ∉ e.declared ∧ ∃ c ∈ e.children, p ∈ c.free := by
  cases e with
  | call l t m as =>
    simp [free, reference?, declared, children, mem_freeOption, mem_freeList, or_and_right,
      exists_or]
  | dynamic l b as => simp [free, reference?, declared, children, mem_freeList]
  | parameter l q => simp [free, reference?, declared, children, eq_comm]
  | lambda l ps b => simp [free, reference?, declared, children, and_comm]
  | _ => simp [free, reference?, declared, children]

end Expr

theorem Resolver.Inlines.resolved {r : Resolver} {e : Expr} {l : Lambda} (h : r.Inlines e l) :
    ∃ c, r c = .ok (some l) := by
  induction h with
  | here hcalls =>
    obtain ⟨c, -, hc⟩ := hcalls
    exact ⟨c, hc⟩
  | body _ _ ih | argument _ _ _ ih | part _ _ _ ih => exact ih

theorem Resolver.Calls.mem_free {r : Resolver} {e a : Expr} {l : Lambda} {as : List Expr}
    (h : r.Calls e l as) (ha : a ∈ as) {p : Param} (hp : p ∈ a.free) : p ∈ e.free := by
  have hmem : a ∈ e.children := h.mem_children ha
  obtain ⟨c, hspelled, -⟩ := h
  obtain ⟨_, _, _, _, rfl, -, -⟩ := Expr.eq_of_spelled hspelled
  exact (Expr.mem_free_iff _).2 (.inr ⟨List.not_mem_nil, a, hmem, hp⟩)

theorem Expands.free {r : Resolver} {epoch : Nat} {σ : Substitution} {e e' : Expr}
    (h : Expands r epoch σ e e') :
    ∀ {F : Param → Prop}, (∀ p ∈ e.free, σ.get? p = none → F p) →
      (∀ p a, σ.get? p = some a → ∀ q ∈ a.free, F q) →
      (∀ l, r.Inlines e l → ∀ p ∈ l.body.free, p ∉ l.params → F p) → ∀ p ∈ e'.free, F p := by
  induction h with
  | @reference σ l p =>
    intro F he hσ _ q hq
    cases hp : σ.get? p with
    | none =>
      rw [hp, Option.getD_none] at hq
      obtain rfl : q = p := by simpa [Expr.free] using hq
      exact he q hq hp
    | some a =>
      rw [hp, Option.getD_some] at hq
      exact hσ p a hp q hq
  | @inlined σ e l as as' e' hcalls hparams hlen _ _ ihargs ihbody =>
    intro F he hσ hl
    have hargs : ∀ a' ∈ as', ∀ q ∈ a'.free, F q := by
      intro a' ha'
      obtain ⟨a, hmem⟩ := exists_mem_zip hlen ha'
      have ha : a ∈ as := (List.of_mem_zip hmem).1
      refine ihargs a a' hmem (fun p hp => he p ?_) hσ fun k hk => hl k (.argument hcalls ha hk)
      exact Resolver.Calls.mem_free hcalls ha hp
    refine ihbody (fun p hp hnone => ?_) (fun p a' ha' => ?_) fun k hk => hl k (.body hcalls hk)
    · exact hl l (.here hcalls) p hp
        (Substitution.not_mem_of_get?_ofList (hparams.trans hlen) hnone)
    · exact hargs a' (Substitution.mem_of_get?_ofList ha')
  | @rebuilt σ e cs site hleaves hparam _ hlen _ ih =>
    intro F he hσ hl p hp
    obtain ⟨s, hs⟩ := e.orNew_eq_withChildren cs site
    rw [hs, Expr.mem_free_iff, Expr.reference?_withChildren, Expr.declared_withChildren,
      e.children_withChildren s hlen] at hp
    obtain hreference | ⟨hdeclared, c', hc', hp⟩ := hp
    · cases e with
      | parameter => cases hparam
      | _ => cases hreference
    · obtain ⟨c, hmem⟩ := exists_mem_zip hlen hc'
      have hc : c ∈ e.children := (List.of_mem_zip hmem).1
      have hF : F p ∨ p ∈ e.declared := by
        refine ih c c' hmem (F := fun q => F q ∨ q ∈ e.declared) (fun q hq hnone => ?_)
          (fun q a ha u hu => .inl (hσ q a ha u hu))
          (fun k hk q hq hparams => .inl (hl k (.part hleaves hc hk) q hq hparams)) p hp
        by_cases hdecl : q ∈ e.declared
        · exact .inr hdecl
        · exact .inl (he q ((Expr.mem_free_iff e).2 (.inr ⟨hdecl, c, hc, hq⟩)) hnone)
      exact hF.resolve_right hdeclared

/-- An expanded tree refers to what the tree refers to, and to what a lambda that was resolved and
inlined on the way leaves free in its body. If none leaves anything free, expansion brings in no new
reference. -/
theorem free_expand {x : Expander} {fuel : Nat} {site : Site} {t t' : Expr}
    (h : (x.expand fuel site t).outcome = .ok t') :
    (∀ p ∈ t'.free, p ∈ t.free ∨ ∃ c l, x.resolver c = .ok (some l) ∧ x.resolver.Inlines t l ∧
      p ∈ l.body.free ∧ p ∉ l.params) ∧
    ((∀ l, x.resolver.Inlines t l → l.body.free ⊆ l.params) → t'.free ⊆ t.free) := by
  have hexpands : Expands x.resolver site.epoch [] t t' := Expander.expands_of_expand h
  constructor
  · refine hexpands.free (fun p hp _ => .inl hp) (fun p a ha => by cases ha) ?_
    intro l hl p hp hparams
    obtain ⟨c, hc⟩ := hl.resolved
    exact .inr ⟨c, l, hc, hl, hp, hparams⟩
  · intro hclosed
    refine hexpands.free (fun p hp _ => hp) (fun p a ha => by cases ha) ?_
    intro l hl p hp hparams
    exact absurd (hclosed l hl hp) hparams

namespace Stray

def place (i : Nat) : Site := (Site.root 0).child i

def p : Param := ⟨place 0, "p", .int⟩

def q : Param := ⟨place 1, "q", .int⟩

def y : Param := ⟨place 2, "y", .int⟩

def z : Param := ⟨place 3, "z", .int⟩

/-- `expand(R::name, a)` -/
def call (i : Nat) (name : String) (a : Expr) : Expr :=
  .expandAt (place i) (.staticAt (place (i + 1)) "R" name (.fn [.int] .int)) [a] .int

/-- `z => z + added` -/
def plus (added : Expr) : Lambda :=
  ⟨[z], .binaryAt (place 4) .add (.parameterAt (place 5) z) added⟩

/-- `y => expand(R::plus, expand(R::plus, y))` -/
def twice : Lambda := ⟨[y], call 6 "plus" (call 8 "plus" (.parameterAt (place 10) y))⟩

def tree : Expr := call 11 "twice" (.parameterAt (place 13) p)

def expander (added : Expr) : Expander where
  resolver c := .ok (some (if c.members = ["twice"] then twice else plus added))

end Stray

open Stray in
/-- What the inner rule adds is added twice. A variable in it is one that the rule leaves free. -/
theorem free_expand_stray :
    (∃ t', ((expander (.parameterAt (place 14) q)).expand 2 (.root 1) tree).outcome = .ok t' ∧
      q ∈ t'.free ∧ q ∉ tree.free ∧
      ∃ c l, (expander (.parameterAt (place 14) q)).resolver c = .ok (some l) ∧
        (expander (.parameterAt (place 14) q)).resolver.Inlines tree l ∧
        q ∈ l.body.free ∧ q ∉ l.params) ∧
    ∃ t', ((expander (.intAt (place 14) 1)).expand 2 (.root 1) tree).outcome = .ok t' ∧
      t'.free ⊆ tree.free := by
  constructor
  · obtain ⟨t', ht', hq⟩ : ∃ t',
        ((expander (.parameterAt (place 14) q)).expand 2 (.root 1) tree).outcome = .ok t' ∧
          q ∈ t'.free := ⟨_, rfl, by decide⟩
    have hnew : q ∉ tree.free := by decide
    exact ⟨t', ht', hq, hnew, ((free_expand ht').1 q hq).resolve_left hnew⟩
  · obtain ⟨t', ht'⟩ : ∃ t',
        ((expander (.intAt (place 14) 1)).expand 2 (.root 1) tree).outcome = .ok t' := ⟨_, rfl⟩
    refine ⟨t', ht', (free_expand ht').2 fun l hl => ?_⟩
    obtain ⟨c, hc⟩ := hl.resolved
    cases hc
    split <;> decide

end PredicateTree
