import PredicateTree.MemorySource
import PredicateTree.Proofs.Expansion.Derivation
import PredicateTree.Proofs.Predicate.Invariant

/-!
# Proofs.Expansion.Complete

When expansion leaves no call to be inlined.

A call stays if its first argument spells no chain or one that leads to no lambda. An expanded
argument takes the place of a parameter and is not looked at again, so what is asked of a tree is
asked of all bodies that are inlined on the way.

* `Resolver.Names`: an expandable call has a chain in its first argument that leads to a lambda.
* `Resolver.Covers`: all calls of a tree and of the bodies on the way are of this kind.
* `Expr.firstExpandable?_eq_none_iff`: what a strict source looks for.
* `expand_complete`: nothing is left of them, and a strict source takes what was expanded.
-/

namespace PredicateTree

namespace Expr

theorem firstExpandableOption?_eq_none_iff (t : Option Expr) :
    firstExpandableOption? t = none ↔ ∀ a ∈ t.toList, a.firstExpandable? = none := by
  cases t <;> simp [firstExpandableOption?]

theorem firstExpandableList?_eq_none_iff (as : List Expr) :
    firstExpandableList? as = none ↔ ∀ a ∈ as, a.firstExpandable? = none := by
  induction as with
  | nil => simp [firstExpandableList?]
  | cons a as ih => simp [firstExpandableList?, ih]

theorem firstExpandable?_eq_none_iff_children (e : Expr) :
    e.firstExpandable? = none ↔
      e.isExpandable = false ∧ ∀ c ∈ e.children, c.firstExpandable? = none := by
  cases e with
  | call l t m as =>
    cases hm : m.isExpandable with
    | true => simp [firstExpandable?, isExpandable, hm]
    | false =>
      simp [firstExpandable?, isExpandable, children, hm, firstExpandableOption?_eq_none_iff,
        firstExpandableList?_eq_none_iff, or_imp, forall_and]
  | dynamic l b as =>
    simp [firstExpandable?, isExpandable, children, firstExpandableList?_eq_none_iff]
  | conditional => simp [firstExpandable?, isExpandable, children, and_assoc]
  | _ => simp [firstExpandable?, isExpandable, children]

theorem firstExpandable?_eq_none_iff (e : Expr) :
    e.firstExpandable? = none ↔ e.All fun a => a.isExpandable = false := by
  induction e using byChildren with
  | node e ih =>
    rw [firstExpandable?_eq_none_iff_children, all_iff]
    exact and_congr_right fun _ => forall₂_congr ih

end Expr

namespace Resolver

variable {r : Resolver}

/-- The lambda that an expandable call names. -/
def callee? (r : Resolver) (e : Expr) : Option Lambda :=
  match e.spelled with
  | some (.ok c, _) =>
    match r c with
    | .ok l => l
    | .error _ => none
  | _ => none

theorem callee?_isSome_iff {e : Expr} :
    (r.callee? e).isSome = true ↔ ∃ l as, r.Calls e l as := by
  unfold callee?
  constructor
  · intro h
    split at h
    · rename_i c as hspelled
      split at h
      · rename_i found hc
        obtain ⟨l, rfl⟩ := Option.isSome_iff_exists.1 h
        exact ⟨l, as, c, hspelled, hc⟩
      · cases h
    · cases h
  · rintro ⟨l, as, c, hspelled, hc⟩
    rw [hspelled]
    dsimp only
    rw [hc]
    rfl

/-- If the tree is an expandable call, its chain leads to a lambda. -/
def Names (r : Resolver) (e : Expr) : Prop := e.isExpandable = true → ∃ l as, r.Calls e l as

instance : DecidablePred r.Names := fun e =>
  decidable_of_iff (e.isExpandable = true → (r.callee? e).isSome = true)
    (imp_congr_right fun _ => callee?_isSome_iff)

structure Covers (r : Resolver) (e : Expr) : Prop where
  tree : e.All r.Names
  bodies : ∀ l, r.Inlines e l → l.body.All r.Names

theorem Leaves.isExpandable_eq {e : Expr} (h : r.Leaves e) (hnames : r.Names e) :
    e.isExpandable = false := by
  refine Bool.eq_false_iff.2 fun hcall => ?_
  obtain ⟨l, as, hcalls⟩ := hnames hcall
  exact h.not_calls hcalls

end Resolver

theorem Expands.all_not_expandable {r : Resolver} {epoch : Nat} {e e' : Expr} (h : r.Covers e)
    (hexpands : Expands r epoch [] e e') : e'.All fun a => a.isExpandable = false := by
  refine hexpands.all (Q := r.Names) (fun l p _ => rfl) ?_ h.tree h.bodies
    (fun p a hp => by cases hp)
  intro σ e cs site hnames hleaves _ _
  obtain ⟨s, hs⟩ := e.orNew_eq_withChildren cs site
  rw [hs, Expr.isExpandable_withChildren]
  exact hleaves.isExpandable_eq hnames

/-! ## Strict sources -/

namespace MemorySource

variable {s : MemorySource} {fuel : Nat} {site : Site}

/-- The call of which the source says that it cannot take it. -/
def refused? {α : Type} : Outcome SourceError α → Option Expr
  | .error (.unsupported call) => some call
  | _ => none

theorem refused?_mapError_bind {ε α β : Type} {x : Outcome ε α} {g : ε → SourceError}
    {f : α → Outcome SourceError β} (hg : ∀ e call, g e ≠ .unsupported call)
    (hf : ∀ a, x = .ok a → refused? (f a) = none) : refused? (x.mapError g >>= f) = none := by
  cases x with
  | ok a => exact hf a rfl
  | unfinished => rfl
  | error e =>
    cases hge : g e with
    | unsupported call => exact absurd hge (hg e call)
    | _ => simp [Outcome.mapError, refused?, hge]

theorem check_eq_ok_iff {l : Lambda} :
    s.check l = .ok () ↔ (s.strict = true → l.body.firstExpandable? = none) := by
  unfold check
  cases s.strict with
  | false => simp
  | true => cases l.body.firstExpandable? <;> simp

theorem check_eq_ok {l : Lambda} (h : l.body.All fun a => a.isExpandable = false) :
    s.check l = .ok () :=
  check_eq_ok_iff.2 fun _ => (Expr.firstExpandable?_eq_none_iff l.body).2 h

theorem refused?_filter {p : Predicate} (h : p.body.All fun a => a.isExpandable = false) :
    refused? (s.filter fuel site p) = none := by
  unfold filter
  rw [check_eq_ok (l := p.lambda) h, Outcome.ok_bind]
  exact refused?_mapError_bind (fun e call h => by cases h) fun _ _ => rfl

theorem refused?_select {l : Lambda} (h : l.body.All fun a => a.isExpandable = false) :
    refused? (s.select fuel site l) = none := by
  unfold select
  rw [check_eq_ok h, Outcome.ok_bind]
  exact refused?_mapError_bind (fun e call h => by cases h) fun _ _ => rfl

end MemorySource

namespace Expander

variable {x : Expander} {t t' : Expr} {fuel : Nat} {site : Site}

theorem expand_all_not_expandable (h : x.resolver.Covers t)
    (ht' : (x.expand fuel site t).outcome = .ok t') : t'.All fun a => a.isExpandable = false :=
  (expands_of_expand ht').all_not_expandable h

theorem expandLambda_eq_ok {l l' : Lambda} (h : (x.expandLambda fuel site l).outcome = .ok l') :
    ∃ body, (x.expand fuel site l.body).outcome = .ok body ∧ l' = l.withBody body := by
  simp only [expandLambda, Traced.outcome_bind, Traced.outcome_pure, Outcome.bind_eq_ok,
    Outcome.ok.injEq] at h
  obtain ⟨body, hbody, rfl⟩ := h
  exact ⟨body, hbody, rfl⟩

end Expander

namespace MemorySource

variable {s : MemorySource} {fuel : Nat} {site : Site} {l : Lambda}

theorem refused?_expanded_bind {α : Type} {f : Lambda → Outcome SourceError α}
    (h : s.statics.resolver.Covers l.body)
    (hf : ∀ l', (l'.body.All fun a => a.isExpandable = false) → refused? (f l') = none) :
    refused? (s.expanded fuel site l >>= f) = none := by
  refine refused?_mapError_bind (fun e call h => by cases h) fun l' hl' => hf l' ?_
  obtain ⟨body, hbody, rfl⟩ := Expander.expandLambda_eq_ok hl'
  exact Expander.expand_all_not_expandable h hbody

theorem refused?_expandedWhere {p : Predicate} (h : s.statics.resolver.Covers p.body) :
    refused? (s.expandedWhere fuel site p) = none := by
  refine refused?_expanded_bind (l := p.lambda) h fun l' hl' => ?_
  refine refused?_mapError_bind (fun e call h => by cases h) fun q hq => refused?_filter ?_
  obtain ⟨rfl, -⟩ := Predicate.ofLambda_eq_ok.1 (Outcome.ofExcept_eq_ok.1 hq)
  exact hl'

theorem refused?_expandedSelect (h : s.statics.resolver.Covers l.body) :
    refused? (s.expandedSelect fuel site l) = none :=
  refused?_expanded_bind h fun _ => refused?_select

end MemorySource

/-- If all calls of a tree and of the bodies on the way name a lambda, none is left in the expanded
tree. So a strict source that expands against its own statics finds none in a lambda with this
body. -/
theorem expand_complete {x : Expander} {t : Expr} (h : x.resolver.Covers t) :
    (∀ fuel site t', (x.expand fuel site t).outcome = .ok t' →
      t'.All fun a => a.isExpandable = false) ∧
    ∀ s : MemorySource, s.statics.resolver = x.resolver → ∀ fuel site call,
      (∀ p : Predicate, p.body = t →
        s.expandedWhere fuel site p ≠ .error (.unsupported call)) ∧
      ∀ l : Lambda, l.body = t → s.expandedSelect fuel site l ≠ .error (.unsupported call) := by
  refine ⟨fun fuel site t' => Expander.expand_all_not_expandable h, ?_⟩
  intro s hs fuel site call
  rw [← hs] at h
  constructor
  · rintro p rfl hp
    have hnone : MemorySource.refused? (s.expandedWhere fuel site p) = none :=
      MemorySource.refused?_expandedWhere h
    rw [hp] at hnone
    cases hnone
  · rintro l rfl hl
    have hnone : MemorySource.refused? (s.expandedSelect fuel site l) = none :=
      MemorySource.refused?_expandedSelect h
    rw [hl] at hnone
    cases hnone

/-! ## A rule that calls two others -/

namespace Nested

def place (i : Nat) : Site := (Site.root 0).child i

def y : Param := ⟨place 0, "y", .int⟩

def z : Param := ⟨place 1, "z", .int⟩

/-- `expand(R::name, a)` -/
def callAt (i : Nat) (name : String) (ty : Ty) (a : Expr) : Expr :=
  .expandAt (place i) (.staticAt (place (i + 1)) "R" name (.fn [.int] ty)) [a] ty

def next : Lambda :=
  ⟨[z], .binaryAt (place 2) .add (.parameterAt (place 3) z) (.intAt (place 4) 1)⟩

def large : Lambda :=
  ⟨[z], .binaryAt (place 5) .gt (.parameterAt (place 6) z) (.intAt (place 7) 4)⟩

/-- `y => expand(R::large, expand(R::next, y))` -/
def nextLarge : Lambda :=
  ⟨[y], callAt 8 "large" .bool (callAt 10 "next" .int (.parameterAt (place 12) y))⟩

/-- `y => expand(R::nextLarge, y)` -/
def predicate : Predicate := ⟨y, callAt 13 "nextLarge" .bool (.parameterAt (place 15) y)⟩

def source : MemorySource where
  items := [.int 1, .int 5]
  statics := [("R", [("large", large.toValue), ("next", next.toValue),
    ("nextLarge", nextLarge.toValue)])]
  strict := true

def expander : Expander where
  resolver := source.statics.resolver

theorem inlines_cases {l : Lambda} (h : expander.resolver.Inlines predicate.body l) :
    l = nextLarge ∨ l = large ∨ l = next := by
  have houter : expander.resolver.Calls predicate.body nextLarge
      [.parameterAt (place 15) y] := ⟨_, rfl, rfl⟩
  have hlarge : expander.resolver.Calls nextLarge.body large
      [callAt 10 "next" .int (.parameterAt (place 12) y)] := ⟨_, rfl, rfl⟩
  have hnext : expander.resolver.Calls (callAt 10 "next" .int (.parameterAt (place 12) y)) next
      [.parameterAt (place 12) y] := ⟨_, rfl, rfl⟩
  obtain rfl | h | ⟨a, ha, h⟩ := houter.inlines_cases h
  · exact .inl rfl
  · obtain rfl | h | ⟨a, ha, h⟩ := hlarge.inlines_cases h
    · exact .inr (.inl rfl)
    · exact absurd h (Resolver.not_inlines (by decide))
    · obtain rfl := List.mem_singleton.1 ha
      exact .inr (.inr (hnext.eq_of_inlines (by decide) (by decide) h))
  · obtain rfl := List.mem_singleton.1 ha
    exact absurd h (Resolver.not_inlines (by decide))

theorem covers : expander.resolver.Covers predicate.body where
  tree := by decide
  bodies l hl := by
    obtain rfl | rfl | rfl := inlines_cases hl
    all_goals decide

end Nested

open Nested in
/-- The source does not take the predicate as it is, and takes it once it is expanded. -/
theorem expand_complete_nested :
    (∃ t', (expander.expand 2 (.root 1) predicate.body).outcome = .ok t' ∧
      t'.All fun a => a.isExpandable = false) ∧
    source.filter 2 (.root 1) predicate = .error (.unsupported predicate.body) ∧
    ∀ call, source.expandedWhere 2 (.root 1) predicate ≠ .error (.unsupported call) := by
  refine ⟨⟨_, rfl, ?_⟩, rfl, fun call => ?_⟩
  · exact (expand_complete covers).1 2 (.root 1) _ rfl
  · exact ((expand_complete covers).2 source rfl 2 (.root 1) call).1 predicate rfl

end PredicateTree
