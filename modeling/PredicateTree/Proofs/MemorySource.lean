import PredicateTree.Proofs.Expansion.Complete
import PredicateTree.Proofs.Predicate.Joining

/-!
# Proofs.MemorySource

Filtering by a conjunction is filtering in turn.

A conjunction looks at each value once and stops at the first part that does not hold. Filtering in
turn looks at all values once for each part, at those that are left. Errors are met in another order
then, but a value that a part has dropped is shown to no later part either way.

* `Sifted s f t`: `t` is `s` with the values that `f` accepts, and `f` fails for none.
* `filter_eq_ok_iff`: what a predicate keeps is decided by what it answers.
* `sifted_guarded_iff`: to ask `g` about what `f` accepts is to sift by `f` and then by `g`.
* `takes_joinAll_iff`: a strict source takes joined predicates if it takes all of the parts.
* `filter_all`: both ways succeed for the same sources, and leave the same of them.
-/

namespace PredicateTree

/-! ## Expandable calls in filled trees -/

namespace Expr

/-- No expandable call comes or goes when trees without any are put in. -/
theorem firstExpandable?_fill_eq_none_iff {g : Param → Option Expr}
    (hg : ∀ p a, g p = some a → a.firstExpandable? = none) (e : Expr) :
    (e.fill g).firstExpandable? = none ↔ e.firstExpandable? = none := by
  induction e using byChildren with
  | node e ih =>
    cases hparam : e.isParameter with
    | true =>
      cases e with
      | parameter l p =>
        cases hp : g p with
        | none => simp [fill, hp, firstExpandable?]
        | some a => simp [fill, hp, firstExpandable?, hg p a hp]
      | _ => cases hparam
    | false =>
      rw [firstExpandable?_eq_none_iff_children, firstExpandable?_eq_none_iff_children e,
        isExpandable_fill g hparam, children_fill g hparam, List.forall_mem_map]
      exact and_congr_right fun _ => forall₂_congr ih

theorem firstExpandable?_bare_eq_none_iff (e : Expr) :
    e.bare.firstExpandable? = none ↔ e.firstExpandable? = none := by
  rw [← fill_none]
  exact firstExpandable?_fill_eq_none_iff (fun p a hp => by cases hp) e

theorem firstExpandable?_rename_eq_none_iff (site s : Site) (p q : Param) (e : Expr) :
    (e.substitute site (.rename s p q)).firstExpandable? = none ↔ e.firstExpandable? = none := by
  rw [← firstExpandable?_bare_eq_none_iff, bare_substitute]
  refine firstExpandable?_fill_eq_none_iff (fun r a hr => ?_) e
  obtain ⟨b, hb, rfl⟩ := Option.map_eq_some_iff.1 hr
  obtain ⟨-, rfl⟩ : r = p ∧ b = parameterAt s q := by
    simpa [Substitution.rename] using mem_of_lookup hb
  rfl

end Expr

namespace MemorySource

variable {s t : MemorySource} {n : Nat}

/-! ## Strictness -/

/-- Whether a predicate passes the check of the source. -/
def Takes (s : MemorySource) (p : Predicate) : Prop :=
  s.strict = true → p.body.firstExpandable? = none

theorem takes_join_iff {site : Site} {op : BinaryOp} {p q r : Predicate}
    (h : Predicate.join site op p q = .ok r) : s.Takes r ↔ s.Takes p ∧ s.Takes q := by
  unfold Predicate.join at h
  split at h
  · cases h
  · cases h
    simp only [Takes, Expr.binaryAt, Expr.firstExpandable?, Option.or_eq_none_iff,
      Expr.firstExpandable?_rename_eq_none_iff]
    exact forall_and

theorem takes_joinAll_iff {site : Site} {op : BinaryOp} {r : Predicate} {qs : List Predicate} :
    ∀ {i : Nat} {p : Predicate}, Predicate.joinAll site op i p qs = .ok r →
      (s.Takes r ↔ s.Takes p ∧ ∀ q ∈ qs, s.Takes q) := by
  induction qs with
  | nil =>
    intro i p h
    cases h
    simp
  | cons q qs ih =>
    intro i p h
    unfold Predicate.joinAll at h
    split at h
    · rename_i first hfirst
      rw [ih h, takes_join_iff hfirst, List.forall_mem_cons, and_assoc]
    · cases h

/-! ## Sifting -/

/-- The values for which a test answers yes are left, and it answers for all. -/
structure Sifted (s : MemorySource) (f : Value → Outcome EvalError Bool) (t : MemorySource) :
    Prop where
  answered : ∀ v ∈ s.items, ∃ b, f v = .ok b
  left : t = { s with items := s.items.filter fun v => f v = .ok true }

theorem sifted_iff {f : Value → Outcome EvalError Bool} :
    s.Sifted f t ↔ (∀ v ∈ s.items, ∃ b, f v = .ok b) ∧
      t = { s with items := s.items.filter fun v => f v = .ok true } :=
  ⟨fun h => ⟨h.answered, h.left⟩, fun h => ⟨h.1, h.2⟩⟩

/-- To ask `g` about what `f` accepts. -/
def guarded (f g : Value → Outcome EvalError Bool) (v : Value) : Outcome EvalError Bool := do
  let b ← f v
  if b = false then return false
  g v

section

variable {f g : Value → Outcome EvalError Bool} {v : Value}

theorem guarded_answers_iff :
    (∃ b, guarded f g v = .ok b) ↔
      (∃ b, f v = .ok b) ∧ (f v = .ok true → ∃ b, g v = .ok b) := by
  unfold guarded
  cases f v with
  | ok b => cases b <;> simp
  | error e => simp
  | unfinished => simp

theorem guarded_accepts_iff : guarded f g v = .ok true ↔ f v = .ok true ∧ g v = .ok true := by
  unfold guarded
  cases f v with
  | ok b => cases b <;> simp
  | error e => simp
  | unfinished => simp

/-- A value is shown to the second test only if the first accepts it, so it makes no difference
whether the values that the first drops are still there. -/
theorem sifted_guarded_iff : s.Sifted (guarded f g) t ↔ ∃ u, s.Sifted f u ∧ u.Sifted g t := by
  simp only [sifted_iff, guarded_answers_iff, guarded_accepts_iff]
  constructor
  · rintro ⟨hall, ht⟩
    refine ⟨_, ⟨fun v hv => (hall v hv).1, rfl⟩, fun v hv => ?_, ?_⟩
    · obtain ⟨hv, haccept⟩ := List.mem_filter.1 hv
      exact (hall v hv).2 (of_decide_eq_true haccept)
    · simp only [ht, List.filter_filter, Bool.decide_and, Bool.and_comm]
  · rintro ⟨u, ⟨hf, rfl⟩, hg, ht⟩
    refine ⟨fun v hv => ⟨hf v hv, fun haccept => ?_⟩, ?_⟩
    · exact hg v (List.mem_filter.2 ⟨hv, decide_eq_true haccept⟩)
    · simp only [ht, List.filter_filter, Bool.decide_and, Bool.and_comm]

end

/-! ## Filtering -/

theorem keep_eq_ok_iff {ev : Evaluator} (hev : ev.Pure) (p : Predicate) (site s₀ : Site)
    {vs : List Value} :
    ∀ {i : Nat} {ws : List Value}, keep ev n site p.lambda i vs = .ok ws ↔
      (∀ v ∈ vs, ∃ b, ev.test n s₀ p.lambda v = .ok b) ∧
        ws = vs.filter fun v => ev.test n s₀ p.lambda v = .ok true := by
  induction vs with
  | nil => intro i ws; simp [keep, eq_comm]
  | cons v vs ih =>
    intro i ws
    rw [keep, Evaluator.test_congr hev rfl (site.child i) s₀]
    simp only [Outcome.bind_eq_ok, ih, List.forall_mem_cons, List.filter_cons]
    cases ev.test n s₀ p.lambda v with
    | ok b => cases b <;> simp [eq_comm]
    | error e => simp
    | unfinished => simp

/-- A predicate is asked about all values, wherever that is written down, and keeps those for which
it says yes. -/
theorem filter_eq_ok_iff (p : Predicate) (site s₀ : Site) :
    s.filter n site p = .ok t ↔
      s.Takes p ∧ s.Sifted (fun v => s.evaluator.test n s₀ p.lambda v) t := by
  have hev : s.evaluator.Pure := Evaluator.pure_builtin s.statics
  simp only [filter, Outcome.bind_eq_ok, Outcome.mapError_eq_ok, keep_eq_ok_iff hev p site s₀,
    Outcome.pure_eq, Outcome.ok.injEq]
  constructor
  · rintro ⟨⟨⟩, hcheck, _, ⟨hall, rfl⟩, rfl⟩
    exact ⟨check_eq_ok_iff.1 hcheck, hall, rfl⟩
  · rintro ⟨htakes, hall, rfl⟩
    exact ⟨(), check_eq_ok_iff.2 htakes, _, ⟨hall, rfl⟩, rfl⟩

/-- Filters by one predicate after the other, the next one at position `i`. -/
def filterEach (s : MemorySource) (fuel : Nat) (site : Site) (i : Nat) :
    List Predicate → Outcome SourceError MemorySource
  | [] => .ok s
  | p :: ps => do
    let t ← s.filter fuel (site.child i) p
    t.filterEach fuel site (i + 1) ps

theorem filterEach_eq_ok_iff (site s₀ : Site) (j : Nat) {ps : List Predicate} :
    ∀ {i : Nat} {s : MemorySource}, s.filterEach n site i ps = .ok t ↔
      (∀ p ∈ ps, s.Takes p) ∧
        s.Sifted (fun v => s.evaluator.testEach n s₀ false v j ps) t := by
  induction ps generalizing j with
  | nil =>
    intro i s
    simp [filterEach, Evaluator.testEach, sifted_iff, eq_comm]
  | cons p ps ih =>
    intro i s
    -- The rest is asked about what the head accepts, as the rest of the filters is.
    have hguarded : (fun v => s.evaluator.testEach n s₀ false v j (p :: ps)) =
        guarded (fun v => s.evaluator.test n (s₀.child j) p.lambda v)
          (fun v => s.evaluator.testEach n s₀ false v (j + 1) ps) := rfl
    rw [hguarded, sifted_guarded_iff, filterEach, Outcome.bind_eq_ok, List.forall_mem_cons]
    simp only [filter_eq_ok_iff p (site.child i) (s₀.child j), ih (j + 1)]
    constructor
    · rintro ⟨u, ⟨hp, hfirst⟩, hps, hrest⟩
      obtain rfl := hfirst.left
      exact ⟨⟨hp, hps⟩, _, hfirst, hrest⟩
    · rintro ⟨⟨hp, hps⟩, u, hfirst, hrest⟩
      obtain rfl := hfirst.left
      exact ⟨_, ⟨hp, hfirst⟩, hps, hrest⟩

end MemorySource

/-! ## Conjunctions -/

namespace Predicate

theorem misfit?_eq_none_iff {ty : Ty} {ps : List Predicate} :
    misfit? ty ps = none ↔ ∀ p ∈ ps, p.subject = ty := by
  simp [misfit?]

/-- A conjunction tests its parts one after the other. -/
theorem test_all {ev : Evaluator} (hev : ev.Pure) {site : Site} {ty : Ty} {ps : List Predicate}
    {r : Predicate} (hr : all site ty ps = .ok r)
    (hfresh : ∀ p ∈ ps, p.body.Avoids (alwaysTrue (site.child 0) ty).param)
    (hty : ∀ p ∈ ps, p.subject = ty) (n : Nat) (s₀ : Site) (v : Value) :
    ev.test (n + 1) s₀ r.lambda v = ev.testEach (n + 1) s₀ false v 0 ps := by
  have hop : BinaryOp.decider? .and = some false := rfl
  obtain ⟨r', hr', htest⟩ := test_fold (v := v) hev hop site (misfit?_eq_none_iff.2 hty)
  obtain rfl : r = r' := Except.ok.inj (hr.symm.trans hr')
  exact htest hfresh n s₀ s₀

end Predicate

/-- Predicates with one type of subjects have a conjunction, and a source filtered by it is the
source filtered by each of them in turn: if one of the two succeeds then both do, and what they
leave is the same part of what was there, in its order. The variable that the conjunction is made
under is a new one. -/
theorem MemorySource.filter_all (site : Site) (ty : Ty) (ps : List Predicate)
    (hty : ∀ p ∈ ps, p.subject = ty)
    (hfresh : ∀ p ∈ ps, p.body.Avoids (Predicate.alwaysTrue (site.child 0) ty).param) :
    ∃ r, Predicate.all site ty ps = .ok r ∧ ∀ (s t : MemorySource) n s₁ s₂,
      (s.filter (n + 1) s₁ r = .ok t ↔ s.filterEach (n + 1) s₂ 0 ps = .ok t) ∧
      (s.filter (n + 1) s₁ r = .ok t →
        t.items.Sublist s.items ∧ t = { s with items := t.items }) := by
  have hop : BinaryOp.decider? .and = some false := rfl
  obtain ⟨r, hr, -⟩ := Predicate.test_fold (v := .null) (Evaluator.pure_builtin []) hop site
    (Predicate.misfit?_eq_none_iff.2 hty)
  refine ⟨r, hr, fun s t n s₁ s₂ => ?_⟩
  have htakes : s.Takes r ↔ ∀ p ∈ ps, s.Takes p := by
    rw [MemorySource.takes_joinAll_iff hr]
    exact and_iff_right fun _ => rfl
  have htest : ∀ v, s.evaluator.test (n + 1) s₂ r.lambda v =
      s.evaluator.testEach (n + 1) s₂ false v 0 ps :=
    Predicate.test_all (Evaluator.pure_builtin s.statics) hr hfresh hty n s₂
  rw [MemorySource.filterEach_eq_ok_iff s₂ s₂ 0, MemorySource.filter_eq_ok_iff r s₁ s₂, htakes]
  simp only [htest, true_and]
  rintro ⟨-, hsifted⟩
  obtain rfl := hsifted.left
  exact ⟨List.filter_sublist, rfl⟩

deriving instance DecidableEq for MemorySource

namespace Guarded

def source : MemorySource where
  items := [.int 0, .int 2, .int 3]
  statics := []

end Guarded

open Predicate.Guarded Guarded in
/-- The division by zero is never met, for the first part drops the zero. The other way round it is
met, and nothing is left of the source. -/
theorem filter_all_guarded :
    (∃ r, Predicate.all (.root 1) .int [positive, third] = .ok r ∧
      source.filter 2 (.root 2) r = .ok { source with items := [.int 2] }) ∧
    ∃ r, Predicate.all (.root 1) .int [third, positive] = .ok r ∧
      ∀ t, source.filter 2 (.root 2) r ≠ .ok t := by
  constructor
  · obtain ⟨r, hr, hfilter⟩ := MemorySource.filter_all (.root 1) .int [positive, third]
      (by decide) (by decide)
    exact ⟨r, hr, (hfilter source _ 1 (.root 2) (.root 3)).1.2 (by decide +kernel)⟩
  · obtain ⟨r, hr, hfilter⟩ := MemorySource.filter_all (.root 1) .int [third, positive]
      (by decide) (by decide)
    refine ⟨r, hr, fun t ht => ?_⟩
    have hturn := (hfilter source t 1 (.root 2) (.root 3)).1.1 ht
    cases hturn

end PredicateTree
