import PredicateTree.Proofs.Expansion.Fuel
import PredicateTree.Proofs.Expansion.Termination

/-!
# Proofs.Expansion.Depth

Expansion with a limit on its depth, that is on how many bodies are inlined into one another. The
arguments of a call are expanded at the depth of the call, its body one level deeper.

* `expandIn_ends_limited`: fuel for as many levels as the limit leaves is enough.
* `inlinee_upto`: with a greater limit the same is found to inline, unless the smaller one is
  exceeded.
* `expand_limited`: a run with a limit comes to an end, and if the limit was not exceeded, to the one
  that it comes to with every greater limit and with none.
* `Resolver.Ranked`: the bodies of rules call rules of smaller rank only.
* `expandIn_evades_limit`: the ranks of the calls in sight and the depth stay within the limit, since
  an argument is expanded where its call stands and is not looked at again once it is put in.
* `expand_ranked`: calls of rank below a limit never exceed it.
-/

namespace PredicateTree

namespace Expander

variable {x y : Expander} {inline : Inline} {depth n : Nat}

theorem exceeded_eq_some (hlimit : x.maxDepth = some n) (h : n ≤ depth) :
    x.exceeded depth = some n := by
  rw [exceeded, hlimit, Option.filter_some, if_pos (decide_eq_true h)]

theorem exceeded_eq_none (h : ∀ m ∈ x.maxDepth, depth < m) : x.exceeded depth = none := by
  cases hlimit : x.maxDepth with
  | none => rw [exceeded, hlimit, Option.filter_none]
  | some m =>
    have hm : ¬m ≤ depth := Nat.not_le_of_lt (h m hlimit)
    rw [exceeded, hlimit, Option.filter_some, if_neg (by simpa using hm)]

/-! ## The end of a limited run -/

/-- What is inlined is within the limit. -/
theorem lt_of_inlinee (hlimit : x.maxDepth = some n) {callee : Expr} {k : Nat}
    {called : MemberChain × Lambda} (h : (x.inlinee depth callee k).outcome = .ok (some called)) :
    depth < n := by
  obtain ⟨hnone, -⟩ | ⟨c, l, -, -, -, -, hexceeded⟩ := inlinee_eq_ok h
  · cases hnone
  · by_contra hge
    rw [exceeded_eq_some hlimit (Nat.le_of_not_lt hge)] at hexceeded
    cases hexceeded

theorem node_ends_limited (hlimit : x.maxDepth = some n)
    (hbody : depth < n → ∀ s τ b, (inline s τ b).outcome ≠ .unfinished) (e : Expr)
    (σ : Substitution) (site : Site) : (x.node inline depth σ site e).outcome ≠ .unfinished := by
  have hcalls : ∀ a, x.CallEvades inline depth (· = none) a := by
    rintro a l t m callee as rfl -
    refine ⟨inlinee_ends callee as.length, fun c k hk s τ => ?_⟩
    exact Outcome.evades_none_iff.2 (hbody (lt_of_inlinee hlimit hk) s τ k.body)
  exact Outcome.evades_none_iff.1 (node_evades e σ site (Expr.all_of_forall hcalls e))

theorem expandIn_ends_limited (hlimit : x.maxDepth = some n) {fuel : Nat} :
    ∀ {depth : Nat}, n ≤ depth + fuel → ∀ (site : Site) (σ : Substitution) (e : Expr),
      (x.expandIn fuel depth site σ e).outcome ≠ .unfinished := by
  induction fuel with
  | zero =>
    intro depth h site σ e
    exact node_ends_limited hlimit (fun hlt => absurd h (Nat.not_le_of_lt hlt)) e σ site
  | succ fuel ih =>
    intro depth h site σ e
    exact node_ends_limited hlimit (fun _ => ih (by omega)) e σ site

/-! ## Greater limits -/

theorem inlinee_upto (hresolver : x.resolver = y.resolver) (hlimit : x.maxDepth = some n)
    (hle : ∀ m ∈ y.maxDepth, n ≤ m) (depth : Nat) (callee : Expr) (k : Nat) :
    (x.inlinee depth callee k).outcome.Upto (· = .depthLimit n)
      (y.inlinee depth callee k).outcome := by
  unfold inlinee
  split
  · exact .refl _
  · exact .refl _
  · rw [outcome_consult, outcome_consult, hresolver]
    split
    · exact .refl _
    · exact .refl _
    · split
      · exact .refl _
      · by_cases hdepth : n ≤ depth
        · rw [exceeded_eq_some hlimit hdepth]
          exact .inr (.inr ⟨_, rfl, rfl⟩)
        · have hlt : depth < n := Nat.lt_of_not_le hdepth
          have hx : x.exceeded depth = none := exceeded_eq_none (by simpa [hlimit] using hlt)
          have hy : y.exceeded depth = none :=
            exceeded_eq_none fun m hm => Nat.lt_of_lt_of_le hlt (hle m hm)
          rw [hx, hy]
          exact .refl _

/-- With a limit `n` expansion comes to an end. If this is not that the limit was exceeded, then it is
the end with every greater limit and with none. -/
theorem expand_limited (r : Resolver) (n : Nat) (site : Site) (t : Expr) :
    ∃ o, o ≠ .unfinished ∧
      (∀ fuel, n ≤ fuel → (expand ⟨r, some n⟩ fuel site t).outcome = o) ∧
      (o ≠ .error (.depthLimit n) → ∀ limit : Option Nat, (∀ m ∈ limit, n ≤ m) →
        ∀ fuel, n ≤ fuel → (expand ⟨r, limit⟩ fuel site t).outcome = o) := by
  have hends : (expand ⟨r, some n⟩ n site t).outcome ≠ .unfinished :=
    expandIn_ends_limited rfl (Nat.le_add_left n 0) site [] t
  refine ⟨_, hends, fun fuel hfuel => ?_, fun hlimit limit hle fuel hfuel => ?_⟩
  · exact ((expand_upto hfuel site t).approx.eq_of_ended hends).symm
  · have hupto : (expand ⟨r, some n⟩ n site t).outcome.Upto (· = .depthLimit n)
        (expand ⟨r, limit⟩ fuel site t).outcome :=
      expandIn_upto (inlinee_upto (x := ⟨r, some n⟩) (y := ⟨r, limit⟩) rfl rfl hle) hfuel 0 site [] t
    refine (hupto.eq hends ?_).symm
    rintro e rfl
    exact hlimit

open Nested in
/-- One level is not enough for a rule that calls two others, and from two levels on the limit does
not matter. -/
theorem expand_limited_nested :
    (expand ⟨expander.resolver, some 1⟩ 1 (.root 1) predicate.body).outcome =
        .error (.depthLimit 1) ∧
      ∃ t', (expand ⟨expander.resolver, some 2⟩ 2 (.root 1) predicate.body).outcome = .ok t' ∧
        ∀ limit : Option Nat, (∀ m ∈ limit, 2 ≤ m) → ∀ fuel, 2 ≤ fuel →
          (expand ⟨expander.resolver, limit⟩ fuel (.root 1) predicate.body).outcome = .ok t' := by
  refine ⟨rfl, _, rfl, ?_⟩
  obtain ⟨o, -, hlimited, hgreater⟩ :=
    expand_limited expander.resolver 2 (.root 1) predicate.body
  cases hlimited 2 (Nat.le_refl 2)
  exact hgreater fun h => by cases h

end Expander

/-! ## Ranks -/

/-- The chain that an expandable call names. -/
def Expr.named? (e : Expr) : Option MemberChain :=
  match e.spelled with
  | some (.ok c, _) => some c
  | _ => none

def Expr.CallsBelow (rank : MemberChain → Nat) (k : Nat) (e : Expr) : Prop :=
  ∀ c ∈ e.named?, rank c < k

instance (rank : MemberChain → Nat) (k : Nat) : DecidablePred (Expr.CallsBelow rank k) := fun e =>
  inferInstanceAs (Decidable (∀ c ∈ e.named?, rank c < k))

def Resolver.Ranked (r : Resolver) (rank : MemberChain → Nat) : Prop :=
  ∀ c l, r c = .ok (some l) → l.body.All (Expr.CallsBelow rank (rank c))

/-- The error of a run that is deeper than its limit. -/
def PassError.IsDepthLimit : Option PassError → Prop
  | some (.depthLimit _) => True
  | _ => False

namespace Expander

open PassError (IsDepthLimit)

variable {x : Expander} {inline : Inline} {depth n k : Nat} {rank : MemberChain → Nat}

theorem inlinee_evades_limit {callee : Expr} {arguments : Nat}
    (h : ∀ c, callee.memberChain = some (.ok c) → x.exceeded depth = none) :
    (x.inlinee depth callee arguments).outcome.Evades IsDepthLimit := by
  refine inlinee_evades (fun _ => id) (fun _ _ => id) (fun _ _ => id) fun c limit hc hexceeded => ?_
  rw [h c hc] at hexceeded
  cases hexceeded

/-- A body has the rank of its call less one level, which the depth has more. -/
theorem node_evades_limit (hr : x.resolver.Ranked rank) (hlimit : x.maxDepth = some n)
    (hdepth : depth + k ≤ n)
    (hbody : ∀ j, j < k → ∀ b, b.All (Expr.CallsBelow rank j) →
      ∀ s τ, (inline s τ b).outcome.Evades IsDepthLimit)
    {e : Expr} (he : e.All (Expr.CallsBelow rank k)) (σ : Substitution) (site : Site) :
    (x.node inline depth σ site e).outcome.Evades IsDepthLimit := by
  refine node_evades e σ site (he.imp ?_)
  rintro a hbelow l t m callee as rfl hm
  have hrank : ∀ c, callee.memberChain = some (.ok c) → rank c < k := fun c hc =>
    hbelow c (by simp [Expr.named?, Expr.spelled, hm, hc])
  constructor
  · refine inlinee_evades_limit fun c hc => exceeded_eq_none ?_
    rw [hlimit]
    rintro m ⟨⟩
    have := hrank c hc
    omega
  · intro c l hl s τ
    obtain ⟨hnone, -⟩ | ⟨c', l', hsome, hchain, hresolves, -, -⟩ := inlinee_eq_ok hl
    · cases hnone
    · cases hsome
      exact hbody (rank c) (hrank c hchain) l.body (hr c l hresolves) s τ

theorem expandIn_evades_limit (hr : x.resolver.Ranked rank) (hlimit : x.maxDepth = some n)
    {fuel : Nat} : ∀ {depth k : Nat}, depth + k ≤ n → ∀ {e : Expr},
      e.All (Expr.CallsBelow rank k) → ∀ (σ : Substitution) (site : Site),
        (x.expandIn fuel depth site σ e).outcome.Evades IsDepthLimit := by
  induction fuel with
  | zero =>
    intro depth k hdepth e he σ site
    refine node_evades_limit hr hlimit hdepth ?_ he σ site
    exact fun _ _ _ _ _ _ => id
  | succ fuel ih =>
    intro depth k hdepth e he σ site
    refine node_evades_limit hr hlimit hdepth (fun j hj b hb s τ => ?_) he σ site
    exact ih (by omega) hb τ s

/-- Rules whose bodies call rules of smaller rank only are inlined at most as many levels deep as the
ranks in the tree say. -/
theorem expand_ranked {r : Resolver} (hr : r.Ranked rank) {t : Expr}
    (ht : t.All (Expr.CallsBelow rank n)) (fuel : Nat) (site : Site) :
    (∀ limit, (expand ⟨r, some n⟩ fuel site t).outcome ≠ .error (.depthLimit limit)) ∧
      (n ≤ fuel → (expand ⟨r, some n⟩ fuel site t).outcome ≠ .unfinished) := by
  constructor
  · intro limit
    have hevades : (expand ⟨r, some n⟩ fuel site t).outcome.Evades IsDepthLimit :=
      expandIn_evades_limit hr rfl (Nat.le_of_eq (Nat.zero_add n)) ht [] site
    exact hevades.ne_error trivial
  · intro hfuel
    exact expandIn_ends_limited rfl (by omega) site [] t

end Expander

/-! ## Rules on two levels -/

namespace Ladder

open Nested

def chain (name : String) : MemberChain := ⟨.static "R", [name]⟩

def resolver : Resolver := fun c =>
  if c = chain "nextLarge" then .ok (some nextLarge)
  else if c = chain "large" then .ok (some large)
  else if c = chain "next" then .ok (some next)
  else .ok none

/-- `R::nextLarge` calls the two others, which call none. -/
def rank (c : MemberChain) : Nat := if c = chain "nextLarge" then 1 else 0

theorem ranked : resolver.Ranked rank := by
  intro c l h
  unfold resolver at h
  split_ifs at h with hnextLarge hlarge hnext
  · cases hnextLarge
    cases h
    decide
  · cases hlarge
    cases h
    decide
  · cases hnext
    cases h
    decide
  · cases h

end Ladder

open Nested Ladder Expander in
theorem expand_ranked_ladder :
    resolver.Ranked rank ∧ predicate.body.All (Expr.CallsBelow rank 2) ∧
      ∀ fuel limit, (expand ⟨resolver, some 2⟩ fuel (.root 1) predicate.body).outcome ≠
        .error (.depthLimit limit) := by
  have hbelow : predicate.body.All (Expr.CallsBelow rank 2) := by decide
  exact ⟨ranked, hbelow, fun fuel => (expand_ranked ranked hbelow fuel (.root 1)).1⟩

end PredicateTree
