import PredicateTree.Proofs.Expansion.Complete

/-!
# Proofs.Expansion.Termination

When expansion comes to an end. Rules that expand into each other in a cycle are inlined for ever.

* `Resolver.Invokes r e l`: a call somewhere in the tree `e` leads to the lambda `l`.
* `Resolver.Grounded r e`: there is no endless sequence of bodies, each called in the one before.
* `Resolver.groundedWithin`: a check for that.
* `inlinee_evades`: the ways in which the search for what a call inlines can fail.
* `node_evades`: one tree is not expanded to an end of a certain kind, if none of its calls is.
  `node_ends` is the case where this is not to end at all.
* `expand_ends`: with fuel enough a grounded tree is expanded to the end. The induction follows
  `Grounded`; a tree calls finitely many bodies, so there is fuel enough for all of them.
* `Resolver.Forwards r e l`: the tree `e` hands its references on to the lambda `l`.
* `expandIn_unfinished`: among bodies that hand on to each other without end no fuel is enough.
-/

namespace PredicateTree

namespace Resolver

variable {r : Resolver}

inductive Invokes (r : Resolver) : Expr → Lambda → Prop where
  | here {e : Expr} {l : Lambda} {as : List Expr} : r.Calls e l as → r.Invokes e l
  | part {e c : Expr} {l : Lambda} : c ∈ e.children → r.Invokes c l → r.Invokes e l

inductive Grounded (r : Resolver) : Expr → Prop where
  | of_bodies {e : Expr} : (∀ l, r.Invokes e l → r.Grounded l.body) → r.Grounded e

/-- Bodies called from bodies, so many levels below the tree at most. -/
def groundedWithin (r : Resolver) : Nat → Expr → Bool
  | 0, e => e.All fun a => (r.callee? a).isNone = true
  | n + 1, e => e.All fun a => (r.callee? a).all (fun l => r.groundedWithin n l.body) = true

theorem callee?_of_calls {e : Expr} {l : Lambda} {as : List Expr} (h : r.Calls e l as) :
    r.callee? e = some l := by
  obtain ⟨c, hspelled, hc⟩ := h
  simp only [callee?, hspelled, hc]

theorem Invokes.exists_callee {P : Expr → Prop} {e : Expr} {l : Lambda} (h : r.Invokes e l)
    (he : e.All P) : ∃ a, P a ∧ r.callee? a = some l := by
  induction h with
  | here hcalls => exact ⟨_, ((Expr.all_iff _).1 he).1, callee?_of_calls hcalls⟩
  | part hc _ ih => exact ih (((Expr.all_iff _).1 he).2 _ hc)

theorem grounded_of_within {n : Nat} {e : Expr} (h : r.groundedWithin n e = true) :
    r.Grounded e := by
  induction n generalizing e with
  | zero =>
    refine .of_bodies fun l hl => ?_
    obtain ⟨a, ha, hcallee⟩ := hl.exists_callee (of_decide_eq_true h)
    rw [hcallee] at ha
    cases ha
  | succ n ih =>
    refine .of_bodies fun l hl => ?_
    obtain ⟨a, ha, hcallee⟩ := hl.exists_callee (of_decide_eq_true h)
    rw [hcallee] at ha
    exact ih ha

/-- What holds of every lambda from some number on holds of all that are called in a tree from some
number on. -/
theorem exists_bound {P : Lambda → Nat → Prop} {e : Expr}
    (h : ∀ l, r.Invokes e l → ∃ bound, ∀ n, bound ≤ n → P l n) :
    ∃ bound, ∀ n, bound ≤ n → ∀ l, r.Invokes e l → P l n := by
  induction e using Expr.byChildren with
  | node e ih =>
    have hchildren : ∃ bound, ∀ n, bound ≤ n → ∀ c ∈ e.children, ∀ l, r.Invokes c l → P l n := by
      have hcs : ∀ c ∈ e.children, ∃ bound, ∀ n, bound ≤ n → ∀ l, r.Invokes c l → P l n :=
        fun c hc => ih c hc fun l hl => h l (.part hc hl)
      exact Outcome.exists_bound_forall_mem hcs
    obtain ⟨n, hn⟩ := hchildren
    by_cases hcalls : ∃ l as, r.Calls e l as
    · obtain ⟨l, as, hl⟩ := hcalls
      obtain ⟨m, hm⟩ := h l (.here hl)
      refine ⟨max m n, fun k hk l' hl' => ?_⟩
      cases hl' with
      | here hl' =>
        rw [(hl'.unique hl).1]
        exact hm k (Nat.le_trans (Nat.le_max_left m n) hk)
      | part hc hl' => exact hn k (Nat.le_trans (Nat.le_max_right m n) hk) _ hc l' hl'
    · refine ⟨n, fun k hk l hl => ?_⟩
      cases hl with
      | here hl => exact absurd ⟨_, _, hl⟩ hcalls
      | part hc hl => exact hn k hk _ hc l hl

end Resolver

namespace Expander

variable {x : Expander} {inline : Inline} {depth : Nat}

open Outcome (Evades)

variable {bad : Option PassError → Prop}

/-- The four ways in which the search for what a call inlines ends without an answer. -/
theorem inlinee_evades {callee : Expr} {n : Nat}
    (hchain : ∀ subtree, ¬bad (some (.malformedChain subtree)))
    (hresolution : ∀ c cause, ¬bad (some (.resolution c cause)))
    (harity : ∀ c expected, ¬bad (some (.arity c expected n)))
    (hlimit : ∀ c limit, callee.memberChain = some (.ok c) → x.exceeded depth = some limit →
      ¬bad (some (.depthLimit limit))) :
    (x.inlinee depth callee n).outcome.Evades bad := by
  unfold inlinee
  split
  case h_1 => exact .ok _
  case h_2 subtree _ => exact hchain subtree
  case h_3 c hc =>
    rw [outcome_consult]
    split
    case h_1 cause _ => exact hresolution c cause
    case h_2 => exact .ok _
    case h_3 l _ =>
      split
      · exact harity c l.params.length
      · split
        case h_1 limit hexceeded => exact hlimit c limit hc hexceeded
        case h_2 => exact .ok _

theorem inlinee_ends (callee : Expr) (n : Nat) :
    (x.inlinee depth callee n).outcome.Evades (· = none) :=
  inlinee_evades (fun _ => nofun) (fun _ _ => nofun) (fun _ _ => nofun) fun _ _ _ _ => nofun

/-- The body that a call inlines is the one it names. -/
theorem spelled_of_inlinee {l : Label} {t : Option Expr} {m : Method} {callee : Expr}
    {as : List Expr} {c : MemberChain} {k : Lambda} (hm : m.isExpandable = true)
    (h : (x.inlinee depth callee as.length).outcome = .ok (some (c, k))) :
    (Expr.call l t m (callee :: as)).spelled = some (.ok c, as) ∧ x.resolver c = .ok (some k) := by
  obtain ⟨hnone, -⟩ | ⟨c', k', hsome, hchain, hr, -, -⟩ := inlinee_eq_ok h
  · cases hnone
  · cases hsome
    exact ⟨by simp [Expr.spelled, hm, hchain], hr⟩

/-- If the tree is an expandable call, then neither the search for what it inlines ends in the way
`bad`, nor the expansion of what is found. -/
def CallEvades (x : Expander) (inline : Inline) (depth : Nat) (bad : Option PassError → Prop)
    (e : Expr) : Prop :=
  ∀ l t m callee as, e = .call l t m (callee :: as) → m.isExpandable = true →
    (x.inlinee depth callee as.length).outcome.Evades bad ∧
      ∀ c k, (x.inlinee depth callee as.length).outcome = .ok (some (c, k)) →
        ∀ s τ, (inline s τ k.body).outcome.Evades bad

mutual

theorem node_evades : ∀ (e : Expr) (σ : Substitution) (site : Site),
    e.All (x.CallEvades inline depth bad) → (x.node inline depth σ site e).outcome.Evades bad
  | .parameter .., _, _, _ | .static .., _, _, _ | .constant .., _, _, _ | .default _, _, _, _ =>
    .ok _
  | .call l t m [], σ, site, h => by
    obtain ⟨-, hparts⟩ := (Expr.all_iff _).1 h
    have ht := optional_evades t σ (site.child 0) fun a ha => hparts a (List.mem_append_left _ ha)
    simp only [node]
    split
    · simp only [Traced.outcome_bind]
      exact .bind (.ok _) fun _ _ => ht.bind fun _ _ => .ok _
    · simp only [Traced.outcome_bind]
      exact ht.bind fun _ _ => .ok _
  | .call l t m (callee :: as), σ, site, h => by
    obtain ⟨hcall, hparts⟩ := (Expr.all_iff _).1 h
    have ht := optional_evades t σ (site.child 0) fun a ha => hparts a (List.mem_append_left _ ha)
    have hcallee := node_evades callee σ (site.child 1)
      (hparts _ (List.mem_append_right _ List.mem_cons_self))
    have has := list_evades as σ site 2 fun a ha =>
      hparts a (List.mem_append_right _ (List.mem_cons_of_mem callee ha))
    simp only [node]
    cases hm : m.isExpandable with
    | false =>
      simp only [Bool.false_eq_true, if_false, Traced.outcome_bind, Traced.outcome_pure,
        Outcome.ok_bind]
      exact ht.bind fun _ _ => hcallee.bind fun _ _ => has.bind fun _ _ => .ok _
    | true =>
      obtain ⟨hinlinee, hbody⟩ := hcall _ _ _ _ _ rfl hm
      simp only [if_true, Traced.outcome_bind]
      refine hinlinee.bind fun found hfound => ?_
      cases found with
      | none =>
        simp only [Traced.outcome_bind]
        exact ht.bind fun _ _ => hcallee.bind fun _ _ => has.bind fun _ _ => .ok _
      | some called =>
        obtain ⟨c, k⟩ := called
        simp only [Traced.outcome_bind]
        exact .bind (.ok _) fun _ _ => has.bind fun _ _ => hbody c k hfound _ _
  | .binary l op a b, σ, site, h => by
    obtain ⟨-, hparts⟩ := (Expr.all_iff _).1 h
    have ha := node_evades a σ (site.child 0) (hparts a List.mem_cons_self)
    have hb := node_evades b σ (site.child 1) (hparts b (List.mem_cons_of_mem a List.mem_cons_self))
    simp only [node, Traced.outcome_bind]
    exact ha.bind fun _ _ => hb.bind fun _ _ => .ok _
  | .unary l op a, σ, site, h => by
    obtain ⟨-, hparts⟩ := (Expr.all_iff _).1 h
    have ha := node_evades a σ (site.child 0) (hparts a List.mem_cons_self)
    simp only [node, Traced.outcome_bind]
    exact ha.bind fun _ _ => .ok _
  | .member l t r, σ, site, h => by
    obtain ⟨-, hparts⟩ := (Expr.all_iff _).1 h
    have ht := node_evades t σ (site.child 0) (hparts t List.mem_cons_self)
    simp only [node, Traced.outcome_bind]
    exact ht.bind fun _ _ => .ok _
  | .conditional l a b c, σ, site, h => by
    obtain ⟨-, hparts⟩ := (Expr.all_iff _).1 h
    have ha := node_evades a σ (site.child 0) (hparts a List.mem_cons_self)
    have hb := node_evades b σ (site.child 1) (hparts b (List.mem_cons_of_mem a List.mem_cons_self))
    have hc := node_evades c σ (site.child 2)
      (hparts c (List.mem_cons_of_mem a (List.mem_cons_of_mem b List.mem_cons_self)))
    simp only [node, Traced.outcome_bind]
    exact ha.bind fun _ _ => hb.bind fun _ _ => hc.bind fun _ _ => .ok _
  | .dynamic l binder as, σ, site, h => by
    obtain ⟨-, hparts⟩ := (Expr.all_iff _).1 h
    have has := list_evades as σ site 0 hparts
    simp only [node, Traced.outcome_bind]
    exact has.bind fun _ _ => .ok _
  | .lambda l ps b, σ, site, h => by
    obtain ⟨-, hparts⟩ := (Expr.all_iff _).1 h
    have hb := node_evades b σ (site.child 0) (hparts b List.mem_cons_self)
    simp only [node, Traced.outcome_bind]
    exact hb.bind fun _ _ => .ok _

theorem optional_evades : ∀ (t : Option Expr) (σ : Substitution) (site : Site),
    (∀ a ∈ t.toList, a.All (x.CallEvades inline depth bad)) →
    (x.optional inline depth σ site t).outcome.Evades bad
  | none, _, _, _ => .ok _
  | some a, σ, site, h => by
    have ha := node_evades a σ site (h a List.mem_cons_self)
    simp only [optional, Traced.outcome_bind]
    exact ha.bind fun _ _ => .ok _

theorem list_evades : ∀ (as : List Expr) (σ : Substitution) (site : Site) (i : Nat),
    (∀ a ∈ as, a.All (x.CallEvades inline depth bad)) →
    (x.list inline depth σ site i as).outcome.Evades bad
  | [], _, _, _, _ => .ok _
  | a :: as, σ, site, i, h => by
    have ha := node_evades a σ (site.child i) (h a List.mem_cons_self)
    have has := list_evades as σ site (i + 1) fun b hb => h b (List.mem_cons_of_mem a hb)
    simp only [list, Traced.outcome_bind]
    exact ha.bind fun _ _ => has.bind fun _ _ => .ok _

end

/-- A tree is expanded to the end if the bodies that it calls are. -/
theorem node_ends {e : Expr}
    (h : ∀ l, x.resolver.Invokes e l → ∀ s τ, (inline s τ l.body).outcome ≠ .unfinished)
    (σ : Substitution) (site : Site) : (x.node inline depth σ site e).outcome ≠ .unfinished := by
  suffices hall : e.All (x.CallEvades inline depth (· = none)) from
    Outcome.evades_none_iff.1 (node_evades e σ site hall)
  induction e using Expr.byChildren with
  | node e ih =>
    refine (Expr.all_iff e).2 ⟨?_, fun c hc => ih c hc fun l hl => h l (.part hc hl)⟩
    rintro l t m callee as rfl hm
    refine ⟨inlinee_ends callee as.length, fun c k hk s τ => ?_⟩
    have hends := h k (.here ⟨c, spelled_of_inlinee hm hk⟩) s τ
    exact Outcome.evades_none_iff.2 hends

theorem expandIn_ends {e : Expr} (h : x.resolver.Grounded e) :
    ∃ bound, ∀ fuel, bound ≤ fuel → ∀ depth site σ,
      (x.expandIn fuel depth site σ e).outcome ≠ .unfinished := by
  induction h with
  | @of_bodies e _ ih =>
    obtain ⟨bound, hbound⟩ := Resolver.exists_bound ih
    refine ⟨bound + 1, fun fuel hfuel depth site σ => ?_⟩
    cases fuel with
    | zero => cases hfuel
    | succ fuel =>
      have hbodies := hbound fuel (Nat.le_of_succ_le_succ hfuel)
      exact node_ends (fun l hl s τ => hbodies l hl (depth + 1) s τ) σ site

theorem expand_ends {e : Expr} (h : x.resolver.Grounded e) :
    ∃ bound, ∀ fuel, bound ≤ fuel → ∀ site, (x.expand fuel site e).outcome ≠ .unfinished := by
  obtain ⟨bound, hbound⟩ := expandIn_ends h
  exact ⟨bound, fun fuel hfuel site => hbound fuel hfuel 0 site []⟩

end Expander

/-! ## Without end -/

namespace Resolver

variable {r : Resolver}

/-- The tree is a call of the lambda with as many arguments as it has parameters, all of them
references. So nothing but the limit on the depth keeps the body from being inlined. -/
def Forwards (r : Resolver) (e : Expr) (l : Lambda) : Prop :=
  ∃ as, r.Calls e l as ∧ l.params.length = as.length ∧ ∀ a ∈ as, a.isParameter = true

/-- The lambda that a tree hands its references on to. -/
def forwarded? (r : Resolver) (e : Expr) : Option Lambda :=
  (r.callee? e).filter fun l =>
    e.spelled.any fun q => l.params.length = q.2.length ∧ q.2.all Expr.isParameter

theorem forwards_of_forwarded? {e : Expr} {l : Lambda} (h : r.forwarded? e = some l) :
    r.Forwards e l := by
  rw [forwarded?, Option.filter_eq_some_iff] at h
  obtain ⟨hcallee, hargs⟩ := h
  obtain ⟨l', as, hcalls⟩ := callee?_isSome_iff.1 (Option.isSome_of_eq_some hcallee)
  cases (callee?_of_calls hcalls).symm.trans hcallee
  obtain ⟨c, hspelled, hc⟩ := hcalls
  rw [hspelled] at hargs
  obtain ⟨hlen, hparams⟩ := of_decide_eq_true hargs
  exact ⟨as, ⟨c, hspelled, hc⟩, hlen, List.all_eq_true.1 hparams⟩

end Resolver

namespace Expander

variable {x : Expander} {inline : Inline} {depth : Nat}

/-- A call is as good as the body that it names, under its expanded arguments. -/
theorem outcome_node_of_calls {e : Expr} {l : Lambda} {as : List Expr}
    (h : x.resolver.Calls e l as) (hlen : l.params.length = as.length)
    (hlimit : x.exceeded depth = none) (σ : Substitution) (site : Site) :
    (x.node inline depth σ site e).outcome =
      (x.list inline depth σ site 2 as).outcome >>= fun as' =>
        (inline (site.child 0) (.ofList (l.params.zip as')) l.body).outcome := by
  obtain ⟨c, hspelled, hc⟩ := h
  obtain ⟨k, t, m, callee, rfl, hm, -⟩ := Expr.eq_of_spelled hspelled
  have hchain : callee.memberChain = some (.ok c) := by
    simpa [Expr.spelled, hm] using hspelled
  have hinlinee : (x.inlinee depth callee as.length).outcome = .ok (some (c, l)) := by
    rw [inlinee, hchain]
    simp [outcome_consult, hc, hlen, hlimit]
  simp only [node, hm, if_true, Traced.outcome_bind, hinlinee, Outcome.ok_bind,
    Traced.outcome_note]

theorem outcome_list_of_references {as : List Expr} (h : ∀ a ∈ as, a.isParameter = true)
    (σ : Substitution) (site : Site) :
    ∀ i, ∃ as', (x.list inline depth σ site i as).outcome = .ok as' := by
  induction as with
  | nil => exact fun i => ⟨[], rfl⟩
  | cons a as ih =>
    intro i
    obtain ⟨as', has⟩ := ih (fun b hb => h b (List.mem_cons_of_mem a hb)) (i + 1)
    cases a with
    | parameter k p =>
      refine ⟨(σ.get? p).getD (.parameter k p) :: as', ?_⟩
      simp [list, node, has]
    | _ => cases h _ List.mem_cons_self

/-- Each of these trees hands on to a lambda whose body is one of them again. Then the expansion of
one is the expansion of the next, for which there is less fuel. -/
theorem expandIn_unfinished {P : Expr → Prop} (hlimit : x.maxDepth = none)
    (hP : ∀ e, P e → ∃ l, x.resolver.Forwards e l ∧ P l.body) {e : Expr} (he : P e)
    (fuel depth : Nat) (site : Site) (σ : Substitution) :
    (x.expandIn fuel depth site σ e).outcome = .unfinished := by
  have hexceeded : ∀ depth, x.exceeded depth = none := fun _ => by rw [exceeded, hlimit]; rfl
  induction fuel generalizing e depth site σ with
  | zero =>
    obtain ⟨l, ⟨as, hcalls, hlen, hargs⟩, -⟩ := hP e he
    obtain ⟨as', has⟩ := outcome_list_of_references hargs σ site 2
    rw [expandIn, outcome_node_of_calls hcalls hlen (hexceeded depth), has]
    rfl
  | succ fuel ih =>
    obtain ⟨l, ⟨as, hcalls, hlen, hargs⟩, hbody⟩ := hP e he
    obtain ⟨as', has⟩ := outcome_list_of_references hargs σ site 2
    rw [expandIn, outcome_node_of_calls hcalls hlen (hexceeded depth), has]
    exact ih hbody (depth + 1) (site.child 0) _

end Expander

end PredicateTree
