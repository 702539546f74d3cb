import Mathlib.Data.List.Forall2
import PredicateTree.Expansion
import PredicateTree.Proofs.Expr.Parts
import PredicateTree.Proofs.Outcome

/-!
# Proofs.Expansion.Derivation

Expansion as a relation between trees, free of fuel, depth and log.

* `Expr.spelled`: the chain that an expandable call spells in its first argument.
* `Resolver.Leaves`: the head of a tree is no call that would be inlined or refused.
* `Expands r epoch σ e e'`: `e` expands to `e'` under the bindings `σ`, in a run of that epoch.
* `node_eq_ok`: what one step of the pass gives, in terms of what it makes of the parts.
* `expands_of_expandIn`: whatever an expander gives is derived by `Expands`.
* `Resolver.Inlines`: the lambdas whose bodies are inlined on the way.
-/

namespace PredicateTree

/-- The chain, or the tree where none starts, and the arguments after it. -/
def Expr.spelled : Expr → Option (Except Expr MemberChain × List Expr)
  | .call _ _ m (callee :: as) => if m.isExpandable then callee.memberChain.map (·, as) else none
  | _ => none

theorem Expr.spelled_call {l : Label} {t : Option Expr} {m : Method} {as : List Expr}
    (h : m.isExpandable = false) : (Expr.call l t m as).spelled = none := by
  cases as with
  | nil => rfl
  | cons => simp [Expr.spelled, h]

theorem Expr.eq_of_spelled {e : Expr} {chain : Except Expr MemberChain} {as : List Expr}
    (h : e.spelled = some (chain, as)) :
    ∃ l t m callee, e = .call l t m (callee :: as) ∧ m.isExpandable = true ∧
      callee.chain = chain := by
  unfold Expr.spelled at h
  split at h
  · rename_i l t m callee bs
    split at h
    · rename_i hm
      simp only [Option.map_eq_some_iff, Prod.mk.injEq] at h
      obtain ⟨chain', hchain, rfl, rfl⟩ := h
      refine ⟨l, t, m, callee, rfl, hm, ?_⟩
      cases callee with
      | member | static => exact Option.some.inj hchain
      | _ => cases hchain
    · cases h
  · cases h

namespace Resolver

def Leaves (r : Resolver) (e : Expr) : Prop :=
  ∀ chain as, e.spelled = some (chain, as) → ∃ c, chain = .ok c ∧ r c = .ok none

/-- The call `e` passes the arguments `as` to the lambda `l`. -/
def Calls (r : Resolver) (e : Expr) (l : Lambda) (as : List Expr) : Prop :=
  ∃ c, e.spelled = some (.ok c, as) ∧ r c = .ok (some l)

variable {r : Resolver}

theorem leaves_of_spelled {e : Expr} (h : e.spelled = none) : r.Leaves e := by
  intro chain as hc
  rw [h] at hc
  cases hc

theorem Calls.mem_children {e a : Expr} {l : Lambda} {as : List Expr} (h : r.Calls e l as)
    (ha : a ∈ as) : a ∈ e.children := by
  obtain ⟨c, hspelled, -⟩ := h
  obtain ⟨_, _, _, _, rfl, -, -⟩ := Expr.eq_of_spelled hspelled
  simp [Expr.children, ha]

end Resolver

inductive Expands (r : Resolver) (epoch : Nat) : Substitution → Expr → Expr → Prop where
  | reference {σ : Substitution} {l : Label} {p : Param} :
      Expands r epoch σ (.parameter l p) ((σ.get? p).getD (.parameter l p))
  | inlined {σ : Substitution} {e : Expr} {l : Lambda} {as as' : List Expr} {e' : Expr} :
      r.Calls e l as → l.params.length = as.length → as.length = as'.length →
      (∀ a a', (a, a') ∈ as.zip as' → Expands r epoch σ a a') →
      Expands r epoch (.ofList (l.params.zip as')) l.body e' → Expands r epoch σ e e'
  | rebuilt {σ : Substitution} {e : Expr} {cs : List Expr} {site : Site} :
      r.Leaves e → e.isParameter = false → site.epoch = epoch → e.children.length = cs.length →
      (∀ c c', (c, c') ∈ e.children.zip cs → Expands r epoch σ c c') →
      Expands r epoch σ e (e.orNew e.children cs (e.withChildren site cs))

namespace Expander

variable {x : Expander} {depth : Nat}

theorem outcome_consult (c : MemberChain) (n : Nat) :
    (x.consult depth c n).outcome =
      match x.resolver c with
      | .error cause => .error (.resolution c cause)
      | .ok none => .ok none
      | .ok (some l) =>
        if l.params.length ≠ n then .error (.arity c l.params.length n)
        else
          match x.exceeded depth with
          | some limit => .error (.depthLimit limit)
          | none => .ok (some (c, l)) := by
  simp only [consult, Traced.outcome_bind, Traced.outcome_note, Outcome.ok_bind]
  cases x.resolver c with
  | error cause => rfl
  | ok found =>
    cases found with
    | none => rfl
    | some l =>
      by_cases hlen : l.params.length ≠ n
      · simp only [if_pos hlen, Traced.outcome_fail]
      · simp only [if_neg hlen]
        cases x.exceeded depth <;> rfl

/-- What is inlined is what the call names, within the limit, and what is left is left by the
resolver. -/
theorem inlinee_eq_ok {callee : Expr} {n : Nat} {found : Option (MemberChain × Lambda)}
    (h : (x.inlinee depth callee n).outcome = .ok found) :
    (found = none ∧ ∀ chain, callee.memberChain = some chain →
      ∃ c, chain = .ok c ∧ x.resolver c = .ok none) ∨
    ∃ c l, found = some (c, l) ∧ callee.memberChain = some (.ok c) ∧
      x.resolver c = .ok (some l) ∧ l.params.length = n ∧ x.exceeded depth = none := by
  unfold inlinee at h
  split at h
  case h_1 hchain =>
    simp only [Traced.outcome_bind, Traced.outcome_note, Outcome.ok_bind, Traced.outcome_pure,
      Outcome.ok.injEq] at h
    exact .inl ⟨h.symm, fun chain hc => by rw [hchain] at hc; cases hc⟩
  case h_2 => cases h
  case h_3 c hchain =>
    rw [outcome_consult] at h
    split at h
    case h_1 => cases h
    case h_2 hr =>
      refine .inl ⟨(Outcome.ok.inj h).symm, fun chain hc => ?_⟩
      rw [hchain, Option.some.injEq] at hc
      exact ⟨c, hc.symm, hr⟩
    case h_3 l hr =>
      split at h
      · cases h
      · rename_i hlen
        split at h
        · cases h
        · rename_i hlimit
          exact .inr ⟨c, l, (Outcome.ok.inj h).symm, hchain, hr, not_not.1 hlen, hlimit⟩

variable {inline : Inline} {σ : Substitution} {epoch : Nat}

theorem node_call_nil {l : Label} {t : Option Expr} {m : Method} {site : Site} {e' : Expr}
    (h : (x.node inline depth σ site (.call l t m [])).outcome = .ok e') :
    ∃ t', (x.optional inline depth σ (site.child 0) t).outcome = .ok t' ∧
      e' = (Expr.call l t m []).orNew (t.toList ++ []) (t'.toList ++ [])
        (.call ⟨site, l.ty⟩ t' m []) := by
  simp only [node] at h
  split at h
  · simp only [Traced.outcome_bind, Traced.outcome_note, Outcome.ok_bind, Outcome.bind_eq_ok,
      Traced.outcome_pure, Outcome.ok.injEq] at h
    obtain ⟨t', ht, rfl⟩ := h
    exact ⟨t', ht, by simp only [List.append_nil]⟩
  · simp only [Traced.outcome_bind, Outcome.bind_eq_ok, Traced.outcome_pure,
      Outcome.ok.injEq] at h
    obtain ⟨t', ht, rfl⟩ := h
    exact ⟨t', ht, by simp only [List.append_nil]⟩

/-- A call with arguments is left over its expanded parts, or replaced by the body it names. -/
theorem node_call {l : Label} {t : Option Expr} {m : Method} {callee : Expr} {as : List Expr}
    {site : Site} {e' : Expr}
    (h : (x.node inline depth σ site (.call l t m (callee :: as))).outcome = .ok e') :
    (x.resolver.Leaves (.call l t m (callee :: as)) ∧
      ∃ t' callee' as', (x.optional inline depth σ (site.child 0) t).outcome = .ok t' ∧
        (x.node inline depth σ (site.child 1) callee).outcome = .ok callee' ∧
        (x.list inline depth σ site 2 as).outcome = .ok as' ∧
        e' = (Expr.call l t m (callee :: as)).orNew (t.toList ++ callee :: as)
          (t'.toList ++ callee' :: as') (.call ⟨site, l.ty⟩ t' m (callee' :: as'))) ∨
    ∃ k as', x.resolver.Calls (.call l t m (callee :: as)) k as ∧
      k.params.length = as.length ∧ (x.list inline depth σ site 2 as).outcome = .ok as' ∧
      (inline (site.child 0) (.ofList (k.params.zip as')) k.body).outcome = .ok e' := by
  simp only [node] at h
  cases hm : m.isExpandable with
  | false =>
    simp only [hm, Bool.false_eq_true, if_false, Traced.outcome_bind, Outcome.bind_eq_ok,
      Traced.outcome_pure, Outcome.ok.injEq, exists_eq_left'] at h
    obtain ⟨t', ht, callee', hcallee, as', has, rfl⟩ := h
    exact .inl ⟨Resolver.leaves_of_spelled (Expr.spelled_call hm), t', callee', as', ht, hcallee,
      has, rfl⟩
  | true =>
    simp only [hm, if_true, Traced.outcome_bind, Outcome.bind_eq_ok] at h
    obtain ⟨found, hfound, h⟩ := h
    obtain ⟨rfl, hleft⟩ | ⟨c, k, rfl, hchain, hr, hlen, -⟩ := inlinee_eq_ok hfound
    · simp only [Traced.outcome_bind, Outcome.bind_eq_ok, Traced.outcome_pure,
        Outcome.ok.injEq] at h
      obtain ⟨t', ht, callee', hcallee, as', has, rfl⟩ := h
      refine .inl ⟨?_, t', callee', as', ht, hcallee, has, rfl⟩
      intro chain bs hspelled
      simp only [Expr.spelled, hm, if_true, Option.map_eq_some_iff, Prod.mk.injEq] at hspelled
      obtain ⟨chain', hchain, rfl, rfl⟩ := hspelled
      exact hleft chain' hchain
    · simp only [Traced.outcome_bind, Traced.outcome_note, Outcome.ok_bind,
        Outcome.bind_eq_ok] at h
      obtain ⟨as', has, hbody⟩ := h
      exact .inr ⟨k, as', ⟨c, by simp [Expr.spelled, hm, hchain], hr⟩, hlen, has, hbody⟩

/-- What the pass makes of a tree, wherever it meets the tree in the run of that epoch. -/
def Makes (x : Expander) (inline : Inline) (depth : Nat) (σ : Substitution) (epoch : Nat)
    (e e' : Expr) : Prop :=
  ∃ site : Site, site.epoch = epoch ∧ (x.node inline depth σ site e).outcome = .ok e'

theorem makes_of_optional {t t' : Option Expr} {site : Site}
    (h : (x.optional inline depth σ site t).outcome = .ok t') :
    List.Forall₂ (x.Makes inline depth σ site.epoch) t.toList t'.toList := by
  cases t with
  | none =>
    cases h
    exact .nil
  | some a =>
    simp only [optional, Traced.outcome_bind, Traced.outcome_pure, Outcome.bind_eq_ok,
      Outcome.ok.injEq] at h
    obtain ⟨a', ha, rfl⟩ := h
    exact .cons ⟨site, rfl, ha⟩ .nil

theorem makes_of_list {as as' : List Expr} {site : Site} : ∀ {i : Nat},
    (x.list inline depth σ site i as).outcome = .ok as' →
      List.Forall₂ (x.Makes inline depth σ site.epoch) as as' := by
  induction as generalizing as' with
  | nil =>
    rintro i ⟨⟩
    exact .nil
  | cons a as ih =>
    intro i h
    simp only [list, Traced.outcome_bind, Traced.outcome_pure, Outcome.bind_eq_ok,
      Outcome.ok.injEq] at h
    obtain ⟨a', ha, as', has, rfl⟩ := h
    exact .cons ⟨site.child i, rfl, ha⟩ (ih has)

/-- One step of the pass, at any node but a reference: the node is left over what the pass makes of
its parts, or replaced by the body that it names. -/
theorem node_eq_ok {e e' : Expr} {site : Site} (hparam : e.isParameter = false)
    (h : (x.node inline depth σ site e).outcome = .ok e') :
    (x.resolver.Leaves e ∧ ∃ cs, List.Forall₂ (x.Makes inline depth σ site.epoch) e.children cs ∧
      e' = e.orNew e.children cs (e.withChildren site cs)) ∨
    ∃ k as as', x.resolver.Calls e k as ∧ k.params.length = as.length ∧
      List.Forall₂ (x.Makes inline depth σ site.epoch) as as' ∧
      (inline (site.child 0) (.ofList (k.params.zip as')) k.body).outcome = .ok e' := by
  cases e with
  | parameter => cases hparam
  | call l t m as =>
    cases as with
    | nil =>
      obtain ⟨t', ht, rfl⟩ := node_call_nil h
      have ht := makes_of_optional ht
      refine .inl ⟨Resolver.leaves_of_spelled rfl, t'.toList ++ [], List.rel_append ht .nil, ?_⟩
      rw [Expr.withChildren_append ht.length_eq]
      rfl
    | cons callee as =>
      obtain ⟨hleaves, t', callee', as', ht, hcallee, has, rfl⟩ |
        ⟨k, as', hcalls, hlen, has, hbody⟩ := node_call h
      · have ht := makes_of_optional ht
        have has := List.Forall₂.cons ⟨site.child 1, rfl, hcallee⟩ (makes_of_list has)
        refine .inl ⟨hleaves, t'.toList ++ callee' :: as', List.rel_append ht has, ?_⟩
        rw [Expr.withChildren_append ht.length_eq]
        rfl
      · exact .inr ⟨k, as, as', hcalls, hlen, makes_of_list has, hbody⟩
  | binary l op a b =>
    simp only [node, Traced.outcome_bind, Traced.outcome_pure, Outcome.bind_eq_ok,
      Outcome.ok.injEq] at h
    obtain ⟨a', ha, b', hb, rfl⟩ := h
    exact .inl ⟨Resolver.leaves_of_spelled rfl, [a', b'],
      .cons ⟨site.child 0, rfl, ha⟩ (.cons ⟨site.child 1, rfl, hb⟩ .nil), rfl⟩
  | unary l op a =>
    simp only [node, Traced.outcome_bind, Traced.outcome_pure, Outcome.bind_eq_ok,
      Outcome.ok.injEq] at h
    obtain ⟨a', ha, rfl⟩ := h
    exact .inl ⟨Resolver.leaves_of_spelled rfl, [a'], .cons ⟨site.child 0, rfl, ha⟩ .nil, rfl⟩
  | member l t r =>
    simp only [node, Traced.outcome_bind, Traced.outcome_pure, Outcome.bind_eq_ok,
      Outcome.ok.injEq] at h
    obtain ⟨t', ht, rfl⟩ := h
    exact .inl ⟨Resolver.leaves_of_spelled rfl, [t'], .cons ⟨site.child 0, rfl, ht⟩ .nil, rfl⟩
  | conditional l a b c =>
    simp only [node, Traced.outcome_bind, Traced.outcome_pure, Outcome.bind_eq_ok,
      Outcome.ok.injEq] at h
    obtain ⟨a', ha, b', hb, c', hc, rfl⟩ := h
    exact .inl ⟨Resolver.leaves_of_spelled rfl, [a', b', c'],
      .cons ⟨site.child 0, rfl, ha⟩ (.cons ⟨site.child 1, rfl, hb⟩
        (.cons ⟨site.child 2, rfl, hc⟩ .nil)), rfl⟩
  | dynamic l binder as =>
    simp only [node, Traced.outcome_bind, Traced.outcome_pure, Outcome.bind_eq_ok,
      Outcome.ok.injEq] at h
    obtain ⟨as', has, rfl⟩ := h
    exact .inl ⟨Resolver.leaves_of_spelled rfl, as', makes_of_list has, rfl⟩
  | lambda l ps b =>
    simp only [node, Traced.outcome_bind, Traced.outcome_pure, Outcome.bind_eq_ok,
      Outcome.ok.injEq] at h
    obtain ⟨b', hb, rfl⟩ := h
    exact .inl ⟨Resolver.leaves_of_spelled rfl, [b'], .cons ⟨site.child 0, rfl, hb⟩ .nil, rfl⟩
  | static | constant | default =>
    cases h
    exact .inl ⟨Resolver.leaves_of_spelled rfl, [], .nil, rfl⟩

theorem expands_of_node (hinline : ∀ site τ b b', site.epoch = epoch →
      (inline site τ b).outcome = .ok b' → Expands x.resolver epoch τ b b') {e e' : Expr}
    {site : Site} (hsite : site.epoch = epoch)
    (h : (x.node inline depth σ site e).outcome = .ok e') :
    Expands x.resolver epoch σ e e' := by
  induction e using Expr.byChildren generalizing e' site with
  | node e ih =>
    have hpart : ∀ c c', c ∈ e.children → x.Makes inline depth σ site.epoch c c' →
        Expands x.resolver epoch σ c c' :=
      fun c c' hc ⟨s, hs, h⟩ => ih c hc (hs.trans hsite) h
    cases hparam : e.isParameter with
    | true =>
      cases e with
      | parameter l p =>
        cases h
        exact .reference
      | _ => cases hparam
    | false =>
      obtain ⟨hleaves, cs, hcs, rfl⟩ | ⟨k, as, as', hcalls, hlen, has, hbody⟩ := node_eq_ok hparam h
      · obtain ⟨hlen, hzip⟩ := List.forall₂_iff_zip.1 hcs
        exact .rebuilt hleaves hparam hsite hlen fun c c' hmem =>
          hpart c c' (List.of_mem_zip hmem).1 (hzip hmem)
      · obtain ⟨hlen', hzip⟩ := List.forall₂_iff_zip.1 has
        refine .inlined hcalls hlen hlen' (fun a a' hmem => ?_)
          (hinline (site.child 0) _ _ _ hsite hbody)
        exact hpart a a' (hcalls.mem_children (List.of_mem_zip hmem).1) (hzip hmem)

theorem expands_of_expandIn : ∀ (fuel depth : Nat) (site : Site) (σ : Substitution) (e e' : Expr),
    site.epoch = epoch → (x.expandIn fuel depth site σ e).outcome = .ok e' →
      Expands x.resolver epoch σ e e' := by
  intro fuel
  induction fuel with
  | zero =>
    intro depth site σ e e' hsite h
    refine expands_of_node ?_ hsite h
    intro site τ b b' _ h
    cases h
  | succ fuel ih =>
    intro depth site σ e e' hsite h
    exact expands_of_node (ih (depth + 1)) hsite h

theorem expands_of_expand {fuel : Nat} {site : Site} {e e' : Expr}
    (h : (x.expand fuel site e).outcome = .ok e') : Expands x.resolver site.epoch [] e e' :=
  expands_of_expandIn fuel 0 site [] e e' rfl h

end Expander

/-! ## What is inlined -/

/-- A lambda whose body is inlined while the tree is expanded: at the tree itself, in the body that
takes its place or in an argument of that body, or in a part of a tree that is left. -/
inductive Resolver.Inlines (r : Resolver) : Expr → Lambda → Prop where
  | here {e : Expr} {l : Lambda} {as : List Expr} : r.Calls e l as → r.Inlines e l
  | body {e : Expr} {l k : Lambda} {as : List Expr} :
      r.Calls e l as → r.Inlines l.body k → r.Inlines e k
  | argument {e a : Expr} {l k : Lambda} {as : List Expr} :
      r.Calls e l as → a ∈ as → r.Inlines a k → r.Inlines e k
  | part {e c : Expr} {k : Lambda} :
      r.Leaves e → c ∈ e.children → r.Inlines c k → r.Inlines e k

theorem Resolver.not_inlines {r : Resolver} {e : Expr} {l : Lambda}
    (h : e.All fun a => a.spelled = none) : ¬r.Inlines e l := by
  intro hl
  induction hl with
  | here hcalls | body hcalls | argument hcalls =>
    obtain ⟨c, hspelled, -⟩ := hcalls
    rw [((Expr.all_iff _).1 h).1] at hspelled
    cases hspelled
  | part _ hc _ ih => exact ih (((Expr.all_iff _).1 h).2 _ hc)

theorem Resolver.Calls.unique {r : Resolver} {e : Expr} {l l' : Lambda} {as as' : List Expr}
    (h : r.Calls e l as) (h' : r.Calls e l' as') : l = l' ∧ as = as' := by
  obtain ⟨c, hspelled, hc⟩ := h
  obtain ⟨c', hspelled', hc'⟩ := h'
  cases hspelled.symm.trans hspelled'
  cases hc.symm.trans hc'
  exact ⟨rfl, rfl⟩

theorem Resolver.Leaves.not_calls {r : Resolver} {e : Expr} {l : Lambda} {as : List Expr}
    (h : r.Leaves e) : ¬r.Calls e l as := by
  rintro ⟨c, hspelled, hc⟩
  obtain ⟨c', hchain, hc'⟩ := h _ _ hspelled
  cases hchain
  cases hc.symm.trans hc'

/-- A call inlines the body it names, and what is inlined in there and in its arguments. -/
theorem Resolver.Calls.inlines_cases {r : Resolver} {e : Expr} {l k : Lambda} {as : List Expr}
    (h : r.Calls e l as) (hk : r.Inlines e k) :
    k = l ∨ r.Inlines l.body k ∨ ∃ a ∈ as, r.Inlines a k := by
  cases hk with
  | here h' => exact .inl (h'.unique h).1
  | body h' hk =>
    obtain ⟨rfl, -⟩ := h'.unique h
    exact .inr (.inl hk)
  | argument h' ha hk =>
    obtain ⟨-, rfl⟩ := h'.unique h
    exact .inr (.inr ⟨_, ha, hk⟩)
  | part hleaves => exact absurd h hleaves.not_calls

/-- A call without other calls in its arguments and in the body inlines that body only. -/
theorem Resolver.Calls.eq_of_inlines {r : Resolver} {e : Expr} {l k : Lambda} {as : List Expr}
    (h : r.Calls e l as) (hbody : l.body.All fun a => a.spelled = none)
    (has : ∀ a ∈ as, a.All fun b => b.spelled = none) (hk : r.Inlines e k) : k = l := by
  obtain rfl | hk | ⟨a, ha, hk⟩ := h.inlines_cases hk
  · rfl
  · exact absurd hk (Resolver.not_inlines hbody)
  · exact absurd hk (Resolver.not_inlines (has a ha))

/-- What is looked up among bindings was bound there. -/
theorem Substitution.mem_zip_of_get?_ofList {ps : List Param} {as : List Expr} {p : Param} {a : Expr}
    (h : Substitution.get? (.ofList (ps.zip as)) p = some a) : (p, a) ∈ ps.zip as := by
  have hmem : (p, a) ∈ (ps.zip as).reverse := mem_of_lookup h
  exact List.mem_reverse.1 hmem

theorem Substitution.mem_of_get?_ofList {ps : List Param} {as : List Expr} {p : Param} {a : Expr}
    (h : Substitution.get? (.ofList (ps.zip as)) p = some a) : a ∈ as :=
  (List.of_mem_zip (mem_zip_of_get?_ofList h)).2

/-- A parameter that has an argument is bound. -/
theorem Substitution.not_mem_of_get?_ofList {ps : List Param} {as : List Expr}
    (hlen : ps.length = as.length) {p : Param}
    (h : Substitution.get? (.ofList (ps.zip as)) p = none) : p ∉ ps := by
  intro hp
  rw [← List.map_fst_zip (Nat.le_of_eq hlen)] at hp
  obtain ⟨⟨q, a⟩, hmem, rfl⟩ := List.mem_map.1 hp
  obtain ⟨b, hb⟩ := exists_lookup_of_mem (List.mem_reverse.2 hmem)
  cases hb.symm.trans h

theorem exists_mem_zip {as bs : List Expr} (hlen : as.length = bs.length) {b : Expr} (hb : b ∈ bs) :
    ∃ a, (a, b) ∈ as.zip bs := by
  rw [← List.map_snd_zip (Nat.le_of_eq hlen.symm)] at hb
  obtain ⟨⟨a, c⟩, hmem, rfl⟩ := List.mem_map.1 hb
  exact ⟨a, hmem⟩

/-- Every node of an expansion has the property `P`, if references with the property `Q` have it and
every tree with `Q` that is left has it over its expanded parts. The trees on the way, that is the
tree itself and the bodies inlined from it, are to have `Q` at all nodes. -/
theorem Expands.all {r : Resolver} {epoch : Nat} {P Q : Expr → Prop}
    (href : ∀ l p, Q (.parameter l p) → P (.parameter l p))
    (hhead : ∀ (σ : Substitution) (e : Expr) (cs : List Expr) (site : Site), Q e → r.Leaves e →
      site.epoch = epoch → List.Forall₂ (Expands r epoch σ) e.children cs →
      P (e.orNew e.children cs (e.withChildren site cs)))
    {σ : Substitution} {e e' : Expr} (h : Expands r epoch σ e e') :
    e.All Q → (∀ l, r.Inlines e l → l.body.All Q) → (∀ p a, σ.get? p = some a → a.All P) →
      e'.All P := by
  induction h with
  | @reference σ l p =>
    intro he _ hσ
    cases hp : σ.get? p with
    | none =>
      exact (Expr.all_iff _).2 ⟨href l p ((Expr.all_iff _).1 he).1, by simp [Expr.children]⟩
    | some a => exact hσ p a hp
  | @inlined σ e l as as' e' hcalls _ hlen _ _ ihargs ihbody =>
    intro he hl hσ
    apply ihbody
    · exact hl l (.here hcalls)
    · exact fun k hk => hl k (.body hcalls hk)
    · intro p a' ha'
      obtain ⟨a, hmem⟩ := exists_mem_zip hlen (Substitution.mem_of_get?_ofList ha')
      have ha : a ∈ as := (List.of_mem_zip hmem).1
      refine ihargs _ _ hmem ?_ ?_ hσ
      · exact ((Expr.all_iff e).1 he).2 _ (hcalls.mem_children ha)
      · exact fun k hk => hl k (.argument hcalls ha hk)
  | @rebuilt σ e cs site hleaves _ hsite hlen hparts ih =>
    intro he hl hσ
    have hcs : List.Forall₂ (Expands r epoch σ) e.children cs :=
      List.forall₂_iff_zip.2 ⟨hlen, fun h => hparts _ _ h⟩
    refine (Expr.all_iff _).2 ⟨hhead σ e cs site ((Expr.all_iff e).1 he).1 hleaves hsite hcs, ?_⟩
    obtain ⟨s, hs⟩ := e.orNew_eq_withChildren cs site
    rw [hs, e.children_withChildren s hlen]
    intro c' hc'
    obtain ⟨c, hmem⟩ := exists_mem_zip hlen hc'
    have hc : c ∈ e.children := (List.of_mem_zip hmem).1
    refine ih _ _ hmem ?_ ?_ hσ
    · exact ((Expr.all_iff e).1 he).2 _ hc
    · exact fun k hk => hl k (.part hleaves hc hk)

end PredicateTree
