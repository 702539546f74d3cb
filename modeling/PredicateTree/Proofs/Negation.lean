import PredicateTree.Negation
import PredicateTree.Proofs.Evaluator.Values

/-!
# Proofs.Negation

Negation of a tree is negation of its value.

* `Expr.spine`: the nodes reached from the root through conjunctions and disjunctions. Negation
  rewrites these and looks no deeper.
* `BinaryOp.compute_complement`: a comparison and its complement have opposite values, and neither
  has one where operands cannot be ordered.
* `Yields.deMorgan`: conjunction and disjunction change places, and what one does not evaluate the
  other does not either.
* `eval_negate`: if a tree evaluates to a boolean, its negation evaluates to the other one. What
  negation compares with false has to be typed as a boolean, and the branches of a conditional that
  it swaps have to be opposite.
-/

namespace PredicateTree

namespace Expr

def spine : Expr → List Expr
  | .binary l .and a b => .binary l .and a b :: (a.spine ++ b.spine)
  | .binary l .or a b => .binary l .or a b :: (a.spine ++ b.spine)
  | e => [e]

/-- Member accesses, calls, dynamic nodes and references: what negation cannot see into. -/
def isSealed : Expr → Bool
  | .member .. | .static .. | .call .. | .dynamic .. | .parameter .. => true
  | _ => false

end Expr

/-! ## Operators -/

theorem Value.expectBool_eq_ok {v : Value} {b : Bool} : v.expectBool = .ok b ↔ v = .bool b := by
  cases v <;> simp [expectBool]

theorem Value.arithmetic_ne_bool {onInt : Int64 → Int64 → Except EvalError Int64}
    {onFloat : Binary64 → Binary64 → Binary64} {v w : Value} {b : Bool} :
    v.arithmetic onInt onFloat w ≠ .ok (.bool b) := by
  intro h
  unfold arithmetic at h
  split at h
  · rename_i m n
    cases hmn : onInt m n with
    | error e => rw [hmn] at h; cases h
    | ok k => rw [hmn] at h; cases h
  · split at h <;> cases h

namespace BinaryOp

/-- The value of the first operand that makes the second one needless, where there is such a value. -/
def decider? : BinaryOp → Option Bool
  | .and => some false
  | .or => some true
  | _ => none

/-- Only comparisons and logical operators give booleans. -/
theorem compute_ne_bool {op : BinaryOp} (hop : op.isBoolean = false) {v w : Value} {b : Bool} :
    op.compute v w ≠ .ok (.bool b) := by
  cases op with
  | add =>
    intro h
    cases v <;> cases w <;> cases h
  | sub | mul | div | rem => exact Value.arithmetic_ne_bool
  | _ => cases hop

theorem compute_complement {op flipped : BinaryOp} (hop : op.complement = some flipped)
    {v w : Value} {b : Bool} (h : op.compute v w = .ok (.bool b)) :
    flipped.compute v w = .ok (.bool !b) := by
  cases op with
  | eq =>
    cases hop
    simp only [compute, Except.ok.injEq, Value.bool.injEq] at h ⊢
    rw [h]
  | ne =>
    cases hop
    simp only [compute, Except.ok.injEq, Value.bool.injEq] at h ⊢
    rw [← h, Bool.not_not]
  | lt | le | gt | ge =>
    cases hop
    simp only [compute] at h ⊢
    cases ho : v.order w with
    | error e => rw [ho] at h; cases h
    | ok o =>
      rw [ho] at h
      simp only [Except.map, Except.ok.injEq, Value.bool.injEq] at h ⊢
      subst h
      cases o <;> rfl
  | _ => cases hop

end BinaryOp

theorem Ty.defaultValue_eq_bool {t : Ty} {b : Bool} (h : t.defaultValue = .bool b) :
    t.isBool = true ∧ b = false := by
  cases t with
  | bool =>
    cases h
    exact ⟨rfl, rfl⟩
  | _ => cases h

/-! ## Booleans -/

namespace Evaluator

variable {ev : Evaluator} {env : Env}

theorem yields_bool_iff {e : Expr} {b : Bool} :
    ev.Yields env e (.bool b) ↔
      ∃ bound, ∀ fuel, bound ≤ fuel → ∀ site, ev.eval fuel site env e = .ok (.bool b) := by
  constructor
  · rintro ⟨bound, h⟩
    refine ⟨bound, fun fuel hfuel site => ?_⟩
    obtain ⟨w, hw, hlike⟩ := h fuel hfuel site
    rw [hw, Value.bare_eq_bool hlike.symm]
  · rintro ⟨bound, h⟩
    exact ⟨bound, fun fuel hfuel site => ⟨_, h fuel hfuel site, rfl⟩⟩

theorem Yields.atAll {e : Expr} {b : Bool} (h : ev.Yields env e (.bool b)) :
    ∃ fuel, ∀ s, ev.eval fuel s env e = .ok (.bool b) := by
  obtain ⟨n, hn⟩ := yields_bool_iff.1 h
  exact ⟨n, hn n (Nat.le_refl n)⟩

theorem Yields.both {e e' : Expr} {b c : Bool} (h : ev.Yields env e (.bool b))
    (h' : ev.Yields env e' (.bool c)) :
    ∃ fuel, ∀ s s', ev.eval fuel s env e = .ok (.bool b) ∧
      ev.eval fuel s' env e' = .ok (.bool c) := by
  obtain ⟨m, hm⟩ := yields_bool_iff.1 h
  obtain ⟨n, hn⟩ := yields_bool_iff.1 h'
  exact ⟨max m n, fun s s' => ⟨hm _ (Nat.le_max_left m n) s, hn _ (Nat.le_max_right m n) s'⟩⟩

theorem Yields.bool_inj {e : Expr} {b c : Bool} (hb : ev.Yields env e (.bool b))
    (hc : ev.Yields env e (.bool c)) : b = c := by
  obtain ⟨fuel, h⟩ := hb.both hc
  obtain ⟨h₁, h₂⟩ := h (.root 0) (.root 0)
  rw [h₁] at h₂
  cases h₂
  rfl

section

variable {n : Nat} {s : Site} {l : Label} {a b c : Expr} {r : Bool}

theorem eval_junction {op : BinaryOp} {d : Bool} (hop : op.decider? = some d) :
    ev.eval n s env (.binary l op a b) = (do
      let v ← ev.eval n (s.child 0) env a
      let c ← Outcome.ofExcept v.expectBool
      if c = d then return .bool d
      let w ← ev.eval n (s.child 1) env b
      return .bool (← Outcome.ofExcept w.expectBool)) := by
  cases op with
  | and =>
    cases hop
    simp only [eval, node]
    refine bind_congr fun v => bind_congr fun c => ?_
    cases c <;> rfl
  | or =>
    cases hop
    simp only [eval, node]
  | _ => cases hop

/-- The first operand decides, or the second has the answer. -/
theorem eval_junction_eq_bool {op : BinaryOp} {d : Bool} (hop : op.decider? = some d) :
    ev.eval n s env (.binary l op a b) = .ok (.bool r) ↔
      ev.eval n (s.child 0) env a = .ok (.bool d) ∧ r = d ∨
      ev.eval n (s.child 0) env a = .ok (.bool !d) ∧
        ev.eval n (s.child 1) env b = .ok (.bool r) := by
  simp only [eval_junction hop, Outcome.bind_eq_ok, Outcome.ofExcept_eq_ok, Value.expectBool_eq_ok]
  constructor
  · rintro ⟨v, hv, c, rfl, h⟩
    by_cases hc : c = d
    · subst hc
      exact .inl ⟨hv, by simpa using h.symm⟩
    · rw [if_neg hc] at h
      obtain rfl : c = !d := Bool.eq_not.2 hc
      exact .inr ⟨hv, by simpa [Outcome.bind_eq_ok, Value.expectBool_eq_ok] using h⟩
  · rintro (⟨hv, rfl⟩ | ⟨hv, hw⟩)
    · exact ⟨_, hv, r, rfl, if_pos rfl⟩
    · refine ⟨_, hv, !d, rfl, ?_⟩
      rw [if_neg (by simp)]
      simpa [Outcome.bind_eq_ok, Value.expectBool_eq_ok] using hw

theorem eval_conditional_eq_bool : ev.eval n s env (.conditional l a b c) = .ok (.bool r) ↔
    ev.eval n (s.child 0) env a = .ok (.bool true) ∧ ev.eval n (s.child 1) env b = .ok (.bool r) ∨
    ev.eval n (s.child 0) env a = .ok (.bool false) ∧
      ev.eval n (s.child 2) env c = .ok (.bool r) := by
  simp only [eval, node, Outcome.bind_eq_ok, Outcome.ofExcept_eq_ok, Value.expectBool_eq_ok]
  constructor
  · rintro ⟨v, hv, d, rfl, h⟩
    cases d with
    | false => exact .inr ⟨hv, h⟩
    | true => exact .inl ⟨hv, h⟩
  · rintro (⟨hv, h⟩ | ⟨hv, h⟩)
    · exact ⟨_, hv, true, rfl, h⟩
    · exact ⟨_, hv, false, rfl, h⟩

theorem yields_junction_iff (hev : ev.Pure) {op : BinaryOp} {d : Bool}
    (hop : op.decider? = some d) : ev.Yields env (.binary l op a b) (.bool r) ↔
      ev.Yields env a (.bool d) ∧ r = d ∨
      ev.Yields env a (.bool !d) ∧ ev.Yields env b (.bool r) := by
  constructor
  · intro h
    obtain ⟨n, hn⟩ := h.atAll
    obtain ⟨ha, hr⟩ | ⟨ha, hb⟩ := (eval_junction_eq_bool hop).1 (hn (.root 0))
    · exact .inl ⟨yields_of_eval hev ha, hr⟩
    · exact .inr ⟨yields_of_eval hev ha, yields_of_eval hev hb⟩
  · rintro (⟨ha, hr⟩ | ⟨ha, hb⟩)
    · obtain ⟨n, hn⟩ := ha.atAll
      exact yields_of_eval hev ((eval_junction_eq_bool hop).2
        (.inl ⟨hn ((Site.root 0).child 0), hr⟩))
    · obtain ⟨n, hn⟩ := ha.both hb
      exact yields_of_eval hev ((eval_junction_eq_bool hop).2
        (.inr (hn ((Site.root 0).child 0) _)))

theorem yields_conditional_iff (hev : ev.Pure) :
    ev.Yields env (.conditional l a b c) (.bool r) ↔
      ev.Yields env a (.bool true) ∧ ev.Yields env b (.bool r) ∨
      ev.Yields env a (.bool false) ∧ ev.Yields env c (.bool r) := by
  constructor
  · intro h
    obtain ⟨n, hn⟩ := h.atAll
    obtain ⟨ha, hb⟩ | ⟨ha, hc⟩ := eval_conditional_eq_bool.1 (hn (.root 0))
    · exact .inl ⟨yields_of_eval hev ha, yields_of_eval hev hb⟩
    · exact .inr ⟨yields_of_eval hev ha, yields_of_eval hev hc⟩
  · rintro (⟨ha, hb⟩ | ⟨ha, hc⟩)
    · obtain ⟨n, hn⟩ := ha.both hb
      exact yields_of_eval hev (eval_conditional_eq_bool.2 (.inl (hn ((Site.root 0).child 0) _)))
    · obtain ⟨n, hn⟩ := ha.both hc
      exact yields_of_eval hev (eval_conditional_eq_bool.2 (.inr (hn ((Site.root 0).child 0) _)))

/-- The operators other than conjunction and disjunction evaluate both operands. -/
theorem eval_binary_eq_ok {op : BinaryOp} (hand : op ≠ .and) (hor : op ≠ .or) {v : Value} :
    ev.eval n s env (.binary l op a b) = .ok v ↔
      ∃ x y, ev.eval n (s.child 0) env a = .ok x ∧ ev.eval n (s.child 1) env b = .ok y ∧
        op.compute x y = .ok v := by
  cases op with
  | and => exact absurd rfl hand
  | or => exact absurd rfl hor
  | _ => simp [eval, node, Outcome.bind_eq_ok]

theorem eval_unary_eq_ok {op : UnaryOp} {v : Value} :
    ev.eval n s env (.unary l op a) = .ok v ↔
      ∃ x, ev.eval n (s.child 0) env a = .ok x ∧ op.compute x = .ok v := by
  simp [eval, node, Outcome.bind_eq_ok]

end

/-! ## Negation -/

theorem Yields.equalsFalse {e : Expr} {b : Bool} (h : ev.Yields env e (.bool b)) (site : Site) :
    ev.Yields env (e.equalsFalse site) (.bool !b) := by
  obtain ⟨bound, h⟩ := yields_bool_iff.1 h
  refine yields_bool_iff.2 ⟨bound, fun fuel hfuel s => ?_⟩
  refine (eval_binary_eq_ok (by simp) (by simp)).2 ⟨_, _, h fuel hfuel _, rfl, ?_⟩
  cases b <;> rfl

/-- What negation takes for granted of a node of the spine: that it is typed as a boolean if it is
compared with false, and that its branches are opposite if they are swapped. -/
def Invertible (ev : Evaluator) (env : Env) (e : Expr) : Prop :=
  (e.isSealed = true → e.isBool = true) ∧
    ∀ l test x y, e = .conditional l test x y →
      e.isBool = true ∧ ∃ c, ev.Yields env x (.bool c) ∧ ev.Yields env y (.bool !c)

theorem yields_negate_comparison (hev : ev.Pure) {l : Label} {op : BinaryOp} {a b : Expr}
    (hand : op ≠ .and) (hor : op ≠ .or) {r : Bool} (site : Site)
    (h : ev.Yields env (.binary l op a b) (.bool r)) :
    ev.Yields env ((Expr.binary l op a b).negate site) (.bool !r) := by
  obtain ⟨n, hn⟩ := h.atAll
  obtain ⟨x, y, hx, hy, hxy⟩ := (eval_binary_eq_ok hand hor).1 (hn (.root 0))
  cases hflipped : op.complement with
  | none =>
    have hop : op.isBoolean = false := by
      cases op with
      | and => exact absurd rfl hand
      | or => exact absurd rfl hor
      | add | sub | mul | div | rem => rfl
      | _ => cases hflipped
    exact absurd hxy (BinaryOp.compute_ne_bool hop)
  | some flipped =>
    have hnegate : (Expr.binary l op a b).negate site = .binaryAt site flipped a b := by
      cases op <;> cases hflipped <;> rfl
    have hcompute := BinaryOp.compute_complement hflipped hxy
    have hand' : flipped ≠ .and := by cases op <;> cases hflipped <;> simp
    have hor' : flipped ≠ .or := by cases op <;> cases hflipped <;> simp
    rw [hnegate]
    exact yields_of_eval hev ((eval_binary_eq_ok hand' hor').2 ⟨x, y, hx, hy, hcompute⟩)

theorem yields_negate_sealed {e : Expr} (hsealed : e.isSealed = true) (hbool : e.isBool = true)
    {r : Bool} (site : Site) (h : ev.Yields env e (.bool r)) :
    ev.Yields env (e.negate site) (.bool !r) := by
  have hnegate : e.negate site = e.equalsFalse site := by
    cases e with
    | member | static | call | dynamic | parameter => exact if_pos hbool
    | _ => cases hsealed
  rw [hnegate]
  exact h.equalsFalse site

theorem Yields.deMorgan (hev : ev.Pure) {op op' : BinaryOp} {d : Bool} (hop : op.decider? = some d)
    (hop' : op'.decider? = some !d) {l l' : Label} {a b a' b' : Expr}
    (ha : ∀ c, ev.Yields env a (.bool c) → ev.Yields env a' (.bool !c))
    (hb : ∀ c, ev.Yields env b (.bool c) → ev.Yields env b' (.bool !c)) {r : Bool}
    (h : ev.Yields env (.binary l op a b) (.bool r)) :
    ev.Yields env (.binary l' op' a' b') (.bool !r) := by
  obtain ⟨hdecided, rfl⟩ | ⟨hopen, hr⟩ := (yields_junction_iff hev hop).1 h
  · exact (yields_junction_iff hev hop').2 (.inl ⟨ha _ hdecided, rfl⟩)
  · exact (yields_junction_iff hev hop').2 (.inr ⟨ha _ hopen, hb _ hr⟩)

-- Induction along the spine. Everything below it is evaluated as before, or not at all.
theorem yields_negate (hev : ev.Pure) : ∀ (t : Expr) (site : Site) (r : Bool),
    (∀ a ∈ t.spine, ev.Invertible env a) → ev.Yields env t (.bool r) →
      ev.Yields env (t.negate site) (.bool !r)
  | .binary l op a b, site, r, hspine, h => by
    cases op with
    | and | or =>
      refine .deMorgan hev rfl rfl (fun c => ?_) (fun c => ?_) h
      · exact yields_negate hev a (site.child 0) c fun e he => hspine e (by simp [Expr.spine, he])
      · exact yields_negate hev b (site.child 1) c fun e he => hspine e (by simp [Expr.spine, he])
    | _ => exact yields_negate_comparison hev (by simp) (by simp) site h
  | .unary l op a, site, r, _, h => by
    obtain ⟨n, hn⟩ := h.atAll
    obtain ⟨x, hx, hcompute⟩ := eval_unary_eq_ok.1 (hn (.root 0))
    cases op with
    | isTrue =>
      have hxr : x = .bool r := by cases x <;> cases hcompute; rfl
      subst hxr
      exact (yields_of_eval hev hx).equalsFalse site
    | isFalse | not =>
      have hxr : x = .bool !r := by cases x <;> cases hcompute; simp
      subst hxr
      exact yields_of_eval hev hx
    | neg => cases x <;> cases hcompute
  | .conditional l test x y, site, r, hspine, h => by
    obtain ⟨-, hbranches⟩ := hspine _ (List.mem_singleton.2 rfl)
    obtain ⟨hbool, c, hx, hy⟩ := hbranches l test x y rfl
    have hnegate : (Expr.conditional l test x y).negate site = .conditional ⟨site, l.ty⟩ test y x :=
      if_pos hbool
    rw [hnegate]
    obtain ⟨htest, hr⟩ | ⟨htest, hr⟩ := (yields_conditional_iff hev).1 h
    · obtain rfl := hx.bool_inj hr
      exact (yields_conditional_iff hev).2 (.inl ⟨htest, hy⟩)
    · have hc : (!c) = r := hy.bool_inj hr
      rw [← hc, Bool.not_not]
      exact (yields_conditional_iff hev).2 (.inr ⟨htest, hx⟩)
  | .constant l v, site, r, _, h => by
    obtain ⟨n, hn⟩ := h.atAll
    cases hn (.root 0)
    exact ⟨0, fun _ _ _ => ⟨_, rfl, rfl⟩⟩
  | .default l, site, r, _, h => by
    obtain ⟨n, hn⟩ := h.atAll
    obtain ⟨hbool, rfl⟩ := Ty.defaultValue_eq_bool (Outcome.ok.inj (hn (.root 0)))
    have hnegate : (Expr.default l).negate site = Expr.boolAt site true := if_pos hbool
    rw [hnegate]
    exact ⟨0, fun _ _ _ => ⟨_, rfl, rfl⟩⟩
  | .lambda l ps b, site, r, _, h => by
    obtain ⟨n, hn⟩ := h.atAll
    cases hn (.root 0)
  | .member l t m, site, r, hspine, h =>
    yields_negate_sealed rfl ((hspine _ (List.mem_singleton.2 rfl)).1 rfl) site h
  | .static l m, site, r, hspine, h =>
    yields_negate_sealed rfl ((hspine _ (List.mem_singleton.2 rfl)).1 rfl) site h
  | .call l t m as, site, r, hspine, h =>
    yields_negate_sealed rfl ((hspine _ (List.mem_singleton.2 rfl)).1 rfl) site h
  | .dynamic l binder as, site, r, hspine, h =>
    yields_negate_sealed rfl ((hspine _ (List.mem_singleton.2 rfl)).1 rfl) site h
  | .parameter l p, site, r, hspine, h =>
    yields_negate_sealed rfl ((hspine _ (List.mem_singleton.2 rfl)).1 rfl) site h

/-- Negation is logical negation. The hypotheses on the spine are those of `Invertible`, read off one
evaluation of each branch. -/
theorem eval_negate (hev : ev.Pure) {t : Expr}
    (hsealed : ∀ a ∈ t.spine, a.isSealed = true → a.isBool = true)
    (hbranches : ∀ l test x y, Expr.conditional l test x y ∈ t.spine → l.ty.isBool = true ∧
      ∃ c n s, ev.eval n s env x = .ok (.bool c) ∧ ev.eval n s env y = .ok (.bool !c))
    {n : Nat} {s : Site} {b : Bool} (h : ev.eval n s env t = .ok (.bool b)) (site : Site) :
    ∃ bound, ∀ m, bound ≤ m → ∀ q, ev.eval m q env (t.negate site) = .ok (.bool !b) := by
  refine yields_bool_iff.1 (yields_negate hev t site b (fun a ha => ?_) (yields_of_eval hev h))
  refine ⟨hsealed a ha, ?_⟩
  rintro l test x y rfl
  obtain ⟨hbool, c, m, q, hx, hy⟩ := hbranches l test x y ha
  exact ⟨hbool, c, yields_of_eval hev hx, yields_of_eval hev hy⟩

end Evaluator

namespace Spined

def subject : Param := ⟨.root 0, "x", .int⟩

def above (n : Int64) : Expr :=
  .binaryAt (.root 1) .gt (.parameterAt (.root 2) subject) (.intAt (.root 3) n)

/-- `x > 1 && (x > 3 ? true : false) || "".is_empty()` -/
def tree : Expr :=
  .binaryAt (.root 4) .or
    (.binaryAt (.root 5) .and (above 1)
      (.conditionalAt (.root 6) (above 3) (.boolAt (.root 7) true) (.boolAt (.root 8) false)))
    (.callAt (.root 9) (some (.constantAt (.root 10) (.str ""))) ⟨"string", "is_empty", []⟩ [] .bool)

end Spined

open Spined in
theorem eval_negate_spined :
    (∀ a ∈ tree.spine, a.isSealed = true → a.isBool = true) ∧
    Evaluator.eval { statics := [] } 0 (.root 11) [(subject, .int 2)] tree = .ok (.bool true) ∧
    ∃ bound, ∀ m, bound ≤ m → ∀ q,
      Evaluator.eval { statics := [] } m q [(subject, .int 2)] (tree.negate (.root 12)) =
        .ok (.bool false) := by
  have hsealed : ∀ a ∈ tree.spine, a.isSealed = true → a.isBool = true := by decide
  have h : Evaluator.eval { statics := [] } 0 (.root 11) [(subject, .int 2)] tree =
    .ok (.bool true) := by decide
  refine ⟨hsealed, h, Evaluator.eval_negate (Evaluator.pure_builtin []) hsealed ?_ h (.root 12)⟩
  intro l test x y hmem
  simp only [tree, Expr.spine, Expr.binaryAt, above, Expr.conditionalAt, Expr.callAt,
    List.cons_append, List.nil_append, List.mem_cons, List.not_mem_nil, or_false,
    Expr.conditional.injEq, reduceCtorEq, false_or] at hmem
  obtain ⟨rfl, -, rfl, rfl⟩ := hmem
  exact ⟨rfl, true, 0, .root 0, rfl, rfl⟩

end PredicateTree
