import PredicateTree.Proofs.Evaluator.Likeness
import PredicateTree.Proofs.Expr.Closed

/-!
# Proofs.Evaluator.Safety

Closed trees never ask for a variable that is not bound.

* `Outcome.Safe P x`: `x` does not end with an unbound variable, and with a value only if the value
  has the property `P`. This is kept by `>>=`.
* `Evaluator.Sealed`: the static members are closed values, and the host functions are safe when
  they are given closed values and safe calls.
* `node_safe`: one tree, as long as its calls are safe. `apply_safe`: by induction on the fuel, all
  calls of closed lambdas are.
-/

namespace PredicateTree

def EvalError.isUnbound : EvalError → Bool
  | .unboundParameter _ => true
  | _ => false

namespace Outcome

variable {α β : Type} {P : α → Prop} {Q : β → Prop}

def Safe (P : α → Prop) : Outcome EvalError α → Prop
  | .ok a => P a
  | .error e => e.isUnbound = false
  | .unfinished => True

theorem Safe.bind {x : Outcome EvalError α} {f : α → Outcome EvalError β} (h : x.Safe P)
    (hf : ∀ a, P a → (f a).Safe Q) : (x >>= f).Safe Q := by
  cases x with
  | ok a => exact hf a h
  | error e => exact h
  | unfinished => trivial

theorem Safe.map {x : Except EvalError α} {f : α → β}
    (h : (ofExcept x).Safe fun _ => True) (hf : ∀ a, Q (f a)) : (ofExcept (x.map f)).Safe Q := by
  cases x with
  | ok a => exact hf a
  | error e => exact h

theorem Safe.ne_unbound {x : Outcome EvalError α} (h : x.Safe P) (name : String) :
    x ≠ .error (.unboundParameter name) := by
  rintro rfl
  cases h

end Outcome

/-! ## Operators and members -/

namespace Value

theorem safe_expectBool (v : Value) : (Outcome.ofExcept v.expectBool).Safe fun _ => True := by
  cases v <;> trivial

theorem safe_order (v w : Value) : (Outcome.ofExcept (v.order w)).Safe fun _ => True := by
  unfold order
  split
  · trivial
  · trivial
  · split
    · split <;> trivial
    · trivial

theorem safe_divided (f : Int64 → Int64 → Int64) (m n : Int64) :
    (Outcome.ofExcept (divided f m n)).Safe fun _ => True := by
  unfold divided
  split <;> trivial

theorem safe_arithmetic {onInt : Int64 → Int64 → Except EvalError Int64}
    (h : ∀ m n, (Outcome.ofExcept (onInt m n)).Safe fun _ => True)
    (onFloat : Binary64 → Binary64 → Binary64) (v w : Value) :
    (Outcome.ofExcept (v.arithmetic onInt onFloat w)).Safe Value.Closed := by
  unfold arithmetic
  split
  · exact .map (h _ _) fun _ => trivial
  · split <;> trivial

end Value

theorem BinaryOp.safe_compute (op : BinaryOp) (v w : Value) :
    (Outcome.ofExcept (op.compute v w)).Safe Value.Closed := by
  cases op with
  | add => cases v <;> cases w <;> trivial
  | sub | mul =>
    apply Value.safe_arithmetic
    exact fun _ _ => trivial
  | div | rem => exact Value.safe_arithmetic (Value.safe_divided _) _ v w
  | eq | ne => trivial
  | lt | le | gt | ge => exact .map (v.safe_order w) fun _ => trivial
  | and | or =>
    cases v with
    | bool a => exact .map w.safe_expectBool fun _ => trivial
    | _ => trivial

theorem UnaryOp.safe_compute (op : UnaryOp) (v : Value) :
    (Outcome.ofExcept (op.compute v)).Safe Value.Closed := by
  cases op with
  | not | isTrue | isFalse => exact .map v.safe_expectBool fun _ => trivial
  | neg => cases v <;> trivial

theorem Value.Closed.readMember {v w : Value} (hv : v.Closed) {name : String}
    (h : v.readMember name = .ok w) : w.Closed := by
  cases v with
  | object k fs =>
    have hfs := (Value.closedFields_iff fs).1 hv
    unfold Value.readMember at h
    split at h
    · rename_i k' fs' hobject
      cases hobject
      split at h
      · rename_i u hu
        cases h
        exact hfs _ (mem_of_lookup hu)
      · cases h
    · rename_i hother
      exact absurd rfl (hother k fs)
  | _ => cases h

def Statics.Closed (s : Statics) : Prop := ∀ t ∈ s, ∀ m ∈ t.2, m.2.Closed

theorem Statics.Closed.holder {s : Statics} (hs : s.Closed) {k : String} {v : Value}
    (h : s.holder k = .ok v) : v.Closed := by
  unfold Statics.holder Statics.holder? at h
  cases hk : s.get? k with
  | none =>
    rw [hk] at h
    cases h
  | some members =>
    rw [hk] at h
    cases h
    exact (Value.closedFields_iff members).2 (hs _ (mem_of_lookup hk))

theorem Statics.Closed.register {s : Statics} (hs : s.Closed) (k name : String) {v : Value}
    (hv : v.Closed) : (s.register k name v).Closed := by
  intro t ht m hm
  rcases Table.mem_put ht with rfl | ht
  · rcases Table.mem_put hm with rfl | hm
    · exact hv
    · cases hk : s.get? k with
      | none =>
        rw [hk] at hm
        cases hm
      | some members =>
        rw [hk] at hm
        exact hs _ (mem_of_lookup hk) m hm
  · exact hs t ht m hm

theorem Statics.Closed.ofTables {types : Table (Table Value)}
    (h : ∀ t ∈ types, ∀ m ∈ t.2, m.2.Closed) : (Statics.ofTables types).Closed := by
  unfold Statics.ofTables
  refine List.foldlRecOn (motive := Statics.Closed) types _ (fun t ht => by cases ht) ?_
  intro s hs t ht
  refine List.foldlRecOn (motive := Statics.Closed) t.2 _ hs ?_
  intro s hs m hm
  exact hs.register t.1 m.1 (h t ht m hm)

theorem Evaluator.safe_ofMember {x : Except MemberError Value} (h : ∀ v, x = .ok v → v.Closed) :
    (Evaluator.ofMember x).Safe Value.Closed := by
  cases x with
  | ok v => exact h v rfl
  | error e => rfl

theorem Ty.closed_defaultValue (t : Ty) : t.defaultValue.Closed := by cases t <;> trivial

/-! ## Environments -/

/-- Closed values for all variables of `Γ`. -/
structure Env.Covers (env : Env) (Γ : List Param) : Prop where
  bound : ∀ p ∈ Γ, ∃ v, List.lookup p env = some v
  closed : ∀ p v, List.lookup p env = some v → v.Closed

namespace Env.Covers

variable {env : Env} {Γ : List Param}

theorem fills (h : env.Covers Γ) (ps : List Param) : Fills env.consts (ps ++ Γ) ps where
  closed p a ha := by
    obtain ⟨v, hv, rfl⟩ := Option.map_eq_some_iff.1 ha
    exact v.closed_bare.2 (h.closed p v hv)
  rest p hp hnone := by
    rcases List.mem_append.1 hp with hp | hp
    · exact hp
    · obtain ⟨v, hv⟩ := h.bound p hp
      simp [Env.consts, hv] at hnone

/-- A nested lambda takes along all that it refers to outside. -/
theorem closed_close (h : env.Covers Γ) {l : Lambda} (hl : l.body.Closed (l.params ++ Γ))
    (site : Site) : (l.close site env).Closed := by
  have hbody : (l.close site env).body.bare.Closed l.params := by
    rw [Env.bare_close]
    exact Expr.closed_fill _ (h.fills l.params) hl
  exact (Expr.closed_bare _ _).1 hbody

theorem of_call {ps : List Param} {vs : List Value} (hlen : ps.length = vs.length)
    (hvs : ∀ v ∈ vs, v.Closed) : (Env.extend [] (ps.zip vs)).Covers ps where
  bound p hp := by
    rw [← List.map_fst_zip (Nat.le_of_eq hlen)] at hp
    obtain ⟨⟨q, v⟩, hmem, rfl⟩ := List.mem_map.1 hp
    have hmem' : (q, v) ∈ Env.extend [] (ps.zip vs) := by simpa [Env.extend] using hmem
    exact exists_lookup_of_mem hmem'
  closed p v hv := by
    have hmem : (p, v) ∈ Env.extend [] (ps.zip vs) := mem_of_lookup hv
    have hmem' : (p, v) ∈ ps.zip vs := by simpa [Env.extend] using hmem
    exact hvs v (List.of_mem_zip hmem').2

end Env.Covers

/-! ## Evaluation -/

def Apply.Safe (a : Apply) : Prop :=
  ∀ (l : Lambda) (vs : List Value), l.Closed → (∀ v ∈ vs, v.Closed) → (a l vs).Safe Value.Closed

def HostFn.Safe (f : HostFn) : Prop :=
  ∀ (a : Apply) (vs : List Value), Apply.Safe a → (∀ v ∈ vs, v.Closed) →
    (f a vs).Safe Value.Closed

structure Evaluator.Sealed (ev : Evaluator) : Prop where
  statics : ev.statics.Closed
  methods : ∀ m f, ev.method? m = some f → HostFn.Safe f
  binders : ∀ name f, ev.binder? name = some f → HostFn.Safe f

namespace Evaluator

variable {ev : Evaluator} {apply : Site → Apply} {env : Env} {Γ : List Param}

mutual

theorem node_safe (hev : ev.Sealed) (happly : ∀ s, Apply.Safe (apply s)) (henv : env.Covers Γ) :
    ∀ (e : Expr) (s : Site), e.Closed Γ → (ev.node apply env s e).Safe Value.Closed
  | .binary l o a b, s, he => by
    have ha := node_safe hev happly henv a (s.child 0) he.1
    have hb := node_safe hev happly henv b (s.child 1) he.2
    cases o with
    | and =>
      simp only [node]
      refine ha.bind fun v _ => v.safe_expectBool.bind fun c _ => ?_
      cases c with
      | true => exact hb.bind fun w _ => w.safe_expectBool.bind fun _ _ => trivial
      | false => trivial
    | or =>
      simp only [node]
      refine ha.bind fun v _ => v.safe_expectBool.bind fun c _ => ?_
      cases c with
      | true => trivial
      | false => exact hb.bind fun w _ => w.safe_expectBool.bind fun _ _ => trivial
    | _ =>
      simp only [node]
      exact ha.bind fun v _ => hb.bind fun w _ => BinaryOp.safe_compute _ v w
  | .unary l o a, s, he => by
    have ha := node_safe hev happly henv a (s.child 0) he
    exact ha.bind fun v _ => UnaryOp.safe_compute _ v
  | .member l t r, s, he => by
    have ht := node_safe hev happly henv t (s.child 0) he
    exact ht.bind fun v hv => safe_ofMember fun w hw => hv.readMember hw
  | .static l r, s, _ => by
    refine safe_ofMember fun w hw => ?_
    cases hholder : ev.statics.holder r.declaringType with
    | error e =>
      rw [hholder] at hw
      cases hw
    | ok v =>
      rw [hholder] at hw
      exact (hev.statics.holder hholder).readMember hw
  | .call l t m as, s, he => by
    cases hm : m.isExpandable with
    | true =>
      cases as with
      | nil =>
        simp only [node, hm, if_true]
        rfl
      | cons callee as =>
        have hcallee := node_safe hev happly henv callee (s.child 1) he.2.1
        have has := list_safe hev happly henv as s 2 he.2.2
        rw [node_expandable hm]
        refine hcallee.bind fun f hf => ?_
        cases hl : f.asLambda? with
        | none => rfl
        | some k => exact has.bind fun vs hvs => happly _ k vs (hf.asLambda? hl) hvs
    | false =>
      have ht := optional_safe hev happly henv t (s.child 1) he.1
      have has := list_safe hev happly henv as s 2 he.2
      rw [node_method hm]
      cases hf : ev.method? m with
      | none => rfl
      | some f =>
        refine ht.bind fun vs hvs => has.bind fun ws hws => ?_
        refine hev.methods m f hf _ _ (happly _) fun v hv => ?_
        rcases List.mem_append.1 hv with hv | hv
        · exact hvs v hv
        · exact hws v hv
  | .constant l v, s, he => he
  | .parameter l p, s, he => by
    obtain ⟨v, hv⟩ := henv.bound p he
    simp only [node, Env.lookup, hv]
    exact henv.closed p v hv
  | .conditional l t a b, s, he => by
    have ht := node_safe hev happly henv t (s.child 0) he.1
    have ha := node_safe hev happly henv a (s.child 1) he.2.1
    have hb := node_safe hev happly henv b (s.child 2) he.2.2
    simp only [node]
    refine ht.bind fun v _ => v.safe_expectBool.bind fun c _ => ?_
    cases c with
    | true => exact ha
    | false => exact hb
  | .default l, s, _ => l.ty.closed_defaultValue
  | .dynamic l binder as, s, he => by
    have has := list_safe hev happly henv as s 1 he
    simp only [node]
    cases hf : ev.binder? binder with
    | none => rfl
    | some f => exact has.bind fun vs hvs => hev.binders binder f hf _ vs (happly _) hvs
  | .lambda l ps b, s, he => henv.closed_close (l := ⟨ps, b⟩) he s

theorem optional_safe (hev : ev.Sealed) (happly : ∀ s, Apply.Safe (apply s))
    (henv : env.Covers Γ) :
    ∀ (t : Option Expr) (s : Site), Expr.ClosedOption Γ t →
      (ev.optional apply env s t).Safe fun vs => ∀ v ∈ vs, v.Closed
  | none, s, _ => by
    intro v hv
    cases hv
  | some a, s, ha => by
    have ha := node_safe hev happly henv a s ha
    refine ha.bind fun v hv w hw => ?_
    obtain rfl := List.mem_singleton.1 hw
    exact hv

theorem list_safe (hev : ev.Sealed) (happly : ∀ s, Apply.Safe (apply s)) (henv : env.Covers Γ) :
    ∀ (as : List Expr) (s : Site) (i : Nat), Expr.ClosedList Γ as →
      (ev.list apply env s i as).Safe fun vs => ∀ v ∈ vs, v.Closed
  | [], s, i, _ => by
    intro v hv
    cases hv
  | a :: as, s, i, h => by
    have ha := node_safe hev happly henv a (s.child i) h.1
    have has := list_safe hev happly henv as s (i + 1) h.2
    refine ha.bind fun v hv => has.bind fun vs hvs w hw => ?_
    rcases List.mem_cons.1 hw with rfl | hw
    · exact hv
    · exact hvs w hw

end

theorem apply_safe (hev : ev.Sealed) : ∀ (fuel : Nat) (s : Site), Apply.Safe (ev.apply fuel s) := by
  intro fuel
  induction fuel with
  | zero =>
    intro s l vs _ _
    trivial
  | succ fuel ih =>
    intro s l vs hl hvs
    rw [apply]
    split
    · rfl
    · rename_i hlen
      exact node_safe hev ih (.of_call (not_not.1 hlen) hvs) l.body s hl

/-! ## The built-in methods -/

theorem safe_onString {f : String → Value} (hf : ∀ s, (f s).Closed) :
    HostFn.Safe (Methods.onString f) := by
  intro a vs _ _
  unfold Methods.onString
  split
  · exact hf _
  · rfl
  · rfl

theorem safe_onStrings {f : String → String → Value} (hf : ∀ s t, (f s t).Closed) :
    HostFn.Safe (Methods.onStrings f) := by
  intro a vs _ _
  unfold Methods.onStrings
  split
  · exact hf _ _
  · rfl
  · rfl
  · rfl

theorem safe_abs : HostFn.Safe Methods.abs := by
  intro a vs _ _
  unfold Methods.abs
  split
  · trivial
  · rfl
  · rfl

theorem sealed_builtin {statics : Statics} (hstatics : statics.Closed) :
    Evaluator.Sealed { statics } where
  statics := hstatics
  methods := builtin_induction (fun _ => safe_onStrings fun _ _ => trivial)
    (fun _ => safe_onString fun _ => trivial) (fun _ => safe_onString fun _ => trivial)
    (fun _ => safe_onString fun _ => trivial) safe_abs
  binders name f h := by cases h

end Evaluator

end PredicateTree
