import PredicateTree.Evaluator

/-!
# Proofs.Evaluator.Chains

Chains of members. The expander takes a chain from a tree as a root and a row of names, which are
read one after the other; the evaluator follows the tree and reads a name at every link.

* `Expr.innermost`: where one gets from target to target through member accesses.
* `Expr.isRoot`: what a chain may start at.
* `Expr.chain_cases`: there is a chain exactly if the innermost target is a root.
* `Evaluator.node_of_chain`: the value of a tree that spells a chain is what the chain leads to.
* `memberChain_reads`: expander and evaluator read chains alike.
-/

namespace PredicateTree

namespace Expr

def isMember : Expr → Bool
  | .member .. | .static .. => true
  | _ => false

def innermost : Expr → Expr
  | .member _ t _ => t.innermost
  | e => e

def isRoot : Expr → Bool
  | .static .. | .constant .. => true
  | _ => false

theorem chain_cases : ∀ e : Expr,
    (e.innermost.isRoot = true ∧ ∃ c, e.chain = .ok c) ∨
      (e.innermost.isRoot = false ∧ e.chain = .error e.innermost)
  | .member l t r => by
    rw [chain_member, innermost]
    obtain ⟨hroot, c, hc⟩ | ⟨hroot, hc⟩ := chain_cases t
    · exact .inl ⟨hroot, c.extend [r.name], by rw [hc]; rfl⟩
    · exact .inr ⟨hroot, by rw [hc]; rfl⟩
  | .static .. | .constant .. => .inl ⟨rfl, _, rfl⟩
  | .binary .. | .unary .. | .call .. | .parameter .. | .conditional .. | .default _ | .dynamic ..
  | .lambda .. => .inr ⟨rfl, rfl⟩

theorem memberChain_eq_none_iff (e : Expr) : e.memberChain = none ↔ e.isMember = false := by
  cases e <;> simp [memberChain, isMember]

theorem memberChain_eq_some_iff {e : Expr} {chain : Except Expr MemberChain} :
    e.memberChain = some chain ↔ e.isMember = true ∧ e.chain = chain := by
  cases e <;> simp [memberChain, isMember]

end Expr

/-! ## Text -/

/-- Further steps are written after a dot, if the chain has a first step or starts at a value. -/
theorem MemberChain.text_extend {c : MemberChain} (h : c.members = [] → ∃ v, c.root = .constant v)
    (m : String) : (c.extend [m]).text = c.text ++ "." ++ m := by
  have hdotted : ∀ ms, dotted (ms ++ [m]) = dotted ms ++ "." ++ m := by
    intro ms
    simp [dotted, String.join_append, String.append_assoc]
  obtain ⟨root, members⟩ := c
  cases root with
  | constant v => simp [text, extend, hdotted, String.append_assoc]
  | static t =>
    cases members with
    | nil =>
      obtain ⟨v, hv⟩ := h rfl
      cases hv
    | cons k ms => simp [text, extend, hdotted, String.append_assoc]

theorem Expr.text_of_chain : ∀ {e : Expr} {c : MemberChain}, e.chain = .ok c →
    c.text = e.text ∧ (c.members = [] → ∃ v, c.root = .constant v)
  | .member l t r, c, h => by
    rw [chain_member] at h
    cases ht : t.chain with
    | error a => rw [ht] at h; cases h
    | ok d =>
      rw [ht] at h
      cases h
      obtain ⟨htext, hmembers⟩ := text_of_chain ht
      refine ⟨?_, fun hnil => by simp [MemberChain.extend] at hnil⟩
      rw [MemberChain.text_extend hmembers, htext, text]
  | .static l r, c, h => by
    cases h
    exact ⟨by simp [MemberChain.text, MemberChain.dotted, text], fun hnil => by cases hnil⟩
  | .constant l v, c, h => by
    cases h
    exact ⟨by simp [MemberChain.text, MemberChain.dotted, text], fun _ => ⟨v, rfl⟩⟩

/-! ## Values -/

theorem Value.readMembers_concat (v : Value) (ms : List String) (m : String) :
    v.readMembers (ms ++ [m]) = v.readMembers ms >>= fun w => w.readMember m := by
  induction ms generalizing v with
  | nil =>
    simp only [List.nil_append, readMembers]
    change _ = v.readMember m
    cases v.readMember m <;> rfl
  | cons k ms ih =>
    simp only [List.cons_append, readMembers]
    cases v.readMember k with
    | error e => rfl
    | ok w => exact ih w

theorem Statics.read_extend (s : Statics) (c : MemberChain) (m : String) :
    s.read (c.extend [m]) = s.read c >>= fun w => w.readMember m := by
  obtain ⟨root, ms⟩ := c
  cases root with
  | constant v => exact v.readMembers_concat ms m
  | static t =>
    simp only [read, MemberChain.extend]
    cases s.holder t with
    | error e => rfl
    | ok v => exact v.readMembers_concat ms m

theorem Evaluator.node_of_chain {ev : Evaluator} {a : Site → Apply} {η : Env} :
    ∀ {e : Expr} {c : MemberChain} (s : Site), e.chain = .ok c →
      ev.node a η s e = ofMember (ev.statics.read c)
  | .member l t r, c, s, h => by
    rw [Expr.chain_member] at h
    cases ht : t.chain with
    | error e => rw [ht] at h; cases h
    | ok d =>
      rw [ht] at h
      cases h
      rw [Statics.read_extend]
      simp only [node, node_of_chain (s.child 0) ht]
      cases ev.statics.read d <;> rfl
  | .static l r, c, s, h => by
    cases h
    simp only [node, Statics.read]
    cases ev.statics.holder r.declaringType with
    | error e => rfl
    | ok v => exact congrArg ofMember (v.readMembers_concat [] r.name).symm
  | .constant l v, c, s, h => by
    cases h
    rfl

/-- A tree spells a chain exactly if it is a member access and its innermost target is a static member
or a constant. Then it is printed as the chain is, and it evaluates to what the chain leads to, or
fails as reading the chain does. From any other member access no chain can be taken, because of its
innermost target. -/
theorem memberChain_reads (e : Expr) :
    (e.memberChain = none ↔ e.isMember = false) ∧
    ((∃ c, e.memberChain = some (.ok c)) ↔ e.isMember = true ∧ e.innermost.isRoot = true) ∧
    (∀ c, e.memberChain = some (.ok c) → c.text = e.text ∧
      ∀ (ev : Evaluator) (fuel : Nat) (site : Site) (env : Env),
        ev.eval fuel site env e = Evaluator.ofMember (ev.statics.read c)) ∧
    ∀ a, e.memberChain = some (.error a) ↔
      e.isMember = true ∧ e.innermost.isRoot = false ∧ a = e.innermost := by
  refine ⟨e.memberChain_eq_none_iff, ?_, fun c hc => ?_, fun a => ?_⟩
  · simp only [Expr.memberChain_eq_some_iff, exists_and_left]
    refine and_congr_right fun _ => ?_
    obtain ⟨hroot, hc⟩ | ⟨hroot, hc⟩ := e.chain_cases
    · exact iff_of_true hc hroot
    · rw [hc, hroot]
      exact iff_of_false (fun ⟨c, h⟩ => by cases h) (by decide)
  · obtain ⟨-, hchain⟩ := Expr.memberChain_eq_some_iff.1 hc
    exact ⟨(Expr.text_of_chain hchain).1, fun ev _ site _ => Evaluator.node_of_chain site hchain⟩
  · rw [Expr.memberChain_eq_some_iff]
    refine and_congr_right fun _ => ?_
    obtain ⟨hroot, c, hc⟩ | ⟨hroot, hc⟩ := e.chain_cases
    · rw [hc, hroot]
      exact iff_of_false (fun h => by cases h) (fun ⟨h, _⟩ => by cases h)
    · rw [hc, hroot, Except.error.injEq]
      exact ⟨fun h => ⟨rfl, h.symm⟩, fun h => h.2.symm⟩

/-! ## A chain that breaks off in its last link -/

namespace Links

/-- `R::limits` is an object with the member `age`. -/
def evaluator : Evaluator where
  statics := [("R", [("limits", .object "Limits" [("age", .int 18)])])]

/-- `R::limits.age.unit` -/
def tree : Expr :=
  .memberAt (.root 0) (.memberAt (.root 1) (.staticAt (.root 2) "R" "limits" (.named "Limits"))
    "age" .int) "unit" .string

end Links

open Links in
theorem memberChain_reads_linked :
    tree.memberChain = some (.ok ⟨.static "R", ["limits", "age", "unit"]⟩) ∧
      tree.text = "R::limits.age.unit" ∧
      ∀ fuel site env,
        evaluator.eval fuel site env tree = .error (.member (.notAnObject "int" "unit")) := by
  have hchain : tree.memberChain = some (.ok ⟨.static "R", ["limits", "age", "unit"]⟩) := rfl
  obtain ⟨htext, heval⟩ := (memberChain_reads tree).2.2.1 _ hchain
  exact ⟨hchain, htext.symm, heval evaluator⟩

end PredicateTree
