import PredicateTree.Document.Termination
import PredicateTree.Proofs.Document.Lowering

/-!
# Proofs.Document.Constants

The constants of a document, and the document as a whole.

* `Keeps`: more constants take nothing away from what lowering gives.
* `settled_induction`, `constant_induction`: what holds of every constant because each is lowered
  with others that were lowered before.
* `constant_eq_ok`: the value of a constant is the lowering of what is written for it, with the
  constants themselves to refer to. So the order in which they are worked out does not show.
* `lower_eq_ok`: the three parts of a lowered document.
-/

namespace PredicateTree

namespace Document

open Outcome (bind_eq_ok pure_eq_ok)

variable {α β : Type} {c c' : Constants} {site : Site}

/-! ## More constants -/

/-- What `x` gives, `y` gives. -/
def Keeps (x y : Outcome DocumentError α) : Prop := ∀ a, x = .ok a → y = .ok a

theorem Keeps.refl (x : Outcome DocumentError α) : Keeps x x := fun _ h => h

theorem Keeps.bind {x y : Outcome DocumentError α} {f g : α → Outcome DocumentError β}
    (h : Keeps x y) (hf : ∀ a, Keeps (f a) (g a)) : Keeps (x >>= f) (y >>= g) := by
  intro b hb
  obtain ⟨a, ha, hab⟩ := bind_eq_ok.1 hb
  exact bind_eq_ok.2 ⟨a, h a ha, hf a b hab⟩

mutual

theorem Node.lower_keeps (hc : ∀ name, Keeps (c name) (c' name)) :
    ∀ (n : Node) (scope : List Param) (site : Site),
      Keeps (Node.lower c scope site n) (Node.lower c' scope site n)
  | .lambda _ b, _, _ =>
    (Keeps.refl _).bind fun _ => (Node.lower_keeps hc b _ _).bind fun _ => .refl _
  | .param _, _, _ => .refl _
  | .literal d _, _, _ => (Datum.lower_keeps hc d _ _).bind fun _ => .refl _
  | .constant name, _, _ => (hc name).bind fun _ => .refl _
  | .member t _ _ _, _, _ =>
    (Keeps.refl _).bind fun _ => (Node.lowerOption_keeps hc t _ _).bind fun _ => .refl _
  | .call t _ _ as _ _, _, _ => by
    refine (Keeps.refl _).bind fun _ => (Node.lowerOption_keeps hc t _ _).bind fun _ => ?_
    split
    · exact .refl _
    · exact (Node.lowerList_keeps hc as _ _ _).bind fun _ => .refl _
  | .expand l as _, _, _ =>
    (Node.lower_keeps hc l _ _).bind fun _ =>
      (Node.lowerList_keeps hc as _ _ _).bind fun _ => .refl _
  | .binary _ a b, _, _ =>
    (Node.lower_keeps hc a _ _).bind fun _ => (Node.lower_keeps hc b _ _).bind fun _ => .refl _
  | .unary _ a, _, _ => (Node.lower_keeps hc a _ _).bind fun _ => .refl _
  | .conditional a b d, _, _ =>
    (Node.lower_keeps hc a _ _).bind fun _ => (Node.lower_keeps hc b _ _).bind fun _ =>
      (Node.lower_keeps hc d _ _).bind fun _ => .refl _
  | .default _, _, _ => .refl _
  | .dynamic _ as _, _, _ => (Node.lowerList_keeps hc as _ _ _).bind fun _ => .refl _

theorem Node.lowerOption_keeps (hc : ∀ name, Keeps (c name) (c' name)) :
    ∀ (t : Option Node) (scope : List Param) (site : Site),
      Keeps (Node.lowerOption c scope site t) (Node.lowerOption c' scope site t)
  | none, _, _ => .refl _
  | some n, _, _ => (Node.lower_keeps hc n _ _).bind fun _ => .refl _

theorem Node.lowerList_keeps (hc : ∀ name, Keeps (c name) (c' name)) :
    ∀ (ns : List Node) (scope : List Param) (site : Site) (i : Nat),
      Keeps (Node.lowerList c scope site i ns) (Node.lowerList c' scope site i ns)
  | [], _, _, _ => .refl _
  | n :: ns, _, _, _ =>
    (Node.lower_keeps hc n _ _).bind fun _ =>
      (Node.lowerList_keeps hc ns _ _ _).bind fun _ => .refl _

theorem Datum.lower_keeps (hc : ∀ name, Keeps (c name) (c' name)) :
    ∀ (d : Datum) (scope : List Param) (site : Site),
      Keeps (Datum.lower c scope site d) (Datum.lower c' scope site d)
  | .null, _, _ | .bool _, _, _ | .int _, _, _ | .unsigned _, _, _ | .float _, _, _
  | .str _, _, _ => .refl _
  | .object _ fs, _, _ => (Datum.lowerFields_keeps hc fs _ _ _).bind fun _ => .refl _
  | .node (.lambda _ b), _, _ =>
    (Keeps.refl _).bind fun _ => (Node.lower_keeps hc b _ _).bind fun _ => .refl _
  | .node (.constant name), _, _ => hc name
  | .node (.param _), _, _ | .node (.literal ..), _, _ | .node (.member ..), _, _
  | .node (.call ..), _, _ | .node (.expand ..), _, _ | .node (.binary ..), _, _
  | .node (.unary ..), _, _ | .node (.conditional ..), _, _ | .node (.default _), _, _
  | .node (.dynamic ..), _, _ => .refl _

theorem Datum.lowerFields_keeps (hc : ∀ name, Keeps (c name) (c' name)) :
    ∀ (fs : List (String × Datum)) (scope : List Param) (site : Site) (i : Nat),
      Keeps (Datum.lowerFields c scope site i fs) (Datum.lowerFields c' scope site i fs)
  | [], _, _, _ => .refl _
  | (_, d) :: fs, _, _, _ =>
    (Datum.lower_keeps hc d _ _).bind fun _ =>
      (Datum.lowerFields_keeps hc fs _ _ _).bind fun _ => .refl _

end

/-! ## Constants -/

/-- The constants of a table. -/
def inTable (known : Table Value) : Constants := fun name =>
  (known.get? name).elim (.error (.unknownConstant name)) .ok

@[simp] theorem inTable_eq_ok {known : Table Value} {name : String} {v : Value} :
    inTable known name = .ok v ↔ known.get? name = some v := by
  unfold inTable
  cases known.get? name with
  | none => simp
  | some w => simp

theorem inTable_put {known : Table Value} {name : String} (hnew : known.get? name = none)
    (v : Value) (other : String) :
    Keeps (inTable known other) (inTable (known.put name v) other) := by
  intro w hw
  rw [inTable_eq_ok] at hw ⊢
  have hne : other ≠ name := by
    rintro rfl
    rw [hnew] at hw
    cases hw
  rw [Table.get?_put_of_ne _ _ hne, hw]

section

variable {doc : Document} {site : Site}

/-- What holds of no constants, and still holds when one more is lowered with those there are, holds
of those that are worked out. -/
theorem settled_induction {P : Table Value → Prop} (hnil : P [])
    (hput : ∀ known name d v, P known → doc.constants.get? name = some d →
      known.get? name = none →
      Datum.lower (inTable known) [] (doc.constantSite site name) d = .ok v →
      P (known.put name v)) :
    P (doc.settled site) := by
  have hone : ∀ known, P known → ∀ name, P (doc.settleOne site known name) := by
    intro known hknown name
    unfold settleOne
    split
    · exact hknown
    · rename_i hnew
      dsimp only
      split
      · exact hknown
      · rename_i d hd
        split
        · rename_i v hv
          exact hput known name d v hknown hd (by simpa [Table.contains] using hnew) hv
        · exact hknown
        · exact hknown
  have hround : ∀ known, P known → P (doc.settleRound site known) := by
    intro known hknown
    unfold settleRound
    apply List.foldlRecOn
    · apply List.foldrRecOn
      · exact hknown
      · exact fun known hknown name _ => hone known hknown name
    · exact fun known hknown name _ => hone known hknown name
  have hrounds : ∀ n known, P known → P (doc.settleRounds site n known) := by
    intro n
    induction n with
    | zero => exact fun known hknown => hknown
    | succ n ih =>
      intro known hknown
      unfold settleRounds
      dsimp only
      split
      · exact hknown
      · exact ih _ (hround known hknown)
  exact hrounds _ _ hnil

theorem settled_eq_some {name : String} {v : Value} (h : (doc.settled site).get? name = some v) :
    ∃ d, doc.constants.get? name = some d ∧
      Datum.lower (inTable (doc.settled site)) [] (doc.constantSite site name) d = .ok v := by
  refine settled_induction (P := fun known => ∀ name v, known.get? name = some v →
    ∃ d, doc.constants.get? name = some d ∧
      Datum.lower (inTable known) [] (doc.constantSite site name) d = .ok v)
    (fun name v h => by cases h) ?_ name v h
  intro known name d v hknown hd hnew hv other w hw
  have hmore := inTable_put hnew v
  by_cases hother : other = name
  · subst hother
    rw [Table.get?_put_self, Option.some.injEq] at hw
    subst hw
    exact ⟨d, hd, Datum.lower_keeps hmore d _ _ v hv⟩
  · rw [Table.get?_put_of_ne _ _ hother] at hw
    obtain ⟨d', hd', hw'⟩ := hknown other w hw
    exact ⟨d', hd', Datum.lower_keeps hmore d' _ _ w hw'⟩

theorem constantWithin_succ {known : Table Value} {room : Nat} {pending : List String}
    {name : String} {v : Value}
    (h : doc.constantWithin site known (room + 1) pending name = .ok v) :
    known.get? name = some v ∨
      ∃ d, known.get? name = none ∧ doc.constants.get? name = some d ∧ name ∉ pending ∧
        Datum.lower (doc.constantWithin site known room (name :: pending)) []
          (doc.constantSite site name) d = .ok v := by
  unfold constantWithin at h
  split at h
  · rename_i w hw
    cases h
    exact .inl hw
  · rename_i hnone
    split at h
    · cases h
    · rename_i d hd
      split at h
      · cases h
      · rename_i hpending
        exact .inr ⟨d, hnone, hd, by simpa using hpending, h⟩

/-- A constant that can be worked out can be with more room and with fewer others open. -/
theorem constantWithin_keeps {known : Table Value} {room : Nat} :
    ∀ {room' : Nat} {pending pending' : List String}, room ≤ room' → pending' ⊆ pending →
      ∀ name, Keeps (doc.constantWithin site known room pending name)
        (doc.constantWithin site known room' pending' name) := by
  induction room with
  | zero =>
    intro room' pending pending' _ _ name v h
    cases h
  | succ room ih =>
    intro room' pending pending' hroom hpending name v h
    obtain ⟨room', rfl⟩ : ∃ m, room' = m + 1 := ⟨room' - 1, by omega⟩
    unfold constantWithin
    obtain hv | ⟨d, hnone, hd, hname, hv⟩ := constantWithin_succ h
    · rw [hv]
    · have hname' : name ∉ pending' := fun hmem => hname (hpending hmem)
      have hmore := ih (Nat.le_of_succ_le_succ hroom) (List.cons_subset_cons name hpending)
      simp only [hnone, hd, List.contains_iff_mem, hname', if_false]
      exact Datum.lower_keeps hmore d _ _ v hv

theorem constant_eq_ok {name : String} {v : Value}
    (h : doc.constant site (doc.settled site) name = .ok v) :
    ∃ d, doc.constants.get? name = some d ∧
      Datum.lower (doc.constant site (doc.settled site)) [] (doc.constantSite site name) d =
        .ok v := by
  obtain hv | ⟨d, -, hd, -, hv⟩ := constantWithin_succ h
  · obtain ⟨d, hd, hv⟩ := settled_eq_some hv
    refine ⟨d, hd, Datum.lower_keeps (fun other w hw => ?_) d _ _ v hv⟩
    rw [inTable_eq_ok] at hw
    unfold constant constantWithin
    rw [hw]
  · have hmore : ∀ other, Keeps
        (doc.constantWithin site (doc.settled site) doc.constants.length [name] other)
        (doc.constant site (doc.settled site) other) :=
      constantWithin_keeps (Nat.le_succ _) (List.nil_subset _)
    exact ⟨d, hd, Datum.lower_keeps hmore d _ _ v hv⟩

/-- What holds of every value that is lowered with constants of which it holds, holds of every
constant. -/
theorem constant_induction {P : String → Value → Prop}
    (hP : ∀ (c : Constants) name d v, (∀ other w, c other = .ok w → P other w) →
      doc.constants.get? name = some d → Datum.lower c [] (doc.constantSite site name) d = .ok v →
      P name v)
    {name : String} {v : Value} (h : doc.constant site (doc.settled site) name = .ok v) :
    P name v := by
  have hknown : ∀ name v, (doc.settled site).get? name = some v → P name v := by
    refine settled_induction (P := fun known => ∀ name v, known.get? name = some v → P name v)
      (fun name v h => by cases h) ?_
    intro known name d v hknown hd _ hv other w hw
    by_cases hother : other = name
    · subst hother
      rw [Table.get?_put_self, Option.some.injEq] at hw
      subst hw
      exact hP _ other d v (fun _ _ hw => hknown _ _ (inTable_eq_ok.1 hw)) hd hv
    · rw [Table.get?_put_of_ne _ _ hother] at hw
      exact hknown other w hw
  have hwithin : ∀ room pending name v,
      doc.constantWithin site (doc.settled site) room pending name = .ok v → P name v := by
    intro room
    induction room with
    | zero =>
      intro pending name v h
      cases h
    | succ room ih =>
      intro pending name v h
      obtain hv | ⟨d, -, hd, -, hv⟩ := constantWithin_succ h
      · exact hknown name v hv
      · exact hP _ name d v (ih (name :: pending)) hd hv
  exact hwithin _ _ name v h

end

/-! ## Documents -/

theorem lowerConstants_get? {cs : Table Datum} :
    ∀ {vs : Table Value}, lowerConstants c cs = .ok vs → ∀ {name : String} {d : Datum},
      cs.get? name = some d → ∃ v, c name = .ok v ∧ vs.get? name = some v := by
  induction cs with
  | nil =>
    intro vs h name d hd
    cases hd
  | cons e cs ih =>
    intro vs h name d hd
    obtain ⟨k, d'⟩ := e
    simp only [lowerConstants, bind_eq_ok, pure_eq_ok] at h
    obtain ⟨v, hv, vs', hvs, rfl⟩ := h
    simp only [Table.get?, List.lookup_cons] at hd ⊢
    cases hk : name == k with
    | true =>
      obtain rfl := beq_iff_eq.1 hk
      exact ⟨v, hv, rfl⟩
    | false =>
      rw [hk] at hd
      exact ih hvs hd

theorem lowerStatics_tables {ts : Table (Table Datum)} :
    ∀ {i : Nat} {us : Table (Table Value)}, lowerStatics c site i ts = .ok us →
      List.Forall₂ (fun t u => Datum.lowerFields c [] (site.child t.2) 0 t.1.2 = .ok u.2)
        (ts.zipIdx i) us := by
  induction ts with
  | nil =>
    intro i us h
    cases h
    exact .nil
  | cons t ts ih =>
    intro i us h
    simp only [lowerStatics, bind_eq_ok, pure_eq_ok] at h
    obtain ⟨vs, hvs, us', hus, rfl⟩ := h
    exact .cons hvs (ih hus)

theorem lower_eq_ok {doc : Document} {low : Lowered} (h : doc.lower site = .ok low) :
    lowerConstants (doc.constant site (doc.settled site)) doc.constants = .ok low.constants ∧
    lowerStatics (doc.constant site (doc.settled site)) (site.child 1) 0 doc.statics =
      .ok low.statics ∧
    Datum.lower (doc.constant site (doc.settled site)) [] (site.child 2) (.node doc.predicate) =
      .ok low.predicate.toValue := by
  simp only [lower, Outcome.toExcept_eq_ok, lowerWithin, bind_eq_ok] at h
  obtain ⟨constants, hconstants, statics, hstatics, h⟩ := h
  split at h
  · rename_i ds b hpredicate
    simp only [bind_eq_ok, pure_eq_ok] at h
    obtain ⟨ps, hps, body, hbody, rfl⟩ := h
    refine ⟨hconstants, hstatics, ?_⟩
    rw [hpredicate, Datum.lower]
    simp only [List.append_nil, bind_eq_ok]
    exact ⟨ps, hps, body, hbody, rfl⟩
  · cases h

end Document

end PredicateTree
