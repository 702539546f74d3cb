import Mathlib.Logic.Relation
import PredicateTree.Proofs.Document.References

/-!
# Proofs.Document.Cycles

Constants that mention each other.

The value of a constant is worked out along the references in it, and the constants in `pending` are
those that are open: each of them leads to the one that is worked out now. So one that is met again
lies on a cycle.

* `Mentions`: the graph of references.
* `constantWithin_agree`: where there is room, more room or a table of values known before changes
  nothing.
* `cycle_of_constantWithin`, `constantWithin_cyclic`: which errors there are.
* `lower_finds_cycles`: the room is never used up, and lowering finds the cycles.
-/

namespace PredicateTree

namespace Document

open Relation

open Outcome (bind_eq_ok pure_eq_ok)

variable {doc : Document} {site : Site} {known known' : Table Value} {pending : List String}
  {room room' : Nat} {name : String}

/-- What is written for the constant `a` mentions `b`. -/
def Mentions (doc : Document) (a b : String) : Prop :=
  ∃ d, doc.constants.get? a = some d ∧ b ∈ d.mentions

theorem contains_of_mem_names {t : Table Datum} (h : name ∈ t.names) : t.contains name = true := by
  obtain ⟨⟨k, d⟩, hmem, rfl⟩ := List.mem_map.1 h
  obtain ⟨d', hd'⟩ := exists_lookup_of_mem hmem
  rw [Table.contains, Table.get?, hd']
  rfl

/-- The three ways in which a constant has no value. -/
theorem constantWithin_error {e : DocumentError}
    (h : doc.constantWithin site known (room + 1) pending name = .error e) :
    (doc.constants.get? name = none ∧ e = .unknownConstant name) ∨
    (name ∈ pending ∧ e = .cyclicConstant name) ∨
    ∃ d, known.get? name = none ∧ doc.constants.get? name = some d ∧ name ∉ pending ∧
      Datum.lower (doc.constantWithin site known room (name :: pending)) []
        (doc.constantSite site name) d = .error e := by
  unfold constantWithin at h
  split at h
  · cases h
  · rename_i hnew
    split at h
    · rename_i hnone
      cases h
      exact .inl ⟨hnone, rfl⟩
    · rename_i d hd
      split at h
      · rename_i hpending
        cases h
        exact .inr (.inl ⟨by simpa using hpending, rfl⟩)
      · rename_i hpending
        exact .inr (.inr ⟨d, hnew, hd, by simpa using hpending, h⟩)

/-! ## Room and known values -/

/-- Two runs with enough room agree, if the first one works out what the second one knows. -/
theorem constantWithin_agree
    (hknown : ∀ name v room pending, known'.get? name = some v → Open doc known' pending room →
      doc.constantWithin site known room pending name = .ok v)
    (hsub : ∀ name, known'.get? name = none → known.get? name = none) :
    Open doc known' pending room → Open doc known' pending room' →
      doc.constantWithin site known room pending name =
        doc.constantWithin site known' room' pending name := by
  intro h h'
  induction room generalizing room' pending name with
  | zero =>
    obtain ⟨m, hm⟩ := h.exists_succ
    cases hm
  | succ room ih =>
    obtain ⟨room', rfl⟩ := h'.exists_succ
    cases hv : known'.get? name with
    | some v =>
      rw [hknown name v _ _ hv h]
      unfold constantWithin
      rw [hv]
    | none =>
      unfold constantWithin
      rw [hv, hsub name hv]
      dsimp only
      split
      · rfl
      · rename_i d hd
        split
        · rfl
        · rename_i hpending
          have hname : name ∉ pending := by simpa using hpending
          have hinner : doc.constantWithin site known room (name :: pending) =
              doc.constantWithin site known' room' (name :: pending) :=
            funext fun _ => ih (h.enter hd hname hv) (h'.enter hd hname hv)
          rw [hinner]

/-- More room changes nothing. -/
theorem constantWithin_room (h : Open doc known pending room) (h' : Open doc known pending room') :
    doc.constantWithin site known room pending name =
      doc.constantWithin site known room' pending name := by
  refine constantWithin_agree (fun name v room pending hv hopen => ?_) (fun _ h => h) h h'
  obtain ⟨m, rfl⟩ := hopen.exists_succ
  unfold constantWithin
  rw [hv]

/-- Without a table of known values, the settled constants get the same values. -/
theorem constantWithin_of_settled : ∃ room, ∀ name v pending,
    (doc.settled site).get? name = some v → (∀ p ∈ pending, (doc.settled site).get? p = none) →
      doc.constantWithin site [] room pending name = .ok v := by
  refine settled_induction (P := fun known => ∃ room, ∀ name v pending,
    known.get? name = some v → (∀ p ∈ pending, known.get? p = none) →
      doc.constantWithin site [] room pending name = .ok v)
    ⟨0, fun name v pending hv => by cases hv⟩ ?_
  rintro known name d v ⟨room, hroom⟩ hd hnew hv
  refine ⟨room + 1, fun other w pending hw hpending => ?_⟩
  have hbefore : ∀ p ∈ pending, p ≠ name ∧ known.get? p = none := by
    intro p hp
    have hnone := hpending p hp
    have hne : p ≠ name := by
      rintro rfl
      rw [Table.get?_put_self] at hnone
      cases hnone
    exact ⟨hne, by rwa [Table.get?_put_of_ne _ _ hne] at hnone⟩
  by_cases hother : other = name
  · subst hother
    rw [Table.get?_put_self, Option.some.injEq] at hw
    subst hw
    have hnot : other ∉ pending := fun hmem => (hbefore other hmem).1 rfl
    have hinner : ∀ p, Keeps (inTable known p)
        (doc.constantWithin site [] room (other :: pending) p) := by
      intro p u hu
      refine hroom p u _ (inTable_eq_ok.1 hu) (List.forall_mem_cons.2 ⟨hnew, ?_⟩)
      exact fun q hq => (hbefore q hq).2
    unfold constantWithin
    simp only [Table.get?, List.lookup_nil]
    rw [← Table.get?, hd]
    simp only [List.contains_iff_mem, hnot, if_false]
    exact Datum.lower_keeps hinner d _ _ v hv
  · rw [Table.get?_put_of_ne _ _ hother] at hw
    have hless := hroom other w pending hw fun p hp => (hbefore p hp).2
    exact constantWithin_keeps (Nat.le_succ room) (List.Subset.refl _) other w hless

/-- The table of settled constants saves work and nothing else. -/
theorem constantWithin_eq_constant (h : doc.constants.length < room) :
    doc.constantWithin site [] room [] name = doc.constant site (doc.settled site) name := by
  have hopen : ∀ room, doc.constants.length < room → Open doc (doc.settled site) [] room :=
    fun _ => .start
  refine constantWithin_agree ?_ (fun _ _ => rfl) (hopen room h) (hopen _ (Nat.lt_succ_self _))
  intro name v room pending hv hopen
  obtain ⟨enough, henough⟩ : ∃ enough, ∀ name v pending,
      (doc.settled site).get? name = some v → (∀ p ∈ pending, (doc.settled site).get? p = none) →
        doc.constantWithin site [] enough pending name = .ok v := constantWithin_of_settled
  have hless : Open doc [] pending room :=
    ⟨hopen.nodup, hopen.declared, fun _ _ => rfl, hopen.room⟩
  have hmore : Open doc [] pending (max room enough) := by
    refine ⟨hopen.nodup, hopen.declared, fun _ _ => rfl, ?_⟩
    have := hopen.room
    omega
  rw [constantWithin_room hless hmore]
  exact constantWithin_keeps (Nat.le_max_right ..) (List.Subset.refl _) name v
    (henough name v pending hv hopen.unknown)

/-! ## Errors -/

/-- The name in the error lies on a cycle: it was met again below itself. -/
theorem cycle_of_constantWithin {again : String} (hpath : ∀ p ∈ pending, TransGen doc.Mentions p name)
    (h : doc.constantWithin site known room pending name = .error (.cyclicConstant again)) :
    TransGen doc.Mentions again again := by
  induction room generalizing pending name with
  | zero => cases h
  | succ room ih =>
    obtain ⟨-, he⟩ | ⟨hname, he⟩ | ⟨d, -, hd, -, he⟩ := constantWithin_error h
    · cases he
    · cases he
      exact hpath _ hname
    · obtain ⟨b, hb, he⟩ | ⟨hown, -⟩ := (Datum.lower_draws d [] _).error _ he
      · have hstep : doc.Mentions name b := ⟨d, hd, hb⟩
        refine ih (List.forall_mem_cons.2 ⟨.single hstep, ?_⟩) he
        exact fun p hp => (hpath p hp).tail hstep
      · cases hown

/-- If all constants are declared and nothing else stands in their way, they fail through a cycle
only. -/
theorem constantWithin_cyclic (htotal : ∀ a b, doc.Mentions a b → doc.constants.contains b = true)
    (hfine : ∀ a d, doc.constants.get? a = some d → d.isLowerable [] = true)
    {e : DocumentError} (hdeclared : doc.constants.contains name = true)
    (h : doc.constantWithin site known room pending name = .error e) :
    ∃ again, e = .cyclicConstant again := by
  induction room generalizing pending name with
  | zero => cases h
  | succ room ih =>
    obtain ⟨hnone, -⟩ | ⟨-, he⟩ | ⟨d, -, hd, -, he⟩ := constantWithin_error h
    · rw [Table.contains, hnone] at hdeclared
      cases hdeclared
    · exact ⟨name, he⟩
    · obtain ⟨b, hb, he⟩ | ⟨-, hnot⟩ := (Datum.lower_draws d [] _).error _ he
      · exact ih (htotal name b ⟨d, hd, hb⟩) he
      · rw [List.map_nil, hfine name d hd] at hnot
        cases hnot

/-! ## Values -/

/-- A constant that has a value mentions declared constants only. -/
theorem contains_of_mentions {v : Value}
    (h : doc.constant site (doc.settled site) name = .ok v) {b : String}
    (hb : doc.Mentions name b) : doc.constants.contains b = true := by
  obtain ⟨d, hd, hv⟩ := constant_eq_ok h
  obtain ⟨d', hd', hmem⟩ := hb
  cases hd.symm.trans hd'
  obtain ⟨w, hw⟩ := (Datum.lower_draws d [] _).ok v hv b hmem
  obtain ⟨d', hd', -⟩ := constant_eq_ok hw
  rw [Table.contains, hd']
  rfl

/-- No path of references from a constant that has a value goes on without end. -/
theorem acc_of_constant {v : Value} (h : doc.constant site (doc.settled site) name = .ok v) :
    Acc (fun b a => doc.Mentions a b) name := by
  refine constant_induction (P := fun name _ => Acc (fun b a => doc.Mentions a b) name)
    (fun c name d v hc hd hv => ?_) h
  refine .intro name fun b hb => ?_
  obtain ⟨d', hd', hmem⟩ := hb
  cases hd.symm.trans hd'
  obtain ⟨w, hw⟩ := (Datum.lower_draws d [] _).ok v hv b hmem
  exact hc b w hw

theorem not_cycle_of_acc (h : Acc (fun b a => doc.Mentions a b) name) :
    ¬TransGen doc.Mentions name name := by
  induction h with
  | intro name _ ih =>
    intro hcycle
    obtain ⟨b, hstep, hback⟩ := TransGen.head'_iff.1 hcycle
    exact ih b hstep (TransGen.tail' hback hstep)

/-! ## Documents -/

theorem lowerConstants_names {c : Constants} {cs : Table Datum} :
    ∀ {vs : Table Value}, lowerConstants c cs = .ok vs → vs.names = cs.names := by
  induction cs with
  | nil =>
    intro vs h
    cases h
    rfl
  | cons e cs ih =>
    intro vs h
    obtain ⟨k, d⟩ := e
    simp only [lowerConstants, bind_eq_ok, pure_eq_ok] at h
    obtain ⟨v, -, vs', hvs, rfl⟩ := h
    exact congrArg (k :: ·) (ih hvs)

theorem lowerConstants_draws {c : Constants} (cs : Table Datum) :
    Draws c cs.names true (lowerConstants c cs) := by
  induction cs with
  | nil => exact .pure []
  | cons e cs ih => exact (Draws.constant e.1).bind fun _ _ => ih.map

theorem lowerStatics_draws {c : Constants} (ts : Table (Table Datum)) :
    ∀ i, Draws c (ts.flatMap fun t => Datum.mentionsFields t.2)
      (ts.all fun t => Datum.lowerableFields [] t.2) (lowerStatics c site i ts) := by
  induction ts with
  | nil => exact fun _ => .pure []
  | cons t ts ih =>
    intro i
    exact (Datum.lowerFields_draws t.2 [] (site.child i) 0).bind fun _ _ => (ih (i + 1)).map

theorem lowerWithin_draws (doc : Document) (site : Site) (room : Nat) :
    ∃ names fine, Draws (doc.constantWithin site (doc.settled site) room []) names fine
      (doc.lowerWithin site room) := by
  unfold lowerWithin
  by_cases h : ∃ ds b, doc.predicate = .lambda ds b
  · obtain ⟨ds, b, hpredicate⟩ := h
    have hbody : ∀ constants statics ps, declare ((site.child 2).child 0) 0 ds = .ok ps →
        Draws (doc.constantWithin site (doc.settled site) room []) b.mentions
          (b.isLowerable (ds.map Declaration.name))
          (Node.lower (doc.constantWithin site (doc.settled site) room []) ps
            ((site.child 2).child 1) b >>=
            fun body => .ok (Lowered.mk statics constants ⟨ps, body⟩)) := by
      intro constants statics ps hps
      rw [← declare_names hps]
      exact (Node.lower_draws b ps _).map
    rw [hpredicate]
    exact ⟨_, _, (lowerConstants_draws doc.constants).bind fun constants _ =>
      (lowerStatics_draws doc.statics 0).bind fun statics _ =>
        (declare_draws _ ds 0).bind (hbody constants statics)⟩
  · refine ⟨_ ++ (_ ++ []), _ && (_ && false),
      (lowerConstants_draws doc.constants).bind fun constants _ =>
        (lowerStatics_draws doc.statics 0).bind fun statics _ => ?_⟩
    split
    · rename_i ds b hpredicate
      exact absurd ⟨ds, b, hpredicate⟩ h
    · exact .fail rfl

/-- No document with a cycle is lowered. -/
theorem not_cycle_of_lower {low : Lowered} (h : doc.lower site = .ok low) :
    ¬TransGen doc.Mentions name name := by
  intro hcycle
  obtain ⟨b, ⟨d, hd, -⟩, -⟩ := TransGen.head'_iff.1 hcycle
  obtain ⟨v, hv, -⟩ := lowerConstants_get? (lower_eq_ok h).1 hd
  exact not_cycle_of_acc (acc_of_constant hv) hcycle

theorem lower_eq_error {e : DocumentError} :
    doc.lower site = .error e ↔ doc.lowerWithin site (doc.constants.length + 1) = .error e :=
  Outcome.toExcept_eq_error

/-- A cycle is reported if nothing else can be wrong with a constant. -/
theorem lower_eq_cyclic (htotal : ∀ a b, doc.Mentions a b → doc.constants.contains b = true)
    (hfine : ∀ a d, doc.constants.get? a = some d → d.isLowerable [] = true)
    (hcycle : TransGen doc.Mentions name name) :
    ∃ again, doc.lower site = .error (.cyclicConstant again) := by
  cases hall : lowerConstants (doc.constant site (doc.settled site)) doc.constants with
  | ok vs =>
    obtain ⟨b, ⟨d, hd, -⟩, -⟩ := TransGen.head'_iff.1 hcycle
    obtain ⟨v, hv, -⟩ := lowerConstants_get? hall hd
    exact absurd hcycle (not_cycle_of_acc (acc_of_constant hv))
  | error e =>
    obtain ⟨a, ha, he⟩ | ⟨-, hnot⟩ := (lowerConstants_draws doc.constants).error e hall
    · obtain ⟨again, rfl⟩ := constantWithin_cyclic htotal hfine (contains_of_mem_names ha) he
      refine ⟨again, lower_eq_error.2 ?_⟩
      rw [constant] at hall
      rw [lowerWithin, hall, Outcome.error_bind]
    · cases hnot
  | unfinished =>
    refine absurd hall (lowerConstants_ends (fun _ => ?_) doc.constants)
    exact constantWithin_ends (.start (Nat.lt_succ_self _))

/-- More room than there is needed changes nothing. -/
theorem lowerWithin_eq_lower (h : doc.constants.length < room) :
    doc.lowerWithin site room = .ofExcept (doc.lower site) := by
  have hconstants : doc.constantWithin site (doc.settled site) room [] =
      doc.constantWithin site (doc.settled site) (doc.constants.length + 1) [] :=
    funext fun _ => constantWithin_room (.start h) (.start (Nat.lt_succ_self _))
  rw [lower, Outcome.ofExcept_toExcept, lowerWithin, lowerWithin, hconstants]

/-- Lowering ends: to work out a constant along the references in it, and so to lower the document,
takes no more room than there are constants, and what there is more changes nothing. A document that
is lowered has no cycle, mentions declared constants only, and gets a value for each of them. A
constant that is reported as cyclic is, and a cycle is reported if nothing else can be wrong with a
constant. -/
theorem lower_finds_cycles (doc : Document) (site : Site) :
    (∀ room, doc.constants.length < room →
      doc.lowerWithin site room ≠ .unfinished ∧
      doc.lowerWithin site room = .ofExcept (doc.lower site)) ∧
    (∀ room name, doc.constants.length < room →
      doc.constantWithin site [] room [] name ≠ .unfinished ∧
      doc.constantWithin site [] room [] name = doc.constant site (doc.settled site) name) ∧
    (∀ low, doc.lower site = .ok low →
      (∀ name, ¬TransGen doc.Mentions name name) ∧
      (∀ a b, doc.Mentions a b → doc.constants.contains b = true) ∧
      low.constants.names = doc.constants.names) ∧
    (∀ name, doc.lower site = .error (.cyclicConstant name) →
      TransGen doc.Mentions name name) ∧
    ((∀ a b, doc.Mentions a b → doc.constants.contains b = true) →
      (∀ a d, doc.constants.get? a = some d → d.isLowerable [] = true) →
      ∀ name, TransGen doc.Mentions name name →
        ∃ again, doc.lower site = .error (.cyclicConstant again)) := by
  refine ⟨fun room h => ⟨lowerWithin_ends h, lowerWithin_eq_lower h⟩,
    fun room name h => ⟨constantWithin_ends (.start h), constantWithin_eq_constant h⟩,
    fun low h => ⟨?_, ?_, ?_⟩, ?_, ?_⟩
  · exact fun name => not_cycle_of_lower h
  · intro a b hab
    obtain ⟨d, hd, hb⟩ := hab
    obtain ⟨v, hv, -⟩ := lowerConstants_get? (lower_eq_ok h).1 hd
    exact contains_of_mentions hv ⟨d, hd, hb⟩
  · exact lowerConstants_names (lower_eq_ok h).1
  · intro name h
    obtain ⟨names, fine, hdraws⟩ := lowerWithin_draws doc site (doc.constants.length + 1)
    obtain ⟨a, -, ha⟩ | ⟨hown, -⟩ := hdraws.error _ (lower_eq_error.1 h)
    · exact cycle_of_constantWithin (fun p hp => by cases hp) ha
    · cases hown
  · exact fun htotal hfine name => lower_eq_cyclic htotal hfine

namespace Cyclic

def fields (name : String) : Datum := .object "Pair" [("other", .node (.constant name))]

/-- The constant `b` stands in a literal below the lambda `a`, which stands in a field of `b`. -/
def document : Document where
  statics := []
  constants := [
    ("a", .node (.lambda [⟨"x", "int"⟩] (.literal (.node (.constant "b")) none))),
    ("b", fields "a"), ("c", .int 1)]
  predicate := .lambda [⟨"x", "int"⟩] (.param "x")

/-- Here the field of `b` is `c`. -/
def opened : Document where
  statics := []
  constants := [
    ("a", .node (.lambda [⟨"x", "int"⟩] (.literal (.node (.constant "b")) none))),
    ("b", fields "c"), ("c", .int 1)]
  predicate := .lambda [⟨"x", "int"⟩] (.constant "a")

/-- A condition on all constants of a document is one on its table. -/
theorem forall_constants {doc : Document} {P : Datum → Bool}
    (h : (doc.constants.all fun e => P e.2) = true) :
    ∀ a d, doc.constants.get? a = some d → P d = true := by
  intro a d hd
  exact List.all_eq_true.1 h (a, d) (mem_of_lookup hd)

theorem document_cycle : TransGen document.Mentions "a" "a" := by
  have hb : document.Mentions "a" "b" := ⟨_, rfl, by decide +kernel⟩
  have ha : document.Mentions "b" "a" := ⟨_, rfl, by decide +kernel⟩
  exact .tail (.single hb) ha

end Cyclic

open Cyclic in
theorem lower_finds_cycles_through :
    (∃ again, document.lower (.root 0) = .error (.cyclicConstant again) ∧
      TransGen document.Mentions again again ∧
      document.lowerWithin (.root 0) 4 = .error (.cyclicConstant again)) ∧
    ∃ low, opened.lower (.root 0) = .ok low ∧ low.constants.names = ["a", "b", "c"] ∧
      ∀ name, ¬TransGen opened.Mentions name name := by
  constructor
  · have htotal : ∀ a d, document.constants.get? a = some d →
        (d.mentions.all document.constants.contains) = true :=
      forall_constants (by decide +kernel)
    have hfine : ∀ a d, document.constants.get? a = some d → d.isLowerable [] = true :=
      forall_constants (by decide +kernel)
    obtain ⟨hends, -, -, hcyclic, hfinds⟩ := lower_finds_cycles document (.root 0)
    obtain ⟨again, hagain⟩ := hfinds
      (fun a b ⟨d, hd, hb⟩ => List.all_eq_true.1 (htotal a d hd) b hb) hfine "a" document_cycle
    have hwithin := (hends 4 (by decide)).2
    rw [hagain] at hwithin
    exact ⟨again, hagain, hcyclic again hagain, hwithin⟩
  · obtain ⟨low, hlow⟩ : ∃ low, opened.lower (.root 0) = .ok low := by
      have hok : (opened.lower (.root 0)).isOk = true := by decide +kernel
      cases h : opened.lower (.root 0) with
      | ok low => exact ⟨low, rfl⟩
      | error e =>
        rw [h] at hok
        cases hok
    obtain ⟨hacyclic, -, hnames⟩ := (lower_finds_cycles opened (.root 0)).2.2.1 low hlow
    exact ⟨low, hlow, hnames, hacyclic⟩

end Document

end PredicateTree
