import PredicateTree.Proofs.Document.Storable

/-!
# Proofs.Document.RoundTrip

A document is read back from the tree of data that is stored for it.

* `storable_of_partWithin`: what a field reads from stored data is storable, in whatever form the
  data are written. The induction is on the depth; a record hands the property on from its fields.
* `read_stored`: so exactly the storable documents are read back, and everything that is read is.
-/

namespace PredicateTree

namespace Document

open Json (DataFault)

/-! ## What stands for fields left out -/

theorem Kind.storable_absent (k : Kind) : ∀ f ∈ k.fields, ∀ p ∈ f.absent, Storable p := by
  have hnodes : Storable (.nodes []) := .nodes (List.forall_mem_nil _)
  have htext : Storable (.optionalText none) := .plain rfl
  have hmarkers : Storable (.markers []) := .plain rfl
  cases k <;>
    simp [Kind.fields, Field.node, Field.nodes, Field.text, Field.optionalNode, Field.optionalText,
      Storable.noNode, hnodes, htext, hmarkers]

theorem storable_noFields : Storable (.fields []) := .fields List.Pairwise.nil (List.forall_mem_nil _)

theorem Datum.storable_absent : ∀ f ∈ Datum.fields, ∀ p ∈ f.absent, Storable p := by
  simp [Datum.fields, Field.text, storable_noFields]

theorem storable_absent : ∀ f ∈ fields, ∀ p ∈ f.absent, Storable p := by
  have htables : Storable (.tables []) := .tables List.Pairwise.nil (List.forall_mem_nil _)
  simp [fields, Field.node, storable_noFields, htables]

/-! ## Nodes -/

theorem parts_of_assemble? {k : Kind} {ps : List Part} {n : Node} (h : k.assemble? ps = some n) :
    n.parts = ps := by
  unfold Kind.assemble? at h
  split at h <;> cases h <;> rfl

theorem splitKind_subset {kindOf : Json → Except DataFault Kind} {kind? : Option Kind}
    {others ms rest : List (String × Json)} {k : Kind}
    (h : splitKind kindOf kind? others ms = .ok (k, rest)) : ∀ m ∈ rest, m ∈ others ∨ m ∈ ms := by
  induction ms generalizing kind? others with
  | nil =>
    intro m hm
    unfold splitKind at h
    split at h
    · cases h
    · cases h
      exact .inl (List.mem_reverse.1 hm)
  | cons e ms ih =>
    intro m hm
    obtain ⟨name, j⟩ := e
    unfold splitKind at h
    split at h
    · split at h
      · cases h
      split at h
      · cases h
      · exact (ih h m hm).imp_right (List.mem_cons_of_mem _)
    · rcases ih h m hm with hm | hm
      · rcases List.mem_cons.1 hm with rfl | hm
        · exact .inr List.mem_cons_self
        · exact .inl hm
      · exact .inr (List.mem_cons_of_mem _ hm)

/-- What is left of a node when its kind is taken out stands right below it. -/
theorem mem_inner_of_nodeContent {kindOf : Json → Except DataFault Kind} {j content : Json}
    {k : Kind} (h : nodeContent kindOf j = .ok (k, content)) :
    ∀ i ∈ content.inner, i ∈ j.inner := by
  intro i hi
  unfold nodeContent at h
  split at h
  · rename_i ms
    split at h
    · cases h
    · rename_i k others hsplit
      cases h
      obtain ⟨m, hm, rfl⟩ := List.mem_map.1 hi
      have hms : m ∈ ms := (splitKind_subset hsplit m hm).resolve_left List.not_mem_nil
      exact List.mem_map_of_mem hms
  · cases h
  · rename_i js
    split at h
    · cases h
    · cases h
      exact List.mem_cons_of_mem _ hi
  · cases h

section Storable

variable {part : PartOf} {j : Json}

theorem storable_nodeOfKind {k : Kind} {content : Json} {n : Node}
    (hpart : ∀ i ∈ content.inner, ∀ s p, part s i = .ok p → Storable p)
    (h : nodeOfKind part k content = .ok n) : Storable (.node n) := by
  rw [nodeOfKind] at h
  split at h
  · cases h
  · rename_i ps hps
    split at h
    · rename_i n' hn
      cases h
      refine .node fun p hp => ?_
      rw [parts_of_assemble? hn] at hp
      exact recordOf_forall k.storable_absent hpart hps p hp
    · cases h

theorem storable_nodeOf {kindOf : Json → Except DataFault Kind} {n : Node}
    (hpart : ∀ i ∈ j.inner, ∀ s p, part s i = .ok p → Storable p)
    (h : nodeOf kindOf part j = .ok n) : Storable (.node n) := by
  unfold nodeOf at h
  split at h
  · cases h
  · rename_i k content hcontent
    exact storable_nodeOfKind (fun i hi => hpart i (mem_inner_of_nodeContent hcontent i hi)) h

/-! ## Values -/

theorem storable_objectOf? {d : Datum}
    (hpart : ∀ i ∈ j.inner, ∀ s p, part s i = .ok p → Storable p)
    (h : objectOf? part j = some d) : Storable (.datum d) := by
  unfold objectOf? at h
  split at h
  · split at h
    · rename_i hrecord
      cases h
      refine .object (recordOf_forall Datum.storable_absent hpart hrecord _ ?_)
      exact List.mem_cons_of_mem _ List.mem_cons_self
    · cases h
  · cases h

theorem storable_datumOf {d : Datum} (hj : j.IsStored)
    (hpart : ∀ i ∈ j.inner, ∀ s p, part s i = .ok p → Storable p)
    (h : datumOf part j = .ok d) : Storable (.datum d) := by
  unfold datumOf at h
  split at h
  · cases h
    exact .null
  · cases h
    exact .bool _
  · split at h
    · cases h
      exact .int _
    · cases h
      exact .unsigned (Nat.le_of_not_lt ‹_›)
  · cases h
    exact .int _
  · cases h
    exact .float (Json.isStored_float_iff.1 hj)
  · cases h
    exact .str _
  · split at h
    · rename_i hobject
      cases h
      exact storable_objectOf? hpart hobject
    · split at h
      · rename_i hn
        cases h
        exact .written (storable_nodeOf hpart hn)
      · cases h

end Storable

/-! ## Rows of items -/

theorem exists_of_mapM {α β ε : Type} {f : α → Except ε β} {as : List α} {bs : List β}
    (h : as.mapM f = .ok bs) : ∀ b ∈ bs, ∃ a ∈ as, f a = .ok b := by
  induction as generalizing bs with
  | nil =>
    cases h
    exact List.forall_mem_nil _
  | cons a as ih =>
    rw [List.mapM_cons] at h
    cases ha : f a with
    | error e =>
      rw [ha] at h
      cases h
    | ok b =>
      cases has : as.mapM f with
      | error e =>
        rw [ha, has] at h
        cases h
      | ok bs =>
        rw [ha, has] at h
        cases h
        refine List.forall_mem_cons.2 ⟨⟨a, List.mem_cons_self, ha⟩, fun b hb => ?_⟩
        obtain ⟨a', ha', hf⟩ := ih has b hb
        exact ⟨a', List.mem_cons_of_mem a ha', hf⟩

theorem exists_of_listOf {α : Type} {f : Json → Except DataFault α} {j : Json} {as : List α}
    (h : listOf f j = .ok as) : ∀ a ∈ as, ∃ i ∈ j.inner, f i = .ok a := by
  unfold listOf at h
  split at h
  · exact exists_of_mapM h
  · cases h

theorem exists_of_tableOf {α : Type} {f : Json → Except DataFault α} {j : Json} {t : Table α}
    (h : tableOf f j = .ok t) : t.Ordered ∧ ∀ e ∈ t, ∃ i ∈ j.inner, f i = .ok e.2 := by
  unfold tableOf at h
  split at h
  · rename_i ms
    cases hentries : ms.mapM (fun m => do return (m.1, ← f m.2)) with
    | error e =>
      rw [hentries] at h
      cases h
    | ok entries =>
      rw [hentries] at h
      cases h
      refine ⟨Table.ordered_ofList entries, fun e he => ?_⟩
      obtain ⟨m, hm, hf⟩ := exists_of_mapM hentries e (Table.mem_ofList he)
      cases hvalue : f m.2 with
      | error e =>
        rw [hvalue] at hf
        cases hf
      | ok a =>
        rw [hvalue] at hf
        cases hf
        exact ⟨m.2, List.mem_map_of_mem hm, hvalue⟩
  · cases h

/-! ## What is read can be written -/

theorem partWithin_optionalNode (depth : Nat) (j : Json) :
    partWithin (depth + 1) .optionalNode j =
      match j with
      | .null => .ok (.optionalNode none)
      | j => (nodeOf Kind.ofJson (partWithin depth) j).map fun n => .optionalNode (some n) := rfl

theorem partWithin_optionalText (depth : Nat) (j : Json) :
    partWithin (depth + 1) .optionalText j =
      match j with
      | .null => .ok (.optionalText none)
      | j => (textOf j).map fun s => .optionalText (some s) := rfl

theorem storable_of_partWithin {depth : Nat} {slot : Slot} {j : Json} {p : Part}
    (hj : j.IsStored) (h : partWithin depth slot j = .ok p) : Storable p := by
  induction depth generalizing slot j p with
  | zero => cases h
  | succ depth ih =>
    have hpart : ∀ {j : Json}, j.IsStored →
        ∀ i ∈ j.inner, ∀ s p, partWithin depth s i = .ok p → Storable p :=
      fun hj i hi _ _ => ih (hj.inner hi)
    have hfields : ∀ {j : Json} {fs : Table Datum}, j.IsStored →
        tableOf (datumOf (partWithin depth)) j = .ok fs → Storable (.fields fs) := by
      intro j fs hj h
      obtain ⟨hordered, hfs⟩ := exists_of_tableOf h
      refine .fields hordered fun f hf => ?_
      obtain ⟨i, hi, hd⟩ := hfs f hf
      exact storable_datumOf (hj.inner hi) (hpart (hj.inner hi)) hd
    cases slot with
    | node =>
      obtain ⟨n, hn, rfl⟩ := map_eq_ok.1 h
      exact storable_nodeOf (hpart hj) hn
    | optionalNode =>
      rw [partWithin_optionalNode] at h
      split at h
      · cases h
        exact .noNode
      · obtain ⟨n, hn, rfl⟩ := map_eq_ok.1 h
        exact .someNode (storable_nodeOf (hpart hj) hn)
    | nodes =>
      obtain ⟨ns, hns, rfl⟩ := map_eq_ok.1 h
      refine .nodes fun n hn => ?_
      obtain ⟨i, hi, hn⟩ := exists_of_listOf hns n hn
      exact storable_nodeOf (hpart (hj.inner hi)) hn
    | datum =>
      obtain ⟨d, hd, rfl⟩ := map_eq_ok.1 h
      exact storable_datumOf hj (hpart hj) hd
    | fields =>
      obtain ⟨fs, hfs, rfl⟩ := map_eq_ok.1 h
      exact hfields hj hfs
    | tables =>
      obtain ⟨ts, hts, rfl⟩ := map_eq_ok.1 h
      obtain ⟨hordered, hts⟩ := exists_of_tableOf hts
      refine .tables hordered fun t ht => ?_
      obtain ⟨i, hi, hfs⟩ := hts t ht
      exact hfields (hj.inner hi) hfs
    | optionalText =>
      rw [partWithin_optionalText] at h
      split at h
      · cases h
        exact .plain rfl
      · obtain ⟨_, -, rfl⟩ := map_eq_ok.1 h
        exact .plain rfl
    | text | declarations | binaryOp | unaryOp | markers =>
      obtain ⟨_, -, rfl⟩ := map_eq_ok.1 h
      exact .plain rfl

/-! ## Documents -/

/-- What the fields of a document hold, in order. -/
def parts (d : Document) : List Part := [.tables d.statics, .fields d.constants, .node d.predicate]

theorem parts_of_ofParts {ps : Except DataFault (List Part)} {d : Document}
    (h : ofParts ps = .ok d) : ps = .ok d.parts := by
  unfold ofParts at h
  split at h
  · cases h
  · split at h
    · rename_i hd
      cases h
      unfold assemble? at hd
      split at hd <;> cases hd
      rfl
    · cases h

theorem slots_rows (d : Document) :
    (fields.zip d.parts).map (fun r => r.1.slot) = (fields.zip d.parts).map fun r => r.2.slot := rfl

theorem topPartsOf_toJson {j : Json} {p : Part} (h : Storable p) (hp : p.toJson.depth < j.depth) :
    topPartsOf j p.slot p.toJson = .ok p := by
  have hread : partsOf j p.slot p.toJson = .ok p := h.reads _ (Nat.lt_succ_of_lt hp)
  cases p with
  | node n =>
    cases h with
    | node hparts =>
      refine map_eq_ok.2 ⟨n, nodeOf_toJson n.kind.byName_name fun q hq => ?_, rfl⟩
      have hdepth := Json.depth_lt_of_mem_inner (n.toJson_mem_inner hq)
      exact (hparts q hq).reads _ (Nat.lt_succ_of_lt (Nat.lt_trans hdepth hp))
    | plain hplain => cases hplain
  | _ => exact hread

/-- What is written for a document in which all can be told apart is read back. -/
theorem ofJson_toJson {d : Document} (h : ∀ p ∈ d.parts, Storable p) :
    Document.ofJson d.toJson = .ok d := by
  have hnames : ((fields.zip d.parts).map (·.1.name)).Nodup := by
    show ["statics", "constants", "predicate"].Nodup
    decide
  have hrows : ∀ r ∈ fields.zip d.parts, topPartsOf d.toJson r.1.slot r.2.toJson = .ok r.2 := by
    intro r hr
    have hslot : r.1.slot = r.2.slot := List.map_inj_left.1 d.slots_rows r hr
    rw [hslot]
    refine topPartsOf_toJson (h r.2 (List.of_mem_zip hr).2) ?_
    exact Json.depth_lt_of_mem_inner (List.mem_map.2 ⟨memberOf r, List.mem_map_of_mem hr, rfl⟩)
  show ofParts (recordOf (topPartsOf d.toJson) title title ((fields.zip d.parts).map Prod.fst)
    (.object ((fields.zip d.parts).map memberOf))) = _
  rw [recordOf_rows hnames hrows]
  rfl

theorem isStored_toJson {d : Document} (h : ∀ p ∈ d.parts, Storable p) : d.toJson.IsStored := by
  have hmembers : ∀ m ∈ (fields.zip d.parts).map memberOf, m.2.IsStored := by
    intro m hm
    obtain ⟨r, hr, rfl⟩ := List.mem_map.1 hm
    exact (h r.2 (List.of_mem_zip hr).2).isStored
  exact Json.isStored_object_iff.2 hmembers

theorem storable_of_topPartsOf {whole j : Json} {slot : Slot} {p : Part} (hj : j.IsStored)
    (h : topPartsOf whole slot j = .ok p) : Storable p := by
  cases slot with
  | node =>
    obtain ⟨n, hn, rfl⟩ := map_eq_ok.1 h
    exact storable_nodeOf (fun _ hi _ _ => storable_of_partWithin (hj.inner hi)) hn
  | _ => exact storable_of_partWithin hj h

theorem storable_of_ofJson {j : Json} {d : Document} (hj : j.IsStored)
    (h : Document.ofJson j = .ok d) : ∀ p ∈ d.parts, Storable p :=
  recordOf_forall storable_absent
    (fun _ hi _ _ hp => storable_of_topPartsOf (hj.inner hi) hp) (parts_of_ofParts h)

/-- A document is read back from the tree that is stored for it exactly if all in it can be told
apart there, and so is every document that has been read from a stored tree. -/
theorem read_stored :
    (∀ d : Document, Document.ofJson d.toJson.stored = .ok d ↔ ∀ p ∈ d.parts, Storable p) ∧
      ∀ (j : Json) (d : Document), j.IsStored → Document.ofJson j = .ok d →
        Document.ofJson d.toJson.stored = .ok d := by
  have hback : ∀ d : Document, (∀ p ∈ d.parts, Storable p) →
      Document.ofJson d.toJson.stored = .ok d := by
    intro d hd
    rw [isStored_toJson hd]
    exact ofJson_toJson hd
  refine ⟨fun d => ⟨fun h => ?_, hback d⟩, fun j d hj h => hback d (storable_of_ofJson hj h)⟩
  exact storable_of_ofJson d.toJson.stored_stored h

namespace Rows

/-- A document, a node and a declaration written as arrays, and a node with its kind last, with a
member that is no field and without its target. -/
def tree : Json :=
  .array [
    .object [("Limits", .object [("max", .unsigned 3), ("huge", .unsigned 18446744073709551615)])],
    .object [],
    .array [.string "lambda", .array [.array [.string "p", .string "int"]],
      .object [("rhs", .object [("type", .string "int"), ("note", .null), ("name", .string "max"),
          ("declaring_type", .string "Limits"), ("kind", .string "member")]),
        ("op", .string "lt"), ("kind", .string "binary"),
        ("lhs", .array [.string "param", .string "p"])]]]

def document : Document where
  statics := [("Limits", [("huge", .unsigned 18446744073709551615), ("max", .int 3)])]
  constants := []
  predicate := .lambda [⟨"p", "int"⟩]
    (.binary .lt (.param "p") (.member none (some "Limits") "max" "int"))

end Rows

open Rows in
theorem read_stored_rows :
    tree.IsStored ∧ Document.ofJson tree = .ok document ∧
      Document.ofJson document.toJson.stored = .ok document :=
  have hstored : tree.IsStored := rfl
  have hread : Document.ofJson tree = .ok document := by rfl
  ⟨hstored, hread, read_stored.2 tree document hstored hread⟩

end Document

end PredicateTree
