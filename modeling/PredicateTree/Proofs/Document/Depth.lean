import PredicateTree.Proofs.Document.RoundTrip

/-!
# Proofs.Document.Depth

`partWithin` counts down the depth of the data. A record hands to its fields only what stands right
below it (`recordOf_congr`), and so do the other forms of data, so that any bound above the depth
gives the same (`partWithin_eq`).
-/

namespace PredicateTree

namespace Document

open Json (DataFault)

variable {part part' : PartOf} {fields : List Field} {title wanted : String} {j : Json}

theorem scanMembers_congr {ms : List (String × Json)} (h : ∀ m ∈ ms, ∀ s, part s m.2 = part' s m.2)
    (seen : List (String × Part)) :
    scanMembers part fields seen ms = scanMembers part' fields seen ms := by
  induction ms generalizing seen with
  | nil => rfl
  | cons m ms ih =>
    obtain ⟨k, j⟩ := m
    have hms := ih fun m hm => h m (List.mem_cons_of_mem _ hm)
    rw [scanMembers, scanMembers]
    cases fields.find? (·.name == k) with
    | none => exact hms seen
    | some f =>
      have hj : part f.slot j = part' f.slot j := h (k, j) List.mem_cons_self f.slot
      simp only [hj, hms]

theorem scanItems_congr {js : List Json} (h : ∀ j ∈ js, ∀ s, part s j = part' s j)
    (count i : Nat) :
    scanItems part title count i fields js = scanItems part' title count i fields js := by
  induction fields generalizing i js with
  | nil => cases js <;> rfl
  | cons f fields ih =>
    cases js with
    | nil =>
      rw [scanItems, scanItems]
      cases f.absent with
      | none => rfl
      | some p => simp only [ih h]
    | cons j js =>
      have hj : part f.slot j = part' f.slot j := h j List.mem_cons_self f.slot
      have hjs := ih (fun i hi => h i (List.mem_cons_of_mem _ hi)) (i + 1)
      simp only [scanItems, hj, hjs]

theorem recordOf_congr (h : ∀ i ∈ j.inner, ∀ s, part s i = part' s i) :
    recordOf part title wanted fields j = recordOf part' title wanted fields j := by
  cases j with
  | object ms =>
    have hms : ∀ m ∈ ms, ∀ s, part s m.2 = part' s m.2 :=
      fun m hm => h m.2 (List.mem_map_of_mem hm)
    rw [recordOf, recordOf, scanMembers_congr hms]
  | array js => exact scanItems_congr h _ _
  | _ => rfl

theorem nodeOfKind_congr {content : Json} (k : Kind)
    (h : ∀ i ∈ content.inner, ∀ s, part s i = part' s i) :
    nodeOfKind part k content = nodeOfKind part' k content := by
  rw [nodeOfKind, nodeOfKind, recordOf_congr h]

theorem nodeOf_congr (kindOf : Json → Except DataFault Kind)
    (h : ∀ i ∈ j.inner, ∀ s, part s i = part' s i) :
    nodeOf kindOf part j = nodeOf kindOf part' j := by
  rw [nodeOf, nodeOf]
  cases hcontent : nodeContent kindOf j with
  | error e => rfl
  | ok node =>
    have hinner := mem_inner_of_nodeContent hcontent
    exact nodeOfKind_congr node.1 fun i hi => h i (hinner i hi)

theorem datumOf_congr (h : ∀ i ∈ j.inner, ∀ s, part s i = part' s i) :
    datumOf part j = datumOf part' j := by
  have hobject : objectOf? part j = objectOf? part' j := by
    cases j with
    | object ms => rw [objectOf?, objectOf?, recordOf_congr h]
    | _ => rfl
  have hnode := nodeOf_congr Kind.ofJson h
  cases j with
  | object ms => rw [datumOf_object, datumOf_object, hobject, hnode]
  | array js =>
    simp only [datumOf, hobject, hnode]
  | _ => rfl

theorem mapM_congr {α β ε : Type} {f g : α → Except ε β} {as : List α} (h : ∀ a ∈ as, f a = g a) :
    as.mapM f = as.mapM g := by
  induction as with
  | nil => rfl
  | cons a as ih =>
    rw [List.mapM_cons, List.mapM_cons, h a List.mem_cons_self,
      ih fun b hb => h b (List.mem_cons_of_mem a hb)]

theorem listOf_congr {α : Type} {f g : Json → Except DataFault α} (h : ∀ i ∈ j.inner, f i = g i) :
    listOf f j = listOf g j := by
  cases j with
  | array js => exact mapM_congr h
  | _ => rfl

theorem tableOf_congr {α : Type} {f g : Json → Except DataFault α} (h : ∀ i ∈ j.inner, f i = g i) :
    tableOf f j = tableOf g j := by
  cases j with
  | object ms =>
    have hms : ms.mapM (fun m => do return (m.1, ← f m.2)) =
        ms.mapM fun m => do return (m.1, ← g m.2) :=
      mapM_congr fun m hm => by rw [h m.2 (List.mem_map_of_mem hm)]
    rw [tableOf, tableOf, hms]
  | _ => rfl

theorem declarationOf_congr (h : ∀ i ∈ j.inner, ∀ s, part s i = part' s i) :
    declarationOf part j = declarationOf part' j := by
  rw [declarationOf, declarationOf, recordOf_congr h]

theorem partWithin_eq {depth depth' : Nat} {slot : Slot} (h : j.depth < depth)
    (h' : j.depth < depth') : partWithin depth slot j = partWithin depth' slot j := by
  induction depth generalizing depth' slot j with
  | zero => cases h
  | succ depth ih =>
    cases depth' with
    | zero => cases h'
    | succ depth' =>
      have hinner : ∀ {k : Json}, k.depth ≤ j.depth → ∀ i ∈ k.inner, ∀ s,
          partWithin depth s i = partWithin depth' s i := fun hk i hi s => by
        have hi := Json.depth_lt_of_mem_inner hi
        exact ih (by omega) (by omega)
      have hbelow : ∀ i ∈ j.inner, i.depth ≤ j.depth :=
        fun i hi => Nat.le_of_lt (Json.depth_lt_of_mem_inner hi)
      have hnode := nodeOf_congr Kind.ofJson (hinner (Nat.le_refl _))
      have htable : ∀ {k : Json}, k.depth ≤ j.depth →
          tableOf (datumOf (partWithin depth)) k = tableOf (datumOf (partWithin depth')) k :=
        fun hk => tableOf_congr fun i hi =>
          datumOf_congr (hinner (Nat.le_trans (Nat.le_of_lt (Json.depth_lt_of_mem_inner hi)) hk))
      cases slot with
      | node => exact congrArg (Except.map Part.node) hnode
      | optionalNode =>
        cases j with
        | null => rfl
        | _ => exact congrArg (Except.map fun n => Part.optionalNode (some n)) hnode
      | nodes =>
        exact congrArg (Except.map Part.nodes)
          (listOf_congr fun i hi => nodeOf_congr _ (hinner (hbelow i hi)))
      | datum => exact congrArg (Except.map Part.datum) (datumOf_congr (hinner (Nat.le_refl _)))
      | fields => exact congrArg (Except.map Part.fields) (htable (Nat.le_refl _))
      | tables =>
        exact congrArg (Except.map Part.tables) (tableOf_congr fun i hi => htable (hbelow i hi))
      | declarations =>
        exact congrArg (Except.map Part.declarations)
          (listOf_congr fun i hi => declarationOf_congr (hinner (hbelow i hi)))
      | text | optionalText | binaryOp | unaryOp | markers => rfl

/-- Whatever the parts of a value are read from, they are read as the parts of the value. -/
theorem partWithin_eq_partsOf {i : Json} {depth : Nat} {slot : Slot} (hi : i ∈ j.inner)
    (h : j.depth ≤ depth) : partWithin depth slot i = partsOf j slot i := by
  have hlt := Json.depth_lt_of_mem_inner hi
  exact partWithin_eq (Nat.lt_of_lt_of_le hlt h) (Nat.lt_succ_of_lt hlt)

theorem datumOf_partWithin {depth : Nat} (h : j.depth ≤ depth) :
    datumOf (partWithin depth) j = Datum.ofJson j :=
  datumOf_congr fun _ hi _ => partWithin_eq_partsOf hi h

/-- What stands in the fields of a document. -/
theorem topPartsOf_fields {whole : Json} (h : j.depth ≤ whole.depth) :
    topPartsOf whole .fields j = (tableOf Datum.ofJson j).map .fields := by
  refine congrArg (Except.map Part.fields) (tableOf_congr fun i hi => ?_)
  exact datumOf_partWithin (Nat.le_trans (Nat.le_of_lt (Json.depth_lt_of_mem_inner hi)) h)

theorem topPartsOf_tables {whole : Json} (h : j.depth ≤ whole.depth) :
    topPartsOf whole .tables j = (tableOf (tableOf Datum.ofJson) j).map .tables := by
  refine congrArg (Except.map Part.tables) (tableOf_congr fun t ht => tableOf_congr fun i hi => ?_)
  have ht := Json.depth_lt_of_mem_inner ht
  have hi := Json.depth_lt_of_mem_inner hi
  exact datumOf_partWithin (by omega)

theorem topPartsOf_node {whole : Json} (h : j.depth ≤ whole.depth) :
    topPartsOf whole .node j = (nodeOf Kind.byName (partsOf j) j).map .node := by
  refine congrArg (Except.map Part.node) (nodeOf_congr _ fun i hi s => ?_)
  exact partWithin_eq_partsOf hi (Nat.le_succ_of_le h)

/-- What is left of a node is read as what it is. -/
theorem nodeOf_partsOf (kindOf : Json → Except DataFault Kind) :
    nodeOf kindOf (partsOf j) j =
      (nodeContent kindOf j).bind fun (k, content) => nodeOfKind (partsOf content) k content := by
  rw [nodeOf]
  cases hcontent : nodeContent kindOf j with
  | error e => rfl
  | ok node =>
    obtain ⟨k, content⟩ := node
    refine nodeOfKind_congr k fun i hi s => ?_
    have hj := Json.depth_lt_of_mem_inner (mem_inner_of_nodeContent hcontent i hi)
    exact partWithin_eq (Nat.lt_succ_of_lt hj)
      (Nat.lt_succ_of_lt (Json.depth_lt_of_mem_inner hi))

end Document

end PredicateTree
