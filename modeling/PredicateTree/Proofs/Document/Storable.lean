import PredicateTree.Proofs.Document.Records

/-!
# Proofs.Document.Storable

Which parts of a document are read back from the tree of data that is written for them.

* `Storable`: what can be told apart once it is stored. A whole number is held without a sign only
  beyond the numbers with one, a number is finite, and the names of a table increase.
* `Storable.isStored`: what is written for a storable part is stored as it is.
* `Storable.reads`: a storable part is read back from what is written for it, by the field that
  holds it and with any depth that is enough. Both inductions follow `Storable`, so a node is read
  from the rows of its fields.
-/

namespace PredicateTree

namespace Document

open Json (DataFault)

/-! ## What can be told apart -/

/-- Parts without values in them. -/
def Part.isPlain : Part → Bool
  | .text _ | .optionalText _ | .declarations _ | .binaryOp _ | .unaryOp _ | .markers _ => true
  | _ => false

inductive Storable : Part → Prop where
  | plain {p : Part} : p.isPlain = true → Storable p
  | node {n : Node} : (∀ p ∈ n.parts, Storable p) → Storable (.node n)
  | noNode : Storable (.optionalNode none)
  | someNode {n : Node} : Storable (.node n) → Storable (.optionalNode (some n))
  | nodes {ns : List Node} : (∀ n ∈ ns, Storable (.node n)) → Storable (.nodes ns)
  | null : Storable (.datum .null)
  | bool (b : Bool) : Storable (.datum (.bool b))
  | int (n : Int64) : Storable (.datum (.int n))
  | unsigned {n : UInt64} : Nat.pow 2 63 ≤ n.toNat → Storable (.datum (.unsigned n))
  | float {x : Binary64} : x.isFinite = true → Storable (.datum (.float x))
  | str (s : String) : Storable (.datum (.str s))
  | object {c : String} {fs : Table Datum} : Storable (.fields fs) → Storable (.datum (.object c fs))
  | written {n : Node} : Storable (.node n) → Storable (.datum (.node n))
  | fields {fs : Table Datum} : fs.Ordered → (∀ f ∈ fs, Storable (.datum f.2)) →
      Storable (.fields fs)
  | tables {ts : Table (Table Datum)} : ts.Ordered → (∀ t ∈ ts, Storable (.fields t.2)) →
      Storable (.tables ts)

/-! ## Nodes as rows -/

/-- The fields of a node with what they hold. -/
def Node.rows (n : Node) : List (Field × Part) := n.kind.fields.zip n.parts

theorem Node.fst_rows (n : Node) : n.rows.map Prod.fst = n.kind.fields := by cases n <;> rfl

theorem Node.snd_rows (n : Node) : n.rows.map Prod.snd = n.parts := by cases n <;> rfl

theorem Node.slots_rows (n : Node) :
    n.rows.map (fun r => r.1.slot) = n.rows.map fun r => r.2.slot := by
  cases n <;> rfl

theorem Node.toJson_eq (n : Node) :
    n.toJson = .object ((kindField, .string n.kind.name) :: n.rows.map memberOf) := by
  cases n <;> rw [Node.toJson] <;> rfl

/-- What is written for the parts of a node stands right below it. -/
theorem Node.toJson_mem_inner (n : Node) {p : Part} (hp : p ∈ n.parts) :
    p.toJson ∈ n.toJson.inner := by
  rw [← n.snd_rows] at hp
  obtain ⟨r, hr, rfl⟩ := List.mem_map.1 hp
  rw [n.toJson_eq]
  exact List.mem_map.2 ⟨memberOf r, List.mem_cons_of_mem _ (List.mem_map_of_mem hr), rfl⟩

theorem Kind.nodup_names (k : Kind) : (k.fields.map Field.name).Nodup := by cases k <;> decide

theorem Kind.kindField_not_mem (k : Kind) : kindField ∉ k.fields.map Field.name := by
  cases k <;> decide

theorem Node.nodup_rows (n : Node) : (n.rows.map (·.1.name)).Nodup := by
  have h := n.kind.nodup_names
  rwa [← n.fst_rows, List.map_map] at h

theorem Kind.byName_name (k : Kind) : Kind.byName (.string k.name) = .ok k := by
  rw [byName, ofString, named, ofName?_name]

theorem Kind.ofJson_name (k : Kind) : Kind.ofJson (.string k.name) = .ok k := k.byName_name

variable {kindOf : Json → Except DataFault Kind}

/-- Behind the kind nothing else is called so. -/
theorem splitKind_some {k : Kind} {ms : List (String × Json)} (h : ∀ m ∈ ms, m.1 ≠ kindField)
    (others : List (String × Json)) :
    splitKind kindOf (some k) others ms = .ok (k, others.reverse ++ ms) := by
  induction ms generalizing others with
  | nil => rw [splitKind, List.append_nil]
  | cons m ms ih =>
    obtain ⟨name, j⟩ := m
    have hms := ih (fun m hm => h m (List.mem_cons_of_mem _ hm)) ((name, j) :: others)
    rw [splitKind, if_neg (h (name, j) List.mem_cons_self), hms, List.reverse_cons,
      List.append_assoc]
    rfl

section Reads

variable {part : PartOf}

/-- A node is read back if every part is by the field that holds it. -/
theorem nodeOf_toJson {n : Node} (hname : kindOf (.string n.kind.name) = .ok n.kind)
    (h : ∀ p ∈ n.parts, part p.slot p.toJson = .ok p) : nodeOf kindOf part n.toJson = .ok n := by
  have hkind : ∀ m ∈ n.rows.map memberOf, m.1 ≠ kindField := by
    intro m hm heq
    obtain ⟨r, hr, rfl⟩ := List.mem_map.1 hm
    refine n.kind.kindField_not_mem ?_
    rw [← n.fst_rows, List.map_map, ← heq]
    exact List.mem_map.2 ⟨r, hr, rfl⟩
  have hrows : ∀ r ∈ n.rows, part r.1.slot r.2.toJson = .ok r.2 := by
    intro r hr
    have hslot : r.1.slot = r.2.slot := List.map_inj_left.1 n.slots_rows r hr
    rw [hslot]
    exact h r.2 (n.snd_rows ▸ List.mem_map_of_mem hr)
  have hrecord := @recordOf_rows part n.rows n.kind.title n.kind.title n.nodup_rows hrows
  rw [n.fst_rows, n.snd_rows] at hrecord
  rw [n.toJson_eq, nodeOf, nodeContent, splitKind, if_pos rfl, hname]
  simp only [splitKind_some hkind, List.reverse_nil, List.nil_append, nodeOfKind, hrecord,
    Kind.assemble?_parts]

/-! ### Values -/

theorem Kind.names_not_mem (k : Kind) :
    ∀ name ∈ kindField :: k.fields.map Field.name, name ∉ Datum.fields.map Field.name := by
  cases k <;> decide

/-- A node is not taken for an object value. -/
theorem objectOf?_node (n : Node) : objectOf? part n.toJson = none := by
  have hms : ∀ m ∈ (kindField, Json.string n.kind.name) :: n.rows.map memberOf,
      m.1 ∉ Datum.fields.map Field.name := by
    intro m hm
    refine n.kind.names_not_mem m.1 ?_
    rw [← n.fst_rows, List.map_map]
    rcases List.mem_cons.1 hm with rfl | hm
    · exact List.mem_cons_self
    · obtain ⟨r, hr, rfl⟩ := List.mem_map.1 hm
      exact List.mem_cons_of_mem _ (List.mem_map.2 ⟨r, hr, rfl⟩)
  rw [n.toJson_eq, objectOf?, recordOf, scanMembers_of_not_mem hms]
  rfl

theorem objectOf?_object {c : String} {fs : Table Datum}
    (htext : part .text (.string c) = .ok (.text c))
    (hfields : part .fields (Part.fields fs).toJson = .ok (.fields fs)) :
    objectOf? part (Datum.object c fs).toJson = some (.object c fs) := by
  have hnames : ["object", "fields"].Nodup := by decide
  have hrecord : recordOf part "" "" Datum.fields
      (.object [("object", .string c), ("fields", .object (Datum.toJsonFields fs))]) =
        .ok [.text c, .fields fs] :=
    @recordOf_rows part [(.text "object", .text c),
      (⟨"fields", .fields, some (.fields [])⟩, .fields fs)] "" "" hnames
      (List.forall_mem_cons.2 ⟨htext, List.forall_mem_singleton.2 hfields⟩)
  rw [Datum.toJson, objectOf?, hrecord]

theorem datumOf_int (n : Int64) : datumOf part (Datum.int n).toJson = .ok (.int n) := by
  rw [Datum.toJson]
  split
  · rename_i hn
    have hword : n.toNatClampNeg.toUInt64.toNat = n.toNatClampNeg :=
      UInt64.toNat_ofNat_of_lt' (Nat.lt_trans n.toNatClampNeg_lt (by decide))
    have hlt : n.toNatClampNeg < Nat.pow 2 63 := n.toNatClampNeg_lt
    rw [datumOf, hword, if_pos hlt, Int64.ofNat_toNatClampNeg n hn]
  · rfl

/-- A tree with members is an object value if it can be, and a node otherwise. -/
theorem datumOf_object (ms : List (String × Json)) :
    datumOf part (.object ms) =
      match objectOf? part (.object ms) with
      | some d => .ok d
      | none =>
        match nodeOf Kind.ofJson part (.object ms) with
        | .ok n => .ok (.node n)
        | .error _ => .error .noMatch := rfl

/-! ### Rows of items -/

theorem mapM_eq_ok {α β ε : Type} {f : β → Except ε α} {g : α → β} {as : List α}
    (h : ∀ a ∈ as, f (g a) = .ok a) : (as.map g).mapM f = .ok as := by
  induction as with
  | nil => rfl
  | cons a as ih =>
    have ha := h a List.mem_cons_self
    have has := ih fun b hb => h b (List.mem_cons_of_mem a hb)
    rw [List.map_cons, List.mapM_cons, ha, has]
    rfl

theorem toJsonList_eq_map (ns : List Node) : Node.toJsonList ns = ns.map Node.toJson := by
  induction ns with
  | nil => rfl
  | cons n ns ih => rw [Node.toJsonList, ih, List.map_cons]

theorem toJsonFields_eq_map (fs : List (String × Datum)) :
    Datum.toJsonFields fs = fs.map fun f => (f.1, f.2.toJson) := by
  induction fs with
  | nil => rfl
  | cons f fs ih =>
    obtain ⟨k, d⟩ := f
    rw [Datum.toJsonFields, ih, List.map_cons]

theorem tableOf_eq_ok {α : Type} {f : Json → Except DataFault α} {g : α → Json} {t : Table α}
    (ht : t.Ordered) (h : ∀ e ∈ t, f (g e.2) = .ok e.2) :
    tableOf f (.object (t.map fun e => (e.1, g e.2))) = .ok t := by
  have hentries : (t.map fun e => (e.1, g e.2)).mapM (fun m => do return (m.1, ← f m.2)) =
      (.ok t : Except DataFault (Table α)) := by
    refine mapM_eq_ok fun e he => ?_
    rw [h e he]
    rfl
  rw [tableOf, hentries]
  exact congrArg Except.ok (Table.ofList_of_ordered ht)

theorem declarationOf_toJson (d : Declaration)
    (htext : ∀ s, part .text (.string s) = .ok (.text s)) :
    declarationOf part d.toJson = .ok d := by
  have hnames : ["name", "type"].Nodup := by decide
  have hrecord : recordOf part "struct ParamDoc" "struct ParamDoc" Declaration.fields d.toJson =
      .ok [.text d.name, .text d.ty] :=
    @recordOf_rows part [(.text "name", .text d.name), (.text "type", .text d.ty)]
      "struct ParamDoc" "struct ParamDoc" hnames
      (List.forall_mem_cons.2 ⟨htext _, List.forall_mem_singleton.2 (htext _)⟩)
  rw [declarationOf, hrecord]

end Reads

/-! ## What is written is read -/

/-- The part is read back from what is written for it, with any depth that is enough. -/
def Reads (p : Part) : Prop :=
  ∀ depth, p.toJson.depth < depth → partWithin depth p.slot p.toJson = .ok p

theorem map_eq_ok {α β ε : Type} {f : α → β} {x : Except ε α} {b : β} :
    x.map f = .ok b ↔ ∃ a, x = .ok a ∧ f a = b := by
  cases x <;> simp [Except.map]

theorem partWithin_text (depth : Nat) (s : String) :
    partWithin (depth + 1) .text (.string s) = .ok (.text s) := rfl

theorem Reads.nodeOf {n : Node} {depth : Nat} (h : Reads (.node n))
    (hn : n.toJson.depth ≤ depth) :
    nodeOf Kind.ofJson (partWithin depth) n.toJson = .ok n := by
  obtain ⟨_, hread, heq⟩ := map_eq_ok.1 (h (depth + 1) (Nat.lt_succ_of_le hn))
  cases heq
  exact hread

theorem Reads.datumOf {d : Datum} {depth : Nat} (h : Reads (.datum d))
    (hd : d.toJson.depth ≤ depth) : datumOf (partWithin depth) d.toJson = .ok d := by
  obtain ⟨_, hread, heq⟩ := map_eq_ok.1 (h (depth + 1) (Nat.lt_succ_of_le hd))
  cases heq
  exact hread

theorem Reads.tableOf {fs : Table Datum} {depth : Nat} (h : Reads (.fields fs))
    (hfs : (Part.fields fs).toJson.depth ≤ depth) :
    tableOf (Document.datumOf (partWithin depth)) (Part.fields fs).toJson = .ok fs := by
  obtain ⟨_, hread, heq⟩ := map_eq_ok.1 (h (depth + 1) (Nat.lt_succ_of_le hfs))
  cases heq
  exact hread

/-- A field is read one level above the fields in it. -/
theorem reads_of_le {p : Part}
    (h : ∀ depth, p.toJson.depth ≤ depth → partWithin (depth + 1) p.slot p.toJson = .ok p) :
    Reads p := by
  intro depth hdepth
  cases depth with
  | zero => cases hdepth
  | succ depth => exact h depth (Nat.le_of_lt_succ hdepth)

theorem reads_plain {p : Part} (h : p.isPlain = true) : Reads p := by
  refine reads_of_le fun depth hdepth => ?_
  cases p with
  | text s => rfl
  | optionalText s => cases s <;> rfl
  | declarations ds =>
    obtain ⟨depth, rfl⟩ : ∃ m, depth = m + 1 := by
      rw [Part.toJson, Json.depth] at hdepth
      exact ⟨depth - 1, by omega⟩
    refine map_eq_ok.2 ⟨_, mapM_eq_ok fun d _ => ?_, rfl⟩
    exact declarationOf_toJson d (partWithin_text depth)
  | binaryOp op =>
    refine map_eq_ok.2 ⟨_, ?_, rfl⟩
    show named _ _ _ = _
    rw [named, BinaryOp.ofName?_name]
  | unaryOp op =>
    refine map_eq_ok.2 ⟨_, ?_, rfl⟩
    show named _ _ _ = _
    rw [named, UnaryOp.ofName?_name]
  | markers ms =>
    refine map_eq_ok.2 ⟨_, ?_, rfl⟩
    rw [Part.toJson, texts, List.map_map]
    refine mapM_eq_ok fun m _ => ?_
    show named _ _ _ = _
    rw [named, Marker.ofName?_name]
  | _ => cases h

/-- What is written for a storable part has a number wherever one is meant. -/
theorem Storable.isStored {p : Part} (h : Storable p) : p.toJson.IsStored := by
  induction h with
  | @plain p hp =>
    cases p with
    | text _ | binaryOp _ | unaryOp _ => rfl
    | optionalText s => cases s <;> rfl
    | declarations ds =>
      refine Json.isStored_array_iff.2 fun j hj => ?_
      obtain ⟨d, -, rfl⟩ := List.mem_map.1 hj
      rfl
    | markers ms =>
      refine Json.isStored_array_iff.2 fun j hj => ?_
      obtain ⟨s, -, rfl⟩ := List.mem_map.1 hj
      rfl
    | _ => cases hp
  | @node n _ ih =>
    show n.toJson.IsStored
    rw [n.toJson_eq]
    refine Json.isStored_object_iff.2 (List.forall_mem_cons.2 ⟨rfl, fun m hm => ?_⟩)
    obtain ⟨r, hr, rfl⟩ := List.mem_map.1 hm
    exact ih r.2 (n.snd_rows ▸ List.mem_map_of_mem hr)
  | noNode | null | bool | unsigned | str => rfl
  | someNode _ ih => exact ih
  | @nodes ns _ ih =>
    rw [Part.toJson, toJsonList_eq_map]
    refine Json.isStored_array_iff.2 fun j hj => ?_
    obtain ⟨n, hn, rfl⟩ := List.mem_map.1 hj
    exact ih n hn
  | int n =>
    show (Datum.int n).toJson.IsStored
    rw [Datum.toJson]
    split <;> rfl
  | float hx => exact Json.isStored_float_iff.2 hx
  | @object c fs _ ih =>
    show (Datum.object c fs).toJson.IsStored
    rw [Datum.toJson]
    exact Json.isStored_object_iff.2
      (List.forall_mem_cons.2 ⟨rfl, List.forall_mem_singleton.2 ih⟩)
  | written _ ih => exact ih
  | @fields fs _ _ ih =>
    rw [Part.toJson, toJsonFields_eq_map]
    refine Json.isStored_object_iff.2 fun m hm => ?_
    obtain ⟨f, hf, rfl⟩ := List.mem_map.1 hm
    exact ih f hf
  | @tables ts _ _ ih =>
    refine Json.isStored_object_iff.2 fun m hm => ?_
    obtain ⟨t, ht, rfl⟩ := List.mem_map.1 hm
    exact ih t ht

theorem Storable.reads {p : Part} (h : Storable p) : Reads p := by
  induction h with
  | plain hp => exact reads_plain hp
  | @node n _ ih =>
    refine reads_of_le fun depth hdepth => ?_
    refine map_eq_ok.2 ⟨_, nodeOf_toJson n.kind.ofJson_name fun p hp => ?_, rfl⟩
    have hlt := Json.depth_lt_of_mem_inner (n.toJson_mem_inner hp)
    exact ih p hp depth (Nat.lt_of_lt_of_le hlt hdepth)
  | noNode => exact reads_of_le fun _ _ => rfl
  | @someNode n _ ih =>
    refine reads_of_le fun depth hdepth => ?_
    have hn : nodeOf Kind.ofJson (partWithin depth) n.toJson = .ok n := ih.nodeOf hdepth
    show partWithin (depth + 1) .optionalNode n.toJson = _
    rw [n.toJson_eq] at hn ⊢
    exact map_eq_ok.2 ⟨_, hn, rfl⟩
  | @nodes ns _ ih =>
    refine reads_of_le fun depth hdepth => map_eq_ok.2 ⟨_, ?_, rfl⟩
    rw [Part.toJson, toJsonList_eq_map] at hdepth ⊢
    refine mapM_eq_ok fun n hn => (ih n hn).nodeOf (Nat.le_of_lt (Nat.lt_of_lt_of_le ?_ hdepth))
    exact Json.depth_lt_of_mem_inner (List.mem_map_of_mem hn)
  | null | bool | str | float => exact reads_of_le fun _ _ => rfl
  | int n => exact reads_of_le fun _ _ => map_eq_ok.2 ⟨_, datumOf_int n, rfl⟩
  | @unsigned n hn =>
    refine reads_of_le fun depth _ => ?_
    show Except.ok (Part.datum (if n.toNat < Nat.pow 2 63 then _ else _)) = _
    rw [if_neg (Nat.not_lt_of_le hn)]
  | @object c fs _ ih =>
    refine reads_of_le fun depth hdepth => map_eq_ok.2 ⟨_, ?_, rfl⟩
    have hinner : (Part.fields fs).toJson.depth < depth := by
      refine Nat.lt_of_lt_of_le (Json.depth_lt_of_mem_inner ?_) hdepth
      rw [Part.toJson, Datum.toJson]
      exact List.mem_cons_of_mem _ List.mem_cons_self
    obtain ⟨depth, rfl⟩ : ∃ m, depth = m + 1 := ⟨depth - 1, by omega⟩
    have hobject := objectOf?_object (partWithin_text depth c) (ih (depth + 1) hinner)
    show datumOf _ (Datum.object c fs).toJson = _
    rw [Datum.toJson] at hobject ⊢
    rw [datumOf_object, hobject]
  | @written n _ ih =>
    refine reads_of_le fun depth hdepth => map_eq_ok.2 ⟨_, ?_, rfl⟩
    have hn : nodeOf Kind.ofJson (partWithin depth) n.toJson = .ok n := ih.nodeOf hdepth
    have hnot : objectOf? (partWithin depth) n.toJson = none := objectOf?_node n
    show datumOf _ n.toJson = _
    rw [n.toJson_eq] at hn hnot ⊢
    rw [datumOf_object, hnot, hn]
  | @fields fs hfs _ ih =>
    refine reads_of_le fun depth hdepth => map_eq_ok.2 ⟨_, ?_, rfl⟩
    rw [Part.toJson, toJsonFields_eq_map] at hdepth ⊢
    refine tableOf_eq_ok hfs fun f hf =>
      (ih f hf).datumOf (Nat.le_of_lt (Nat.lt_of_lt_of_le ?_ hdepth))
    exact Json.depth_lt_of_mem_inner (List.mem_map.2 ⟨_, List.mem_map_of_mem hf, rfl⟩)
  | @tables ts hts _ ih =>
    refine reads_of_le fun depth hdepth => map_eq_ok.2 ⟨_, ?_, rfl⟩
    refine @tableOf_eq_ok _ _ (fun fs => (Part.fields fs).toJson) ts hts fun t ht =>
      (ih t ht).tableOf (Nat.le_of_lt (Nat.lt_of_lt_of_le ?_ hdepth))
    exact Json.depth_lt_of_mem_inner (List.mem_map.2 ⟨_, List.mem_map_of_mem ht, rfl⟩)

end Document

end PredicateTree
