import Mathlib.Data.List.Nodup
import Mathlib.Data.String.Basic
import PredicateTree.Document.Decode
import PredicateTree.Document.Encode
import PredicateTree.Proofs.Expr.Parts
import PredicateTree.Proofs.Json

/-!
# Proofs.Document.Records

How records and tables are written and read back.

* `Table.Ordered`: the names of a table increase. `ofList_of_ordered` and `ordered_ofList` say that
  these are the tables that reading gives, and that reading does not change them.
* `Part.toJson`: what is written for a field; a row of a record is a field with what it holds.
* `recordOf_rows`: a record is read back from its rows, if each of them is.
* `recordOf_forall`: what every field reads has a property that all parts of the record have then,
  in either form of a record.
-/

namespace PredicateTree

/-! ## Tables -/

namespace Table

variable {α : Type} {t : Table α} {name : String} {a : α}

def Ordered (t : Table α) : Prop := t.names.Pairwise (· < ·)

theorem put_eq_append (h : ∀ k ∈ t.names, k < name) : t.put name a = t ++ [(name, a)] := by
  induction t with
  | nil => rfl
  | cons e t ih =>
    obtain ⟨k, b⟩ := e
    have hk : k < name := h k List.mem_cons_self
    have ht := ih fun k' hk' => h k' (List.mem_cons_of_mem k hk')
    rw [put, if_neg (not_lt_of_gt hk), if_neg hk.ne', ht, List.cons_append]

theorem ofList_of_ordered (h : t.Ordered) : ofList t = t := by
  have hfold : ∀ (rest done : Table α), Ordered (done ++ rest) →
      rest.foldl (fun t e => t.put e.1 e.2) done = done ++ rest := by
    intro rest
    induction rest with
    | nil => exact fun done _ => (List.append_nil done).symm
    | cons e rest ih =>
      intro done hdone
      have happend : done ++ e :: rest = (done ++ [e]) ++ rest := by simp
      have hlt : ∀ k ∈ done.names, k < e.1 := by
        intro k hk
        rw [Ordered, names, List.map_append] at hdone
        exact (List.pairwise_append.1 hdone).2.2 k hk e.1 List.mem_cons_self
      rw [happend] at hdone ⊢
      rw [List.foldl_cons, put_eq_append hlt]
      exact ih _ hdone
  exact hfold t [] h

theorem mem_names_put {k : String} (h : k ∈ (t.put name a).names) : k = name ∨ k ∈ t.names := by
  obtain ⟨e, he, rfl⟩ := List.mem_map.1 h
  rcases mem_put he with rfl | he
  · exact .inl rfl
  · exact .inr (List.mem_map_of_mem he)

theorem Ordered.put (h : t.Ordered) : (t.put name a).Ordered := by
  induction t with
  | nil => exact List.pairwise_singleton _ _
  | cons e t ih =>
    obtain ⟨k, b⟩ := e
    obtain ⟨hk, ht⟩ := List.pairwise_cons.1 h
    rw [Table.put]
    split
    · rename_i hlt
      refine List.pairwise_cons.2 ⟨fun k' hk' => ?_, h⟩
      rcases List.mem_cons.1 hk' with rfl | hk'
      · exact hlt
      · exact hlt.trans (hk k' hk')
    split
    · rename_i heq
      subst heq
      exact List.pairwise_cons.2 ⟨hk, ht⟩
    · rename_i hlt hne
      refine List.pairwise_cons.2 ⟨fun k' hk' => ?_, ih ht⟩
      rcases mem_names_put hk' with rfl | hk'
      · exact lt_of_le_of_ne (not_lt.1 hlt) (Ne.symm hne)
      · exact hk k' hk'

theorem ordered_ofList (entries : List (String × α)) : (ofList entries).Ordered := by
  have hfold : ∀ (es : List (String × α)) (t : Table α), t.Ordered →
      Ordered (es.foldl (fun t e => t.put e.1 e.2) t) := by
    intro es
    induction es with
    | nil => exact fun t ht => ht
    | cons e es ih => exact fun t ht => ih _ ht.put
  exact hfold entries [] List.Pairwise.nil

end Table

namespace Document

open Json (DataFault)

/-! ## Rows of a record -/

namespace Part

/-- The slot that holds such a part. -/
def slot : Part → Slot
  | node _ => .node
  | optionalNode _ => .optionalNode
  | nodes _ => .nodes
  | text _ => .text
  | optionalText _ => .optionalText
  | datum _ => .datum
  | fields _ => .fields
  | tables _ => .tables
  | declarations _ => .declarations
  | binaryOp _ => .binaryOp
  | unaryOp _ => .unaryOp
  | markers _ => .markers

def toJson : Part → Json
  | node n => n.toJson
  | optionalNode t => Node.toJsonOption t
  | nodes ns => .array (Node.toJsonList ns)
  | text s => .string s
  | optionalText s => textOrNull s
  | datum d => d.toJson
  | fields fs => .object (Datum.toJsonFields fs)
  | tables ts => .object (ts.map fun t => (t.1, .object (Datum.toJsonFields t.2)))
  | declarations ds => .array (ds.map Declaration.toJson)
  | binaryOp op => .string op.name
  | unaryOp op => .string op.name
  | markers ms => texts (ms.map Marker.name)

end Part

/-- What an object says about a field. -/
def memberOf (r : Field × Part) : String × Json := (r.1.name, r.2.toJson)

/-- What has been seen of a field. -/
def seenAs (r : Field × Part) : String × Part := (r.1.name, r.2)

variable {part : PartOf} {fields : List Field} {rows : List (Field × Part)} {title wanted : String}

theorem find?_name {f : Field} (hnames : (fields.map Field.name).Nodup) (hf : f ∈ fields) :
    fields.find? (·.name == f.name) = some f := by
  induction fields with
  | nil => cases hf
  | cons g fields ih =>
    obtain ⟨hg, hnames⟩ := List.nodup_cons.1 hnames
    rcases List.mem_cons.1 hf with rfl | hf
    · exact List.find?_cons_of_pos (beq_self_eq_true _)
    · have hne : g.name ≠ f.name := fun h => hg (h ▸ List.mem_map_of_mem hf)
      rw [List.find?_cons_of_neg (by simpa using hne)]
      exact ih hnames hf

theorem lookup_seenAs {r : Field × Part} (hnames : (rows.map (·.1.name)).Nodup) (hr : r ∈ rows) :
    List.lookup r.1.name (rows.map seenAs) = some r.2 := by
  induction rows with
  | nil => cases hr
  | cons q rows ih =>
    obtain ⟨hq, hnames⟩ := List.nodup_cons.1 hnames
    rcases List.mem_cons.1 hr with rfl | hr
    · exact List.lookup_cons_self
    · have hne : r.1.name ≠ q.1.name := by
        intro h
        exact hq (List.mem_map.2 ⟨r, hr, h⟩)
      rw [List.map_cons, seenAs, List.lookup_cons, beq_false_of_ne hne]
      exact ih hnames hr

theorem lookup_seenAs_eq_none {name : String} (h : name ∉ rows.map (·.1.name)) :
    List.lookup name (rows.map seenAs) = none := by
  rw [List.lookup_eq_none_iff]
  intro e he
  obtain ⟨r, hr, rfl⟩ := List.mem_map.1 he
  have hne : name ≠ (seenAs r).1 := by
    rintro rfl
    exact h (List.mem_map.2 ⟨r, hr, rfl⟩)
  simpa using hne

/-- Members that are no fields are passed over. -/
theorem scanMembers_of_not_mem {seen : List (String × Part)} {ms : List (String × Json)}
    (h : ∀ m ∈ ms, m.1 ∉ fields.map Field.name) : scanMembers part fields seen ms = .ok seen := by
  induction ms with
  | nil => rfl
  | cons m ms ih =>
    obtain ⟨k, j⟩ := m
    have hk : fields.find? (·.name == k) = none := by
      rw [List.find?_eq_none]
      intro f hf heq
      exact h (k, j) List.mem_cons_self (List.mem_map.2 ⟨f, hf, beq_iff_eq.1 heq⟩)
    rw [scanMembers, hk]
    exact ih fun m hm => h m (List.mem_cons_of_mem _ hm)

theorem scanMembers_rows (hnames : (rows.map (·.1.name)).Nodup)
    (hpart : ∀ r ∈ rows, part r.1.slot r.2.toJson = .ok r.2) :
    scanMembers part (rows.map Prod.fst) [] (rows.map memberOf) = .ok (rows.reverse.map seenAs) := by
  have hscan : ∀ rest done : List (Field × Part), rows = done ++ rest →
      scanMembers part (rows.map Prod.fst) (done.reverse.map seenAs) (rest.map memberOf) =
        .ok (rows.reverse.map seenAs) := by
    intro rest
    induction rest with
    | nil =>
      intro done hdone
      rw [hdone, List.append_nil]
      rfl
    | cons r rest ih =>
      intro done hdone
      have hr : r ∈ rows := hdone ▸ List.mem_append_right done List.mem_cons_self
      have hfields : ((rows.map Prod.fst).map Field.name).Nodup := by rwa [List.map_map]
      have hfind := find?_name hfields (List.mem_map_of_mem (f := Prod.fst) hr)
      have hnew : List.lookup r.1.name (done.reverse.map seenAs) = none := by
        refine lookup_seenAs_eq_none fun hmem => ?_
        rw [hdone, List.map_append, List.nodup_append] at hnames
        rw [List.map_reverse, List.mem_reverse] at hmem
        exact hnames.2.2 _ hmem _ List.mem_cons_self rfl
      have hrest := ih (done ++ [r]) (by rw [hdone, List.append_assoc]; rfl)
      rw [List.reverse_append] at hrest
      rw [List.map_cons, memberOf, scanMembers, hfind]
      simp only [hnew, Option.isSome_none, Bool.false_eq_true, if_false, hpart r hr]
      exact hrest
  exact hscan rows [] rfl

theorem completed_rows {seen : List (String × Part)}
    (h : ∀ r ∈ rows, List.lookup r.1.name seen = some r.2) :
    completed seen (rows.map Prod.fst) = .ok (rows.map Prod.snd) := by
  induction rows with
  | nil => rfl
  | cons r rows ih =>
    have hr := h r List.mem_cons_self
    have hrows := ih fun q hq => h q (List.mem_cons_of_mem r hq)
    rw [List.map_cons, completed, hr, Option.some_or, hrows]
    rfl

theorem recordOf_rows (hnames : (rows.map (·.1.name)).Nodup)
    (hpart : ∀ r ∈ rows, part r.1.slot r.2.toJson = .ok r.2) :
    recordOf part title wanted (rows.map Prod.fst) (.object (rows.map memberOf)) =
      .ok (rows.map Prod.snd) := by
  have hreverse : (rows.reverse.map (·.1.name)).Nodup := by
    rwa [List.map_reverse, List.nodup_reverse]
  rw [recordOf, scanMembers_rows hnames hpart]
  exact completed_rows fun r hr => lookup_seenAs hreverse (List.mem_reverse.2 hr)

/-! ## What a record reads -/

section Forall

variable {Q : Part → Prop}

theorem scanMembers_forall {seen seen' : List (String × Part)} {ms : List (String × Json)}
    (hpart : ∀ m ∈ ms, ∀ s p, part s m.2 = .ok p → Q p) (hseen : ∀ e ∈ seen, Q e.2)
    (h : scanMembers part fields seen ms = .ok seen') : ∀ e ∈ seen', Q e.2 := by
  induction ms generalizing seen with
  | nil =>
    cases h
    exact hseen
  | cons m ms ih =>
    obtain ⟨k, j⟩ := m
    have hms : ∀ m ∈ ms, ∀ s p, part s m.2 = .ok p → Q p :=
      fun m hm => hpart m (List.mem_cons_of_mem _ hm)
    rw [scanMembers] at h
    split at h
    · exact ih hms hseen h
    · rename_i f _
      split at h
      · cases h
      · split at h
        · cases h
        · rename_i p hp
          refine ih hms (fun e he => ?_) h
          rcases List.mem_cons.1 he with rfl | he
          · exact hpart (k, j) List.mem_cons_self f.slot p hp
          · exact hseen e he

theorem completed_forall {seen : List (String × Part)} {ps : List Part}
    (habsent : ∀ f ∈ fields, ∀ p ∈ f.absent, Q p) (hseen : ∀ e ∈ seen, Q e.2)
    (h : completed seen fields = .ok ps) : ∀ p ∈ ps, Q p := by
  induction fields generalizing ps with
  | nil =>
    cases h
    exact List.forall_mem_nil _
  | cons f fields ih =>
    rw [completed] at h
    split at h
    · cases h
    · rename_i p hp
      split at h
      · cases h
      · rename_i qs hqs
        cases h
        have hQ : Q p := by
          rcases Option.or_eq_some_iff.1 hp with hlookup | ⟨-, hp⟩
          · exact hseen _ (mem_of_lookup hlookup)
          · exact habsent f List.mem_cons_self p hp
        have hqs := ih (fun g hg => habsent g (List.mem_cons_of_mem f hg)) hqs
        exact List.forall_mem_cons.2 ⟨hQ, hqs⟩

theorem scanItems_forall {count i : Nat} {js : List Json} {ps : List Part}
    (habsent : ∀ f ∈ fields, ∀ p ∈ f.absent, Q p)
    (hpart : ∀ j ∈ js, ∀ s p, part s j = .ok p → Q p)
    (h : scanItems part title count i fields js = .ok ps) : ∀ p ∈ ps, Q p := by
  induction fields generalizing i js ps with
  | nil =>
    cases js with
    | nil =>
      cases h
      exact List.forall_mem_nil _
    | cons j js => cases h
  | cons f fields ih =>
    have habsent' : ∀ g ∈ fields, ∀ p ∈ g.absent, Q p :=
      fun g hg => habsent g (List.mem_cons_of_mem f hg)
    cases js with
    | nil =>
      rw [scanItems] at h
      split at h
      · cases h
      · rename_i p hp
        split at h
        · cases h
        · rename_i qs hqs
          cases h
          exact List.forall_mem_cons.2
            ⟨habsent f List.mem_cons_self p hp, ih habsent' hpart hqs⟩
    | cons j js =>
      rw [scanItems] at h
      split at h
      · cases h
      · rename_i p hp
        split at h
        · cases h
        · rename_i qs hqs
          cases h
          have hjs : ∀ j ∈ js, ∀ s p, part s j = .ok p → Q p :=
            fun j hj => hpart j (List.mem_cons_of_mem _ hj)
          exact List.forall_mem_cons.2
            ⟨hpart j List.mem_cons_self f.slot p hp, ih habsent' hjs hqs⟩

theorem recordOf_forall {j : Json} {ps : List Part}
    (habsent : ∀ f ∈ fields, ∀ p ∈ f.absent, Q p)
    (hpart : ∀ i ∈ j.inner, ∀ s p, part s i = .ok p → Q p)
    (h : recordOf part title wanted fields j = .ok ps) : ∀ p ∈ ps, Q p := by
  cases j with
  | object ms =>
    rw [recordOf] at h
    split at h
    · cases h
    · rename_i seen hscan
      have hms : ∀ m ∈ ms, ∀ s p, part s m.2 = .ok p → Q p :=
        fun m hm => hpart m.2 (List.mem_map_of_mem hm)
      exact completed_forall habsent (scanMembers_forall hms (List.forall_mem_nil _) hscan) h
  | array js => exact scanItems_forall habsent hpart h
  | _ => cases h

end Forall

end Document

end PredicateTree
