import PredicateTree.Proofs.Document.RoundTrip
import PredicateTree.Proofs.Document.Constants
import PredicateTree.Stages

/-!
# Proofs.Statics

The static members that expander and evaluator look up, and those that a document declares.

* `Statics.ofTables_eq`: tables that are registered member by member are there afterwards, all but
  the empty ones. A type is known once a member of it is, so a type without members never is.
* `Lowered.Ordered`: what is declared is listed under increasing names. `Document.lower_ordered`:
  so it is in every document that is read from a stored tree and lowered.
* `staticMembers_declared`: what is known of a type, and how a chain that starts at it fails, by
  what the document declares for it.
-/

namespace PredicateTree

namespace Table

variable {α : Type} {t : Table α} {name : String} {a : α}

theorem put_put (t : Table α) (name : String) (a b : α) :
    (t.put name a).put name b = t.put name b := by
  induction t with
  | nil => simp [put]
  | cons e t ih =>
    obtain ⟨k, c⟩ := e
    simp only [put]
    split
    · simp [put]
    · rename_i hlt
      split
      · simp [put]
      · rename_i hne
        simp only [put, if_neg hlt, if_neg hne, ih]

theorem Ordered.nodup (h : t.Ordered) : t.names.Nodup := h.imp fun hlt => hlt.ne

theorem Ordered.get?_eq_some_iff (h : t.Ordered) : t.get? name = some a ↔ (name, a) ∈ t := by
  refine ⟨mem_of_lookup, fun ha => ?_⟩
  obtain ⟨b, hb⟩ := exists_lookup_of_mem ha
  have hab : (name, b) = (name, a) :=
    List.inj_on_of_nodup_map h.nodup (mem_of_lookup hb) ha rfl
  exact hb.trans (congrArg some (Prod.mk.inj hab).2)

theorem Ordered.filter (h : t.Ordered) (p : String × α → Bool) : Ordered (t.filter p) :=
  List.Pairwise.sublist (List.filter_sublist.map Prod.fst) h

theorem Ordered.get?_filter (h : t.Ordered) (p : α → Bool) :
    get? (t.filter fun e => p e.2) name = (t.get? name).filter p := by
  apply Option.ext
  intro a
  rw [(h.filter _).get?_eq_some_iff, List.mem_filter, Option.filter_eq_some_iff,
    h.get?_eq_some_iff]

end Table

namespace Statics

/-- The members of one type, registered one by one, join those that are there. -/
theorem foldl_register (s : Statics) (type : String) {ms : Table Value} (h : ms ≠ []) :
    ms.foldl (fun s m => s.register type m.1 m.2) s =
      s.put type (ms.foldl (fun t m => t.put m.1 m.2) ((s.get? type).getD [])) := by
  induction ms generalizing s with
  | nil => exact absurd rfl h
  | cons m ms ih =>
    rw [List.foldl_cons, List.foldl_cons]
    cases ms with
    | nil => rfl
    | cons =>
      rw [ih _ (List.cons_ne_nil _ _), register, Table.get?_put_self, Table.put_put]
      rfl

theorem ofTables_eq {types : Table (Table Value)} (h : types.Ordered)
    (hmembers : ∀ t ∈ types, Table.Ordered t.2) :
    ofTables types = types.filter fun t => !t.2.isEmpty := by
  have hfold : ∀ (rest : Table (Table Value)) (done : Statics), Table.Ordered (done ++ rest) →
      (∀ t ∈ rest, Table.Ordered t.2) →
      rest.foldl (fun s t => t.2.foldl (fun s m => s.register t.1 m.1 m.2) s) done =
        done ++ rest.filter fun t => !t.2.isEmpty := by
    intro rest
    induction rest with
    | nil => exact fun done _ _ => (List.append_nil done).symm
    | cons t rest ih =>
      intro done hdone hrest
      obtain ⟨type, ms⟩ := t
      have hrest' : ∀ t ∈ rest, Table.Ordered t.2 := fun t ht => hrest t (List.mem_cons_of_mem _ ht)
      rw [List.foldl_cons]
      cases ms with
      | nil =>
        have hskip : Table.Ordered (done ++ rest) :=
          List.Pairwise.sublist
            (((List.sublist_cons_self _ rest).append_left done).map Prod.fst) hdone
        exact ih done hskip hrest'
      | cons m ms =>
        -- The names so far come before this one, so it is new and goes to the end.
        have hbefore : ∀ k ∈ Table.names done, k < type := by
          intro k hk
          rw [Table.Ordered, Table.names, List.map_append] at hdone
          exact (List.pairwise_append.1 hdone).2.2 k hk type List.mem_cons_self
        have hnew : done.get? type = none := by
          refine List.lookup_eq_none_iff.2 fun e he => ?_
          have hlt := hbefore e.1 (List.mem_map_of_mem he)
          simpa using hlt.ne'
        have hms : Table.ofList (m :: ms) = m :: ms :=
          Table.ofList_of_ordered (hrest _ List.mem_cons_self)
        rw [foldl_register done type (List.cons_ne_nil _ _), hnew, Option.getD_none]
        rw [Table.ofList] at hms
        rw [hms, Table.put_eq_append hbefore, ih _ (by simpa using hdone) hrest']
        simp
  exact hfold types [] h hmembers

end Statics

/-- Only the first step of a chain can meet an unknown type. -/
theorem Value.readMembers_ne_unknownType (names : List String) (type : String) :
    ∀ v : Value, v.readMembers names ≠ .error (.unknownType type) := by
  induction names with
  | nil =>
    intro v h
    cases h
  | cons m ms ih =>
    intro v h
    simp only [readMembers] at h
    split at h
    · exact ih _ h
    · rename_i e he
      cases h
      unfold readMember at he
      split at he
      · split at he <;> cases he
      · cases he

/-! ## Documents -/

/-- The names of the types increase, and for each type those of its members. -/
def Lowered.Ordered (l : Lowered) : Prop :=
  l.statics.Ordered ∧ ∀ t ∈ l.statics, Table.Ordered t.2

namespace Document

variable {c : Constants} {site : Site}

theorem lowerFields_names {fs : Table Datum} {i : Nat} {vs : Table Value}
    (h : Datum.lowerFields c [] site i fs = .ok vs) : vs.names = fs.names := by
  induction fs generalizing i vs with
  | nil =>
    cases h
    rfl
  | cons f fs ih =>
    simp only [Datum.lowerFields, Outcome.bind_eq_ok, Outcome.pure_eq_ok] at h
    obtain ⟨v, -, vs', hvs, rfl⟩ := h
    exact congrArg (f.1 :: ·) (ih hvs)

theorem lowerStatics_names {ts : Table (Table Datum)} {i : Nat} {us : Table (Table Value)}
    (h : lowerStatics c site i ts = .ok us) :
    us.names = ts.names ∧ ∀ u ∈ us, ∃ t ∈ ts, Table.names u.2 = Table.names t.2 := by
  induction ts generalizing i us with
  | nil =>
    cases h
    exact ⟨rfl, fun u hu => by cases hu⟩
  | cons t ts ih =>
    simp only [lowerStatics, Outcome.bind_eq_ok, Outcome.pure_eq_ok] at h
    obtain ⟨vs, hvs, us', hus, rfl⟩ := h
    obtain ⟨hnames, hmembers⟩ := ih hus
    refine ⟨congrArg (t.1 :: ·) hnames, fun u hu => ?_⟩
    rcases List.mem_cons.1 hu with rfl | hu
    · exact ⟨t, List.mem_cons_self, lowerFields_names hvs⟩
    · obtain ⟨t', ht', heq⟩ := hmembers u hu
      exact ⟨t', List.mem_cons_of_mem _ ht', heq⟩

theorem lower_ordered {j : Json} {doc : Document} {low : Lowered} (hj : j.IsStored)
    (hdoc : Document.ofJson j = .ok doc) (hlow : doc.lower site = .ok low) : low.Ordered := by
  obtain ⟨-, hstatics, -⟩ := lower_eq_ok hlow
  obtain ⟨hnames, hmembers⟩ := lowerStatics_names hstatics
  have hstored : Storable (.tables doc.statics) :=
    storable_of_ofJson hj hdoc _ (by simp [parts])
  obtain ⟨hordered, hfields⟩ : doc.statics.Ordered ∧ ∀ t ∈ doc.statics, Storable (.fields t.2) := by
    cases hstored with
    | tables h hf => exact ⟨h, hf⟩
    | plain h => cases h
  refine ⟨?_, fun u hu => ?_⟩
  · rwa [Table.Ordered, hnames]
  · obtain ⟨t, ht, heq⟩ := hmembers u hu
    have hmember : Storable (.fields t.2) := hfields t ht
    rw [Table.Ordered, heq]
    cases hmember with
    | fields h _ => exact h
    | plain h => cases h

end Document

namespace Lowered

variable {l : Lowered}

/-- What is known of a type are its declared members, if it has any. -/
theorem get?_staticMembers (h : l.Ordered) (type : String) :
    l.staticMembers.get? type = (l.statics.get? type).filter fun ms => !ms.isEmpty := by
  rw [staticMembers, Statics.ofTables_eq h.1 h.2]
  exact h.1.get?_filter fun ms => !ms.isEmpty

/-- A type is known as declared exactly if it is not declared without members. Then the object that
stands for it has its members, a chain that starts at it meets an unknown type exactly if it is not
declared, and fails for the first step if it has no such member. -/
theorem staticMembers_declared (h : l.Ordered) (type : String) :
    (l.staticMembers.contains type = l.statics.contains type ↔ l.statics.get? type ≠ some []) ∧
    (l.statics.get? type ≠ some [] →
      l.staticMembers.holder? type = (l.statics.get? type).map (.object type) ∧
      ∀ names,
        ((∃ name, l.staticMembers.resolver ⟨.static type, names⟩ = .error (.unknownType name)) ↔
          l.statics.contains type = false) ∧
        ∀ m ms, l.statics.get? type = some ms → Table.get? ms m = none →
          l.staticMembers.resolver ⟨.static type, m :: names⟩ =
            .error (.unknownMember type m)) := by
  have hget := get?_staticMembers h type
  constructor
  · rw [Table.contains, Table.contains, hget]
    cases htype : l.statics.get? type with
    | none => simp
    | some ms => cases ms <;> simp
  intro hnonempty
  have hsame : l.staticMembers.get? type = l.statics.get? type := by
    rw [hget]
    cases htype : l.statics.get? type with
    | none => rfl
    | some ms =>
      cases ms with
      | nil => exact absurd htype hnonempty
      | cons => rfl
  refine ⟨by rw [Statics.holder?, hsame], fun names => ⟨?_, fun m ms hms hm => ?_⟩⟩
  · simp only [Statics.resolver, Statics.read, Statics.holder, Statics.holder?, hsame,
      Table.contains]
    cases l.statics.get? type with
    | none => simp
    | some ms =>
      simp only [Option.map_some, Option.isSome_some, Bool.true_eq_false, iff_false, not_exists]
      intro name hname
      split at hname
      · cases hname
      · rename_i e he
        cases hname
        exact Value.readMembers_ne_unknownType names name _ he
  · simp only [Statics.resolver, Statics.read, Statics.holder, Statics.holder?, hsame, hms,
      Option.map_some, Value.readMembers, Value.readMember, hm]

end Lowered

namespace Declared

/-- Two types with a member of one name behind those in front, and `|p: int| p > 0`. -/
def tree (front : List (String × Json)) : Json :=
  .object [
    ("statics", .object (front ++ [("S", .object [("max", .unsigned 3)]),
      ("T", .object [("max", .unsigned 5), ("min", .null)])])),
    ("predicate", .array [.string "lambda", .array [.array [.string "p", .string "int"]],
      .array [.string "binary", .string "gt", .array [.string "param", .string "p"],
        .array [.string "literal", .unsigned 0]]])]

def document (front : Table (Table Document.Datum)) : Document where
  statics := front ++ [("S", [("max", .int 3)]), ("T", [("max", .int 5), ("min", .null)])]
  constants := []
  predicate := .lambda [⟨"p", "int"⟩] (.binary .gt (.param "p") (.literal (.int 0) none))

def lowered (front : Table (Table Value)) : Lowered where
  statics := front ++ [("S", [("max", .int 3)]), ("T", [("max", .int 5), ("min", .null)])]
  constants := []
  predicate :=
    let site := (Site.root 0).child 2
    let p : Param := ⟨(site.child 0).child 0, "p", .int⟩
    let body := site.child 1
    ⟨[p], .binaryAt body .gt (.parameterAt (body.child 0) p) (.intAt (body.child 1) 0)⟩

end Declared

open Declared in
/-- A type that is declared without members is unknown. -/
theorem staticMembers_empty_unknown :
    Document.ofJson (tree [("R", .object [])]) = .ok (document [("R", [])]) ∧
      (document [("R", [])]).lower (.root 0) = .ok (lowered [("R", [])]) ∧
      (lowered [("R", [])]).statics.contains "R" = true ∧
      (lowered [("R", [])]).staticMembers.contains "R" = false ∧
      (lowered [("R", [])]).staticMembers.resolver ⟨.static "R", ["f"]⟩ =
        .error (.unknownType "R") :=
  ⟨by rfl, by rfl, by decide, by decide, by rfl⟩

open Declared in
theorem staticMembers_declared_twice :
    Document.ofJson (tree []) = .ok (document []) ∧
      (document []).lower (.root 0) = .ok (lowered []) ∧ (lowered []).Ordered ∧
      (lowered []).staticMembers.holder? "T" =
        some (.object "T" [("max", .int 5), ("min", .null)]) ∧
      (lowered []).staticMembers.resolver ⟨.static "S", ["min"]⟩ =
        .error (.unknownMember "S" "min") ∧
      ∃ name, (lowered []).staticMembers.resolver ⟨.static "R", ["max"]⟩ =
        .error (.unknownType name) := by
  have hread : Document.ofJson (tree []) = .ok (document []) := by rfl
  have hlower : (document []).lower (.root 0) = .ok (lowered []) := by rfl
  have hstored : (tree []).IsStored := rfl
  have hordered : (lowered []).Ordered := Document.lower_ordered hstored hread hlower
  obtain ⟨hholder, -⟩ := (Lowered.staticMembers_declared hordered "T").2 (by decide)
  obtain ⟨-, hS⟩ := (Lowered.staticMembers_declared hordered "S").2 (by decide)
  obtain ⟨-, hR⟩ := (Lowered.staticMembers_declared hordered "R").2 (by decide)
  refine ⟨hread, hlower, hordered, hholder, ?_, ?_⟩
  · exact (hS []).2 "min" _ rfl (by decide)
  · exact (hR ["max"]).1.2 (by decide)

end PredicateTree
