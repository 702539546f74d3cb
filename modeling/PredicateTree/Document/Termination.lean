import PredicateTree.Document.Lowering

/-!
# Document.Termination

Lowering ends. A constant that is open is not opened again, so there are never more of them open
than the document has (`Open`), and one more than these is room that is never used up
(`constantWithin_ends`). All of lowering ends if the constants do (`Node.lower_ends`,
`Datum.lower_ends`).

So with that room there is always an answer: `Document.lower` and `Document.lowerDatum` give it, and
the bound does not show in them.
-/

namespace PredicateTree

open Outcome

namespace Document

/-! ## Open constants -/

section

variable {doc : Document} {site : Site} {known : Table Value} {pending : List String} {room : Nat}
  {name : String}

/-- What the constants are like that are open while one more is worked out, and the room there
is. -/
structure Open (doc : Document) (known : Table Value) (pending : List String) (room : Nat) :
    Prop where
  nodup : pending.Nodup
  declared : pending ⊆ doc.constants.names
  unknown : ∀ p ∈ pending, known.get? p = none
  room : doc.constants.length < room + pending.length

namespace Open

theorem start (h : doc.constants.length < room) : Open doc known [] room where
  nodup := .nil
  declared := List.nil_subset _
  unknown _ hp := by cases hp
  room := h

theorem exists_succ (h : Open doc known pending room) : ∃ m, room = m + 1 := by
  have hlen := h.nodup.length_le_of_subset h.declared
  rw [Table.names, List.length_map] at hlen
  have := h.room
  exact ⟨room - 1, by omega⟩

theorem enter (h : Open doc known pending (room + 1)) {d : Datum}
    (hd : doc.constants.get? name = some d) (hname : name ∉ pending)
    (hnew : known.get? name = none) : Open doc known (name :: pending) room where
  nodup := List.nodup_cons.2 ⟨hname, h.nodup⟩
  declared := List.cons_subset.2 ⟨Table.mem_names hd, h.declared⟩
  unknown := List.forall_mem_cons.2 ⟨hnew, h.unknown⟩
  room := by
    have := h.room
    rw [List.length_cons]
    omega

end Open

end

/-! ## Nodes and values -/

theorem parseTy_ends (s : String) : parseTy s ≠ .unfinished := by
  unfold parseTy
  split
  · exact ok_ne_unfinished _
  · exact error_ne_unfinished _

theorem declare_ends (site : Site) :
    ∀ (i : Nat) (ds : List Declaration), declare site i ds ≠ .unfinished
  | _, [] => ok_ne_unfinished []
  | i, d :: ds =>
    bind_ne_unfinished (parseTy_ends d.ty) fun _ _ =>
      bind_ne_unfinished (declare_ends site (i + 1) ds) fun _ _ => ok_ne_unfinished _

theorem lookup_ends (scope : List Param) (name : String) : lookup scope name ≠ .unfinished := by
  unfold lookup
  split
  · exact ok_ne_unfinished _
  · exact error_ne_unfinished _

section

variable {c : Constants}

mutual

theorem Node.lower_ends (hc : ∀ name, c name ≠ .unfinished) :
    ∀ (n : Node) (scope : List Param) (site : Site), Node.lower c scope site n ≠ .unfinished
  | .lambda ds b, scope, site =>
    bind_ne_unfinished (declare_ends _ 0 ds) fun _ _ =>
      bind_ne_unfinished (Node.lower_ends hc b _ _) fun _ _ => ok_ne_unfinished _
  | .param name, scope, site =>
    bind_ne_unfinished (lookup_ends scope name) fun _ _ => ok_ne_unfinished _
  | .literal d ty, scope, site => by
    refine bind_ne_unfinished (Datum.lower_ends hc d _ _) fun v _ => ?_
    cases ty with
    | some s => exact bind_ne_unfinished (parseTy_ends s) fun _ _ => ok_ne_unfinished _
    | none => exact ok_ne_unfinished _
  | .constant name, scope, site => bind_ne_unfinished (hc name) fun _ _ => ok_ne_unfinished _
  | .member t declaring name ty, scope, site => by
    refine bind_ne_unfinished (parseTy_ends ty) fun ty' _ => ?_
    refine bind_ne_unfinished (Node.lowerOption_ends hc t _ _) fun e? _ => ?_
    cases e? with
    | some e => exact ok_ne_unfinished _
    | none =>
      cases declaring with
      | some k => exact ok_ne_unfinished _
      | none => exact error_ne_unfinished _
  | .call t declaring method as markers ty, scope, site => by
    refine bind_ne_unfinished (parseTy_ends ty) fun ty' _ => ?_
    refine bind_ne_unfinished (Node.lowerOption_ends hc t _ _) fun e? _ => ?_
    split
    · exact error_ne_unfinished _
    · exact bind_ne_unfinished (Node.lowerList_ends hc as _ _ _) fun _ _ => ok_ne_unfinished _
  | .expand l as ty, scope, site =>
    bind_ne_unfinished (Node.lower_ends hc l _ _) fun _ _ =>
      bind_ne_unfinished (Node.lowerList_ends hc as _ _ _) fun _ _ =>
        bind_ne_unfinished (parseTy_ends ty) fun _ _ => ok_ne_unfinished _
  | .binary op a b, scope, site =>
    bind_ne_unfinished (Node.lower_ends hc a _ _) fun _ _ =>
      bind_ne_unfinished (Node.lower_ends hc b _ _) fun _ _ => ok_ne_unfinished _
  | .unary op a, scope, site =>
    bind_ne_unfinished (Node.lower_ends hc a _ _) fun _ _ => ok_ne_unfinished _
  | .conditional a b d, scope, site =>
    bind_ne_unfinished (Node.lower_ends hc a _ _) fun _ _ =>
      bind_ne_unfinished (Node.lower_ends hc b _ _) fun _ _ =>
        bind_ne_unfinished (Node.lower_ends hc d _ _) fun _ _ => ok_ne_unfinished _
  | .default ty, scope, site =>
    bind_ne_unfinished (parseTy_ends ty) fun _ _ => ok_ne_unfinished _
  | .dynamic binder as ty, scope, site =>
    bind_ne_unfinished (Node.lowerList_ends hc as _ _ _) fun _ _ =>
      bind_ne_unfinished (parseTy_ends ty) fun _ _ => ok_ne_unfinished _

theorem Node.lowerOption_ends (hc : ∀ name, c name ≠ .unfinished) :
    ∀ (t : Option Node) (scope : List Param) (site : Site),
      Node.lowerOption c scope site t ≠ .unfinished
  | none, _, _ => ok_ne_unfinished none
  | some n, _, _ => bind_ne_unfinished (Node.lower_ends hc n _ _) fun _ _ => ok_ne_unfinished _

theorem Node.lowerList_ends (hc : ∀ name, c name ≠ .unfinished) :
    ∀ (ns : List Node) (scope : List Param) (site : Site) (i : Nat),
      Node.lowerList c scope site i ns ≠ .unfinished
  | [], _, _, _ => ok_ne_unfinished []
  | n :: ns, _, _, _ =>
    bind_ne_unfinished (Node.lower_ends hc n _ _) fun _ _ =>
      bind_ne_unfinished (Node.lowerList_ends hc ns _ _ _) fun _ _ => ok_ne_unfinished _

theorem Datum.lower_ends (hc : ∀ name, c name ≠ .unfinished) :
    ∀ (d : Datum) (scope : List Param) (site : Site), Datum.lower c scope site d ≠ .unfinished
  | .null, _, _ | .bool _, _, _ | .int _, _, _ | .float _, _, _ | .str _, _, _ =>
    ok_ne_unfinished _
  | .unsigned _, _, _ => error_ne_unfinished _
  | .object _ fs, _, _ =>
    bind_ne_unfinished (Datum.lowerFields_ends hc fs _ _ _) fun _ _ => ok_ne_unfinished _
  | .node (.lambda ds b), _, _ =>
    bind_ne_unfinished (declare_ends _ 0 ds) fun _ _ =>
      bind_ne_unfinished (Node.lower_ends hc b _ _) fun _ _ => ok_ne_unfinished _
  | .node (.constant name), _, _ => hc name
  | .node (.param _), _, _ | .node (.literal ..), _, _ | .node (.member ..), _, _
  | .node (.call ..), _, _ | .node (.expand ..), _, _ | .node (.binary ..), _, _
  | .node (.unary ..), _, _ | .node (.conditional ..), _, _ | .node (.default _), _, _
  | .node (.dynamic ..), _, _ => error_ne_unfinished _

theorem Datum.lowerFields_ends (hc : ∀ name, c name ≠ .unfinished) :
    ∀ (fs : List (String × Datum)) (scope : List Param) (site : Site) (i : Nat),
      Datum.lowerFields c scope site i fs ≠ .unfinished
  | [], _, _, _ => ok_ne_unfinished []
  | (_, d) :: fs, _, _, _ =>
    bind_ne_unfinished (Datum.lower_ends hc d _ _) fun _ _ =>
      bind_ne_unfinished (Datum.lowerFields_ends hc fs _ _ _) fun _ _ => ok_ne_unfinished _

end

theorem lowerConstants_ends (hc : ∀ name, c name ≠ .unfinished) :
    ∀ cs : Table Datum, lowerConstants c cs ≠ .unfinished
  | [] => ok_ne_unfinished []
  | (name, _) :: cs =>
    bind_ne_unfinished (hc name) fun _ _ =>
      bind_ne_unfinished (lowerConstants_ends hc cs) fun _ _ => ok_ne_unfinished _

theorem lowerStatics_ends (hc : ∀ name, c name ≠ .unfinished) (site : Site) :
    ∀ (i : Nat) (ts : Table (Table Datum)), lowerStatics c site i ts ≠ .unfinished
  | _, [] => ok_ne_unfinished []
  | i, (_, ms) :: ts =>
    bind_ne_unfinished (Datum.lowerFields_ends hc ms _ _ _) fun _ _ =>
      bind_ne_unfinished (lowerStatics_ends hc site (i + 1) ts) fun _ _ => ok_ne_unfinished _

end

/-! ## Documents -/

section

variable {doc : Document} {site : Site} {known : Table Value} {pending : List String} {room : Nat}
  {name : String}

/-- With room for the constants that are not open yet there is an answer. -/
theorem constantWithin_ends (h : Open doc known pending room) :
    doc.constantWithin site known room pending name ≠ .unfinished := by
  induction room generalizing pending name with
  | zero =>
    obtain ⟨m, hm⟩ := h.exists_succ
    cases hm
  | succ room ih =>
    unfold constantWithin
    split
    · exact ok_ne_unfinished _
    · rename_i hnew
      split
      · exact error_ne_unfinished _
      · rename_i d hd
        split
        · exact error_ne_unfinished _
        · rename_i hpending
          have hname : name ∉ pending := by simpa using hpending
          exact Datum.lower_ends (fun _ => ih (h.enter hd hname hnew)) d _ _

theorem lowerWithin_ends (h : doc.constants.length < room) :
    doc.lowerWithin site room ≠ .unfinished := by
  have hc : ∀ name, doc.constantWithin site (doc.settled site) room [] name ≠ .unfinished :=
    fun _ => constantWithin_ends (.start h)
  refine bind_ne_unfinished (lowerConstants_ends hc _) fun constants _ => ?_
  refine bind_ne_unfinished (lowerStatics_ends hc _ _ _) fun statics _ => ?_
  split
  · exact bind_ne_unfinished (declare_ends _ _ _) fun _ _ =>
      bind_ne_unfinished (Node.lower_ends hc _ _ _) fun _ _ => ok_ne_unfinished _
  · exact error_ne_unfinished _

theorem lowerDatumWithin_ends (h : doc.constants.length < room) (d : Datum) :
    doc.lowerDatumWithin site room d ≠ .unfinished :=
  Datum.lower_ends (fun _ => constantWithin_ends (.start h)) d _ _

end

/-- A constant, with room for all. -/
def constant (doc : Document) (site : Site) (known : Table Value) : Constants :=
  doc.constantWithin site known (doc.constants.length + 1) []

def lower (doc : Document) (site : Site) : Except DocumentError Lowered :=
  (doc.lowerWithin site (doc.constants.length + 1)).toExcept
    (lowerWithin_ends (Nat.lt_succ_self _))

/-- A value given next to the document, which may refer to its constants. -/
def lowerDatum (doc : Document) (site : Site) (d : Datum) : Except DocumentError Value :=
  (doc.lowerDatumWithin site (doc.constants.length + 1) d).toExcept
    (lowerDatumWithin_ends (Nat.lt_succ_self _) d)

end Document

end PredicateTree
