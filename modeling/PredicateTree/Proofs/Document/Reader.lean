import PredicateTree.Document.Reader
import PredicateTree.Proofs.Document.Depth
import PredicateTree.Proofs.Json.Written

/-!
# Proofs.Document.Reader

The program reads a document as the text comes (`Document.ofText`); what is proved of documents is
about trees of data (`Document.ofJson`). The two agree. `Agrees` compares a reader with what the
data gives, from a given place on: the same value and the place right after it, or a fault in both.
Each part of the reader agrees with its part of the decoder on every writing of the data
(`Written`), so that an induction is one over the members or items.

The faults themselves may differ: the reader stops at the first one in the text, and only the tree
tells one in a value that is read to its end first. A text need not be a tree of data for a document
to be read from it, since what no field takes is skipped unread (a number that is too large, say).
-/

namespace PredicateTree

namespace Document

open Json Json.Reading

variable {α β : Type} {r : Reading α} {f : α → Reading β} {g : α → Except DataFault β}
  {x : Except DataFault α} {c c' c₁ : Cursor} {a : α} {room : Nat} {j : Json}

/-- From `c` on the reader gives what the data gives: the same value, and then it stands at `c'`, or
a fault. -/
def Agrees (r : Reading α) (c c' : Cursor) : Except DataFault α → Prop
  | .ok a => r c = .ok a c'
  | .error _ => ∃ e c₁, r c = .error e c₁

namespace Agrees

theorem of_eq {s : Reading α} (hrun : r c = s c₁) (h : Agrees s c₁ c' x) : Agrees r c c' x := by
  cases x with
  | ok a => exact hrun.trans h
  | error e =>
    obtain ⟨e', c₂, h⟩ := h
    exact ⟨e', c₂, hrun.trans h⟩

/-- A reader that does not succeed fails. -/
theorem of_ne_ok {e : DataFault} (h : ∀ a c₁, r c ≠ .ok a c₁) : Agrees r c c' (.error e) := by
  cases hr : r c with
  | ok a c₁ => exact absurd hr (h a c₁)
  | error e' c₁ => exact ⟨e', c₁, hr⟩

theorem ne_ok {e : DataFault} (h : Agrees r c c' (.error e)) (a : α) (c₁ : Cursor) :
    r c ≠ .ok a c₁ := by
  obtain ⟨e', c₂, h⟩ := h
  intro hr
  cases h.symm.trans hr

theorem of_ok {b : Except DataFault β} (h : r c = .ok a c₁) (hf : Agrees (f a) c₁ c' b) :
    Agrees (r >>= f) c c' b := of_eq (bind_of_ok h) hf

theorem bind (h : Agrees r c c₁ x) (hf : ∀ a, Agrees (f a) c₁ c' (g a)) :
    Agrees (r >>= f) c c' (x >>= g) := by
  cases x with
  | ok a => exact of_ok h (hf a)
  | error e =>
    obtain ⟨e', c₂, h⟩ := h
    exact ⟨e', c₂, bind_of_error h⟩

theorem map (h : Agrees r c c' x) (k : α → β) :
    Agrees (r >>= fun a => pure (k a)) c c' (x.map k) := by
  cases x with
  | ok a => exact bind_of_ok h
  | error e =>
    obtain ⟨e', c₂, h⟩ := h
    exact ⟨e', c₂, bind_of_error h⟩

theorem placed (h : Agrees r c c' x) : Agrees (placed r) c c' x := by
  cases x with
  | ok a =>
    have h : r c = .ok a c' := h
    show Reading.placed r c = _
    rw [Reading.placed, h]
  | error e =>
    obtain ⟨e', c₂, h⟩ := h
    refine ⟨{ e' with place := e'.place.or (some c₂.place) }, c₂, ?_⟩
    rw [Reading.placed, h]

theorem ofExcept (x : Except DataFault α) (c : Cursor) : Agrees (Reading.ofExcept x) c c x := by
  cases x with
  | ok a => rfl
  | error e => exact ⟨_, c, rfl⟩

theorem closedBy {close : Reading Unit} (h : Agrees r c c₁ x) (hclose : close c₁ = .ok () c') :
    Agrees (closedBy r close) c c' x := by
  cases x with
  | ok a => exact closedBy_eq_ok.2 ⟨c₁, h, hclose⟩
  | error e =>
    refine of_ne_ok fun a c₂ hr => ?_
    obtain ⟨c₃, hr, -⟩ := closedBy_eq_ok.1 hr
    exact h.ne_ok a c₃ hr

/-- An array or object agrees if what is inside does, read up to its end. -/
theorem within {inside : Nat → Reading α} {close : Reading Unit} (hopen : advance c = .ok () c₁)
    (h : Agrees (Reading.closedBy (inside room) close) c₁ c' x) :
    Agrees (within (room + 1) inside close) c c' x := of_ok hopen h

/-- The reader goes by the token that comes first. -/
theorem token {k : Char → Reading α} {ch : Char} (htoken : c.token? = some ch)
    (h : Agrees (k ch) c.spaced c' x) :
    Agrees (Reading.placed do
      match ← peekToken with
      | none => failNext .endInValue
      | some ch => k ch) c c' x := by
  exact placed (of_eq (token_eq htoken) h)

end Agrees

/-! ## Scalars -/

theorem placed_eq_ok {r : Reading α} (h : Reading.placed r c = .ok a c') : r c = .ok a c' := by
  rw [Reading.placed] at h
  cases hr : r c with
  | ok b c₁ =>
    rw [hr] at h
    cases h
    rfl
  | error e c₁ =>
    rw [hr] at h
    cases h

/-- What is not wanted is a fault, whatever it is. -/
theorem unwanted_agrees (wanted : String) (e : DataFault) :
    Agrees (unwanted wanted : Reading α) c c' (.error e) := by
  refine .of_ne_ok fun a c₁ h => ?_
  obtain ⟨ch?, c₂, _, h⟩ := bind_eq_ok.1 (placed_eq_ok h)
  split at h
  · cases h
  · cases h
  · obtain ⟨j, c₃, _, h⟩ := bind_eq_ok.1 h
    cases h

theorem byName_of_isPlain (h : j.isPlain = true) :
    Kind.byName j = invalid j "variant identifier" := by
  cases j with
  | string | array | object => cases h
  | _ => rfl

theorem readKind_agrees (h : Written room c j c') : Agrees readKind c c' (Kind.byName j) := by
  cases h with
  | scalar htoken _ _ h =>
    refine Agrees.token htoken ?_
    obtain ⟨rfl, s, c₁, rfl, hadvance, hstring⟩ | ⟨hquote, hplain⟩ := scalar_eq_ok h
    · rw [if_pos rfl]
      exact Agrees.of_ok hadvance (Agrees.of_ok hstring (Agrees.ofExcept _ _))
    · rw [if_neg hquote, byName_of_isPlain hplain]
      exact unwanted_agrees _ _
  | array htoken => exact Agrees.token htoken (unwanted_agrees _ _)
  | object htoken => exact Agrees.token htoken (unwanted_agrees _ _)

/-! ## Objects -/

/-- The members of an object are read one by one as they are gone through in the tree. -/
theorem foldMembers_agrees {member : α → String → Reading α}
    {step : α → String × Json → Except DataFault α} {ms : List (String × Json)} {first : Bool}
    (h : WrittenMembers room first c ms c')
    (hmember : ∀ m ∈ ms, ∀ {a c c₁ c'}, colon c = .ok () c₁ → Written room c₁ m.2 c' →
      Agrees (member a m.1) c c' (step a m))
    {fuel : Nat} (hfuel : c.rest.length < fuel) (a : α) :
    Agrees (foldMembers member fuel first a) c c' (ms.foldlM step a) := by
  induction ms generalizing first c fuel a with
  | nil =>
    obtain ⟨fuel, rfl⟩ : ∃ n, fuel = n + 1 := ⟨fuel - 1, by omega⟩
    cases h with
    | nil hmore => exact Agrees.of_ok hmore rfl
  | cons m ms ih =>
    obtain ⟨fuel, rfl⟩ : ∃ n, fuel = n + 1 := ⟨fuel - 1, by omega⟩
    cases h with
    | cons hmore hkey hcolon hj hms =>
      have hle := takes_moreMembers _ _ _ _ hmore
      have hk := takes_key _ _ _ hkey
      have hc := takes_colon _ _ _ hcolon
      have hlt := hj.length_lt
      refine Agrees.of_ok hmore (Agrees.of_ok hkey ?_)
      rw [List.foldlM_cons]
      refine (hmember _ List.mem_cons_self hcolon hj).bind fun b => ?_
      exact ih hms (fun m hm => hmember m (List.mem_cons_of_mem _ hm)) (by omega) b

theorem fuel_eq (c : Cursor) : fuel c = .ok (2 * c.rest.length + 2) c := rfl

theorem tableOf_object {decode : Json → Except DataFault α} (ms : List (String × Json)) :
    tableOf decode (.object ms) =
      ms.foldlM (fun (t : Table α) m => (decode m.2).map fun a => t.put m.1 a) [] := by
  have hfold : ∀ (ms : List (String × Json)) (t : Table α),
      ((ms.mapM fun m => do return (m.1, ← decode m.2)) >>= fun entries =>
        Except.ok (entries.foldl (fun t e => t.put e.1 e.2) t)) =
      ms.foldlM (fun (t : Table α) m => (decode m.2).map fun a => t.put m.1 a) t := by
    intro ms
    induction ms with
    | nil => exact fun t => rfl
    | cons m ms ih =>
      intro t
      rw [List.mapM_cons, List.foldlM_cons]
      cases hm : decode m.2 with
      | error e => rfl
      | ok a =>
        refine Eq.trans ?_ (ih (t.put m.1 a))
        generalize List.mapM (m := Except DataFault) _ ms = entries
        cases entries with
        | error e => rfl
        | ok entries => rfl
  exact hfold ms []

theorem readTable_agrees {entry : Nat → Reading α} {decode : Json → Except DataFault α}
    (h : Written room c j c')
    (hentry : ∀ i ∈ j.inner, ∀ {room c c'}, Written room c i c' →
      Agrees (entry room) c c' (decode i)) :
    Agrees (readTable room entry) c c' (tableOf decode j) := by
  cases h with
  | scalar htoken _ hobject h =>
    refine Agrees.token htoken ?_
    have hmap : tableOf decode j = invalid j "a map" := by
      have hscalar := isScalar_of_scalar h
      cases j with
      | array | object => cases hscalar
      | _ => rfl
    rw [if_neg hobject, hmap]
    exact unwanted_agrees _ _
  | array htoken => exact Agrees.token htoken (unwanted_agrees _ _)
  | object htoken hopen hmembers hclose =>
    refine Agrees.token htoken ?_
    rw [if_pos rfl, tableOf_object]
    refine Agrees.within hopen (Agrees.closedBy (Agrees.of_ok (fuel_eq _) ?_) hclose)
    refine foldMembers_agrees hmembers (fun m hm t c c₁ c' hcolon hm' => ?_) (by omega) _
    exact Agrees.of_ok hcolon ((hentry _ (List.mem_map_of_mem hm) hm').map _)

theorem readDatum_agrees (h : Written room c j c') :
    Agrees (readDatum room) c c' (Datum.ofJson j) :=
  Agrees.of_ok (value_eq_ok.2 h) (Agrees.ofExcept _ _)

/-! ## The predicate -/

/-- Takes in one member of a node. -/
def kindStep (kindOf : Json → Except DataFault Kind) (a : Option Kind × List (String × Json))
    (m : String × Json) : Except DataFault (Option Kind × List (String × Json)) :=
  if m.1 = kindField then
    match a.1 with
    | some _ => .error (.duplicateField kindField)
    | none => (kindOf m.2).map fun k => (some k, a.2)
  else .ok (a.1, m :: a.2)

theorem splitKind_eq (kindOf : Json → Except DataFault Kind) (kind? : Option Kind)
    (others ms : List (String × Json)) :
    splitKind kindOf kind? others ms =
      (ms.foldlM (kindStep kindOf) (kind?, others)).bind fun a =>
        match a.1 with
        | none => .error (.missingField kindField)
        | some k => .ok (k, a.2.reverse) := by
  induction ms generalizing kind? others with
  | nil => cases kind? <;> rfl
  | cons m ms ih =>
    obtain ⟨name, j⟩ := m
    unfold splitKind
    rw [List.foldlM_cons, kindStep]
    by_cases hname : name = kindField
    · rw [if_pos hname, if_pos hname]
      cases kind? with
      | some k => rfl
      | none =>
        cases hk : kindOf j with
        | error e => rfl
        | ok k => exact ih (some k) others
    · rw [if_neg hname, if_neg hname]
      exact ih kind? ((name, j) :: others)

theorem readNodeMember_agrees {m : String × Json} {a : Option Kind × List (String × Json)}
    (hcolon : colon c = .ok () c₁) (h : Written room c₁ m.2 c') :
    Agrees (readNodeMember room a m.1) c c' (kindStep Kind.byName a m) := by
  obtain ⟨k, j⟩ := m
  rw [readNodeMember, kindStep]
  dsimp only
  by_cases hname : k = kindField
  · rw [if_pos hname, if_pos hname]
    cases hkind : a.1 with
    | some kind => exact ⟨_, c, rfl⟩
    | none => exact Agrees.of_ok hcolon ((readKind_agrees h).map _)
  · rw [if_neg hname, if_neg hname]
    exact Agrees.of_ok hcolon (Agrees.of_ok (value_eq_ok.2 h) rfl)

theorem restItems_of_written {js : List Json} (h : WrittenItems room false c js c') :
    restItems room c = .ok js c' :=
  h.items _ (Nat.lt_add_of_pos_right (Nat.succ_pos 1))

theorem nodeContent_array (kindOf : Json → Except DataFault Kind) (j : Json) (js : List Json) :
    nodeContent kindOf (.array (j :: js)) = (kindOf j) >>= fun k => .ok (k, .array js) := by
  rw [nodeContent]
  cases kindOf j with
  | error e => rfl
  | ok k => rfl

theorem nodeContent_object (kindOf : Json → Except DataFault Kind) (ms : List (String × Json)) :
    nodeContent kindOf (.object ms) = (ms.foldlM (kindStep kindOf) (none, [])) >>= fun a =>
      match a.1 with
      | none => .error (.missingField kindField)
      | some k => .ok (k, .object a.2.reverse) := by
  rw [nodeContent, splitKind_eq]
  cases ms.foldlM (kindStep kindOf) (none, []) with
  | error e => rfl
  | ok a =>
    obtain ⟨kind?, others⟩ := a
    cases kind? with
    | none => rfl
    | some k => rfl

theorem nodeContent_of_isScalar (kindOf : Json → Except DataFault Kind) (h : j.isScalar = true) :
    nodeContent kindOf j = invalid j nodeTitle := by
  cases j with
  | array | object => cases h
  | _ => rfl

theorem readNodeParts_agrees (h : Written room c j c') :
    Agrees (readNodeParts room) c c' (nodeContent Kind.byName j) := by
  cases h with
  | scalar htoken harray hobject h =>
    refine Agrees.token htoken ?_
    rw [if_neg harray, if_neg hobject, nodeContent_of_isScalar _ (isScalar_of_scalar h)]
    exact unwanted_agrees _ _
  | array htoken hopen hitems hclose =>
    refine Agrees.token htoken ?_
    rw [if_pos rfl]
    refine Agrees.within hopen (Agrees.closedBy ?_ hclose)
    cases hitems with
    | nil hmore => exact Agrees.of_ok hmore ⟨_, _, rfl⟩
    | cons hmore hj hjs =>
      rw [nodeContent_array]
      refine Agrees.of_ok hmore ((readKind_agrees hj).bind fun k => ?_)
      exact Agrees.of_ok (restItems_of_written hjs) rfl
  | object htoken hopen hmembers hclose =>
    refine Agrees.token htoken ?_
    rw [if_neg (by decide), if_pos rfl, nodeContent_object]
    refine Agrees.within hopen (Agrees.closedBy (Agrees.of_ok (fuel_eq _) ?_) hclose)
    refine (foldMembers_agrees hmembers (fun m _ _ _ _ _ => readNodeMember_agrees) (by omega)
      (none, [])).bind fun a => ?_
    obtain ⟨kind?, others⟩ := a
    cases kind? with
    | none => exact ⟨_, _, rfl⟩
    | some k => exact rfl

theorem readNode_agrees (h : Written room c j c') :
    Agrees (readNode room) c c' (nodeOf Kind.byName (partsOf j) j) := by
  rw [nodeOf_partsOf]
  exact (readNodeParts_agrees h).bind fun _ => Agrees.ofExcept _ _

/-! ## The document -/

theorem readPart_agrees {top : Json} {f : Field} (hf : f ∈ fields) (hj : j.depth ≤ top.depth)
    (h : Written room c j c') : Agrees (readPart room f.slot) c c' (topPartsOf top f.slot j) := by
  have hfields : ∀ {i : Json} {room : Nat} {c c' : Cursor}, Written room c i c' →
      Agrees (readTable room readDatum) c c' (tableOf Datum.ofJson i) :=
    fun hi => readTable_agrees hi fun _ _ _ _ _ => readDatum_agrees
  rcases List.mem_cons.1 hf with rfl | hf
  · show Agrees _ c c' (topPartsOf top .tables j)
    rw [topPartsOf_tables hj]
    exact (readTable_agrees h fun _ _ _ _ _ => hfields).map _
  rcases List.mem_cons.1 hf with rfl | hf
  · show Agrees _ c c' (topPartsOf top .fields j)
    rw [topPartsOf_fields hj]
    exact (hfields h).map _
  · cases List.mem_singleton.1 hf
    show Agrees _ c c' (topPartsOf top .node j)
    rw [topPartsOf_node hj]
    exact (readNode_agrees h).map _

/-- Takes in one member of a record. -/
def memberStep (part : PartOf) (fields : List Field) (seen : List (String × Part))
    (m : String × Json) : Except DataFault (List (String × Part)) :=
  match fields.find? (·.name == m.1) with
  | none => .ok seen
  | some f =>
    if (List.lookup m.1 seen).isSome then .error (.duplicateField m.1)
    else (part f.slot m.2).map fun p => (m.1, p) :: seen

theorem scanMembers_eq (part : PartOf) (fields : List Field) (seen : List (String × Part))
    (ms : List (String × Json)) :
    scanMembers part fields seen ms = ms.foldlM (memberStep part fields) seen := by
  induction ms generalizing seen with
  | nil => rfl
  | cons m ms ih =>
    obtain ⟨k, j⟩ := m
    rw [scanMembers, List.foldlM_cons, memberStep]
    cases hfind : fields.find? (·.name == k) with
    | none => exact ih seen
    | some f =>
      dsimp only
      by_cases hseen : (List.lookup k seen).isSome = true
      · rw [if_pos hseen, if_pos hseen]
        rfl
      · rw [if_neg hseen, if_neg hseen]
        cases hj : part f.slot j with
        | error e => rfl
        | ok p => exact ih ((k, p) :: seen)

theorem readMember_agrees {top : Json} {m : String × Json} {seen : List (String × Part)}
    (hm : m.2.depth ≤ top.depth) (hcolon : colon c = .ok () c₁) (h : Written room c₁ m.2 c') :
    Agrees (readMember room seen m.1) c c' (memberStep (topPartsOf top) fields seen m) := by
  obtain ⟨k, j⟩ := m
  rw [readMember, memberStep]
  dsimp only
  cases hfind : fields.find? (·.name == k) with
  | none => exact Agrees.of_ok hcolon (Agrees.of_ok h.skip rfl)
  | some f =>
    dsimp only
    by_cases hseen : (List.lookup k seen).isSome = true
    · rw [if_pos hseen, if_pos hseen]
      exact ⟨_, c, rfl⟩
    · rw [if_neg hseen, if_neg hseen]
      have hf : f ∈ fields := List.mem_of_find?_eq_some hfind
      exact Agrees.of_ok hcolon ((readPart_agrees hf hm h).map _)

/-! ### Written as an array -/

theorem closedBy_of_ok {close : Reading Unit} (h : r c = .ok a c₁) :
    Reading.closedBy (r >>= f) close c = Reading.closedBy (f a) close c₁ := by
  rw [Reading.closedBy, bind_of_ok h, Reading.closedBy]

namespace Agrees

variable {close : Reading Unit}

theorem closedBy_bind (h : Agrees r c c₁ x)
    (hf : ∀ a, Agrees (Reading.closedBy (f a) close) c₁ c' (g a)) :
    Agrees (Reading.closedBy (r >>= f) close) c c' (x >>= g) := by
  cases x with
  | ok a => exact of_eq (closedBy_of_ok h) (hf a)
  | error e =>
    refine of_ne_ok fun b c₂ hr => ?_
    obtain ⟨c₃, hr, -⟩ := closedBy_eq_ok.1 hr
    obtain ⟨a, c₄, hr, -⟩ := bind_eq_ok.1 hr
    exact h.ne_ok a c₄ hr

/-- What is made of a result that was read inside an array or object. -/
theorem closedBy_map (h : Agrees (Reading.closedBy r close) c c' x) (k : α → β) :
    Agrees (Reading.closedBy (r >>= fun a => pure (k a)) close) c c' (x.map k) := by
  cases x with
  | ok a =>
    obtain ⟨c₂, hr, hclose⟩ := closedBy_eq_ok.1 h
    exact closedBy_eq_ok.2 ⟨c₂, bind_of_ok hr, hclose⟩
  | error e =>
    refine of_ne_ok fun b c₂ hr => ?_
    obtain ⟨c₃, hr, hclose⟩ := closedBy_eq_ok.1 hr
    obtain ⟨a, c₄, hr, hpure⟩ := bind_eq_ok.1 hr
    cases hpure
    exact h.ne_ok a c₂ (closedBy_eq_ok.2 ⟨c₃, hr, hclose⟩)

end Agrees

/-- At the end of an array there is no other item, whether one was read before or not. -/
theorem moreItems_of_end (htoken : c.token? = some ']') (first : Bool) :
    moreItems first c = .ok false c.spaced :=
  token_eq htoken

theorem scanItems_cons (part : PartOf) (title : String) (count i : Nat) (f : Field)
    (fs : List Field) (j : Json) (js : List Json) :
    scanItems part title count i (f :: fs) (j :: js) =
      (part f.slot j) >>= fun p => (scanItems part title count (i + 1) fs js).map (p :: ·) := by
  rw [scanItems]
  cases part f.slot j with
  | error e => rfl
  | ok p =>
    cases scanItems part title count (i + 1) fs js with
    | error e => rfl
    | ok ps => rfl

theorem scanItems_absent {part : PartOf} {title : String} {count i : Nat} {f : Field}
    {fs : List Field} {p : Part} (h : f.absent = some p) :
    scanItems part title count i (f :: fs) [] =
      (scanItems part title count (i + 1) fs []).map (p :: ·) := by
  rw [scanItems, h]
  cases scanItems part title count (i + 1) fs [] with
  | error e => rfl
  | ok ps => rfl

theorem readItems_agrees {top : Json} {fs : List Field} {js : List Json} {i : Nat}
    (hfs : ∀ f ∈ fs, f ∈ fields) (hjs : ∀ j ∈ js, j.depth ≤ top.depth)
    (h : WrittenItems room (i = 0) c js c₁) (hclose : closeArray c₁ = .ok () c') :
    Agrees (Reading.closedBy (readItems room i fs) closeArray) c c'
      (scanItems (topPartsOf top) title fields.length i fs js) := by
  induction fs generalizing i js c with
  | nil =>
    cases h with
    | nil hmore =>
      obtain ⟨_, -, ⟨-, -, rfl⟩ | ⟨-, -, hmore, -⟩ | ⟨-, -, hmore, -⟩⟩ := moreItems_eq_ok hmore
      · exact closedBy_eq_ok.2 ⟨c, rfl, closeArray_spaced c ▸ hclose⟩
      · cases hmore
      · cases hmore
    | cons hmore hj hrest =>
      -- One item too many stands where the array has to end.
      refine Agrees.of_ne_ok fun ps c₂ hr => ?_
      obtain ⟨c₃, hpure, hclose'⟩ := closedBy_eq_ok.1 hr
      cases hpure
      have hend := (closeArray_eq_ok hclose').1
      obtain ⟨ch, htoken, ⟨-, hmore, -⟩ | ⟨hch, -⟩ | ⟨rfl, -⟩⟩ := moreItems_eq_ok hmore
      · cases hmore
      · cases htoken.symm.trans hend
        exact absurd rfl hch
      · cases htoken.symm.trans hend
  | cons f fs ih =>
    have hfs' : ∀ g ∈ fs, g ∈ fields := fun g hg => hfs g (List.mem_cons_of_mem f hg)
    cases h with
    | nil hmore =>
      obtain ⟨_, htoken, ⟨rfl, -, rfl⟩ | ⟨-, -, hmore, -⟩ | ⟨-, -, hmore, -⟩⟩ :=
        moreItems_eq_ok hmore
      · refine Agrees.of_eq (closedBy_of_ok hmore) ?_
        rw [if_neg Bool.false_ne_true]
        cases habsent : f.absent with
        | none =>
          rw [scanItems, habsent]
          refine Agrees.of_ne_ok fun ps c₂ hr => ?_
          obtain ⟨_, hfail, -⟩ := closedBy_eq_ok.1 hr
          cases hfail
        | some p =>
          -- The end is met again for each of the fields that are left out.
          have hend := moreItems_of_end ((token?_spaced c).trans htoken) (i + 1 = 0)
          rw [spaced_spaced] at hend
          rw [scanItems_absent habsent]
          exact (ih hfs' hjs (.nil hend)).closedBy_map (p :: ·)
      · cases hmore
      · cases hmore
    | cons hmore hj hrest =>
      have hfirst : decide (i + 1 = 0) = false := by simp
      have hrest' := ih (i := i + 1) hfs' (fun j hj => hjs j (List.mem_cons_of_mem _ hj))
        (hfirst ▸ hrest)
      refine Agrees.of_eq (closedBy_of_ok hmore) ?_
      have hpart := readPart_agrees (hfs f List.mem_cons_self) (hjs _ List.mem_cons_self) hj
      rw [if_pos rfl, scanItems_cons]
      exact hpart.closedBy_bind fun p => hrest'.closedBy_map (p :: ·)

theorem recordOf_object (part : PartOf) (title wanted : String) (fields : List Field)
    (ms : List (String × Json)) :
    recordOf part title wanted fields (.object ms) =
      (ms.foldlM (memberStep part fields) []) >>= fun seen => completed seen fields := by
  rw [recordOf, scanMembers_eq]
  cases ms.foldlM (memberStep part fields) [] with
  | error e => rfl
  | ok seen => rfl

theorem readParts_agrees (h : Written room c j c') :
    Agrees (readParts room) c c' (recordOf (topPartsOf j) title title fields j) := by
  cases h with
  | scalar htoken harray hobject h =>
    refine Agrees.token htoken ?_
    have hrecord : recordOf (topPartsOf j) title title fields j = invalid j title := by
      have hscalar := isScalar_of_scalar h
      cases j with
      | array | object => cases hscalar
      | _ => rfl
    rw [if_neg harray, if_neg hobject, hrecord]
    exact unwanted_agrees _ _
  | @array _ _ _ _ _ js htoken hopen hitems hclose =>
    refine Agrees.token htoken ?_
    rw [if_pos rfl]
    have hjs : ∀ i ∈ js, i.depth ≤ (Json.array js).depth :=
      fun i hi => Nat.le_of_lt (Json.depth_lt_of_mem_inner hi)
    exact Agrees.within hopen (readItems_agrees (fun _ => id) hjs hitems hclose)
  | @object _ _ _ _ _ ms htoken hopen hmembers hclose =>
    refine Agrees.token htoken ?_
    rw [if_neg (by decide), if_pos rfl]
    refine Agrees.within hopen (Agrees.closedBy (Agrees.of_ok (fuel_eq _) ?_) hclose)
    have hms : ∀ m ∈ ms, m.2.depth ≤ (Json.object ms).depth :=
      fun m hm => Nat.le_of_lt (Json.depth_lt_of_mem_inner (List.mem_map_of_mem hm))
    rw [recordOf_object]
    exact (foldMembers_agrees hmembers (fun m hm _ _ _ _ => readMember_agrees (hms m hm))
      (by omega) []).bind fun seen => Agrees.ofExcept _ _

theorem ofJson_eq (j : Json) : Document.ofJson j =
    (recordOf (topPartsOf j) title title fields j) >>= fun ps => ofParts (.ok ps) := by
  rw [Document.ofJson]
  cases recordOf (topPartsOf j) title title fields j with
  | error e => rfl
  | ok ps => rfl

theorem Agrees.whole {u : Unit} (h : Agrees r c c₁ x) (hfinish : finish c₁ = .ok u c') :
    Agrees (Document.whole r) c c' x := by
  cases x with
  | ok a => exact (bind_of_ok h).trans (bind_of_ok hfinish)
  | error e =>
    obtain ⟨e', c₂, h⟩ := h
    exact ⟨e', c₂, bind_of_error h⟩

theorem Agrees.run {text : String} (h : Agrees r (.ofText text) c' x) :
    (Reading.run r text).toOption = x.toOption := by
  cases x with
  | ok a =>
    have h : r (.ofText text) = .ok a c' := h
    rw [Reading.run, h]
    rfl
  | error e =>
    obtain ⟨e', c₁, h⟩ := h
    rw [Reading.run, h]
    rfl

/-- A reader that agrees on every writing of the tree which a text as a whole is gives what the tree
gives. -/
theorem run_whole_eq {text : String} (htree : run (whole (value maxOpen)) text = .ok j)
    (h : ∀ {c c'}, Written maxOpen c j c' → Agrees r c c' x) :
    (run (whole r) text).toOption = x.toOption := by
  obtain ⟨c₂, hwhole⟩ : ∃ c₂, whole (value maxOpen) (.ofText text) = .ok j c₂ := by
    rw [run] at htree
    split at htree
    · rename_i c₂ hwhole
      cases htree
      exact ⟨c₂, hwhole⟩
    · cases htree
  obtain ⟨_, c₁, hvalue, hwhole⟩ := bind_eq_ok.1 hwhole
  obtain ⟨_, _, hfinish, hwhole⟩ := bind_eq_ok.1 hwhole
  cases hwhole
  exact ((h (value_eq_ok.1 hvalue)).whole hfinish).run

/-- Where the text as a whole is a tree of data, the document that is read from the text as it comes
is the one that the tree gives. -/
theorem ofText_eq_ofJson {text : String} (h : run (whole (value maxOpen)) text = .ok j) :
    (Document.ofText text).toOption = (Document.ofJson j).toOption := by
  rw [ofJson_eq, ← run_whole_eq h fun hj => (readParts_agrees hj).bind fun ps => .ofExcept _ _,
    Document.ofText]
  cases run _ text <;> rfl

theorem Datum.ofText_eq_ofJson {text : String} (h : run (whole (value maxOpen)) text = .ok j) :
    (Datum.ofText text).toOption = (Datum.ofJson j).toOption := by
  rw [← run_whole_eq h fun hj => readDatum_agrees hj, Datum.ofText]
  cases run _ text <;> rfl

end Document

end PredicateTree
