import PredicateTree.Proofs.Document.Constants
import PredicateTree.Proofs.Document.Places

/-!
# Proofs.Document.Scoping

Names are resolved lexically.

* `Piece.Binds`: which declaration a name means at a place. The lambda is the innermost one around
  the place that declares the name, and its first declaration of that name counts. As paths do not
  leave the value they start in, neither does the search.
* `Piece.Resolves P F`: everything that is written in `P` has become in `F` what it is to become.
  References to parameters are resolved by `Binds`, declarations are parameters, and references to a
  constant hold its value.
* `lower_resolves`: a document that is lowered is resolved in all of its values, and its declarations
  give distinct identities. A document with a reference that nothing binds is not lowered.
-/

namespace PredicateTree

namespace Document

/-! ## What a name means -/

/-- The path `a` ends above the end of `b`, on the way to it. -/
def Above (a b : List Step) : Prop := ∃ s rest, b = a ++ s :: rest

/-- At `path`, `name` means the declaration `j` of the lambda at `around`. -/
structure Piece.Binds (P : Piece) (path : List Step) (name : String) (around : List Step)
    (j : Nat) : Prop where
  above : Above around path
  first : ∃ L, P.at? around = some L ∧ L.declared.findIdx? (·.name == name) = some j
  innermost : ∀ between L, Above around between → Above between path →
    P.at? between = some L → ∀ d ∈ L.declared, d.name ≠ name

/-- The parameter that comes from the declaration `j` at a place. -/
def Form.param? (F : Form) (path : List Step) (j : Nat) : Option Param :=
  (F.at? path).bind fun G => G.declared[j]?

def Piece.declaration? (P : Piece) (path : List Step) (j : Nat) : Option Declaration :=
  (P.at? path).bind fun L => L.declared[j]?

theorem above_cons {s : Step} {a b : List Step} (h : Above a b) : Above (s :: a) (s :: b) := by
  obtain ⟨t, rest, rfl⟩ := h
  exact ⟨t, rest, rfl⟩

theorem above_nil_cons (s : Step) (path : List Step) : Above [] (s :: path) := ⟨s, path, rfl⟩

theorem Above.of_cons {s t : Step} {a b : List Step} (h : Above (s :: a) (t :: b)) :
    s = t ∧ Above a b := by
  obtain ⟨u, rest, h⟩ := h
  simp only [List.cons_append, List.cons.injEq] at h
  exact ⟨h.1.symm, u, rest, h.2⟩

theorem Above.ne_nil {a b : List Step} (h : Above a b) : b ≠ [] := by
  obtain ⟨s, rest, rfl⟩ := h
  simp

variable {c : Constants} {scope : List Param} {site : Site} {P Q : Piece} {F G : Form}

/-- A place further on the way is on the way in the piece that the first step leads to. -/
theorem Piece.above_of_down? {s : Step} {A L : Piece} {i : Nat} {between path : List Step}
    (hA : P.down? s = some (A, i)) (hne : between ≠ []) (habove : Above between (s :: path))
    (hL : P.at? between = some L) :
    ∃ rest, between = s :: rest ∧ Above rest path ∧ A.at? rest = some L := by
  cases between with
  | nil => exact absurd rfl hne
  | cons t rest =>
    obtain ⟨rfl, hrest⟩ := habove.of_cons
    obtain ⟨A', i', hA', hAL⟩ := Piece.at?_cons hL
    cases hA.symm.trans hA'
    exact ⟨rest, rfl, hrest, hAL⟩

theorem Lowers.names (h : Lowers c scope site P F) (hP : P.constant? = none) :
    F.declared.map Param.name = P.declared.map Declaration.name :=
  declare_names (h.declared hP)

/-- All that is declared on the way to a place is in sight there. -/
theorem Lowers.mem_inSight {path : List Step} :
    ∀ {scope : List Param} {site : Site} {P : Piece} {F : Form} {between : List Step} {L : Piece}
      {d : Declaration}, Lowers c scope site P F → P.at? path = some Q → Above between path →
      P.at? between = some L → d ∈ L.declared → ∃ p ∈ F.inSight path, p.name = d.name := by
  induction path with
  | nil =>
    intro scope site P F between L d _ _ habove
    exact absurd rfl habove.ne_nil
  | cons s path ih =>
    intro scope site P F between L d h hQ habove hL hd
    obtain ⟨A, i, hA, hAQ⟩ := Piece.at?_cons hQ
    obtain ⟨B, hB, hlower⟩ := h.down hA
    simp only [Form.inSight, hB, Option.elim_some, List.mem_append]
    cases between with
    | nil =>
      cases hL
      have hnames := h.names (Piece.constant?_of_down? hA)
      have hmem : d.name ∈ F.declared.map Param.name := by
        rw [hnames]
        exact List.mem_map_of_mem hd
      obtain ⟨p, hp, hname⟩ := List.mem_map.1 hmem
      exact ⟨p, .inr hp, hname⟩
    | cons t between =>
      obtain ⟨rest, ⟨⟩, hbelow, hAL⟩ :=
        Piece.above_of_down? hA (List.cons_ne_nil t between) habove hL
      obtain ⟨p, hp, hname⟩ := ih hlower hAQ hbelow hAL hd
      exact ⟨p, .inl hp, hname⟩

theorem findIdx?_of_names {ps : List Param} {ds : List Declaration} {name : String} {p : Param}
    (hnames : ps.map Param.name = ds.map Declaration.name)
    (h : ps.find? (·.name == name) = some p) :
    ∃ j, ds.findIdx? (·.name == name) = some j ∧ ps[j]? = some p := by
  induction ps generalizing ds with
  | nil => cases h
  | cons q ps ih =>
    cases ds with
    | nil => cases hnames
    | cons d ds =>
      simp only [List.map_cons, List.cons.injEq] at hnames
      obtain ⟨hq, hnames⟩ := hnames
      rw [List.find?_cons, hq] at h
      rw [List.findIdx?_cons]
      cases hd : d.name == name with
      | true =>
        rw [hd] at h
        cases h
        exact ⟨0, rfl, rfl⟩
      | false =>
        rw [hd] at h
        obtain ⟨j, hj, hp⟩ := ih hnames h
        exact ⟨j + 1, by simp [hj], hp⟩

/-- The first parameter of a name in sight is the one that the name means. -/
theorem Lowers.binds {path : List Step} {name : String} {p : Param} :
    ∀ {scope : List Param} {site : Site} {P : Piece} {F : Form}, Lowers c scope site P F →
      P.at? path = some Q → (F.inSight path).find? (·.name == name) = some p →
      ∃ around j, P.Binds path name around j ∧ F.param? around j = some p := by
  induction path with
  | nil =>
    intro scope site P F _ _ hp
    cases hp
  | cons s path ih =>
    intro scope site P F h hQ hp
    obtain ⟨A, i, hA, hAQ⟩ := Piece.at?_cons hQ
    obtain ⟨B, hB, hlower⟩ := h.down hA
    simp only [Form.inSight, hB, Option.elim_some, List.find?_append] at hp
    cases hbelow : (B.inSight path).find? (·.name == name) with
    | some q =>
      rw [hbelow] at hp
      cases hp
      obtain ⟨around, j, hbinds, hparam⟩ := ih hlower hAQ hbelow
      obtain ⟨L, hL, hfirst⟩ := hbinds.first
      refine ⟨s :: around, j, ⟨above_cons hbinds.above, ⟨L, ?_, hfirst⟩, ?_⟩, ?_⟩
      · simp only [Piece.at?, hA, Option.bind_some, hL]
      · intro between L' haround hpath hL'
        obtain ⟨rest, rfl, hrest, hAL⟩ := Piece.above_of_down? hA haround.ne_nil hpath hL'
        exact hbinds.innermost rest L' haround.of_cons.2 hrest hAL
      · simpa only [Form.param?, Form.at?, hB, Option.bind_some] using hparam
    | none =>
      -- Nothing below declares the name, so it means the first declaration here.
      rw [hbelow, Option.none_or] at hp
      have hnames := h.names (Piece.constant?_of_down? hA)
      obtain ⟨j, hj, hparam⟩ := findIdx?_of_names hnames hp
      refine ⟨[], j, ⟨above_nil_cons s path, ⟨P, rfl, hj⟩, ?_⟩, hparam⟩
      intro between L' haround hpath hL' d hd hname
      obtain ⟨rest, rfl, hrest, hAL⟩ := Piece.above_of_down? hA haround.ne_nil hpath hL'
      obtain ⟨q, hq, hqname⟩ := hlower.mem_inSight hAQ hrest hAL hd
      have hnone := List.find?_eq_none.1 hbelow q hq
      simp [hqname, hname] at hnone

/-! ## Declarations -/

theorem Piece.declared_of_constant? {name : String} (h : P.constant? = some name) :
    P.declared = [] := by
  unfold Piece.constant? at h
  split at h
  · rfl
  · rfl
  · cases h

theorem Lowers.declaration (h : Lowers c scope site P F) {path : List Step} {j : Nat}
    {d : Declaration} (hd : P.declaration? path j = some d) :
    ∃ p, F.param? path j = some p ∧
      Declares ((siteBelow site (P.positions path)).child 0) (d, j) p := by
  obtain ⟨L, hL, hdecl⟩ := Option.bind_eq_some_iff.1 hd
  obtain ⟨G, hG, hlower⟩ := h.at? hL
  have hconstant : L.constant? = none := by
    cases hL' : L.constant? with
    | none => rfl
    | some name =>
      rw [Piece.declared_of_constant? hL'] at hdecl
      cases hdecl
  have hparams := declare_params (hlower.declared hconstant)
  have hzip : (L.declared.zipIdx 0)[j]? = some (d, j) := by simp [hdecl]
  obtain ⟨p, hp, hdeclares⟩ := getElem?_of_forall₂ hparams hzip
  refine ⟨p, ?_, hdeclares⟩
  rw [Form.param?, hG]
  exact hp

/-! ## Values of a document -/

/-- Where a value of a document stands. -/
inductive Root where
  | predicate
  | constant (name : String)
  /-- The `j`-th member of the `i`-th type. -/
  | static (i j : Nat)

namespace Root

def piece? (doc : Document) : Root → Option Piece
  | .predicate => some (.datum (.node doc.predicate))
  | .constant name => (doc.constants.get? name).map .datum
  | .static i j => doc.statics[i]?.bind fun t => t.2[j]?.map fun m => .datum m.2

def form? (low : Lowered) : Root → Option Form
  | .predicate => some (.value low.predicate.toValue)
  | .constant name => (low.constants.get? name).map .value
  | .static i j => low.statics[i]?.bind fun t => t.2[j]?.map fun m => .value m.2

/-- The positions that lead to the value. -/
def positions (doc : Document) : Root → List Nat
  | .predicate => [2]
  | .constant name => [0, doc.constants.findIdx (·.1 == name)]
  | .static i j => [1, i, j]

end Root

theorem eq_of_findIdx {t : Table Datum} {name name' : String} {d : Datum}
    (h : t.get? name = some d) (hidx : t.findIdx (·.1 == name) = t.findIdx (·.1 == name')) :
    name = name' := by
  have hmem : (name, d) ∈ t := mem_of_lookup h
  have hlt : t.findIdx (·.1 == name) < t.length :=
    List.findIdx_lt_length.2 ⟨(name, d), hmem, by simp⟩
  have hlt' : t.findIdx (·.1 == name') < t.length := hidx ▸ hlt
  have hname : t[t.findIdx (·.1 == name)].1 = name := by
    simpa using List.findIdx_getElem (w := hlt)
  have hname' : t[t.findIdx (·.1 == name')].1 = name' := by
    simpa using List.findIdx_getElem (w := hlt')
  simp only [hidx] at hname
  exact hname.symm.trans hname'

variable {doc : Document} {low : Lowered}

theorem Root.positions_inj {r r' : Root} {is js : List Nat} (hr : r.piece? doc = some P)
    (hr' : r'.piece? doc = some Q) (h : r.positions doc ++ is = r'.positions doc ++ js) :
    r = r' ∧ is = js := by
  cases r with
  | predicate =>
    cases r' with
    | predicate => exact ⟨rfl, by simpa [Root.positions] using h⟩
    | constant | static => simp [Root.positions] at h
  | constant name =>
    cases r' with
    | constant name' =>
      simp only [Root.positions, List.cons_append, List.nil_append, List.cons.injEq, true_and] at h
      obtain ⟨d, hd, -⟩ := Option.map_eq_some_iff.1 hr
      exact ⟨congrArg Root.constant (eq_of_findIdx hd h.1), h.2⟩
    | predicate | static => simp [Root.positions] at h
  | static i j =>
    cases r' with
    | static i' j' =>
      simp only [Root.positions, List.cons_append, List.nil_append, List.cons.injEq, true_and] at h
      obtain ⟨rfl, rfl, h⟩ := h
      exact ⟨rfl, h⟩
    | predicate | constant => simp [Root.positions] at h

/-- Each value of a document is lowered by itself, without anything in scope. -/
theorem lowers_root (hlow : doc.lower site = .ok low) {r : Root}
    (hr : r.piece? doc = some P) :
    ∃ F, r.form? low = some F ∧ Lowers (doc.constant site (doc.settled site)) []
      (siteBelow site (r.positions doc)) P F := by
  obtain ⟨hconstants, hstatics, hpredicate⟩ := lower_eq_ok hlow
  cases r with
  | predicate =>
    cases hr
    exact ⟨_, rfl, hpredicate⟩
  | constant name =>
    obtain ⟨d, hd, rfl⟩ := Option.map_eq_some_iff.1 hr
    obtain ⟨v, hv, hget⟩ := lowerConstants_get? hconstants hd
    obtain ⟨d', hd', hlower⟩ := constant_eq_ok hv
    cases hd.symm.trans hd'
    refine ⟨.value v, ?_, hlower⟩
    rw [Root.form?, hget]
    rfl
  | static i j =>
    obtain ⟨t, ht, htr⟩ := Option.bind_eq_some_iff.1 hr
    obtain ⟨m, hm, rfl⟩ := Option.map_eq_some_iff.1 htr
    have htypes : (doc.statics.zipIdx 0)[i]? = some (t, i) := by simp [ht]
    obtain ⟨u, hu, hfields⟩ := getElem?_of_forall₂ (lowerStatics_tables hstatics) htypes
    have hmembers : (t.2.zipIdx 0)[j]? = some (m, j) := by simp [hm]
    obtain ⟨w, hw, -, hlower⟩ := getElem?_of_forall₂ (Datum.lowerFields_entries hfields) hmembers
    refine ⟨.value w.2, ?_, hlower⟩
    simp [Root.form?, hu, hw]

/-! ## Documents -/

/-- All that is written in `P` has become in `F` what it is to become. -/
structure Piece.Resolves (P : Piece) (F : Form) (constants : Table Value) : Prop where
  /-- A reference to a parameter is one to the parameter of the declaration that it means. -/
  parameters : ∀ path name, P.at? path = some (.node (.param name)) →
    ∃ around j p l, P.Binds path name around j ∧ F.param? around j = some p ∧
      F.at? path = some (.expr (.parameter l p))
  /-- A declaration is a parameter of its name and type. -/
  declarations : ∀ path j d, P.declaration? path j = some d →
    ∃ p, F.param? path j = some p ∧ p.name = d.name ∧ parseTy d.ty = .ok p.ty
  /-- A reference to a constant holds the value of the constant. -/
  constants : ∀ path Q name, P.at? path = some Q → Q.constant? = some name →
    ∃ v, constants.get? name = some v ∧ (F.at? path).bind Form.value? = some v

theorem Lowers.value? {name : String} (h : Lowers c scope site P F)
    (hP : P.constant? = some name) : ∃ v, c name = .ok v ∧ F.value? = some v := by
  match P, F, h with
  | .node (.constant other), .expr e, h =>
    cases hP
    obtain ⟨v, hv, rfl⟩ := Node.lower_constant h
    exact ⟨v, hv, rfl⟩
  | .datum (.node (.constant other)), .value v, h =>
    cases hP
    exact ⟨v, h, rfl⟩

theorem Lowers.resolves {constants : Table Value} (h : Lowers c [] site P F)
    (hc : ∀ name v, c name = .ok v → constants.get? name = some v) : P.Resolves F constants where
  parameters path name hpath := by
    obtain ⟨G, hG, hlower⟩ := h.at? hpath
    cases G with
    | value => exact hlower.elim
    | expr e =>
      obtain ⟨p, hp, rfl⟩ := Node.lower_param hlower
      rw [List.append_nil] at hp
      obtain ⟨around, j, hbinds, hparam⟩ := h.binds hpath hp
      exact ⟨around, j, p, _, hbinds, hparam, hG⟩
  declarations path j d hd := by
    obtain ⟨p, hp, hdeclares⟩ := h.declaration hd
    exact ⟨p, hp, hdeclares.name, hdeclares.ty⟩
  constants path Q name hQ hname := by
    obtain ⟨G, hG, hlower⟩ := h.at? hQ
    obtain ⟨v, hv, hvalue⟩ := hlower.value? hname
    refine ⟨v, hc name v hv, ?_⟩
    rw [hG]
    exact hvalue

/-- The parameter `p` comes from the declaration `j` at a place in a value of the document. -/
structure Originates (doc : Document) (low : Lowered) (p : Param) (r : Root) (path : List Step)
    (j : Nat) : Prop where
  declaration : ∃ P d, r.piece? doc = some P ∧ P.declaration? path j = some d
  param : ∃ F, r.form? low = some F ∧ F.param? path j = some p

theorem Originates.id (hlow : doc.lower site = .ok low)
    {p : Param} {r : Root} {path : List Step} {j : Nat} (h : Originates doc low p r path j) :
    ∃ P L, r.piece? doc = some P ∧ P.at? path = some L ∧
      p.id = ((siteBelow site (r.positions doc ++ P.positions path)).child 0).child j := by
  obtain ⟨P, d, hP, hd⟩ := h.declaration
  obtain ⟨F, hF, hp⟩ := h.param
  obtain ⟨F', hF', hlower⟩ := lowers_root hlow hP
  cases hF.symm.trans hF'
  obtain ⟨p', hp', hdeclares⟩ := hlower.declaration hd
  cases hp.symm.trans hp'
  obtain ⟨L, hL, -⟩ := Option.bind_eq_some_iff.1 hd
  refine ⟨P, L, hP, hL, ?_⟩
  rw [hdeclares.id, siteBelow, siteBelow, siteBelow, List.foldl_append]

theorem Originates.inj (hlow : doc.lower site = .ok low)
    {p p' : Param} {r r' : Root} {path path' : List Step} {j j' : Nat}
    (h : Originates doc low p r path j) (h' : Originates doc low p' r' path' j')
    (hid : p.id = p'.id) : r = r' ∧ path = path' ∧ j = j' := by
  obtain ⟨P, L, hP, hL, hp⟩ := h.id hlow
  obtain ⟨P', L', hP', hL', hp'⟩ := h'.id hlow
  rw [hp, hp', Site.child_inj, Site.child_inj] at hid
  obtain ⟨⟨hsite, -⟩, hj⟩ := hid
  obtain ⟨rfl, hpositions⟩ := Root.positions_inj hP hP' (siteBelow_inj hsite)
  cases hP.symm.trans hP'
  exact ⟨rfl, Piece.positions_inj hL hL' hpositions, hj⟩

/-- A document that is lowered is resolved lexically in each of its values, each of its declarations
has an identity of its own, and a document with a reference that nothing binds is not lowered. -/
theorem lower_resolves (doc : Document) (site : Site) :
    (∀ low, doc.lower site = .ok low →
      (∀ (r : Root) P, r.piece? doc = some P →
        ∃ F, r.form? low = some F ∧ P.Resolves F low.constants) ∧
      ∀ p p' r r' path path' j j', Originates doc low p r path j →
        Originates doc low p' r' path' j' → p.id = p'.id → r = r' ∧ path = path' ∧ j = j') ∧
    ∀ (r : Root) P path name, r.piece? doc = some P → P.at? path = some (.node (.param name)) →
      (∀ around j, ¬P.Binds path name around j) → ∃ e, doc.lower site = .error e := by
  have hresolves : ∀ low, doc.lower site = .ok low → ∀ (r : Root) P, r.piece? doc = some P →
      ∃ F, r.form? low = some F ∧ P.Resolves F low.constants := by
    intro low hlow r P hP
    obtain ⟨F, hF, hlower⟩ := lowers_root hlow hP
    refine ⟨F, hF, hlower.resolves fun name v hv => ?_⟩
    obtain ⟨d, hd, -⟩ := constant_eq_ok hv
    obtain ⟨v', hv', hget⟩ := lowerConstants_get? (lower_eq_ok hlow).1 hd
    cases hv.symm.trans hv'
    exact hget
  refine ⟨fun low hlow => ⟨hresolves low hlow, ?_⟩, ?_⟩
  · intro p p' r r' path path' j j' h h' hid
    exact h.inj hlow h' hid
  · intro r P path name hP hpath hfree
    cases hlow : doc.lower site with
    | error e => exact ⟨e, rfl⟩
    | ok low =>
      obtain ⟨F, -, hF⟩ := hresolves low hlow r P hP
      obtain ⟨around, j, -, -, hbinds, -⟩ := hF.parameters path name hpath
      exact absurd hbinds (hfree around j)

namespace Shadowed

def x : Declaration := ⟨"x", "int"⟩

def y : Declaration := ⟨"y", "int"⟩

/-- The constant `same` is `|x: int| x`, and the predicate is
`|x: int| expand(|x: int, x: int| expand(same, x), x, literal(|y: int| x))`. -/
def document : Document where
  statics := []
  constants := [("same", .node (.lambda [x] (.param "x")))]
  predicate := .lambda [x] (.expand
    (.lambda [x, x] (.expand (.constant "same") [.param "x"] "int"))
    [.param "x", .literal (.node (.lambda [y] (.param "x"))) none] "int")

/-- The constant `other` is `|x: int| y`, and the predicate `|y: int| expand(other, y)`. -/
def outside : Document where
  statics := []
  constants := [("other", .node (.lambda [x] (.param "y")))]
  predicate := .lambda [y] (.expand (.constant "other") [.param "y"] "int")

/-- What surrounds a reference to a constant is not around what is written in the constant. -/
theorem not_binds_outside (around : List Step) (j : Nat) :
    ¬(Piece.datum (.node (.lambda [x] (.param "y")))).Binds [.child 0] "y" around j := by
  intro h
  obtain ⟨s, rest, habove⟩ := h.above
  obtain rfl : around = [] := by
    cases around with
    | nil => rfl
    | cons t around => simp at habove
  obtain ⟨L, hL, hfirst⟩ := h.first
  cases hL
  cases hfirst

end Shadowed

open Shadowed in
theorem lower_resolves_shadowed :
    (∃ low, document.lower (.root 0) = .ok low ∧
      (Piece.datum (.node document.predicate)).Resolves (.value low.predicate.toValue)
        low.constants) ∧
    ∃ e, outside.lower (.root 0) = .error e := by
  obtain ⟨low, hlow⟩ : ∃ low, document.lower (.root 0) = .ok low := by
    have hok : (document.lower (.root 0)).isOk = true := by decide +kernel
    cases h : document.lower (.root 0) with
    | ok low => exact ⟨low, rfl⟩
    | error e =>
      rw [h] at hok
      cases hok
  constructor
  · obtain ⟨F, hF, hresolves⟩ := ((lower_resolves document (.root 0)).1 low hlow).1 .predicate _ rfl
    cases hF
    exact ⟨low, hlow, hresolves⟩
  · exact (lower_resolves outside (.root 0)).2 (.constant "other") _ [.child 0] "y" rfl rfl
      not_binds_outside

end Document

end PredicateTree
