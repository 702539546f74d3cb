import PredicateTree.Proofs.Document.Lowering

/-!
# Proofs.Document.Places

Places in what is written, and the same places in what becomes of it.

A place is a path of steps: to the i-th node below, into the value of a literal, to a field of an
object, into the body of a lambda that is held as a value. A reference to a constant has nothing
below it, so no path leads out of the value in which it starts.

* `Piece` and `Form`: a tree or a value, as written and as lowered, with one way to step down each.
* `Lowers.down`: what stands below is lowered to what stands below, with the declarations passed by
  in front of the scope. `Lowers.at?`: the same for whole paths.
* `Piece.positions`: the places of lowering along a path; `positions_inj` says that they tell the
  paths apart.
-/

namespace PredicateTree

namespace Document

/-- Something written. -/
inductive Piece where
  | node (n : Node)
  | datum (d : Datum)

/-- Something lowered. -/
inductive Form where
  | expr (e : Expr)
  | value (v : Value)

inductive Step where
  | child (i : Nat)
  | field (name : String)

namespace Piece

/-- The parameters declared for what stands below. -/
def declared : Piece → List Declaration
  | .node n => n.declared
  | .datum (.node n) => n.declared
  | .datum _ => []

/-- The constant that is referred to. -/
def constant? : Piece → Option String
  | .node (.constant name) => some name
  | .datum (.node (.constant name)) => some name
  | _ => none

/-- What stands one step below, with its position. -/
def down? : Piece → Step → Option (Piece × Nat)
  | .node (.literal d _), .child 0 => some (.datum d, 0)
  | .node n, .child i => n.children[i]?.map fun q => (.node q.1, q.2)
  | .datum (.object _ fs), .field name =>
    (fs.zipIdx.reverse.find? (·.1.1 == name)).map fun f => (.datum f.1.2, f.2)
  | .datum (.node (.lambda _ b)), .child 0 => some (.node b, 1)
  | _, _ => none

def at? (P : Piece) : List Step → Option Piece
  | [] => some P
  | s :: path => (P.down? s).bind fun q => q.1.at? path

/-- The positions along a path. -/
def positions (P : Piece) : List Step → List Nat
  | [] => []
  | s :: path =>
    match P.down? s with
    | some (Q, i) => i :: Q.positions path
    | none => []

end Piece

namespace Form

def declared : Form → List Param
  | .expr e => e.declared
  | .value (.lambda ps _) => ps
  | .value _ => []

/-- The value that is held. -/
def value? : Form → Option Value
  | .expr (.constant _ v) => some v
  | .expr _ => none
  | .value v => some v

def down? : Form → Step → Option Form
  | .expr (.constant _ v), .child 0 => some (.value v)
  | .expr e, .child i => e.children[i]?.map .expr
  | .value (.object _ fs), .field name => (Table.get? fs name).map .value
  | .value (.lambda _ b), .child 0 => some (.expr b)
  | _, _ => none

def at? (F : Form) : List Step → Option Form
  | [] => some F
  | s :: path => (F.down? s).bind (·.at? path)

/-- The parameters in sight at the end of a path, the nearest first. -/
def inSight (F : Form) : List Step → List Param
  | [] => []
  | s :: path => (F.down? s).elim [] (·.inSight path) ++ F.declared

end Form

/-! ## One step -/

def Lowers (c : Constants) (scope : List Param) (site : Site) : Piece → Form → Prop
  | .node n, .expr e => Node.lower c scope site n = .ok e
  | .datum d, .value v => Datum.lower c scope site d = .ok v
  | _, _ => False

variable {c : Constants} {scope : List Param} {site : Site} {P Q : Piece} {F : Form}

theorem Lowers.declared (h : Lowers c scope site P F) (hP : P.constant? = none) :
    declare (site.child 0) 0 P.declared = .ok F.declared := by
  match P, F, h with
  | .node n, .expr e, h => exact (Node.lower_children h).2.1
  | .datum (.node (.lambda ds b)), .value v, h =>
    obtain ⟨ps, body, hps, -, rfl⟩ := Datum.lower_lambda h
    exact hps
  | .datum (.node (.constant name)), .value v, _ => cases hP
  | .datum (.object k fs), .value v, h =>
    obtain ⟨vs, -, rfl⟩ := Datum.lower_object h
    rfl
  | .datum .null, .value v, h | .datum (.bool _), .value v, h | .datum (.int _), .value v, h
  | .datum (.float _), .value v, h | .datum (.str _), .value v, h =>
    cases h
    rfl
  | .datum (.unsigned _), .value v, h | .datum (.node (.param _)), .value v, h
  | .datum (.node (.literal ..)), .value v, h | .datum (.node (.member ..)), .value v, h
  | .datum (.node (.call ..)), .value v, h | .datum (.node (.expand ..)), .value v, h
  | .datum (.node (.binary ..)), .value v, h | .datum (.node (.unary ..)), .value v, h
  | .datum (.node (.conditional ..)), .value v, h | .datum (.node (.default _)), .value v, h
  | .datum (.node (.dynamic ..)), .value v, h => cases h

theorem Datum.lowerFields_find? {fs : List ((String × Datum) × Nat)} {vs : List (String × Value)}
    (h : List.Forall₂ (LowersField c scope site) fs vs) {name : String}
    {f : (String × Datum) × Nat} (hf : fs.find? (·.1.1 == name) = some f) :
    ∃ v, List.lookup name vs = some v ∧ Datum.lower c scope (site.child f.2) f.1.2 = .ok v := by
  induction h with
  | nil => cases hf
  | @cons g w fs vs hgw _ ih =>
    obtain ⟨hname, hlower⟩ := hgw
    rw [List.find?_cons] at hf
    rw [List.lookup_cons, hname]
    by_cases heq : g.1.1 = name
    · subst heq
      simp only [beq_self_eq_true] at hf
      cases hf
      exact ⟨w.2, by simp, hlower⟩
    · have hg : (g.1.1 == name) = false := by simpa using heq
      have hn : (name == g.1.1) = false := by simpa using fun h => heq h.symm
      rw [hg] at hf
      rw [hn]
      exact ih hf

/-- The four kinds of steps. -/
theorem Piece.down?_eq_some {s : Step} {i : Nat} (h : P.down? s = some (Q, i)) :
    (∃ d ty, P = .node (.literal d ty) ∧ s = .child 0 ∧ Q = .datum d ∧ i = 0) ∨
    (∃ n j m, P = .node n ∧ n.isAtom = false ∧ s = .child j ∧ n.children[j]? = some (m, i) ∧
      Q = .node m) ∨
    (∃ k fs name f, P = .datum (.object k fs) ∧ s = .field name ∧
      fs.zipIdx.reverse.find? (·.1.1 == name) = some f ∧ Q = .datum f.1.2 ∧ i = f.2) ∨
    ∃ ds b, P = .datum (.node (.lambda ds b)) ∧ s = .child 0 ∧ Q = .node b ∧ i = 1 := by
  unfold Piece.down? at h
  split at h
  · rename_i d ty
    cases h
    exact .inl ⟨d, ty, rfl, rfl, rfl, rfl⟩
  · rename_i n j _
    obtain ⟨⟨m, k⟩, hm, hq⟩ := Option.map_eq_some_iff.1 h
    cases hq
    have hatom : n.isAtom = false := by
      cases n with
      | param | literal | constant => cases hm
      | _ => rfl
    exact .inr (.inl ⟨n, j, m, rfl, hatom, rfl, hm, rfl⟩)
  · rename_i k fs name
    obtain ⟨f, hf, hq⟩ := Option.map_eq_some_iff.1 h
    cases hq
    exact .inr (.inr (.inl ⟨k, fs, name, f, rfl, rfl, hf, rfl, rfl⟩))
  · rename_i ds b
    cases h
    exact .inr (.inr (.inr ⟨ds, b, rfl, rfl, rfl, rfl⟩))
  · cases h

theorem Piece.constant?_of_down? {s : Step} {i : Nat} (h : P.down? s = some (Q, i)) :
    P.constant? = none := by
  obtain ⟨d, ty, rfl, -⟩ | ⟨n, j, m, rfl, hatom, -⟩ | ⟨k, fs, name, f, rfl, -⟩ | ⟨ds, b, rfl, -⟩ :=
    Piece.down?_eq_some h
  · rfl
  · cases n with
    | constant => cases hatom
    | _ => rfl
  · rfl
  · rfl

theorem Form.down?_expr {e : Expr} (h : e.isAtom = false) (i : Nat) :
    (Form.expr e).down? (.child i) = e.children[i]?.map .expr := by
  cases e with
  | constant => cases h
  | _ => rfl

theorem Lowers.down (h : Lowers c scope site P F) {s : Step} {i : Nat}
    (hs : P.down? s = some (Q, i)) :
    ∃ G, F.down? s = some G ∧ Lowers c (F.declared ++ scope) (site.child i) Q G := by
  obtain ⟨d, ty, rfl, rfl, rfl, rfl⟩ | ⟨n, j, m, rfl, hatom, rfl, hm, rfl⟩ |
    ⟨k, fs, name, f, rfl, rfl, hf, rfl, rfl⟩ | ⟨ds, b, rfl, rfl, rfl, rfl⟩ :=
    Piece.down?_eq_some hs
  · cases F with
    | value => exact h.elim
    | expr e =>
      obtain ⟨l, v, hv, rfl⟩ := Node.lower_literal h
      exact ⟨.value v, rfl, hv⟩
  · cases F with
    | value => exact h.elim
    | expr e =>
      obtain ⟨hsame, -, hchildren⟩ := Node.lower_children h
      obtain ⟨a, ha, hlower⟩ := getElem?_of_forall₂ hchildren hm
      refine ⟨.expr a, ?_, hlower⟩
      rw [Form.down?_expr (hsame.trans hatom), ha]
      rfl
  · cases F with
    | expr => exact h.elim
    | value v =>
      obtain ⟨vs, hvs, rfl⟩ := Datum.lower_object h
      have hentries := List.forall₂_reverse_iff.2 (Datum.lowerFields_entries hvs)
      obtain ⟨w, hw, hlower⟩ := Datum.lowerFields_find? hentries hf
      refine ⟨.value w, ?_, hlower⟩
      show (Table.get? (Table.ofList vs) name).map Form.value = some (.value w)
      rw [Table.get?_ofList, hw]
      rfl
  · cases F with
    | expr => exact h.elim
    | value v =>
      obtain ⟨ps, body, -, hbody, rfl⟩ := Datum.lower_lambda h
      exact ⟨.expr body, rfl, hbody⟩

/-! ## Whole paths -/

/-- The site that positions lead to. -/
def siteBelow (site : Site) (is : List Nat) : Site := is.foldl Site.child site

theorem Piece.at?_cons {s : Step} {path : List Step} {R : Piece}
    (h : P.at? (s :: path) = some R) : ∃ Q i, P.down? s = some (Q, i) ∧ Q.at? path = some R := by
  obtain ⟨⟨Q, i⟩, hq, hR⟩ := Option.bind_eq_some_iff.1 h
  exact ⟨Q, i, hq, hR⟩

theorem Lowers.at? {path : List Step} :
    ∀ {scope : List Param} {site : Site} {P : Piece} {F : Form}, Lowers c scope site P F →
      P.at? path = some Q → ∃ G, F.at? path = some G ∧
        Lowers c (F.inSight path ++ scope) (siteBelow site (P.positions path)) Q G := by
  induction path with
  | nil =>
    intro scope site P F h hQ
    cases hQ
    exact ⟨F, rfl, h⟩
  | cons s path ih =>
    intro scope site P F h hQ
    obtain ⟨A, i, hA, hQ⟩ := Piece.at?_cons hQ
    obtain ⟨B, hB, hlower⟩ := h.down hA
    obtain ⟨G, hG, hG'⟩ := ih hlower hQ
    refine ⟨G, ?_, ?_⟩
    · simp only [Form.at?, hB, Option.bind_some, hG]
    · simpa only [Form.inSight, hB, Option.elim_some, Piece.positions, hA, siteBelow,
        List.foldl_cons, List.append_assoc] using hG'

/-! ## Positions -/

theorem Node.children_positions (n : Node) : (n.children.map Prod.snd).Nodup := by
  cases n with
  | call t declaring method as markers ty =>
    cases t <;> simp [Node.children, List.zipIdx_map_snd, List.nodup_range']
  | member t => cases t <;> simp [Node.children]
  | _ => simp [Node.children, List.zipIdx_map_snd, List.nodup_range']

theorem Piece.down?_inj {s s' : Step} {Q Q' : Piece} {i : Nat} (h : P.down? s = some (Q, i))
    (h' : P.down? s' = some (Q', i)) : s = s' := by
  obtain ⟨d, ty, rfl, rfl, -, -⟩ | ⟨n, j, m, rfl, hatom, rfl, hm, -⟩ |
    ⟨k, fs, name, f, rfl, rfl, hf, -, hi⟩ | ⟨ds, b, rfl, rfl, -, -⟩ := Piece.down?_eq_some h
  · obtain ⟨_, _, _, rfl, -⟩ | ⟨_, _, _, hP, hatom', -⟩ | ⟨_, _, _, _, hP, -⟩ | ⟨_, _, hP, -⟩ :=
      Piece.down?_eq_some h'
    · rfl
    · cases hP
      cases hatom'
    · cases hP
    · cases hP
  · obtain ⟨_, _, hP, -⟩ | ⟨_, j', m', hP, -, rfl, hm', -⟩ | ⟨_, _, _, _, hP, -⟩ |
      ⟨_, _, hP, -⟩ := Piece.down?_eq_some h'
    · cases hP
      cases hatom
    · cases hP
      have hj : (n.children.map Prod.snd)[j]? = some i := by simp [hm]
      have hj' : (n.children.map Prod.snd)[j']? = some i := by simp [hm']
      have hlt : j < (n.children.map Prod.snd).length := (List.getElem?_eq_some_iff.1 hj).1
      rw [(List.getElem?_inj hlt n.children_positions).1 (hj.trans hj'.symm)]
    · cases hP
    · cases hP
  · obtain ⟨_, _, hP, -⟩ | ⟨_, _, _, hP, -⟩ | ⟨_, _, name', f', hP, rfl, hf', -, hi'⟩ |
      ⟨_, _, hP, -⟩ := Piece.down?_eq_some h'
    · cases hP
    · cases hP
    · cases hP
      -- The entry at a position has one name.
      have hmem := List.mem_zipIdx_iff_getElem?.1
        (List.mem_reverse.1 (List.mem_of_find?_eq_some hf))
      have hmem' := List.mem_zipIdx_iff_getElem?.1
        (List.mem_reverse.1 (List.mem_of_find?_eq_some hf'))
      have hname : f.1.1 = name := by simpa using List.find?_some hf
      have hname' : f'.1.1 = name' := by simpa using List.find?_some hf'
      rw [← hi] at hmem
      rw [← hi', hmem] at hmem'
      rw [← hname, ← hname', Option.some.inj hmem']
    · cases hP
  · obtain ⟨_, _, hP, -⟩ | ⟨_, _, _, hP, -⟩ | ⟨_, _, _, _, hP, -⟩ | ⟨_, _, -, rfl, -⟩ :=
      Piece.down?_eq_some h'
    · cases hP
    · cases hP
    · cases hP
    · rfl

theorem Piece.positions_inj {path : List Step} :
    ∀ {P Q Q' : Piece} {path' : List Step}, P.at? path = some Q → P.at? path' = some Q' →
      P.positions path = P.positions path' → path = path' := by
  induction path with
  | nil =>
    intro P Q Q' path' _ h' hpos
    cases path' with
    | nil => rfl
    | cons s' path' =>
      obtain ⟨A, i, hA, -⟩ := Piece.at?_cons h'
      simp [Piece.positions, hA] at hpos
  | cons s path ih =>
    intro P Q Q' path' h h' hpos
    obtain ⟨A, i, hA, hQ⟩ := Piece.at?_cons h
    cases path' with
    | nil => simp [Piece.positions, hA] at hpos
    | cons s' path' =>
      obtain ⟨A', i', hA', hQ'⟩ := Piece.at?_cons h'
      simp only [Piece.positions, hA, hA', List.cons.injEq] at hpos
      obtain ⟨rfl, hpos⟩ := hpos
      obtain rfl := Piece.down?_inj hA hA'
      cases hA.symm.trans hA'
      rw [ih hQ hQ' hpos]

theorem siteBelow_inj {site : Site} {is js : List Nat}
    (h : siteBelow site is = siteBelow site js) : is = js := by
  have hpath : ∀ (ks : List Nat) (s : Site), (siteBelow s ks).path = ks.reverse ++ s.path := by
    intro ks
    induction ks with
    | nil => intro s; rfl
    | cons k ks ih =>
      intro s
      show (siteBelow (s.child k) ks).path = _
      rw [ih]
      simp [Site.child]
  have hrev := congrArg Site.path h
  rw [hpath, hpath] at hrev
  exact List.reverse_injective (List.append_cancel_right hrev)

end Document

end PredicateTree
