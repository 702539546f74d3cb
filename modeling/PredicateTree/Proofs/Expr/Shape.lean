import PredicateTree.Expr.Text
import PredicateTree.Proofs.Expr.Parts
import PredicateTree.Proofs.Ty.RoundTrip

/-!
# Proofs.Expr.Shape

What the text of a tree shows of it.

* `Expr.shown`: the tree without what its text leaves out. A node keeps no identity and no type
  but for the type of a default value, a reference keeps the name of its parameter, a member or a
  method behind a target keeps its own name, and methods lose their markers.
* `Expr.hoist`: the operators `!` and `-` moved from the target of a member or a method to the front
  of the whole access. They are printed without parentheses, so before and after it the text is the
  same (`text_hoist`).
* `Expr.Plain`: names and constants that cannot be taken for anything else.
* `Expr.Settled`: no target has such an operator in front. A hoisted tree is settled.
-/

namespace PredicateTree

/-! ## What is shown -/

/-- The label of a node that shows none of it. -/
def Label.hidden : Label := ⟨.root 0, .bool⟩

/-- A parameter as its declaration shows it. -/
def Param.shown (p : Param) : Param := ⟨.root 0, p.name, p.ty⟩

/-- A parameter as a reference to it shows it. -/
def Param.named (name : String) : Param := ⟨.root 0, name, .bool⟩

mutual

def Expr.shown : Expr → Expr
  | .binary _ o a b => .binary .hidden o a.shown b.shown
  | .unary _ o a => .unary .hidden o a.shown
  | .member _ t r => .member .hidden t.shown ⟨"", r.name⟩
  | .static _ r => .static .hidden r
  | .call _ none m as => .call .hidden none ⟨m.declaringType, m.name, []⟩ (Expr.shownList as)
  | .call _ (some t) m as => .call .hidden (some t.shown) ⟨"", m.name, []⟩ (Expr.shownList as)
  | .constant _ v => .constant .hidden v
  | .parameter _ p => .parameter .hidden (.named p.name)
  | .conditional _ a b c => .conditional .hidden a.shown b.shown c.shown
  | .default l => .default ⟨.root 0, l.ty⟩
  | .dynamic _ b as => .dynamic .hidden b (Expr.shownList as)
  | .lambda _ ps b => .lambda .hidden (ps.map Param.shown) b.shown

def Expr.shownList : List Expr → List Expr
  | [] => []
  | a :: as => a.shown :: Expr.shownList as

end

theorem Param.header_shown (ps : List Param) :
    Param.header (ps.map Param.shown) = Param.header ps := by
  rw [Param.header, List.map_map]
  rfl

mutual

/-- Nothing that the text needs is left out. -/
theorem Expr.text_shown : ∀ e : Expr, e.shown.text = e.text
  | .binary _ _ a b => by simp [Expr.shown, Expr.text, a.text_shown, b.text_shown]
  | .unary _ _ a => by simp [Expr.shown, Expr.text, a.text_shown]
  | .member _ t _ => by simp [Expr.shown, Expr.text, t.text_shown]
  | .static .. => rfl
  | .call _ none _ as => by simp [Expr.shown, Expr.text, Expr.texts_shownList as]
  | .call _ (some t) _ as => by
    simp [Expr.shown, Expr.text, t.text_shown, Expr.texts_shownList as]
  | .constant .. => rfl
  | .parameter .. => rfl
  | .conditional _ a b c => by
    simp [Expr.shown, Expr.text, a.text_shown, b.text_shown, c.text_shown]
  | .default _ => rfl
  | .dynamic _ _ as => by simp [Expr.shown, Expr.text, Expr.texts_shownList as]
  | .lambda _ ps b => by simp [Expr.shown, Expr.text, Param.header_shown, b.text_shown]

theorem Expr.texts_shownList : ∀ as : List Expr, Expr.texts (Expr.shownList as) = Expr.texts as
  | [] => rfl
  | a :: as => by simp [Expr.shownList, Expr.texts, a.text_shown, Expr.texts_shownList as]

end

/-! ## Operators in front -/

namespace Expr

/-- A node printed as a sign in front of its operand. -/
def isPrefix : Expr → Bool
  | .unary _ .not _ | .unary _ .neg _ => true
  | _ => false

/-- The node that a member is read from or that a method is called on. -/
def target? : Expr → Option Expr
  | .member _ t _ => some t
  | .call _ t _ _ => t
  | _ => none

/-- What `f` makes of the tree below the signs in front of `e`, with these signs in front of it. -/
def under (f : Expr → Expr) : Expr → Expr
  | .unary l .not a => .unary l .not (a.under f)
  | .unary l .neg a => .unary l .neg (a.under f)
  | e => f e

mutual

/-- The tree with all signs moved in front of the accesses to their operands. -/
def hoist : Expr → Expr
  | .binary l o a b => .binary l o a.hoist b.hoist
  | .unary l o a => .unary l o a.hoist
  | .member l t r => t.hoist.under fun t => .member l t r
  | .call l none m as => .call l none m (hoistList as)
  | .call l (some t) m as => t.hoist.under fun t => .call l (some t) m (hoistList as)
  | .conditional l a b c => .conditional l a.hoist b.hoist c.hoist
  | .dynamic l b as => .dynamic l b (hoistList as)
  | .lambda l ps b => .lambda l ps b.hoist
  | .static l r => .static l r
  | .constant l v => .constant l v
  | .parameter l p => .parameter l p
  | .default l => .default l

def hoistList : List Expr → List Expr
  | [] => []
  | a :: as => a.hoist :: hoistList as

end

theorem hoistList_eq_map (as : List Expr) : hoistList as = as.map hoist := by
  induction as with
  | nil => rfl
  | cons a as ih => rw [hoistList, ih, List.map_cons]

/-- What is printed behind the tree below the signs is printed behind the signs as well. -/
theorem text_under {f : Expr → Expr} (behind : String) (hf : ∀ t, (f t).text = t.text ++ behind)
    (e : Expr) : (e.under f).text = e.text ++ behind := by
  fun_induction under f e with
  | case1 l a ih => simp [text, UnaryOp.wrap, ih, String.append_assoc]
  | case2 l a ih => simp [text, UnaryOp.wrap, ih, String.append_assoc]
  | case3 e => exact hf e

mutual

theorem text_hoist : ∀ e : Expr, e.hoist.text = e.text
  | .binary _ _ a b => by simp [hoist, text, a.text_hoist, b.text_hoist]
  | .unary _ _ a => by simp [hoist, text, a.text_hoist]
  | .member l t r => by
    rw [hoist, text_under ("." ++ r.name) fun t => ?_, t.text_hoist]
    · simp [text, String.append_assoc]
    · simp [text, String.append_assoc]
  | .call _ none _ as => by simp [hoist, text, texts_hoistList as]
  | .call l (some t) m as => by
    rw [hoist, text_under
      ("." ++ (m.name ++ ("(" ++ (commaSeparated (texts as) ++ ")")))) fun t => ?_,
      t.text_hoist]
    · simp [text, String.append_assoc]
    · simp [text, String.append_assoc, texts_hoistList as]
  | .conditional _ a b c => by simp [hoist, text, a.text_hoist, b.text_hoist, c.text_hoist]
  | .dynamic _ _ as => by simp [hoist, text, texts_hoistList as]
  | .lambda _ _ b => by simp [hoist, text, b.text_hoist]
  | .static .. | .constant .. | .parameter .. | .default _ => rfl

theorem texts_hoistList : ∀ as : List Expr, texts (hoistList as) = texts as
  | [] => rfl
  | a :: as => by simp [hoistList, texts, a.text_hoist, texts_hoistList as]

end

/-- A property that the signs always have and that `f` gives to a tree without any. -/
theorem All.under {P : Expr → Prop} {f : Expr → Expr} (hsign : ∀ l o a, P (.unary l o a))
    (hf : ∀ t, t.isPrefix = false → t.All P → (f t).All P) {e : Expr} (h : e.All P) :
    (e.under f).All P := by
  fun_induction Expr.under f e with
  | case1 l a ih | case2 l a ih =>
    obtain ⟨-, ha⟩ := (all_iff _).1 h
    exact (all_iff _).2 ⟨hsign _ _ _, by simpa [children] using ih (by simpa [children] using ha)⟩
  | case3 e hnot hneg =>
    refine hf e ?_ h
    unfold isPrefix
    split <;> simp_all

/-! ## Plain and settled trees -/

/-- The words that stand for something else in a text. -/
def printerWords : List String :=
  ["null", "true", "false", "value", "is_true", "is_false", "default", "dynamic", "fn", "bool",
    "int", "float", "string"]

def isNameChar (c : Char) : Bool := isAlphanumeric c || c == '_'

/-- A plain identifier. -/
structure IsPlainName (name : String) : Prop where
  nonempty : name.toList ≠ []
  chars : ∀ c ∈ name.toList, isNameChar c = true
  start : name.toList.head?.any Char.isDigit = false
  notPrinted : name ∉ printerWords

-- Tested character by character of the name, and not of the whole alphabet.
instance (name : String) : Decidable (IsPlainName name) :=
  decidable_of_iff (name.toList ≠ [] ∧ name.toList.all isNameChar = true ∧
      name.toList.head?.any Char.isDigit = false ∧ name ∉ printerWords)
    ⟨fun ⟨h₁, h₂, h₃, h₄⟩ => ⟨h₁, List.all_eq_true.1 h₂, h₃, h₄⟩,
      fun h => ⟨h.1, List.all_eq_true.2 h.2, h.3, h.4⟩⟩

end Expr

namespace Ty

instance (name : String) : Decidable (IsClassName name) :=
  decidable_of_iff ((name.toList ≠ [] ∧ name.toList.all isWordChar = true) ∧
      name ∉ ["bool", "int", "float", "string"])
    ⟨fun ⟨⟨h₁, h₂⟩, h₃⟩ => ⟨⟨h₁, List.all_eq_true.1 h₂⟩, h₃⟩,
      fun h => ⟨⟨h.1.1, List.all_eq_true.2 h.1.2⟩, h.2⟩⟩

mutual

def decidableReadable : (t : Ty) → Decidable t.Readable
  | named name => inferInstanceAs (Decidable (IsClassName name))
  | fn params result =>
    have := decidableReadableAll params
    have := decidableReadable result
    inferInstanceAs (Decidable (ReadableAll params ∧ result.Readable))
  | bool | int | float | string => inferInstanceAs (Decidable True)

def decidableReadableAll : (ts : List Ty) → Decidable (ReadableAll ts)
  | [] => inferInstanceAs (Decidable True)
  | t :: ts =>
    have := decidableReadable t
    have := decidableReadableAll ts
    inferInstanceAs (Decidable (t.Readable ∧ ReadableAll ts))

end

instance (t : Ty) : Decidable t.Readable := decidableReadable t

end Ty

/-- A truth value, a number without a sign, or null. -/
def Value.IsPlain : Value → Prop
  | .null | .bool _ => True
  | .int n => 0 ≤ n.toInt
  | .float _ | .str _ | .object .. | .lambda .. => False

instance : DecidablePred Value.IsPlain
  | .null | .bool _ => inferInstanceAs (Decidable True)
  | .int n => inferInstanceAs (Decidable (0 ≤ n.toInt))
  | .float _ | .str _ | .object .. | .lambda .. => inferInstanceAs (Decidable False)

namespace Expr

/-- The names that a node adds to the texts of its parts. -/
def shownNames : Expr → List String
  | .member _ _ r => [r.name]
  | .static _ r => [r.declaringType, r.name]
  | .call _ none m _ => [m.declaringType, m.name]
  | .call _ (some _) m _ => [m.name]
  | .parameter _ p => [p.name]
  | .dynamic _ b _ => [b]
  | .lambda _ ps _ => ps.map Param.name
  | _ => []

/-- The types that a node adds to the texts of its parts. -/
def shownTypes : Expr → List Ty
  | .default l => [l.ty]
  | .lambda _ ps _ => ps.map Param.ty
  | _ => []

/-- The values that a node adds to the texts of its parts. -/
def shownValues : Expr → List Value
  | .constant _ v => [v]
  | _ => []

/-- A class in a type may have any name that is read back, plain identifiers among them. -/
structure IsPlainNode (e : Expr) : Prop where
  names : ∀ w ∈ e.shownNames, IsPlainName w
  types : ∀ t ∈ e.shownTypes, t.Readable
  values : ∀ v ∈ e.shownValues, v.IsPlain

instance (e : Expr) : Decidable e.IsPlainNode :=
  decidable_of_iff ((∀ w ∈ e.shownNames, IsPlainName w) ∧ (∀ t ∈ e.shownTypes, t.Readable) ∧
      ∀ v ∈ e.shownValues, v.IsPlain)
    ⟨fun ⟨h₁, h₂, h₃⟩ => ⟨h₁, h₂, h₃⟩, fun h => ⟨h.1, h.2, h.3⟩⟩

/-- All names are plain identifiers, all types can be read back, and all constants are plain. -/
abbrev Plain (e : Expr) : Prop := e.All IsPlainNode

/-- The target of the node, if it has one, has no sign in front. -/
def HasBareTarget (e : Expr) : Prop := ∀ t ∈ e.target?, t.isPrefix = false

instance (e : Expr) : Decidable e.HasBareTarget :=
  inferInstanceAs (Decidable (∀ t ∈ e.target?, t.isPrefix = false))

abbrev Settled (e : Expr) : Prop := e.All HasBareTarget

/-- A hoisted node is plain where the node is, and its target, if it still has one, has no sign in
front. -/
theorem hoist_spec {e : Expr} (h : e.Plain) :
    e.hoist.All fun a => a.IsPlainNode ∧ a.HasBareTarget := by
  induction e using byChildren with
  | node e ih =>
    obtain ⟨hnode, hparts⟩ := (all_iff e).1 h
    have hhoist := fun c hc => ih c hc (hparts c hc)
    have hsign : ∀ l o a, (Expr.unary l o a).IsPlainNode ∧ (Expr.unary l o a).HasBareTarget :=
      fun l o a => ⟨⟨nofun, nofun, nofun⟩, nofun⟩
    cases e with
    | member l t r =>
      refine All.under hsign (fun t' hbare ht' => ?_) (hhoist t (by simp [children]))
      refine (all_iff _).2 ⟨⟨⟨hnode.names, nofun, nofun⟩, ?_⟩, by simpa [children] using ht'⟩
      rintro _ ⟨⟩
      exact hbare
    | call l t m as =>
      have has : ∀ a ∈ hoistList as, a.All fun a => a.IsPlainNode ∧ a.HasBareTarget := by
        rw [hoistList_eq_map]
        simpa using fun a ha => hhoist a (by simp [children, ha])
      cases t with
      | none =>
        refine (all_iff _).2 ⟨⟨⟨hnode.names, nofun, nofun⟩, nofun⟩, ?_⟩
        simpa [hoist, children] using has
      | some t =>
        refine All.under hsign (fun t' hbare ht' => ?_) (hhoist t (by simp [children]))
        refine (all_iff _).2 ⟨⟨⟨hnode.names, nofun, nofun⟩, ?_⟩, ?_⟩
        · rintro _ ⟨⟩
          exact hbare
        · simpa [children] using ⟨ht', has⟩
    | dynamic l b as =>
      refine (all_iff _).2 ⟨⟨⟨hnode.names, nofun, nofun⟩, nofun⟩, ?_⟩
      simpa [hoist, children, hoistList_eq_map] using hhoist
    | static | constant | parameter | default =>
      exact (all_iff _).2 ⟨⟨hnode, nofun⟩, nofun⟩
    | binary | unary | conditional | lambda =>
      refine (all_iff _).2 ⟨⟨⟨hnode.names, hnode.types, nofun⟩, nofun⟩, ?_⟩
      simpa [hoist, children] using hhoist

theorem Plain.hoist {e : Expr} (h : e.Plain) : e.hoist.Plain :=
  (hoist_spec h).imp fun _ ha => ha.1

theorem Plain.settled_hoist {e : Expr} (h : e.Plain) : e.hoist.Settled :=
  (hoist_spec h).imp fun _ ha => ha.2

end Expr

end PredicateTree
