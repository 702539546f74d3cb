import PredicateTree.Expr.Text
import PredicateTree.Proofs.Expr.Parts
import PredicateTree.Substitution

/-!
# Proofs.Expr.Fill

What substitution does to a tree, up to the identity of nodes.

`Expr.fill g` moves all nodes to one site and puts `g p` in the place of every reference to `p` that
`g` knows. It is defined by one equation for each kind of node, without sites and without the
sharing that passes take care of, and `bare_substitute` says that it is what substitution gives.
A binder stops nothing: references below a lambda that declares `p` itself are filled as well.
-/

namespace PredicateTree

@[simp] theorem Label.bare_bare (l : Label) : l.bare.bare = l.bare := rfl

mutual

def Expr.fill (g : Param → Option Expr) : Expr → Expr
  | .binary l o a b => .binary l.bare o (a.fill g) (b.fill g)
  | .unary l o a => .unary l.bare o (a.fill g)
  | .member l t r => .member l.bare (t.fill g) r
  | .static l r => .static l.bare r
  | .call l t m as => .call l.bare (Expr.fillOption g t) m (Expr.fillList g as)
  | .constant l v => .constant l.bare v.bare
  | .parameter l p => (g p).getD (.parameter l.bare p)
  | .conditional l a b c => .conditional l.bare (a.fill g) (b.fill g) (c.fill g)
  | .default l => .default l.bare
  | .dynamic l b as => .dynamic l.bare b (Expr.fillList g as)
  | .lambda l ps b => .lambda l.bare ps (b.fill g)

def Expr.fillOption (g : Param → Option Expr) : Option Expr → Option Expr
  | none => none
  | some a => some (a.fill g)

def Expr.fillList (g : Param → Option Expr) : List Expr → List Expr
  | [] => []
  | a :: as => a.fill g :: Expr.fillList g as

end

/-! ## Bare trees and values -/

mutual

theorem Expr.relabel_relabel (f g : Label → Label) :
    ∀ a : Expr, (a.relabel f).relabel g = a.relabel (g ∘ f)
  | .binary _ _ a b => by
    simp [Expr.relabel, Expr.relabel_relabel f g a, Expr.relabel_relabel f g b]
  | .unary _ _ a => by simp [Expr.relabel, Expr.relabel_relabel f g a]
  | .member _ t _ => by simp [Expr.relabel, Expr.relabel_relabel f g t]
  | .static .. => rfl
  | .call _ t _ as => by
    simp [Expr.relabel, Expr.relabelOption_relabelOption f g t,
      Expr.relabelList_relabelList f g as]
  | .constant _ v => by simp [Expr.relabel, Value.relabel_relabel f g v]
  | .parameter .. => rfl
  | .conditional _ a b c => by
    simp [Expr.relabel, Expr.relabel_relabel f g a, Expr.relabel_relabel f g b,
      Expr.relabel_relabel f g c]
  | .default _ => rfl
  | .dynamic _ _ as => by simp [Expr.relabel, Expr.relabelList_relabelList f g as]
  | .lambda _ _ a => by simp [Expr.relabel, Expr.relabel_relabel f g a]

theorem Expr.relabelOption_relabelOption (f g : Label → Label) : ∀ t : Option Expr,
    Expr.relabelOption g (Expr.relabelOption f t) = Expr.relabelOption (g ∘ f) t
  | none => rfl
  | some a => by simp [Expr.relabelOption, Expr.relabel_relabel f g a]

theorem Expr.relabelList_relabelList (f g : Label → Label) : ∀ as : List Expr,
    Expr.relabelList g (Expr.relabelList f as) = Expr.relabelList (g ∘ f) as
  | [] => rfl
  | a :: as => by
    simp [Expr.relabelList, Expr.relabel_relabel f g a, Expr.relabelList_relabelList f g as]

theorem Value.relabel_relabel (f g : Label → Label) :
    ∀ v : Value, (v.relabel f).relabel g = v.relabel (g ∘ f)
  | .object _ fs => by simp [Value.relabel, Value.relabelFields_relabelFields f g fs]
  | .lambda _ a => by simp [Value.relabel, Expr.relabel_relabel f g a]
  | .null => rfl
  | .bool _ => rfl
  | .int _ => rfl
  | .float _ => rfl
  | .str _ => rfl

theorem Value.relabelFields_relabelFields (f g : Label → Label) : ∀ fs : List (String × Value),
    Value.relabelFields g (Value.relabelFields f fs) = Value.relabelFields (g ∘ f) fs
  | [] => rfl
  | (_, v) :: fs => by
    simp [Value.relabelFields, Value.relabel_relabel f g v,
      Value.relabelFields_relabelFields f g fs]

end

@[simp] theorem Expr.bare_bare (a : Expr) : a.bare.bare = a.bare := a.relabel_relabel _ _

@[simp] theorem Value.bare_bare (v : Value) : v.bare.bare = v.bare := v.relabel_relabel _ _

mutual

/-- The text of a tree shows the types in its labels at most. -/
theorem Expr.text_relabel {f : Label → Label} (hf : ∀ l, (f l).ty = l.ty) :
    ∀ a : Expr, (a.relabel f).text = a.text
  | .binary _ _ a b => by
    simp [Expr.relabel, Expr.text, Expr.text_relabel hf a, Expr.text_relabel hf b]
  | .unary _ _ a => by simp [Expr.relabel, Expr.text, Expr.text_relabel hf a]
  | .member _ t _ => by simp [Expr.relabel, Expr.text, Expr.text_relabel hf t]
  | .static .. => rfl
  | .call _ none _ as => by
    simp [Expr.relabel, Expr.relabelOption, Expr.text, Expr.texts_relabelList hf as]
  | .call _ (some t) _ as => by
    simp [Expr.relabel, Expr.relabelOption, Expr.text, Expr.text_relabel hf t,
      Expr.texts_relabelList hf as]
  | .constant _ v => by simp [Expr.relabel, Expr.text, Value.text_relabel hf v]
  | .parameter .. => rfl
  | .conditional _ a b c => by
    simp [Expr.relabel, Expr.text, Expr.text_relabel hf a, Expr.text_relabel hf b,
      Expr.text_relabel hf c]
  | .default l => by simp [Expr.relabel, Expr.text, hf l]
  | .dynamic _ _ as => by simp [Expr.relabel, Expr.text, Expr.texts_relabelList hf as]
  | .lambda _ _ b => by simp [Expr.relabel, Expr.text, Expr.text_relabel hf b]

theorem Expr.texts_relabelList {f : Label → Label} (hf : ∀ l, (f l).ty = l.ty) :
    ∀ as : List Expr, Expr.texts (Expr.relabelList f as) = Expr.texts as
  | [] => rfl
  | a :: as => by
    simp [Expr.relabelList, Expr.texts, Expr.text_relabel hf a, Expr.texts_relabelList hf as]

theorem Value.text_relabel {f : Label → Label} (hf : ∀ l, (f l).ty = l.ty) :
    ∀ v : Value, (v.relabel f).text = v.text
  | .lambda _ b => by simp [Value.relabel, Value.text, Expr.text_relabel hf b]
  | .object .. | .null | .bool _ | .int _ | .float _ | .str _ => by
    simp [Value.relabel, Value.text]

end

@[simp] theorem Value.text_bare (v : Value) : v.bare.text = v.text :=
  v.text_relabel (f := Label.bare) fun _ => rfl

/-! ## Filling -/

mutual

theorem Expr.fill_none : ∀ e : Expr, e.fill (fun _ => none) = e.bare
  | .binary _ _ a b => by
    simp [Expr.fill, Expr.fill_none a, Expr.fill_none b, Expr.bare, Expr.relabel]
  | .unary _ _ a => by simp [Expr.fill, Expr.fill_none a, Expr.bare, Expr.relabel]
  | .member _ t _ => by simp [Expr.fill, Expr.fill_none t, Expr.bare, Expr.relabel]
  | .static .. => rfl
  | .call _ t _ as => by
    simp [Expr.fill, Expr.fillOption_none t, Expr.fillList_none as, Expr.bare, Expr.relabel]
  | .constant .. => rfl
  | .parameter .. => rfl
  | .conditional _ a b c => by
    simp [Expr.fill, Expr.fill_none a, Expr.fill_none b, Expr.fill_none c, Expr.bare, Expr.relabel]
  | .default _ => rfl
  | .dynamic _ _ as => by simp [Expr.fill, Expr.fillList_none as, Expr.bare, Expr.relabel]
  | .lambda _ _ a => by simp [Expr.fill, Expr.fill_none a, Expr.bare, Expr.relabel]

theorem Expr.fillOption_none : ∀ t : Option Expr,
    Expr.fillOption (fun _ => none) t = Expr.relabelOption Label.bare t
  | none => rfl
  | some a => congrArg some (Expr.fill_none a)

theorem Expr.fillList_none : ∀ as : List Expr,
    Expr.fillList (fun _ => none) as = Expr.relabelList Label.bare as
  | [] => rfl
  | a :: as => by
    simp only [Expr.fillList, Expr.relabelList, Expr.fill_none a, Expr.fillList_none as, Expr.bare]

end

mutual

/-- Filling twice is filling once, with what was put in first filled as well. -/
theorem Expr.fill_fill (g h : Param → Option Expr) :
    ∀ e : Expr, (e.fill g).fill h = e.fill fun p => ((g p).map (·.fill h)).or (h p)
  | .binary _ _ a b => by simp [Expr.fill, Expr.fill_fill g h a, Expr.fill_fill g h b]
  | .unary _ _ a => by simp [Expr.fill, Expr.fill_fill g h a]
  | .member _ t _ => by simp [Expr.fill, Expr.fill_fill g h t]
  | .static .. => rfl
  | .call _ t _ as => by
    simp [Expr.fill, Expr.fillOption_fillOption g h t, Expr.fillList_fillList g h as]
  | .constant .. => by simp [Expr.fill]
  | .parameter l p => by
    simp only [Expr.fill]
    cases g p with
    | none => simp [Expr.fill]
    | some a => rfl
  | .conditional _ a b c => by
    simp [Expr.fill, Expr.fill_fill g h a, Expr.fill_fill g h b, Expr.fill_fill g h c]
  | .default _ => rfl
  | .dynamic _ _ as => by simp [Expr.fill, Expr.fillList_fillList g h as]
  | .lambda _ _ a => by simp [Expr.fill, Expr.fill_fill g h a]

theorem Expr.fillOption_fillOption (g h : Param → Option Expr) : ∀ t : Option Expr,
    Expr.fillOption h (Expr.fillOption g t) =
      Expr.fillOption (fun p => ((g p).map (·.fill h)).or (h p)) t
  | none => rfl
  | some a => congrArg some (Expr.fill_fill g h a)

theorem Expr.fillList_fillList (g h : Param → Option Expr) : ∀ as : List Expr,
    Expr.fillList h (Expr.fillList g as) =
      Expr.fillList (fun p => ((g p).map (·.fill h)).or (h p)) as
  | [] => rfl
  | a :: as => by simp [Expr.fillList, Expr.fill_fill g h a, Expr.fillList_fillList g h as]

end

@[simp] theorem Expr.bare_fill {g : Param → Option Expr} (e : Expr) : e.bare.fill g = e.fill g := by
  rw [← Expr.fill_none, Expr.fill_fill]
  simp

theorem Expr.fillOption_congr {g h : Param → Option Expr} (t : Option Expr)
    (hgh : ∀ a ∈ t.toList, a.fill g = a.fill h) : Expr.fillOption g t = Expr.fillOption h t := by
  cases t with
  | none => rfl
  | some a => exact congrArg some (hgh a (by simp))

theorem Expr.fillList_eq_map (g : Param → Option Expr) (as : List Expr) :
    Expr.fillList g as = as.map (·.fill g) := by
  induction as with
  | nil => rfl
  | cons a as ih => simp only [Expr.fillList, ih, List.map_cons]

theorem Expr.fillList_congr {g h : Param → Option Expr} (as : List Expr)
    (hgh : ∀ a ∈ as, a.fill g = a.fill h) : Expr.fillList g as = Expr.fillList h as := by
  rw [Expr.fillList_eq_map, Expr.fillList_eq_map]
  exact List.map_congr_left hgh

theorem Expr.children_fill (g : Param → Option Expr) {e : Expr} (h : e.isParameter = false) :
    (e.fill g).children = e.children.map (·.fill g) := by
  cases e with
  | parameter => cases h
  | call l t m as =>
    cases t <;> simp [Expr.fill, Expr.fillOption, Expr.children, Expr.fillList_eq_map]
  | dynamic => simp [Expr.fill, Expr.children, Expr.fillList_eq_map]
  | _ => rfl

theorem Expr.isExpandable_fill (g : Param → Option Expr) {e : Expr} (h : e.isParameter = false) :
    (e.fill g).isExpandable = e.isExpandable := by
  cases e with
  | parameter => cases h
  | _ => rfl

/-- Only what is put in for the variables that a tree refers to counts. -/
theorem Expr.fill_congr {g h : Param → Option Expr} {e : Expr}
    (hgh : e.All fun a => ∀ p, a.reference? = some p → g p = h p) : e.fill g = e.fill h := by
  induction e using Expr.byChildren with
  | node e ih =>
    obtain ⟨hhead, hparts⟩ := (Expr.all_iff e).1 hgh
    have hfill : ∀ c ∈ e.children, c.fill g = c.fill h := fun c hc => ih c hc (hparts c hc)
    cases e with
    | parameter l p =>
      have hp : g p = h p := hhead p rfl
      simp only [Expr.fill, hp]
    | call l t m as =>
      have ht := Expr.fillOption_congr t fun a ha => hfill a (by simp [Expr.children, ha])
      have has := Expr.fillList_congr as fun a ha => hfill a (by simp [Expr.children, ha])
      simp only [Expr.fill, ht, has]
    | dynamic l binder as =>
      have has := Expr.fillList_congr as hfill
      simp only [Expr.fill, has]
    | static | constant | default => rfl
    | binary | unary | member | conditional | lambda => simp_all [Expr.fill, Expr.children]

/-! ## Substitution -/

/-- Moved to one site, a node is the same whether it was kept or made anew over the same parts. -/
theorem Expr.bare_withChildren_children (site : Site) (e : Expr) :
    (e.withChildren site e.children).bare = e.bare := by
  cases e with
  | call l t m as => cases t <;> rfl
  | _ => rfl

theorem Expr.bare_orNew (site : Site) (e : Expr) (cs : List Expr) :
    (e.orNew e.children cs (e.withChildren site cs)).bare = (e.withChildren site cs).bare := by
  unfold Expr.orNew
  split
  · rename_i h
    rw [← h, Expr.bare_withChildren_children]
  · rfl

section

variable (σ : Substitution)

mutual

-- Each composite case opens the walk by computation: a visit answers at references only.
theorem Expr.bare_foldM : ∀ (e : Expr) (site : Site),
    (Id.run (e.foldM (fun _ a => pure (σ.visit a)) site)).bare =
      e.fill fun p => (σ.get? p).map Expr.bare
  | .binary l o a b, site => by
    have ha := Expr.bare_foldM a (site.child 0)
    have hb := Expr.bare_foldM b (site.child 1)
    refine (Expr.bare_orNew site (.binary l o a b) [_, _]).trans ?_
    exact congrArg₂ (Expr.binary l.bare o) ha hb
  | .unary l o a, site => by
    have ha := Expr.bare_foldM a (site.child 0)
    refine (Expr.bare_orNew site (.unary l o a) [_]).trans ?_
    exact congrArg (Expr.unary l.bare o) ha
  | .member l t r, site => by
    have ht := Expr.bare_foldM t (site.child 0)
    refine (Expr.bare_orNew site (.member l t r) [_]).trans ?_
    exact congrArg (Expr.member l.bare · r) ht
  | .static .., _ => rfl
  | .call l none m as, site => by
    have has := Expr.bare_foldListM as site 1
    refine (Expr.bare_orNew site (.call l none m as) _).trans ?_
    exact congrArg (Expr.call l.bare none m) has
  | .call l (some t) m as, site => by
    have ht := Expr.bare_foldM t (site.child 0)
    have has := Expr.bare_foldListM as site 1
    refine (Expr.bare_orNew site (.call l (some t) m as) (_ :: _)).trans ?_
    exact congrArg₂ (fun t as => Expr.call l.bare (some t) m as) ht has
  | .constant .., _ => rfl
  | .parameter l p, site => by
    simp only [Expr.foldM, Expr.orDescend, pure_bind, Substitution.visit, Expr.fill]
    cases σ.get? p <;> rfl
  | .conditional l a b c, site => by
    have ha := Expr.bare_foldM a (site.child 0)
    have hb := Expr.bare_foldM b (site.child 1)
    have hc := Expr.bare_foldM c (site.child 2)
    refine (Expr.bare_orNew site (.conditional l a b c) [_, _, _]).trans ?_
    exact (congrArg₂ (Expr.conditional l.bare · · _) ha hb).trans
      (congrArg (Expr.conditional l.bare _ _) hc)
  | .default _, _ => rfl
  | .dynamic l b as, site => by
    have has := Expr.bare_foldListM as site 0
    refine (Expr.bare_orNew site (.dynamic l b as) _).trans ?_
    exact congrArg (Expr.dynamic l.bare b) has
  | .lambda l ps b, site => by
    have hb := Expr.bare_foldM b (site.child 0)
    refine (Expr.bare_orNew site (.lambda l ps b) [_]).trans ?_
    exact congrArg (Expr.lambda l.bare ps) hb

theorem Expr.bare_foldListM : ∀ (as : List Expr) (site : Site) (i : Nat),
    Expr.relabelList Label.bare
        (Id.run (Expr.foldListM (fun _ a => pure (σ.visit a)) site i as)) =
      Expr.fillList (fun p => (σ.get? p).map Expr.bare) as
  | [], _, _ => rfl
  | a :: as, site, i =>
    congrArg₂ List.cons (Expr.bare_foldM a (site.child i)) (Expr.bare_foldListM as site (i + 1))

end

theorem Expr.bare_substitute (site : Site) (e : Expr) :
    (e.substitute site σ).bare = e.fill fun p => (σ.get? p).map Expr.bare := by
  unfold Expr.substitute
  split
  · rename_i h
    obtain rfl := List.isEmpty_iff.1 h
    exact e.fill_none.symm
  · exact Expr.bare_foldM σ e site

end

end PredicateTree
