import PredicateTree.Proofs.Document.Constants

/-!
# Proofs.Document.References

Which constants a written tree or value mentions, and what they mean for its lowering.

* `Node.mentions`, `Datum.mentions`: every mention, in fields, in bodies of lambdas, in literals.
* `Node.isLowerable`, `Datum.isLowerable`: nothing but a constant can stand in the way. All types can
  be read, all parameters are declared, all integers fit, what is stored is a value, and what has no
  target names a declaring type.
* `Draws`: lowering looks up the constants that are mentioned and no others. If it gives a result,
  they all have a value; if it fails, it fails with the error of one of them or for a reason of its
  own, which is none if nothing stands in the way.
* `Node.lower_draws`, `Datum.lower_draws`: all of lowering draws on what is mentioned.
-/

namespace PredicateTree

/-- The error is about the name of a constant. -/
def DocumentError.isReference : DocumentError → Bool
  | .unknownConstant _ | .cyclicConstant _ => true
  | _ => false

namespace Document

open Outcome (bind_eq_ok pure_eq_ok)

mutual

def Node.mentions : Node → List String
  | .lambda _ b => b.mentions
  | .literal d _ => d.mentions
  | .constant name => [name]
  | .member t _ _ _ => Node.mentionsOption t
  | .call t _ _ as _ _ => Node.mentionsOption t ++ Node.mentionsList as
  | .expand l as _ => l.mentions ++ Node.mentionsList as
  | .binary _ a b => a.mentions ++ b.mentions
  | .unary _ a => a.mentions
  | .conditional a b c => a.mentions ++ (b.mentions ++ c.mentions)
  | .dynamic _ as _ => Node.mentionsList as
  | .param _ | .default _ => []

def Node.mentionsOption : Option Node → List String
  | none => []
  | some n => n.mentions

def Node.mentionsList : List Node → List String
  | [] => []
  | n :: ns => n.mentions ++ Node.mentionsList ns

def Datum.mentions : Datum → List String
  | .object _ fs => Datum.mentionsFields fs
  | .node n => n.mentions
  | _ => []

def Datum.mentionsFields : List (String × Datum) → List String
  | [] => []
  | (_, d) :: fs => d.mentions ++ Datum.mentionsFields fs

end

def isTy (s : String) : Bool := (Ty.parse s).isOk

mutual

/-- Parameters may be declared in the tree or be among `names`. -/
def Node.isLowerable (names : List String) : Node → Bool
  | .lambda ds b =>
    ds.all (isTy ·.ty) && b.isLowerable (ds.map Declaration.name ++ names)
  | .param name => names.contains name
  | .literal d ty => d.isLowerable names && ty.all isTy
  | .constant _ => true
  | .member t declaring _ ty =>
    isTy ty && (Node.lowerableOption names t && (t.isSome || declaring.isSome))
  | .call t declaring _ as _ ty =>
    isTy ty && (Node.lowerableOption names t &&
      ((t.isSome || declaring.isSome) && Node.lowerableList names as))
  | .expand l as ty => l.isLowerable names && (Node.lowerableList names as && isTy ty)
  | .binary _ a b => a.isLowerable names && b.isLowerable names
  | .unary _ a => a.isLowerable names
  | .conditional a b c => a.isLowerable names && (b.isLowerable names && c.isLowerable names)
  | .default ty => isTy ty
  | .dynamic _ as ty => Node.lowerableList names as && isTy ty

def Node.lowerableOption (names : List String) : Option Node → Bool
  | none => true
  | some n => n.isLowerable names

def Node.lowerableList (names : List String) : List Node → Bool
  | [] => true
  | n :: ns => n.isLowerable names && Node.lowerableList names ns

def Datum.isLowerable (names : List String) : Datum → Bool
  | .unsigned _ => false
  | .object _ fs => Datum.lowerableFields names fs
  | .node (.lambda ds b) =>
    ds.all (isTy ·.ty) && b.isLowerable (ds.map Declaration.name ++ names)
  | .node (.constant _) => true
  | .node _ => false
  | .null | .bool _ | .int _ | .float _ | .str _ => true

def Datum.lowerableFields (names : List String) : List (String × Datum) → Bool
  | [] => true
  | (_, d) :: fs => d.isLowerable names && Datum.lowerableFields names fs

end

/-! ## Drawing on constants -/

variable {α β : Type} {c : Constants} {names more : List String} {fine also : Bool}
  {x : Outcome DocumentError α}

/-- The result `x` draws on the constants `names`. If it is `fine`, it fails through them only. -/
structure Draws (c : Constants) (names : List String) (fine : Bool)
    (x : Outcome DocumentError α) : Prop where
  ok : ∀ a, x = .ok a → ∀ name ∈ names, ∃ v, c name = .ok v
  error : ∀ e, x = .error e →
    (∃ name ∈ names, c name = .error e) ∨ (e.isReference = false ∧ fine = false)

namespace Draws

theorem pure (a : α) : Draws c [] true (.ok a) where
  ok _ _ _ h := by cases h
  error e h := by cases h

/-- A failure that has nothing to do with constants. -/
theorem fail {e : DocumentError} (he : e.isReference = false) :
    Draws c names false (.error e : Outcome DocumentError α) where
  ok a h := by cases h
  error e' h := by
    cases h
    exact .inr ⟨he, rfl⟩

theorem constant (name : String) : Draws c [name] true (c name) where
  ok v hv other hother := by
    obtain rfl := List.mem_singleton.1 hother
    exact ⟨v, hv⟩
  error e he := .inl ⟨name, List.mem_singleton_self name, he⟩

theorem bind {f : α → Outcome DocumentError β} (hx : Draws c names fine x)
    (hf : ∀ a, x = .ok a → Draws c more also (f a)) :
    Draws c (names ++ more) (fine && also) (x >>= f) where
  ok b hb name hname := by
    obtain ⟨a, ha, hab⟩ := bind_eq_ok.1 hb
    rcases List.mem_append.1 hname with hname | hname
    · exact hx.ok a ha name hname
    · exact (hf a ha).ok b hab name hname
  error e he := by
    cases hxa : x with
    | error e' =>
      rw [hxa] at he
      cases he
      obtain ⟨name, hname, hc⟩ | ⟨hown, hfine⟩ := hx.error e hxa
      · exact .inl ⟨name, List.mem_append_left more hname, hc⟩
      · exact .inr ⟨hown, by simp [hfine]⟩
    | ok a =>
      rw [hxa] at he
      obtain ⟨name, hname, hc⟩ | ⟨hown, halso⟩ := (hf a hxa).error e he
      · exact .inl ⟨name, List.mem_append_right names hname, hc⟩
      · exact .inr ⟨hown, by simp [halso]⟩
    | unfinished =>
      rw [hxa] at he
      cases he

/-- The last step draws on no constants. -/
theorem last {f : α → Outcome DocumentError β} (hx : Draws c names fine x)
    (hf : ∀ a, x = .ok a → Draws c [] also (f a)) : Draws c names (fine && also) (x >>= f) := by
  have h := hx.bind hf
  rwa [List.append_nil] at h

theorem map {f : α → β} (hx : Draws c names fine x) :
    Draws c names fine (x >>= fun a => .ok (f a)) := by
  have h := hx.last fun a _ => Draws.pure (f a)
  rwa [Bool.and_true] at h

end Draws

theorem parseTy_draws (s : String) : Draws c [] (isTy s) (parseTy s) := by
  unfold isTy parseTy
  cases Ty.parse s with
  | ok t => exact .pure t
  | error e => exact .fail rfl

theorem declare_draws (site : Site) (ds : List Declaration) :
    ∀ i, Draws c [] (ds.all (isTy ·.ty)) (declare site i ds) := by
  induction ds with
  | nil => exact fun _ => .pure []
  | cons d ds ih => exact fun i => (parseTy_draws d.ty).bind fun t _ => (ih (i + 1)).map

theorem lookup_draws (scope : List Param) (name : String) :
    Draws c [] ((scope.map Param.name).contains name) (lookup scope name) := by
  unfold lookup
  cases h : scope.find? (·.name == name) with
  | some p =>
    have hp : p ∈ scope := List.mem_of_find?_eq_some h
    have hname : p.name = name := by simpa using List.find?_some h
    have hin : (scope.map Param.name).contains name = true := by
      rw [List.contains_iff_mem]
      exact List.mem_map.2 ⟨p, hp, hname⟩
    rw [hin]
    exact .pure p
  | none =>
    have hout : (scope.map Param.name).contains name = false := by
      simpa [List.find?_eq_none] using h
    rw [hout]
    exact .fail rfl

/-! ## Lowering -/

mutual

theorem Node.lower_draws : ∀ (n : Node) (scope : List Param) (site : Site),
    Draws c n.mentions (n.isLowerable (scope.map Param.name)) (Node.lower c scope site n)
  | .lambda ds b, scope, site => by
    refine (declare_draws _ ds 0).bind fun ps hps => ?_
    have hb := (Node.lower_draws b (ps ++ scope) (site.child 1)).map
      (f := fun body => Expr.lambdaAt site ⟨ps, body⟩)
    rwa [List.map_append, declare_names hps] at hb
  | .param name, scope, site => (lookup_draws scope name).map
  | .literal d ty, scope, site => by
    refine (Datum.lower_draws d scope (site.child 0)).last fun v _ => ?_
    cases ty with
    | none => exact .pure _
    | some s => exact (parseTy_draws s).map
  | .constant name, scope, site => (Draws.constant name).map
  | .member t declaring name ty, scope, site => by
    refine (parseTy_draws ty).bind fun ty' _ => ?_
    refine (Node.lowerOption_draws t scope (site.child 0)).last fun t' ht => ?_
    cases t with
    | some n =>
      simp only [Node.lowerOption, bind_eq_ok, pure_eq_ok] at ht
      obtain ⟨e, -, rfl⟩ := ht
      exact .pure _
    | none =>
      cases ht
      cases declaring with
      | some k => exact .pure _
      | none => exact .fail rfl
  | .call t declaring method as markers ty, scope, site => by
    refine (parseTy_draws ty).bind fun ty' _ => ?_
    refine (Node.lowerOption_draws t scope (site.child 0)).bind fun t' ht => ?_
    have has := Node.lowerList_draws as scope site 1
    cases t with
    | some n =>
      simp only [Node.lowerOption, bind_eq_ok, pure_eq_ok] at ht
      obtain ⟨e, -, rfl⟩ := ht
      cases declaring with
      | some k => exact has.map
      | none => exact has.map
    | none =>
      cases ht
      cases declaring with
      | some k => exact has.map
      | none => exact .fail rfl
  | .expand l as ty, scope, site =>
    (Node.lower_draws l scope (site.child 0)).bind fun _ _ =>
      (Node.lowerList_draws as scope site 1).last fun _ _ => (parseTy_draws ty).map
  | .binary _ a b, scope, site =>
    (Node.lower_draws a scope (site.child 0)).bind fun _ _ =>
      (Node.lower_draws b scope (site.child 1)).map
  | .unary _ a, scope, site => (Node.lower_draws a scope (site.child 0)).map
  | .conditional a b d, scope, site =>
    (Node.lower_draws a scope (site.child 0)).bind fun _ _ =>
      (Node.lower_draws b scope (site.child 1)).bind fun _ _ =>
        (Node.lower_draws d scope (site.child 2)).map
  | .default ty, scope, site => (parseTy_draws ty).map
  | .dynamic _ as ty, scope, site =>
    (Node.lowerList_draws as scope site 0).last fun _ _ => (parseTy_draws ty).map

theorem Node.lowerOption_draws : ∀ (t : Option Node) (scope : List Param) (site : Site),
    Draws c (Node.mentionsOption t) (Node.lowerableOption (scope.map Param.name) t)
      (Node.lowerOption c scope site t)
  | none, _, _ => .pure none
  | some n, scope, site => (Node.lower_draws n scope site).map

theorem Node.lowerList_draws : ∀ (ns : List Node) (scope : List Param) (site : Site) (i : Nat),
    Draws c (Node.mentionsList ns) (Node.lowerableList (scope.map Param.name) ns)
      (Node.lowerList c scope site i ns)
  | [], _, _, _ => .pure []
  | n :: ns, scope, site, i =>
    (Node.lower_draws n scope (site.child i)).bind fun _ _ =>
      (Node.lowerList_draws ns scope site (i + 1)).map

theorem Datum.lower_draws : ∀ (d : Datum) (scope : List Param) (site : Site),
    Draws c d.mentions (d.isLowerable (scope.map Param.name)) (Datum.lower c scope site d)
  | .null, _, _ | .bool _, _, _ | .int _, _, _ | .float _, _, _ | .str _, _, _ => .pure _
  | .unsigned _, _, _ => .fail rfl
  | .object _ fs, scope, site => (Datum.lowerFields_draws fs scope site 0).map
  | .node (.lambda ds b), scope, site => by
    refine (declare_draws _ ds 0).bind fun ps hps => ?_
    have hb := (Node.lower_draws b (ps ++ scope) (site.child 1)).map (f := Value.lambda ps)
    rwa [List.map_append, declare_names hps] at hb
  | .node (.constant name), _, _ => .constant name
  | .node (.param _), _, _ | .node (.literal ..), _, _ | .node (.member ..), _, _
  | .node (.call ..), _, _ | .node (.expand ..), _, _ | .node (.binary ..), _, _
  | .node (.unary ..), _, _ | .node (.conditional ..), _, _ | .node (.default _), _, _
  | .node (.dynamic ..), _, _ => .fail rfl

theorem Datum.lowerFields_draws :
    ∀ (fs : List (String × Datum)) (scope : List Param) (site : Site) (i : Nat),
      Draws c (Datum.mentionsFields fs) (Datum.lowerableFields (scope.map Param.name) fs)
        (Datum.lowerFields c scope site i fs)
  | [], _, _, _ => .pure []
  | (_, d) :: fs, scope, site, i =>
    (Datum.lower_draws d scope (site.child i)).bind fun _ _ =>
      (Datum.lowerFields_draws fs scope site (i + 1)).map

end

end Document

end PredicateTree
