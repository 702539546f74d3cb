import PredicateTree.Expr

/-!
# Expr.Identity

Two ways to compare trees.

* Identity: `a = b`. A label holds the site where its node was made, so equal trees are one node.
* Structure: `a.alike b`, equality after all nodes have been moved to one site. Parameters keep
  their identity, and numbers are compared by their bits.

Both are equality after every label has been passed through a function: `Expr.relabel` says what
that means, `Expr.agree` compares without building the relabelled trees, and `Expr.agreeShared` does
the same but stops wherever both sides are one object in memory. Values that refer to each other
share much, and may be far larger written out than they are in memory.
-/

namespace PredicateTree

/-! ## Relabelling -/

mutual

/-- The tree with every label passed through `f`. -/
def Expr.relabel (f : Label → Label) : Expr → Expr
  | .binary l o a b => .binary (f l) o (a.relabel f) (b.relabel f)
  | .unary l o a => .unary (f l) o (a.relabel f)
  | .member l t r => .member (f l) (t.relabel f) r
  | .static l r => .static (f l) r
  | .call l t m as => .call (f l) (Expr.relabelOption f t) m (Expr.relabelList f as)
  | .constant l v => .constant (f l) (v.relabel f)
  | .parameter l p => .parameter (f l) p
  | .conditional l a b c => .conditional (f l) (a.relabel f) (b.relabel f) (c.relabel f)
  | .default l => .default (f l)
  | .dynamic l b as => .dynamic (f l) b (Expr.relabelList f as)
  | .lambda l ps a => .lambda (f l) ps (a.relabel f)

def Expr.relabelOption (f : Label → Label) : Option Expr → Option Expr
  | none => none
  | some a => some (a.relabel f)

def Expr.relabelList (f : Label → Label) : List Expr → List Expr
  | [] => []
  | a :: as => a.relabel f :: Expr.relabelList f as

def Value.relabel (f : Label → Label) : Value → Value
  | .object c fs => .object c (Value.relabelFields f fs)
  | .lambda ps a => .lambda ps (a.relabel f)
  | .null => .null
  | .bool b => .bool b
  | .int n => .int n
  | .float x => .float x
  | .str s => .str s

def Value.relabelFields (f : Label → Label) : List (String × Value) → List (String × Value)
  | [] => []
  | (k, v) :: fs => (k, v.relabel f) :: Value.relabelFields f fs

end

mutual

@[simp] theorem Expr.relabel_id : ∀ a : Expr, a.relabel id = a
  | .binary _ _ a b => by simp [Expr.relabel, Expr.relabel_id a, Expr.relabel_id b]
  | .unary _ _ a => by simp [Expr.relabel, Expr.relabel_id a]
  | .member _ t _ => by simp [Expr.relabel, Expr.relabel_id t]
  | .static .. => rfl
  | .call _ t _ as => by
    simp [Expr.relabel, Expr.relabelOption_id t, Expr.relabelList_id as]
  | .constant _ v => by simp [Expr.relabel, Value.relabel_id v]
  | .parameter .. => rfl
  | .conditional _ a b c => by
    simp [Expr.relabel, Expr.relabel_id a, Expr.relabel_id b, Expr.relabel_id c]
  | .default _ => rfl
  | .dynamic _ _ as => by simp [Expr.relabel, Expr.relabelList_id as]
  | .lambda _ _ a => by simp [Expr.relabel, Expr.relabel_id a]

theorem Expr.relabelOption_id : ∀ a : Option Expr, Expr.relabelOption id a = a
  | none => rfl
  | some a => by simp [Expr.relabelOption, Expr.relabel_id a]

theorem Expr.relabelList_id : ∀ as : List Expr, Expr.relabelList id as = as
  | [] => rfl
  | a :: as => by simp [Expr.relabelList, Expr.relabel_id a, Expr.relabelList_id as]

@[simp] theorem Value.relabel_id : ∀ v : Value, v.relabel id = v
  | .object _ fs => by simp [Value.relabel, Value.relabelFields_id fs]
  | .lambda _ a => by simp [Value.relabel, Expr.relabel_id a]
  | .null => rfl
  | .bool _ => rfl
  | .int _ => rfl
  | .float _ => rfl
  | .str _ => rfl

theorem Value.relabelFields_id :
    ∀ fs : List (String × Value), Value.relabelFields id fs = fs
  | [] => rfl
  | (_, v) :: fs => by simp [Value.relabelFields, Value.relabel_id v, Value.relabelFields_id fs]

end

/-! ## Comparison -/

mutual

/-- Whether two trees are equal once relabelled. -/
def Expr.agree (f : Label → Label) : Expr → Expr → Bool
  | .binary k o a b, .binary l p c d => f k == f l && o == p && a.agree f c && b.agree f d
  | .unary k o a, .unary l p b => f k == f l && o == p && a.agree f b
  | .member k t r, .member l u s => f k == f l && t.agree f u && r == s
  | .static k r, .static l s => f k == f l && r == s
  | .call k t m as, .call l u n bs =>
    f k == f l && Expr.agreeOption f t u && m == n && Expr.agreeList f as bs
  | .constant k v, .constant l w => f k == f l && v.agree f w
  | .parameter k p, .parameter l q => f k == f l && p == q
  | .conditional k a b c, .conditional l x y z =>
    f k == f l && a.agree f x && b.agree f y && c.agree f z
  | .default k, .default l => f k == f l
  | .dynamic k b as, .dynamic l c bs => f k == f l && b == c && Expr.agreeList f as bs
  | .lambda k ps a, .lambda l qs b => f k == f l && ps == qs && a.agree f b
  | _, _ => false
termination_by structural a => a

def Expr.agreeOption (f : Label → Label) : Option Expr → Option Expr → Bool
  | none, none => true
  | some a, some b => a.agree f b
  | _, _ => false
termination_by structural a => a

def Expr.agreeList (f : Label → Label) : List Expr → List Expr → Bool
  | [], [] => true
  | a :: as, b :: bs => a.agree f b && Expr.agreeList f as bs
  | _, _ => false
termination_by structural a => a

def Value.agree (f : Label → Label) : Value → Value → Bool
  | .null, .null => true
  | .bool a, .bool b => a == b
  | .int a, .int b => a == b
  | .float a, .float b => a == b
  | .str a, .str b => a == b
  | .object c fs, .object d gs => c == d && Value.agreeFields f fs gs
  | .lambda ps a, .lambda qs b => ps == qs && a.agree f b
  | _, _ => false
termination_by structural a => a

def Value.agreeFields (f : Label → Label) :
    List (String × Value) → List (String × Value) → Bool
  | [], [] => true
  | (k, v) :: fs, (l, w) :: gs => k == l && v.agree f w && Value.agreeFields f fs gs
  | _, _ => false
termination_by structural a => a

end

mutual

theorem Expr.agree_iff (f : Label → Label) :
    ∀ a b : Expr, a.agree f b = true ↔ a.relabel f = b.relabel f
  | .binary _ _ a c, e => by
    cases e <;> simp [Expr.agree, Expr.relabel, Expr.agree_iff f a, Expr.agree_iff f c, and_assoc]
  | .unary _ _ a, e => by
    cases e <;> simp [Expr.agree, Expr.relabel, Expr.agree_iff f a, and_assoc]
  | .member _ t _, e => by
    cases e <;> simp [Expr.agree, Expr.relabel, Expr.agree_iff f t, and_assoc]
  | .static .., e => by cases e <;> simp [Expr.agree, Expr.relabel]
  | .call _ t _ as, e => by
    cases e <;>
      simp [Expr.agree, Expr.relabel, Expr.agreeOption_iff f t, Expr.agreeList_iff f as, and_assoc]
  | .constant _ v, e => by cases e <;> simp [Expr.agree, Expr.relabel, Value.agree_iff f v]
  | .parameter .., e => by cases e <;> simp [Expr.agree, Expr.relabel]
  | .conditional _ a b c, e => by
    cases e <;>
      simp [Expr.agree, Expr.relabel, Expr.agree_iff f a, Expr.agree_iff f b, Expr.agree_iff f c,
        and_assoc]
  | .default _, e => by cases e <;> simp [Expr.agree, Expr.relabel]
  | .dynamic _ _ as, e => by
    cases e <;> simp [Expr.agree, Expr.relabel, Expr.agreeList_iff f as, and_assoc]
  | .lambda _ _ a, e => by
    cases e <;> simp [Expr.agree, Expr.relabel, Expr.agree_iff f a, and_assoc]

theorem Expr.agreeOption_iff (f : Label → Label) :
    ∀ a b : Option Expr,
      Expr.agreeOption f a b = true ↔ Expr.relabelOption f a = Expr.relabelOption f b
  | none, b => by cases b <;> simp [Expr.agreeOption, Expr.relabelOption]
  | some a, b => by cases b <;> simp [Expr.agreeOption, Expr.relabelOption, Expr.agree_iff f a]

theorem Expr.agreeList_iff (f : Label → Label) :
    ∀ as bs : List Expr,
      Expr.agreeList f as bs = true ↔ Expr.relabelList f as = Expr.relabelList f bs
  | [], bs => by cases bs <;> simp [Expr.agreeList, Expr.relabelList]
  | a :: as, bs => by
    cases bs <;>
      simp [Expr.agreeList, Expr.relabelList, Expr.agree_iff f a, Expr.agreeList_iff f as]

theorem Value.agree_iff (f : Label → Label) :
    ∀ v w : Value, v.agree f w = true ↔ v.relabel f = w.relabel f
  | .null, w => by cases w <;> simp [Value.agree, Value.relabel]
  | .bool _, w => by cases w <;> simp [Value.agree, Value.relabel]
  | .int _, w => by cases w <;> simp [Value.agree, Value.relabel]
  | .float _, w => by cases w <;> simp [Value.agree, Value.relabel]
  | .str _, w => by cases w <;> simp [Value.agree, Value.relabel]
  | .object _ fs, w => by
    cases w <;> simp [Value.agree, Value.relabel, Value.agreeFields_iff f fs]
  | .lambda _ a, w => by cases w <;> simp [Value.agree, Value.relabel, Expr.agree_iff f a]

theorem Value.agreeFields_iff (f : Label → Label) :
    ∀ fs gs : List (String × Value),
      Value.agreeFields f fs gs = true ↔ Value.relabelFields f fs = Value.relabelFields f gs
  | [], gs => by cases gs <;> simp [Value.agreeFields, Value.relabelFields]
  | (_, v) :: fs, gs => by
    cases gs with
    | nil => simp [Value.agreeFields, Value.relabelFields]
    | cons g gs =>
      obtain ⟨_, _⟩ := g
      simp [Value.agreeFields, Value.relabelFields, Value.agree_iff f v, Value.agreeFields_iff f fs]

end

theorem Expr.agree_self (f : Label → Label) (a : Expr) : a.agree f a = true :=
  (Expr.agree_iff f a a).2 rfl

theorem Value.agree_self (f : Label → Label) (v : Value) : v.agree f v = true :=
  (Value.agree_iff f v v).2 rfl

/-! ## Sharing -/

/-- An answer that is `true` of one object, without working it out if both are one in memory. -/
@[inline]
def atOnce {α : Type} (a b : α) {answer : Bool} (h : a = b → answer = true)
    (walk : Unit → { r : Bool // r = answer }) : { r : Bool // r = answer } :=
  ⟨withPtrEq a b (fun _ => (walk ()).1) fun e => (walk ()).2.trans (h e), (walk ()).2⟩

mutual

/-- The answer of `agree`, at once for what both sides share. -/
def Expr.agreeShared (f : Label → Label) (a b : Expr) : { r : Bool // r = a.agree f b } :=
  atOnce a b (fun h => h ▸ a.agree_self f) fun _ =>
    match a, b with
    | .binary k o a b, .binary l p c d =>
      ⟨f k == f l && o == p && (a.agreeShared f c).1 && (b.agreeShared f d).1, by
        rw [(a.agreeShared f c).2, (b.agreeShared f d).2]; rfl⟩
    | .unary k o a, .unary l p b =>
      ⟨f k == f l && o == p && (a.agreeShared f b).1, by rw [(a.agreeShared f b).2]; rfl⟩
    | .member k t r, .member l u s =>
      ⟨f k == f l && (t.agreeShared f u).1 && r == s, by rw [(t.agreeShared f u).2]; rfl⟩
    | .call k t m as, .call l u n bs =>
      ⟨f k == f l && (Expr.agreeSharedOption f t u).1 && m == n &&
          (Expr.agreeSharedList f as bs).1, by
        rw [(Expr.agreeSharedOption f t u).2, (Expr.agreeSharedList f as bs).2]; rfl⟩
    | .constant k v, .constant l w =>
      ⟨f k == f l && (v.agreeShared f w).1, by rw [(v.agreeShared f w).2]; rfl⟩
    | .conditional k a b c, .conditional l x y z =>
      ⟨f k == f l && (a.agreeShared f x).1 && (b.agreeShared f y).1 && (c.agreeShared f z).1, by
        rw [(a.agreeShared f x).2, (b.agreeShared f y).2, (c.agreeShared f z).2]; rfl⟩
    | .dynamic k b as, .dynamic l c bs =>
      ⟨f k == f l && b == c && (Expr.agreeSharedList f as bs).1, by
        rw [(Expr.agreeSharedList f as bs).2]; rfl⟩
    | .lambda k ps a, .lambda l qs b =>
      ⟨f k == f l && ps == qs && (a.agreeShared f b).1, by rw [(a.agreeShared f b).2]; rfl⟩
    | a, b => ⟨a.agree f b, rfl⟩
termination_by structural a

def Expr.agreeSharedOption (f : Label → Label) (a b : Option Expr) :
    { r : Bool // r = Expr.agreeOption f a b } :=
  match a, b with
  | some a, some b => a.agreeShared f b
  | a, b => ⟨Expr.agreeOption f a b, rfl⟩
termination_by structural a

def Expr.agreeSharedList (f : Label → Label) (as bs : List Expr) :
    { r : Bool // r = Expr.agreeList f as bs } :=
  match as, bs with
  | a :: as, b :: bs =>
    ⟨(a.agreeShared f b).1 && (Expr.agreeSharedList f as bs).1, by
      rw [(a.agreeShared f b).2, (Expr.agreeSharedList f as bs).2]; rfl⟩
  | as, bs => ⟨Expr.agreeList f as bs, rfl⟩
termination_by structural as

def Value.agreeShared (f : Label → Label) (v w : Value) : { r : Bool // r = v.agree f w } :=
  atOnce v w (fun h => h ▸ v.agree_self f) fun _ =>
    match v, w with
    | .object c fs, .object d gs =>
      ⟨c == d && (Value.agreeSharedFields f fs gs).1, by
        rw [(Value.agreeSharedFields f fs gs).2]; rfl⟩
    | .lambda ps a, .lambda qs b =>
      ⟨ps == qs && (a.agreeShared f b).1, by rw [(a.agreeShared f b).2]; rfl⟩
    | v, w => ⟨v.agree f w, rfl⟩
termination_by structural v

def Value.agreeSharedFields (f : Label → Label) (fs gs : List (String × Value)) :
    { r : Bool // r = Value.agreeFields f fs gs } :=
  match fs, gs with
  | (k, v) :: fs, (l, w) :: gs =>
    ⟨k == l && (v.agreeShared f w).1 && (Value.agreeSharedFields f fs gs).1, by
      rw [(v.agreeShared f w).2, (Value.agreeSharedFields f fs gs).2]; rfl⟩
  | fs, gs => ⟨Value.agreeFields f fs gs, rfl⟩
termination_by structural fs

end

theorem Expr.agreeShared_iff (f : Label → Label) (a b : Expr) :
    (a.agreeShared f b).1 = true ↔ a.relabel f = b.relabel f := by
  rw [(a.agreeShared f b).2, Expr.agree_iff]

theorem Value.agreeShared_iff (f : Label → Label) (v w : Value) :
    (v.agreeShared f w).1 = true ↔ v.relabel f = w.relabel f := by
  rw [(v.agreeShared f w).2, Value.agree_iff]

/-! ## Identity -/

instance : DecidableEq Expr := fun a b =>
  decidable_of_iff ((a.agreeShared id b).1 = true) (by simp [Expr.agreeShared_iff])

instance : DecidableEq Value := fun v w =>
  decidable_of_iff ((v.agreeShared id w).1 = true) (by simp [Value.agreeShared_iff])

deriving instance DecidableEq for Lambda

/-! ## Structure -/

def Label.bare (l : Label) : Label := ⟨Site.root 0, l.ty⟩

/-- The tree with every node at one site. -/
def Expr.bare (a : Expr) : Expr := a.relabel Label.bare

def Value.bare (v : Value) : Value := v.relabel Label.bare

def Lambda.bare (l : Lambda) : Lambda := ⟨l.params, l.body.bare⟩

def Expr.alike (a b : Expr) : Bool := (a.agreeShared Label.bare b).1

def Value.alike (v w : Value) : Bool := (v.agreeShared Label.bare w).1

def Lambda.alike (l m : Lambda) : Bool := l.params = m.params && l.body.alike m.body

theorem Expr.alike_iff (a b : Expr) : a.alike b = true ↔ a.bare = b.bare :=
  Expr.agreeShared_iff Label.bare a b

theorem Value.alike_iff (v w : Value) : v.alike w = true ↔ v.bare = w.bare :=
  Value.agreeShared_iff Label.bare v w

theorem Lambda.alike_iff (l m : Lambda) : l.alike m = true ↔ l.bare = m.bare := by
  simp [Lambda.alike, Lambda.bare, Expr.alike_iff]

end PredicateTree
