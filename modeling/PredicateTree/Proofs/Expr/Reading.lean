import Mathlib.Order.Filter.AtTopBot.Basic
import PredicateTree.Expr.Names
import PredicateTree.Number.Reading
import PredicateTree.Proofs.Expr.Shape

/-!
# Proofs.Expr.Reading

A reader of printed trees, by which two trees with one text show the same.

`Printed.read` takes the signs in front of a tree, then what they stand before: a tree in
parentheses or one that starts with a word, and behind it the members and methods read from it. It
counts down a bound on the calls still to come. Which bound is enough does not matter, so all lemmas
say what is read from some bound on.

`read_text` says that a plain and settled tree is read back from its text, as far as the text shows
it. A tree may stand before a closing parenthesis, a comma, a space or the end (`Closes`); as a
target it may also stand before a full stop (`Ends`), and then the reader goes on behind it.
-/

namespace PredicateTree

open Filter

namespace Printed

open PredicateTree.Expr (isNameChar IsPlainName printerWords)

/-! ## The reader -/

/-- What follows `token`, if the text starts with it. -/
def expect (token : String) (cs : List Char) : Option (List Char) := token.toList.isPrefixOf? cs

/-- The name at the front, as long as it can be. -/
def word (cs : List Char) : List Char × List Char :=
  (cs.takeWhile isNameChar, cs.dropWhile isNameChar)

def readType (cs : List Char) : Option (Ty × List Char) := Ty.read (Ty.bound cs) cs

/-- An operator between spaces. -/
def readOp (cs : List Char) : Option (BinaryOp × List Char) :=
  BinaryOp.all.findSome? fun op => (expect (" " ++ op.symbol ++ " ") cs).map (op, ·)

/-- Declarations up to and with the bar that closes them. -/
def readDeclarations : Nat → List Char → Option (List Param × List Char)
  | 0, _ => none
  | bound + 1, cs => do
    let (name, rest) := word cs
    let rest ← expect ": " rest
    let (t, rest) ← readType rest
    let p : Param := ⟨.root 0, String.ofList name, t⟩
    match expect ", " rest with
    | some rest =>
      let (ps, rest) ← readDeclarations bound rest
      return (p :: ps, rest)
    | none => return ([p], ← expect "| " rest)

def readHeader (bound : Nat) (cs : List Char) : Option (List Param × List Char) :=
  match expect "| " cs with
  | some rest => some ([], rest)
  | none => readDeclarations bound cs

def keyword? (name : String) : Option Value :=
  if name = "null" then some .null
  else if name = "true" then some (.bool true)
  else if name = "false" then some (.bool false)
  else none

/-- The operator that is written as a word in front of its operand in parentheses. -/
def wrapper? (name : String) : Option UnaryOp :=
  if name = "is_true" then some .isTrue
  else if name = "is_false" then some .isFalse
  else none

/-- What the digits in a word stand for, or a reference to a parameter of that name. -/
def readAtom (w : List Char) : Expr :=
  if w.all Char.isDigit then .constant .hidden (.int (.ofNat (digitsValue w)))
  else .parameter .hidden (.named (String.ofList w))

mutual

/-- The signs in front of a tree, and the tree. -/
def read : Nat → List Char → Option (Expr × List Char)
  | 0, _ => none
  | bound + 1, '!' :: cs => do
    let (a, rest) ← read bound cs
    return (.unary .hidden .not a, rest)
  | bound + 1, '-' :: cs => do
    let (a, rest) ← read bound cs
    return (.unary .hidden .neg a, rest)
  | bound + 1, cs => do
    let (t, rest) ← readBase bound cs
    readSteps bound t rest

/-- The members and methods behind a target. -/
def readSteps : Nat → Expr → List Char → Option (Expr × List Char)
  | 0, _, _ => none
  | bound + 1, t, '.' :: cs =>
    let (name, rest) := word cs
    match expect "(" rest with
    | some rest => do
      let (as, rest) ← readArgs bound rest
      readSteps bound (.call .hidden (some t) ⟨"", String.ofList name, []⟩ as) rest
    | none => readSteps bound (.member .hidden t ⟨"", String.ofList name⟩) rest
  | _ + 1, t, cs => some (t, cs)

/-- A tree in parentheses, or one that starts with a word. -/
def readBase : Nat → List Char → Option (Expr × List Char)
  | 0, _ => none
  | bound + 1, '(' :: '|' :: cs => do
    let (ps, rest) ← readHeader bound cs
    let (b, rest) ← read bound rest
    return (.lambda .hidden ps b, ← expect ")" rest)
  | bound + 1, '(' :: cs => do
    let (a, rest) ← read bound cs
    readInfix bound a rest
  | bound + 1, cs =>
    let (w, rest) := word cs
    if w = [] then none else readNamed bound w rest

/-- What stands behind the first operand in parentheses, up to and with the closing one. -/
def readInfix : Nat → Expr → List Char → Option (Expr × List Char)
  | 0, _, _ => none
  | bound + 1, a, cs =>
    match expect " ? " cs with
    | some rest => do
      let (b, rest) ← read bound rest
      let (c, rest) ← read bound (← expect " : " rest)
      return (.conditional .hidden a b c, ← expect ")" rest)
    | none => do
      let (op, rest) ← readOp cs
      let (b, rest) ← read bound rest
      return (.binary .hidden op a b, ← expect ")" rest)

/-- What stands behind the word that a tree starts with. -/
def readNamed : Nat → List Char → List Char → Option (Expr × List Char)
  | 0, _, _ => none
  | bound + 1, w, cs =>
    let name := String.ofList w
    match keyword? name, wrapper? name with
    | some v, _ => some (.constant .hidden v, cs)
    | none, some o => do
      let (a, rest) ← read bound (← expect "(" cs)
      return (.unary .hidden o a, ← expect ")" rest)
    | none, none =>
      if name = "default" then do
        let (t, rest) ← readType (← expect "(" cs)
        return (.default ⟨.root 0, t⟩, ← expect ")" rest)
      else if name = "dynamic" then do
        let (binder, rest) := word (← expect " " cs)
        let (as, rest) ← readArgs bound (← expect "(" rest)
        return (.dynamic .hidden (String.ofList binder) as, rest)
      else readPath bound w cs

/-- A static member or method if the word is the class of one, else what the word stands for. -/
def readPath : Nat → List Char → List Char → Option (Expr × List Char)
  | 0, _, _ => none
  | bound + 1, w, cs =>
    match expect "::" cs with
    | none => some (readAtom w, cs)
    | some rest =>
      let (name, rest) := word rest
      match expect "(" rest with
      | none => some (.static .hidden ⟨String.ofList w, String.ofList name⟩, rest)
      | some rest => do
        let (as, rest) ← readArgs bound rest
        return (.call .hidden none ⟨String.ofList w, String.ofList name, []⟩ as, rest)

/-- Arguments up to and with the closing parenthesis. -/
def readArgs : Nat → List Char → Option (List Expr × List Char)
  | 0, _ => none
  | _ + 1, ')' :: rest => some ([], rest)
  | bound + 1, cs => readItems bound cs

/-- One or more arguments up to and with the closing parenthesis. -/
def readItems : Nat → List Char → Option (List Expr × List Char)
  | 0, _ => none
  | bound + 1, cs => do
    let (a, rest) ← read bound cs
    match expect ", " rest with
    | some rest =>
      let (as, rest) ← readItems bound rest
      return (a :: as, rest)
    | none => return ([a], ← expect ")" rest)

end

/-! ## Tokens and words -/

theorem expect_close (rest : List Char) : expect ")" (')' :: rest) = some rest :=
  List.isPrefixOf?_eq_some_iff_append_eq.2 rfl

theorem expect_scope (rest : List Char) : expect "::" (':' :: ':' :: rest) = some rest :=
  List.isPrefixOf?_eq_some_iff_append_eq.2 rfl

theorem eventually_of_succ {P : Nat → Prop} (h : ∀ᶠ bound in atTop, P (bound + 1)) :
    ∀ᶠ bound in atTop, P bound := by
  obtain ⟨N, hN⟩ := eventually_atTop.1 h
  refine eventually_atTop.2 ⟨N + 1, fun n hn => ?_⟩
  obtain ⟨m, rfl⟩ : ∃ m, n = m + 1 := ⟨n - 1, by omega⟩
  exact hN m (by omega)

/-- What tells the words of a text apart. -/
def punctuation : List Char := ['(', ')', ',', ' ', '.', ':', '|', '!', '-']

theorem not_isNameChar {c : Char} (h : c ∈ punctuation) : isNameChar c = false := by
  have hall : punctuation.all (fun c => !isNameChar c) = true := by decide +kernel
  simpa using List.all_eq_true.1 hall c h

theorem ne_of_isNameChar {c d : Char} (hc : isNameChar c = true) (hd : d ∈ punctuation) :
    c ≠ d := by
  rintro rfl
  rw [not_isNameChar hd] at hc
  cases hc

theorem isNameChar_of_isDigit {c : Char} (h : c.isDigit = true) : isNameChar c = true := by
  have hlo : ¬c.toNat < 0x30 ∧ c.toNat < 0x3A := by
    simp only [Char.isDigit, Bool.and_eq_true, decide_eq_true_eq, ge_iff_le,
      UInt32.le_iff_toNat_le] at h
    exact ⟨Nat.not_lt.2 h.1, Nat.lt_succ_of_le h.2⟩
  -- The digits are the first range of the set.
  obtain ⟨bounds, hbounds⟩ : ∃ bounds, CharSet.alphanumeric.bounds = 0x30 :: 0x3A :: bounds :=
    ⟨_, rfl⟩
  simp [isNameChar, isAlphanumeric, CharSet.contains, CharSet.containsFrom, hbounds, hlo]

/-- What may stand behind a word. -/
def EndsWord (cs : List Char) : Prop := ∀ c ∈ cs.head?, isNameChar c = false

theorem endsWord_cons {c : Char} (h : c ∈ punctuation) (cs : List Char) : EndsWord (c :: cs) := by
  rintro _ ⟨⟩
  exact not_isNameChar h

/-- What may stand behind a target. -/
def Ends (cs : List Char) : Prop := ∀ c ∈ cs.head?, c ∈ [')', ',', ' ', '.']

/-- What may stand behind a tree. -/
def Closes (cs : List Char) : Prop := ∀ c ∈ cs.head?, c ∈ [')', ',', ' ']

theorem Closes.ends {cs : List Char} (h : Closes cs) : Ends cs := by
  intro c hc
  have hsub : [')', ',', ' '] ⊆ [')', ',', ' ', '.'] := by decide
  exact hsub (h c hc)

theorem Ends.endsWord {cs : List Char} (h : Ends cs) : EndsWord cs := by
  intro c hc
  have hsub : [')', ',', ' ', '.'] ⊆ punctuation := by decide
  exact not_isNameChar (hsub (h c hc))

theorem word_append {w rest : List Char} (hw : ∀ c ∈ w, isNameChar c = true)
    (hrest : EndsWord rest) : word (w ++ rest) = (w, rest) := by
  rw [word, List.takeWhile_append_of_pos hw, List.dropWhile_append_of_pos hw]
  cases rest with
  | nil => simp
  | cons c rest => simp [show isNameChar c = false from hrest c rfl]

theorem word_append_cons {w : List Char} (hw : ∀ c ∈ w, isNameChar c = true) (c : Char)
    (hc : c ∈ punctuation) (cs : List Char) : word (w ++ c :: cs) = (w, c :: cs) :=
  word_append hw (endsWord_cons hc cs)

theorem word_cons_of_not {c : Char} (h : isNameChar c = false) (cs : List Char) :
    word (c :: cs) = ([], c :: cs) := by
  simp [word, h]

theorem readType_text {t : Ty} (ht : t.Readable) {rest : List Char} (hrest : Ty.Stops rest) :
    readType (t.text.toList ++ rest) = some (t, rest) := by
  refine Ty.read_of_derives (Ty.derives_text ht) hrest ?_
  rw [Ty.bound, List.length_append]
  omega

theorem readType_cons {t : Ty} (ht : t.Readable) {c : Char} (hc : c ∈ [')', ',', '|'])
    (rest : List Char) : readType (t.text.toList ++ c :: rest) = some (t, c :: rest) := by
  have hall : [')', ',', '|'].all (fun c => !Ty.isWordChar c && c != '(') = true := by
    decide +kernel
  refine readType_text ht ?_
  rintro _ ⟨⟩
  simpa using List.all_eq_true.1 hall c hc

theorem readOp_symbol (op : BinaryOp) (rest : List Char) :
    readOp (' ' :: (op.symbol.toList ++ ' ' :: rest)) = some (op, rest) := by
  cases op <;> rfl

theorem expect_question_symbol (op : BinaryOp) (rest : List Char) :
    expect " ? " (' ' :: (op.symbol.toList ++ ' ' :: rest)) = none := by
  cases op <;> rfl

theorem readBase_none {c : Char} (h : c ∈ ['!', '-', ')', '|']) (cs : List Char) (bound : Nat) :
    readBase bound (c :: cs) = none := by
  have hsub : ['!', '-', ')', '|'] ⊆ punctuation := by decide
  have hword : word (c :: cs) = ([], c :: cs) := word_cons_of_not (not_isNameChar (hsub h)) cs
  cases bound with
  | zero => rfl
  | succ bound =>
    simp only [List.mem_cons, List.not_mem_nil, or_false] at h
    rcases h with rfl | rfl | rfl | rfl <;> simp [readBase, hword]

theorem read_none {c : Char} (h : c ∈ [')', '|']) (cs : List Char) (bound : Nat) :
    read bound (c :: cs) = none := by
  have hbase : ∀ bound, readBase bound (c :: cs) = none := readBase_none (by simp_all) cs
  cases bound with
  | zero => rfl
  | succ bound =>
    simp only [List.mem_cons, List.not_mem_nil, or_false] at h
    rcases h with rfl | rfl <;> simp [read, hbase]

theorem read_succ {bound : Nat} {cs rest : List Char} {t : Expr}
    (h : readBase bound cs = some (t, rest)) : read (bound + 1) cs = readSteps bound t rest := by
  match cs with
  | [] => simp [read, h]
  | c :: cs =>
    have hne : ∀ d ∈ ['!', '-', ')', '|'], c ≠ d := by
      rintro d hd rfl
      simp [readBase_none hd] at h
    have hnot : c ≠ '!' ∧ c ≠ '-' := ⟨hne _ (by decide), hne _ (by decide)⟩
    rw [read]
    · simp [h]
    · exact fun _ heq => hnot.1 (List.cons.inj heq).1
    · exact fun _ heq => hnot.2 (List.cons.inj heq).1

/-! ## Trees by their parts -/

/-- From some bound on, the tree is read from its text wherever it may stand. -/
def Reads (e : Expr) : Prop :=
  ∀ rest, Closes rest → ∀ᶠ bound in atTop, read bound (e.text.toList ++ rest) = some (e.shown, rest)

/-- From some bound on, the tree is read as one that no sign and no target stands in front of. -/
def ReadsBase (e : Expr) : Prop :=
  ∀ rest, Ends rest → ∀ᶠ bound in atTop,
    readBase bound (e.text.toList ++ rest) = some (e.shown, rest)

/-- Whatever the reader makes of the tree and the members and methods behind it, it makes of the
text of the tree and what stands behind it. -/
def ReadsTarget (e : Expr) : Prop :=
  ∀ rest out, Ends rest → (∀ᶠ bound in atTop, readSteps bound e.shown rest = some out) →
    ∀ᶠ bound in atTop, ∃ t rest', readBase bound (e.text.toList ++ rest) = some (t, rest') ∧
      readSteps bound t rest' = some out

theorem ReadsBase.target {e : Expr} (h : ReadsBase e) : ReadsTarget e := by
  intro rest out hrest hsteps
  filter_upwards [h rest hrest, hsteps] with bound hbase hsteps
  exact ⟨_, _, hbase, hsteps⟩

theorem readSteps_closes (bound : Nat) (t : Expr) {rest : List Char} (h : Closes rest) :
    readSteps (bound + 1) t rest = some (t, rest) := by
  match rest with
  | [] => simp [readSteps]
  | c :: cs =>
    have hne : c ≠ '.' := by
      rintro rfl
      exact absurd (h '.' rfl) (by decide)
    rw [readSteps]
    exact fun _ heq => hne (List.cons.inj heq).1

theorem ReadsTarget.reads {e : Expr} (h : ReadsTarget e) : Reads e := by
  intro rest hrest
  have hsteps : ∀ᶠ bound in atTop, readSteps bound e.shown rest = some (e.shown, rest) :=
    eventually_of_succ (.of_forall fun bound => readSteps_closes bound e.shown hrest)
  refine eventually_of_succ ?_
  filter_upwards [h rest _ hrest.ends hsteps] with bound ⟨t, rest', hbase, hout⟩
  rw [read_succ hbase, hout]

theorem reads_sign {l : Label} {o : UnaryOp} {a : Expr} (ho : o = .not ∨ o = .neg) (ha : Reads a) :
    Reads (.unary l o a) := by
  intro rest hrest
  refine eventually_of_succ ?_
  filter_upwards [ha rest hrest] with bound ha
  rcases ho with rfl | rfl <;> simp [Expr.text, UnaryOp.wrap, Expr.shown, read, ha]

theorem closes_cons {c : Char} (h : c ∈ [')', ',', ' ']) (cs : List Char) : Closes (c :: cs) := by
  rintro _ ⟨⟩
  exact h

theorem ends_cons {c : Char} (h : c ∈ [')', ',', ' ', '.']) (cs : List Char) : Ends (c :: cs) := by
  rintro _ ⟨⟩
  exact h

theorem expect_none_of_ends {token : String} {rest : List Char} {c : Char} {cs : List Char}
    (htoken : token.toList = c :: cs) (hc : c ∉ [')', ',', ' ', '.']) (h : Ends rest) :
    expect token rest = none := by
  rw [expect, htoken]
  match rest with
  | [] => rfl
  | d :: rest =>
    have hne : c ≠ d := by
      rintro rfl
      exact hc (h c rfl)
    simp [List.isPrefixOf?, hne]

/-! ## Arguments -/

theorem eventually_readItems {a : Expr} {as : List Expr} (h : ∀ b ∈ a :: as, Reads b)
    (rest : List Char) : ∀ᶠ bound in atTop,
      readItems bound ((commaSeparated (Expr.texts (a :: as))).toList ++ ')' :: rest) =
        some (Expr.shownList (a :: as), rest) := by
  induction as generalizing a with
  | nil =>
    refine eventually_of_succ ?_
    filter_upwards [h a (by simp) (')' :: rest) (closes_cons (by decide) rest)] with bound ha
    simp [Expr.texts, commaSeparated, Expr.shownList, readItems, ha, expect, List.isPrefixOf?]
  | cons b as ih =>
    refine eventually_of_succ ?_
    have has := ih (a := b) fun c hc => h c (List.mem_cons_of_mem a hc)
    filter_upwards [has, h a (by simp) (',' :: ' ' ::
      ((commaSeparated (Expr.texts (b :: as))).toList ++ ')' :: rest))
      (closes_cons (by decide) _)] with bound has ha
    simp only [Expr.texts] at has ha
    simp [Expr.texts, commaSeparated, Expr.shownList, readItems, ha, has, expect, List.isPrefixOf?]

theorem readArgs_succ {bound : Nat} {cs : List Char} {out : List Expr × List Char}
    (h : readItems bound cs = some out) : readArgs (bound + 1) cs = some out := by
  match cs with
  | [] => simpa [readArgs] using h
  | c :: cs =>
    have hne : c ≠ ')' := by
      rintro rfl
      cases bound <;> simp [readItems, read_none] at h
    rw [readArgs, h]
    exact fun _ heq => hne (List.cons.inj heq).1

theorem eventually_readArgs {as : List Expr} (h : ∀ a ∈ as, Reads a) (rest : List Char) :
    ∀ᶠ bound in atTop,
      readArgs bound ((commaSeparated (Expr.texts as)).toList ++ ')' :: rest) =
        some (Expr.shownList as, rest) := by
  cases as with
  | nil => exact eventually_of_succ (.of_forall fun bound => by
      simp [Expr.texts, commaSeparated, Expr.shownList, readArgs])
  | cons a as =>
    refine eventually_of_succ ?_
    filter_upwards [eventually_readItems h rest] with bound h
    exact readArgs_succ h

/-! ## Members and methods behind a target -/

theorem readsTarget_member {l : Label} {t : Expr} {r : MemberRef} (ht : ReadsTarget t)
    (hr : IsPlainName r.name) : ReadsTarget (.member l t r) := by
  intro rest out hrest hsteps
  have hword : word (r.name.toList ++ rest) = (r.name.toList, rest) :=
    word_append hr.chars hrest.endsWord
  have hopen : expect "(" rest = none := expect_none_of_ends rfl (by decide) hrest
  have htarget := ht ('.' :: (r.name.toList ++ rest)) out (ends_cons (by decide) _)
    (eventually_of_succ (by
      filter_upwards [hsteps] with bound hsteps
      simpa [readSteps, hword, hopen, Expr.shown] using hsteps))
  simpa [Expr.text] using htarget

theorem readsTarget_call {l : Label} {t : Expr} {m : Method} {as : List Expr} (ht : ReadsTarget t)
    (hm : IsPlainName m.name) (has : ∀ a ∈ as, Reads a) :
    ReadsTarget (.call l (some t) m as) := by
  intro rest out hrest hsteps
  let args := (commaSeparated (Expr.texts as)).toList ++ ')' :: rest
  have hword := word_append_cons hm.chars '(' (by decide) args
  have htarget := ht ('.' :: (m.name.toList ++ '(' :: args)) out (ends_cons (by decide) _)
    (eventually_of_succ (by
      filter_upwards [hsteps, eventually_readArgs has rest] with bound hsteps hargs
      simpa [readSteps, hword, expect, List.isPrefixOf?, args, hargs, Expr.shown] using hsteps))
  simpa [Expr.text, args] using htarget

/-! ## Trees in parentheses -/

theorem readBase_paren {bound : Nat} {cs rest : List Char} {a : Expr}
    (h : read bound cs = some (a, rest)) :
    readBase (bound + 1) ('(' :: cs) = readInfix bound a rest := by
  match cs with
  | [] => simp [readBase, h]
  | c :: cs =>
    have hne : c ≠ '|' := by
      rintro rfl
      simp [read_none] at h
    rw [readBase]
    · simp [h]
    · exact fun _ heq => hne (List.cons.inj heq).1

theorem readsBase_of_infix {e a : Expr} (behind : List Char)
    (htext : e.text.toList = '(' :: (a.text.toList ++ ' ' :: behind)) (ha : Reads a)
    (h : ∀ rest, ∀ᶠ bound in atTop,
      readInfix bound a.shown (' ' :: (behind ++ rest)) = some (e.shown, rest)) :
    ReadsBase e := by
  intro rest _
  refine eventually_of_succ ?_
  filter_upwards [ha (' ' :: (behind ++ rest)) (closes_cons (by decide) _), h rest] with bound ha h
  simpa [htext, h] using readBase_paren ha

theorem readsBase_binary {l : Label} {o : BinaryOp} {a b : Expr} (ha : Reads a) (hb : Reads b) :
    ReadsBase (.binary l o a b) := by
  refine readsBase_of_infix (o.symbol.toList ++ ' ' :: (b.text.toList ++ [')']))
    (by simp [Expr.text]) ha fun rest => eventually_of_succ ?_
  filter_upwards [hb (')' :: rest) (closes_cons (by decide) _)] with bound hb
  have hop := readOp_symbol o (b.text.toList ++ ')' :: rest)
  have hquestion := expect_question_symbol o (b.text.toList ++ ')' :: rest)
  simp [readInfix, hquestion, hop, hb, expect_close, Expr.shown]

theorem readsBase_conditional {l : Label} {a b c : Expr} (ha : Reads a) (hb : Reads b)
    (hc : Reads c) : ReadsBase (.conditional l a b c) := by
  refine readsBase_of_infix
    ('?' :: ' ' :: (b.text.toList ++ ' ' :: ':' :: ' ' :: (c.text.toList ++ [')'])))
    (by simp [Expr.text]) ha fun rest => eventually_of_succ ?_
  filter_upwards [hb (' ' :: ':' :: ' ' :: (c.text.toList ++ ')' :: rest))
    (closes_cons (by decide) _), hc (')' :: rest) (closes_cons (by decide) _)] with bound hb hc
  simp [readInfix, expect, List.isPrefixOf?, hb, hc, Expr.shown]

/-! ## Parameters and lambdas -/

theorem word_declaration {p : Param} (hname : IsPlainName p.name) (rest : List Char) :
    word (p.declaration.toList ++ rest) =
      (p.name.toList, ':' :: ' ' :: (p.ty.text.toList ++ rest)) := by
  have hword := word_append_cons hname.chars ':' (by decide) (' ' :: (p.ty.text.toList ++ rest))
  simpa [Param.declaration] using hword

theorem eventually_readDeclarations {p : Param} {ps : List Param}
    (hnames : ∀ q ∈ p :: ps, IsPlainName q.name) (htypes : ∀ q ∈ p :: ps, q.ty.Readable)
    (rest : List Char) : ∀ᶠ bound in atTop,
      readDeclarations bound
          ((commaSeparated ((p :: ps).map Param.declaration)).toList ++ '|' :: ' ' :: rest) =
        some ((p :: ps).map Param.shown, rest) := by
  induction ps generalizing p with
  | nil =>
    refine eventually_of_succ (.of_forall fun bound => ?_)
    have htype := readType_cons (htypes p (by simp)) (c := '|') (by decide) (' ' :: rest)
    simp [commaSeparated, readDeclarations, word_declaration (hnames p (by simp)), htype, expect,
      List.isPrefixOf?, Param.shown]
  | cons q ps ih =>
    refine eventually_of_succ ?_
    filter_upwards [ih (fun r hr => hnames r (List.mem_cons_of_mem p hr))
      (fun r hr => htypes r (List.mem_cons_of_mem p hr))] with bound hps
    rw [List.map_cons] at hps
    have htype := fun cs => readType_cons (htypes p (by simp)) (c := ',') (by decide) cs
    simp [commaSeparated, readDeclarations, word_declaration (hnames p (by simp)), htype, expect,
      List.isPrefixOf?, hps, Param.shown]

theorem eventually_readHeader {ps : List Param} (hnames : ∀ q ∈ ps, IsPlainName q.name)
    (htypes : ∀ q ∈ ps, q.ty.Readable) (rest : List Char) : ∀ᶠ bound in atTop,
      readHeader bound ((commaSeparated (ps.map Param.declaration)).toList ++ '|' :: ' ' :: rest) =
        some (ps.map Param.shown, rest) := by
  cases ps with
  | nil =>
    refine .of_forall fun bound => ?_
    simp [commaSeparated, readHeader, expect, List.isPrefixOf?]
  | cons p ps =>
    filter_upwards [eventually_readDeclarations hnames htypes rest] with bound hps
    have hbar : expect "| " ((commaSeparated ((p :: ps).map Param.declaration)).toList ++
        '|' :: ' ' :: rest) = none := by
      obtain ⟨c, cs, hname⟩ := List.exists_cons_of_ne_nil (hnames p (by simp)).nonempty
      have hc : c ≠ '|' :=
        ne_of_isNameChar ((hnames p (by simp)).chars c (by simp [hname])) (by decide)
      cases ps <;>
        simp [commaSeparated, Param.declaration, hname, expect, List.isPrefixOf?, Ne.symm hc]
    rw [readHeader, hbar, hps]

theorem readsBase_lambda {l : Label} {ps : List Param} {b : Expr}
    (hnames : ∀ q ∈ ps, IsPlainName q.name) (htypes : ∀ q ∈ ps, q.ty.Readable) (hb : Reads b) :
    ReadsBase (.lambda l ps b) := by
  intro rest _
  have htext : (Expr.lambda l ps b).text.toList ++ rest = '(' :: '|' ::
      ((commaSeparated (ps.map Param.declaration)).toList ++
        '|' :: ' ' :: (b.text.toList ++ ')' :: rest)) := by
    simp [Expr.text, Param.header]
  rw [htext]
  refine eventually_of_succ ?_
  filter_upwards [eventually_readHeader hnames htypes (b.text.toList ++ ')' :: rest),
    hb (')' :: rest) (closes_cons (by decide) _)] with bound hheader hb
  simp [readBase, hheader, hb, expect_close, Expr.shown]

/-! ## Trees that start with a word -/

theorem readBase_word {w rest : List Char} (hne : w ≠ []) (hw : ∀ c ∈ w, isNameChar c = true)
    (hrest : EndsWord rest) (bound : Nat) :
    readBase (bound + 1) (w ++ rest) = readNamed bound w rest := by
  match w with
  | [] => exact absurd rfl hne
  | c :: cs =>
    have hc : c ≠ '(' := ne_of_isNameChar (hw c List.mem_cons_self) (by decide)
    rw [List.cons_append, readBase]
    · rw [← List.cons_append, word_append hw hrest]
      simp
    · exact fun _ heq => hc (List.cons.inj heq).1
    · exact fun _ heq => hc (List.cons.inj heq).1

/-- A tree is read by the word it starts with, if that is not continued. -/
theorem readsBase_of_word {e : Expr} {w : String} (hne : w.toList ≠ [])
    (hw : w.toList.all isNameChar = true)
    (h : ∀ rest, Ends rest → ∃ behind, EndsWord behind ∧
      e.text.toList ++ rest = w.toList ++ behind ∧
      ∀ᶠ bound in atTop, readNamed bound w.toList behind = some (e.shown, rest)) : ReadsBase e := by
  intro rest hrest
  obtain ⟨behind, hbehind, htext, hnamed⟩ := h rest hrest
  refine eventually_of_succ ?_
  filter_upwards [hnamed] with bound hnamed
  rw [htext, readBase_word hne (List.all_eq_true.1 hw) hbehind, hnamed]

theorem readsBase_wrapper {l : Label} {o : UnaryOp} {a : Expr} (w : String) (hne : w.toList ≠ [])
    (hw : w.toList.all isNameChar = true) (hkeyword : keyword? w = none)
    (hwrapper : wrapper? w = some o) (htext : ∀ s, o.wrap s = w ++ "(" ++ s ++ ")") (ha : Reads a) :
    ReadsBase (.unary l o a) := by
  refine readsBase_of_word hne hw fun rest _ =>
    ⟨'(' :: (a.text.toList ++ ')' :: rest), endsWord_cons (by decide) _, by simp [Expr.text, htext],
      eventually_of_succ ?_⟩
  filter_upwards [ha (')' :: rest) (closes_cons (by decide) rest)] with bound ha
  simp [readNamed, hkeyword, hwrapper, expect, List.isPrefixOf?, ha, Expr.shown]

theorem readsBase_default {l : Label} (ht : l.ty.Readable) : ReadsBase (.default l) := by
  refine readsBase_of_word (w := "default") (by decide) (by decide +kernel) fun rest _ =>
    ⟨'(' :: (l.ty.text.toList ++ ')' :: rest), endsWord_cons (by decide) _, by simp [Expr.text],
      eventually_of_succ (.of_forall fun bound => ?_)⟩
  have htype := readType_cons ht (c := ')') (by decide) rest
  simp [readNamed, keyword?, wrapper?, expect, List.isPrefixOf?, htype, Expr.shown]

theorem readsBase_dynamic {l : Label} {b : String} {as : List Expr} (hb : IsPlainName b)
    (has : ∀ a ∈ as, Reads a) : ReadsBase (.dynamic l b as) := by
  refine readsBase_of_word (w := "dynamic") (by decide) (by decide +kernel) fun rest _ =>
    ⟨' ' :: (b.toList ++ '(' :: ((commaSeparated (Expr.texts as)).toList ++ ')' :: rest)),
      endsWord_cons (by decide) _, by simp [Expr.text], eventually_of_succ ?_⟩
  filter_upwards [eventually_readArgs has rest] with bound hargs
  have hword := word_append_cons hb.chars '(' (by decide)
    ((commaSeparated (Expr.texts as)).toList ++ ')' :: rest)
  simp [readNamed, keyword?, wrapper?, expect, List.isPrefixOf?, hword, hargs, Expr.shown]

theorem readNamed_of_not_mem {w : String} (h : w ∉ printerWords) (bound : Nat) (cs : List Char) :
    readNamed (bound + 1) w.toList cs = readPath bound w.toList cs := by
  simp only [printerWords, List.mem_cons, List.not_mem_nil, or_false, not_or] at h
  simp [readNamed, keyword?, wrapper?, h]

theorem readsBase_static {l : Label} {r : MemberRef} (htype : IsPlainName r.declaringType)
    (hname : IsPlainName r.name) : ReadsBase (.static l r) := by
  refine readsBase_of_word htype.nonempty (List.all_eq_true.2 htype.chars) fun rest hrest =>
    ⟨':' :: ':' :: (r.name.toList ++ rest), endsWord_cons (by decide) _, by simp [Expr.text],
      eventually_of_succ (eventually_of_succ (.of_forall fun bound => ?_))⟩
  have hword := word_append hname.chars hrest.endsWord
  have hopen : expect "(" rest = none := expect_none_of_ends rfl (by decide) hrest
  rw [readNamed_of_not_mem htype.notPrinted]
  simp [readPath, expect_scope, hword, hopen, Expr.shown]

theorem readsBase_call {l : Label} {m : Method} {as : List Expr}
    (htype : IsPlainName m.declaringType) (hname : IsPlainName m.name)
    (has : ∀ a ∈ as, Reads a) : ReadsBase (.call l none m as) := by
  refine readsBase_of_word htype.nonempty (List.all_eq_true.2 htype.chars) fun rest _ =>
    ⟨':' :: ':' :: (m.name.toList ++ '(' :: ((commaSeparated (Expr.texts as)).toList ++
      ')' :: rest)), endsWord_cons (by decide) _, by simp [Expr.text],
      eventually_of_succ (eventually_of_succ ?_)⟩
  filter_upwards [eventually_readArgs has rest] with bound hargs
  have hword := word_append_cons hname.chars '(' (by decide)
    ((commaSeparated (Expr.texts as)).toList ++ ')' :: rest)
  rw [readNamed_of_not_mem htype.notPrinted]
  simp [readPath, expect, List.isPrefixOf?, hword, hargs, Expr.shown]

/-- A word on its own. -/
theorem readsBase_atom {e : Expr} (hne : e.text.toList ≠ [])
    (hw : ∀ c ∈ e.text.toList, isNameChar c = true) (hnot : e.text ∉ printerWords)
    (h : readAtom e.text.toList = e.shown) : ReadsBase e := by
  refine readsBase_of_word hne (List.all_eq_true.2 hw) fun rest hrest => ⟨rest, hrest.endsWord, rfl,
    eventually_of_succ (eventually_of_succ (.of_forall fun bound => ?_))⟩
  have hscope : expect "::" rest = none := expect_none_of_ends rfl (by decide) hrest
  rw [readNamed_of_not_mem hnot, readPath, hscope, h]

theorem readsBase_parameter {l : Label} {p : Param} (hp : IsPlainName p.name) :
    ReadsBase (.parameter l p) := by
  refine readsBase_atom hp.nonempty hp.chars hp.notPrinted ?_
  have hdigits : p.name.toList.all Char.isDigit = false := by
    obtain ⟨c, cs, hname⟩ := List.exists_cons_of_ne_nil hp.nonempty
    have hc : c.isDigit = false := by simpa [hname] using hp.start
    simp [hname, hc]
  simp [Expr.text, Param.text, readAtom, hdigits, Expr.shown]

/-! ## Constants -/

theorem toList_text_int {n : Int64} (hn : 0 ≤ n.toInt) :
    (Value.int n).text.toList = Nat.toDigits 10 n.toInt.toNat := by
  obtain ⟨k, hk⟩ := Int.eq_ofNat_of_zero_le hn
  rw [Value.text, hk]
  exact String.toList_ofList

theorem ofNat_digitsValue {n : Int64} (hn : 0 ≤ n.toInt) :
    Int64.ofNat (digitsValue (Nat.toDigits 10 n.toInt.toNat)) = n := by
  have hvalue : digitsValue (Nat.toDigits 10 n.toInt.toNat) = n.toInt.toNat :=
    Nat.ofDigitChars_ten_toDigits
  rw [hvalue, ← Int64.ofInt_eq_ofNat, Int.toNat_of_nonneg hn, Int64.ofInt_toInt]

theorem not_mem_printerWords {w : String} (h : w.toList.all Char.isDigit = true) :
    w ∉ printerWords := by
  have hnot : ∀ k ∈ printerWords, k.toList.all Char.isDigit = false := by decide
  intro hw
  rw [hnot w hw] at h
  cases h

theorem readsBase_int {l : Label} {n : Int64} (hn : 0 ≤ n.toInt) :
    ReadsBase (.constant l (.int n)) := by
  have htext : (Expr.constant l (.int n)).text.toList = Nat.toDigits 10 n.toInt.toNat :=
    toList_text_int hn
  have hdigits : (Nat.toDigits 10 n.toInt.toNat).all Char.isDigit = true :=
    List.all_eq_true.2 fun c hc => Nat.isDigit_of_mem_toDigits (by decide) (by decide) hc
  refine readsBase_atom ?_ ?_ (not_mem_printerWords (htext ▸ hdigits)) ?_
  · rw [htext]
    exact List.ne_nil_of_length_pos Nat.length_toDigits_pos
  · rw [htext]
    exact fun c hc => isNameChar_of_isDigit (List.all_eq_true.1 hdigits c hc)
  · rw [htext, readAtom, if_pos hdigits, ofNat_digitsValue hn, Expr.shown]

theorem readsBase_keyword {l : Label} {v : Value} (hne : v.text.toList ≠ [])
    (hw : v.text.toList.all isNameChar = true) (hkeyword : keyword? v.text = some v) :
    ReadsBase (.constant l v) := by
  refine readsBase_of_word (w := v.text) hne hw fun rest hrest =>
    ⟨rest, hrest.endsWord, rfl, eventually_of_succ (.of_forall fun bound => ?_)⟩
  simp [readNamed, hkeyword, Expr.shown]

theorem readsBase_constant {l : Label} {v : Value} (hv : v.IsPlain) :
    ReadsBase (.constant l v) := by
  cases v with
  | null => exact readsBase_keyword (by decide) (by decide +kernel) rfl
  | bool b => cases b <;> exact readsBase_keyword (by decide) (by decide +kernel) rfl
  | int n => exact readsBase_int hv
  | float | str | object | lambda => exact absurd hv id

/-! ## All trees -/

-- Induction on the tree. The second part is what accesses need of their targets: the reader goes on
-- behind a target. It fails for signs, which take all accesses that follow.
theorem reads_spec {e : Expr} (hplain : e.Plain) (hsettled : e.Settled) :
    Reads e ∧ (e.isPrefix = false → ReadsTarget e) := by
  induction e using Expr.byChildren with
  | node e ih =>
    obtain ⟨hnode, hplain⟩ := (Expr.all_iff e).1 hplain
    obtain ⟨hbare, hsettled⟩ := (Expr.all_iff e).1 hsettled
    have hreads : ∀ c ∈ e.children, Reads c := fun c hc => (ih c hc (hplain c hc) (hsettled c hc)).1
    have htarget : ∀ c ∈ e.children, c.isPrefix = false → ReadsTarget c := fun c hc =>
      (ih c hc (hplain c hc) (hsettled c hc)).2
    have of_target : ReadsTarget e → Reads e ∧ (e.isPrefix = false → ReadsTarget e) :=
      fun h => ⟨h.reads, fun _ => h⟩
    have of_base : ReadsBase e → Reads e ∧ (e.isPrefix = false → ReadsTarget e) :=
      fun h => of_target h.target
    cases e with
    | binary l o a b =>
      exact of_base (readsBase_binary (hreads a (by simp [Expr.children]))
        (hreads b (by simp [Expr.children])))
    | unary l o a =>
      have ha : Reads a := hreads a (by simp [Expr.children])
      cases o with
      | not => exact ⟨reads_sign (.inl rfl) ha, nofun⟩
      | neg => exact ⟨reads_sign (.inr rfl) ha, nofun⟩
      | isTrue =>
        exact of_base (readsBase_wrapper "is_true" (by decide) (by decide +kernel) rfl rfl
          (fun _ => rfl) ha)
      | isFalse =>
        exact of_base (readsBase_wrapper "is_false" (by decide) (by decide +kernel) rfl rfl
          (fun _ => rfl) ha)
    | member l t r =>
      have ht : ReadsTarget t := htarget t (by simp [Expr.children]) (hbare t rfl)
      exact of_target (readsTarget_member ht (hnode.names _ (by simp [Expr.shownNames])))
    | static l r =>
      exact of_base (readsBase_static (hnode.names _ (by simp [Expr.shownNames]))
        (hnode.names _ (by simp [Expr.shownNames])))
    | call l t m as =>
      have has : ∀ a ∈ as, Reads a := fun a ha => hreads a (by simp [Expr.children, ha])
      cases t with
      | none =>
        exact of_base (readsBase_call (hnode.names _ (by simp [Expr.shownNames]))
          (hnode.names _ (by simp [Expr.shownNames])) has)
      | some t =>
        have ht : ReadsTarget t := htarget t (by simp [Expr.children]) (hbare t rfl)
        exact of_target (readsTarget_call ht (hnode.names _ (by simp [Expr.shownNames])) has)
    | constant l v =>
      exact of_base (readsBase_constant (hnode.values v (by simp [Expr.shownValues])))
    | parameter l p =>
      exact of_base (readsBase_parameter (hnode.names _ (by simp [Expr.shownNames])))
    | conditional l a b c =>
      exact of_base (readsBase_conditional (hreads a (by simp [Expr.children]))
        (hreads b (by simp [Expr.children])) (hreads c (by simp [Expr.children])))
    | default l => exact of_base (readsBase_default (hnode.types _ (by simp [Expr.shownTypes])))
    | dynamic l b as =>
      exact of_base (readsBase_dynamic (hnode.names _ (by simp [Expr.shownNames])) hreads)
    | lambda l ps b =>
      exact of_base (readsBase_lambda
        (fun q hq => hnode.names _ (List.mem_map_of_mem hq))
        (fun q hq => hnode.types _ (List.mem_map_of_mem hq))
        (hreads b (by simp [Expr.children])))

/-- What a text shows of a plain and settled tree is read from the text. -/
theorem read_text {e : Expr} (hplain : e.Plain) (hsettled : e.Settled) :
    ∀ᶠ bound in atTop, read bound e.text.toList = some (e.shown, []) := by
  have h := (reads_spec hplain hsettled).1 [] nofun
  rwa [List.append_nil] at h

end Printed

namespace Expr

theorem shown_eq_of_text_eq {e e' : Expr} (he : e.Plain) (hs : e.Settled) (he' : e'.Plain)
    (hs' : e'.Settled) (h : e.text = e'.text) : e.shown = e'.shown := by
  obtain ⟨bound, hread, hread'⟩ :=
    ((Printed.read_text he hs).and (Printed.read_text he' hs')).exists
  rw [h, hread'] at hread
  exact (congrArg Prod.fst (Option.some.inj hread)).symm

theorem text_eq_of_shown_eq {e e' : Expr} (h : e.shown = e'.shown) : e.text = e'.text := by
  rw [← e.text_shown, h, e'.text_shown]

/-- Two plain trees have one text exactly if they show the same once all signs have been moved in
front of the accesses to their operands; and trees without a sign in front of a target have one text
exactly if they show the same. -/
theorem text_eq_iff {e e' : Expr} (he : e.Plain) (he' : e'.Plain) :
    (e.text = e'.text ↔ e.hoist.shown = e'.hoist.shown) ∧
      (e.Settled → e'.Settled → (e.text = e'.text ↔ e.shown = e'.shown)) := by
  constructor
  · rw [← e.text_hoist, ← e'.text_hoist]
    exact ⟨shown_eq_of_text_eq he.hoist he.settled_hoist he'.hoist he'.settled_hoist,
      text_eq_of_shown_eq⟩
  · exact fun hs hs' => ⟨shown_eq_of_text_eq he hs he' hs', text_eq_of_shown_eq⟩

namespace Signs

def age : MemberRef := ⟨"Person", "age"⟩

def person : Expr := .parameter ⟨.root 1, .named "Person"⟩ ⟨.root 0, "p", .named "Person"⟩

def negatedAge : Expr := .unary ⟨.root 3, .int⟩ .neg (.member ⟨.root 2, .int⟩ person age)

def ageOfNegated : Expr :=
  .member ⟨.root 3, .int⟩ (.unary ⟨.root 2, .named "Person"⟩ .neg person) age

/-- Nodes of all kinds, with parameters made at the given site. -/
def rule (site : Site) : Expr :=
  let p : Param := ⟨site, "p", .named "Person"⟩
  let n : Param := ⟨site.child 1, "n", .fn [.int] .bool⟩
  let ref (q : Param) : Expr := .parameter ⟨site.child 2, q.ty⟩ q
  let label : Label := ⟨site.child 3, .bool⟩
  .lambda label [p, n] <|
    .conditional label
      (.call label none ⟨"Rules", "holds", []⟩ [ref p, .constant label (.int 18)])
      (.binary label .and
        (.call label (some (.member label (ref p) age)) ⟨"int", "fits", []⟩ [ref n])
        (.unary label .not (.member label (.static label ⟨"Rules", "first"⟩) age)))
      (.dynamic label "any" [.unary label .isTrue (.default label), .constant label .null])

end Signs

open Signs in
/-- The sign in front of the access and the sign in front of its target print the same. -/
theorem text_sign_ambiguous :
    negatedAge.Plain ∧ ageOfNegated.Plain ∧ negatedAge.text = "-p.age" ∧
      ageOfNegated.text = "-p.age" ∧ negatedAge.shown ≠ ageOfNegated.shown := by
  decide +kernel

open Signs in
/-- Two trees that differ in the identity of their parameters only, and two places of one sign. -/
theorem text_eq_iff_rules :
    (rule (.root 1)).shown = (rule (.root 2)).shown ∧
      negatedAge.hoist.shown = ageOfNegated.hoist.shown := by
  have hrules : (rule (.root 1)).Plain ∧ (rule (.root 1)).Settled ∧
      (rule (.root 2)).Plain ∧ (rule (.root 2)).Settled := by decide +kernel
  have hsigns : negatedAge.Plain ∧ ageOfNegated.Plain := by decide +kernel
  obtain ⟨h₁, hs₁, h₂, hs₂⟩ := hrules
  exact ⟨((text_eq_iff h₁ h₂).2 hs₁ hs₂).1 (by decide +kernel),
    (text_eq_iff hsigns.1 hsigns.2).1.1 (by decide +kernel)⟩

end Expr

end PredicateTree
