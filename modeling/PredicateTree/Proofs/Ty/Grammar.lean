import Mathlib.Data.List.Basic
import PredicateTree.Proofs.Text.CharSet
import PredicateTree.Ty.Parser

/-!
# Proofs.Ty.Grammar

The reader of types accepts exactly the grammar

    text   ::= type ws*
    type   ::= ws* word | ws* 'fn(' params ws* '->' type
    params ::= ws* ')' | type (ws* ',' type)* ws* ')'
    word   ::= one or more word characters

* `Derives`, `DerivesParams`, `DerivesItems`: the grammar, rule by rule, on lists of characters.
* `derives_of_read`: what is read is derived by the grammar, and what is left over follows it.
* `read_of_derives`: what the grammar derives is read, if nothing follows that would continue the
  last word. The bound counts three for every character.
* `parse_iff_written`: a text is read as a type exactly if the grammar derives it.

Of the characters it is only used that blanks, word characters and punctuation are apart.
-/

namespace PredicateTree

namespace Ty

/-! ## The grammar -/

def Blanks (cs : List Char) : Prop := ∀ c ∈ cs, isBlank c = true

structure IsWord (cs : List Char) : Prop where
  nonempty : cs ≠ []
  chars : ∀ c ∈ cs, isWordChar c = true

/-- A word is the scalar of that name, or else the class of that name. -/
inductive Names : String → Ty → Prop where
  | bool : Names "bool" .bool
  | int : Names "int" .int
  | float : Names "float" .float
  | string : Names "string" .string
  | named {name : String} : name ∉ ["bool", "int", "float", "string"] → Names name (.named name)

mutual

inductive Derives : List Char → Ty → Prop where
  | word {ws w : List Char} {t : Ty} : Blanks ws → IsWord w → Names (String.ofList w) t →
      Derives (ws ++ w) t
  | fn {ws ps gap r : List Char} {ts : List Ty} {t : Ty} : Blanks ws → DerivesParams ps ts →
      Blanks gap → Derives r t →
      Derives (ws ++ ("fn(".toList ++ (ps ++ (gap ++ ("->".toList ++ r))))) (.fn ts t)

inductive DerivesParams : List Char → List Ty → Prop where
  | none {ws : List Char} : Blanks ws → DerivesParams (ws ++ ")".toList) []
  | some {as ws : List Char} {ts : List Ty} : DerivesItems as ts → Blanks ws →
      DerivesParams (as ++ (ws ++ ")".toList)) ts

/-- Types divided by commas. -/
inductive DerivesItems : List Char → List Ty → Prop where
  | one {a : List Char} {t : Ty} : Derives a t → DerivesItems a [t]
  | more {a ws as : List Char} {t : Ty} {ts : List Ty} : Derives a t → Blanks ws →
      DerivesItems as ts → DerivesItems (a ++ (ws ++ (",".toList ++ as))) (t :: ts)

end

/-- A type with blanks at the end. -/
def Written (s : String) (t : Ty) : Prop :=
  ∃ a ws, Derives a t ∧ Blanks ws ∧ s.toList = a ++ ws

/-! ## Blanks and tokens -/

theorem not_isWordChar_of_blank {c : Char} (h : isBlank c = true) : isWordChar c = false := by
  simp only [isWordChar, not_isAlphanumeric_of_blank h, Bool.false_or, Bool.or_eq_false_iff,
    beq_eq_false_iff_ne]
  constructor <;> rintro rfl <;> exact absurd h (by decide)

theorem not_isBlank_of_wordChar {c : Char} (h : isWordChar c = true) : isBlank c = false := by
  by_contra hc
  rw [not_isWordChar_of_blank (Bool.not_eq_false _ ▸ hc)] at h
  cases h

theorem blanks_takeWhile (cs : List Char) : Blanks (cs.takeWhile isBlank) :=
  List.all_eq_true.1 List.all_takeWhile

theorem blanks_of_skipBlanks {cs : List Char} (h : (skipBlanks cs).isEmpty = true) :
    Blanks cs := by
  have hcs : cs.takeWhile isBlank ++ skipBlanks cs = cs := List.takeWhile_append_dropWhile
  rw [List.isEmpty_iff.1 h, List.append_nil] at hcs
  exact hcs ▸ blanks_takeWhile cs

theorem skipBlanks_append {ws : List Char} (hws : Blanks ws) {c : Char} (hc : isBlank c = false)
    (cs : List Char) : skipBlanks (ws ++ c :: cs) = c :: cs := by
  unfold skipBlanks
  rw [List.dropWhile_append_of_pos hws, List.dropWhile_cons_of_neg (by simp [hc])]

theorem skipBlanks_of_blanks {ws : List Char} (hws : Blanks ws) : skipBlanks ws = [] := by
  have h : (ws ++ []).dropWhile isBlank = [] := List.dropWhile_append_of_pos hws
  rwa [List.append_nil] at h

theorem eq_of_eat {token : String} {cs rest : List Char} (h : eat token cs = some rest) :
    ∃ ws, Blanks ws ∧ cs = ws ++ (token.toList ++ rest) := by
  refine ⟨cs.takeWhile isBlank, blanks_takeWhile cs, ?_⟩
  rw [List.isPrefixOf?_eq_some_iff_append_eq.1 h]
  exact List.takeWhile_append_dropWhile.symm

theorem eat_append (token : String) {ws : List Char} (hws : Blanks ws)
    (htoken : ∃ c cs, token.toList = c :: cs ∧ isBlank c = false) (rest : List Char) :
    eat token (ws ++ (token.toList ++ rest)) = some rest := by
  obtain ⟨c, cs, heq, hc⟩ := htoken
  unfold eat
  rw [List.isPrefixOf?_eq_some_iff_append_eq, heq, List.cons_append, skipBlanks_append hws hc]

theorem eat_append_of_ne {token : String} {ws cs : List Char} (hws : Blanks ws) {c : Char}
    (hc : isBlank c = false) (htoken : ∀ rest, token.toList ++ rest ≠ c :: cs) :
    eat token (ws ++ c :: cs) = none := by
  rw [eat, skipBlanks_append hws hc, Option.eq_none_iff_forall_ne_some]
  intro rest h
  exact htoken rest (List.isPrefixOf?_eq_some_iff_append_eq.1 h)

/-! ## Words -/

theorem names_ofWord (w : String) : Names w (ofWord w) := by
  unfold ofWord
  split
  · rename_i h
    exact h ▸ .bool
  split
  · rename_i h
    exact h ▸ .int
  split
  · rename_i h
    exact h ▸ .float
  split
  · rename_i h
    exact h ▸ .string
  · exact .named (by simp_all)

theorem ofWord_of_names {w : String} {t : Ty} (h : Names w t) : ofWord w = t := by
  cases h with
  | named h =>
    simp only [List.mem_cons, List.not_mem_nil, or_false, not_or] at h
    simp [ofWord, h]
  | _ => rfl

/-- What stands behind a type does not continue it. -/
def Stops (cs : List Char) : Prop := ∀ c ∈ cs.head?, isWordChar c = false ∧ c ≠ '('

theorem stops_of_blanks {ws : List Char} (hws : Blanks ws) {cs : List Char} (hcs : Stops cs) :
    Stops (ws ++ cs) := by
  cases ws with
  | nil => exact hcs
  | cons c ws =>
    intro d hd
    cases hd
    have hc : isBlank c = true := hws c List.mem_cons_self
    refine ⟨not_isWordChar_of_blank hc, ?_⟩
    rintro rfl
    cases hc

theorem readWord_eq_some {cs rest : List Char} {t : Ty} (h : readWord cs = some (t, rest)) :
    ∃ a, Derives a t ∧ cs = a ++ rest := by
  unfold readWord at h
  dsimp only at h
  split at h
  · cases h
  · rename_i hword
    cases h
    have hw : IsWord ((skipBlanks cs).takeWhile isWordChar) :=
      ⟨fun hnil => hword (List.isEmpty_iff.2 hnil), List.all_eq_true.1 List.all_takeWhile⟩
    refine ⟨_, .word (blanks_takeWhile cs) hw (names_ofWord _), ?_⟩
    rw [List.append_assoc, List.takeWhile_append_dropWhile]
    exact List.takeWhile_append_dropWhile.symm

theorem IsWord.exists_cons {w : List Char} (h : IsWord w) :
    ∃ c cs, w = c :: cs ∧ isWordChar c = true ∧ ∀ d ∈ cs, isWordChar d = true := by
  cases w with
  | nil => exact absurd rfl h.nonempty
  | cons c cs =>
    exact ⟨c, cs, rfl, h.chars c List.mem_cons_self,
      fun d hd => h.chars d (List.mem_cons_of_mem c hd)⟩

/-- A word is not the start of a function type: the parenthesis would stand right behind the word,
or be a character of it. -/
theorem not_fn_of_word {c : Char} {cs rest after : List Char}
    (hcs : ∀ d ∈ cs, isWordChar d = true) (hrest : Stops rest)
    (h : 'f' :: 'n' :: '(' :: after = c :: (cs ++ rest)) : False := by
  match cs, hcs, h with
  | [], _, h =>
    simp only [List.nil_append, List.cons.injEq] at h
    have hn := (hrest 'n' (by simp [← h.2])).1
    exact absurd hn (by decide +kernel)
  | [d], _, h =>
    simp only [List.singleton_append, List.cons.injEq] at h
    exact (hrest '(' (by simp [← h.2.2])).2 rfl
  | d :: e :: cs, hcs, h =>
    simp only [List.cons_append, List.cons.injEq] at h
    obtain ⟨-, -, rfl, -⟩ := h
    exact absurd (hcs '(' (by simp)) (by decide +kernel)

/-- A word is taken as a whole and nothing behind it, and it is not taken for the start of a
function type. -/
theorem read_word {w rest : List Char} (hw : IsWord w) (hrest : Stops rest) {ws : List Char}
    (hws : Blanks ws) (bound : Nat) :
    read (bound + 1) (ws ++ (w ++ rest)) = some (ofWord (String.ofList w), rest) := by
  obtain ⟨c, cs, rfl, hc, hcs⟩ := hw.exists_cons
  have hblank : isBlank c = false := not_isBlank_of_wordChar hc
  have hnot : eat "fn(" (ws ++ (c :: cs ++ rest)) = none := by
    refine eat_append_of_ne hws hblank fun rest' h => ?_
    exact not_fn_of_word hcs hrest h
  have htake : (c :: cs ++ rest).takeWhile isWordChar = c :: cs := by
    rw [List.takeWhile_append_of_pos hw.chars]
    cases rest with
    | nil => simp
    | cons d rest => simp [(hrest d rfl).1]
  have hdrop : (c :: cs ++ rest).dropWhile isWordChar = rest := by
    rw [List.dropWhile_append_of_pos hw.chars]
    cases rest with
    | nil => rfl
    | cons d rest => simp [(hrest d rfl).1]
  rw [read, hnot]
  simp only [readWord, List.cons_append, skipBlanks_append hws hblank] at htake hdrop ⊢
  rw [htake, hdrop]
  rfl

/-! ## What is read is derived -/

mutual

theorem derives_of_read : ∀ {bound : Nat} {cs rest : List Char} {t : Ty},
    read bound cs = some (t, rest) → ∃ a, Derives a t ∧ cs = a ++ rest
  | 0, _, _, _, h => by cases h
  | bound + 1, cs, rest, t, h => by
    rw [read] at h
    split at h
    · exact readWord_eq_some h
    · rename_i inner hfn
      split at h
      · cases h
      · rename_i ts afterParams hparams
        split at h
        · cases h
        · rename_i afterArrow harrow
          split at h
          · cases h
          · rename_i r rest' hresult
            cases h
            obtain ⟨ws, hws, rfl⟩ := eq_of_eat hfn
            obtain ⟨ps, hps, rfl⟩ := derives_of_readParams hparams
            obtain ⟨gap, hgap, rfl⟩ := eq_of_eat harrow
            obtain ⟨a, ha, rfl⟩ := derives_of_read hresult
            exact ⟨_, .fn hws hps hgap ha, by simp only [List.append_assoc]⟩

theorem derives_of_readParams : ∀ {bound : Nat} {cs rest : List Char} {ts : List Ty},
    readParams bound cs = some (ts, rest) → ∃ ps, DerivesParams ps ts ∧ cs = ps ++ rest
  | 0, _, _, _, h => by cases h
  | bound + 1, cs, rest, ts, h => by
    rw [readParams] at h
    split at h
    · rename_i rest' hclose
      cases h
      obtain ⟨ws, hws, rfl⟩ := eq_of_eat hclose
      exact ⟨_, .none hws, by simp only [List.append_assoc]⟩
    · obtain ⟨as, ws, has, hws, rfl⟩ := derives_of_readItems h
      exact ⟨_, .some has hws, by simp only [List.append_assoc]⟩

theorem derives_of_readItems : ∀ {bound : Nat} {cs rest : List Char} {ts : List Ty},
    readItems bound cs = some (ts, rest) →
      ∃ as ws, DerivesItems as ts ∧ Blanks ws ∧ cs = as ++ (ws ++ (")".toList ++ rest))
  | 0, _, _, _, h => by cases h
  | bound + 1, cs, rest, ts, h => by
    rw [readItems] at h
    split at h
    · cases h
    · rename_i t afterType htype
      obtain ⟨a, ha, rfl⟩ := derives_of_read htype
      split at h
      · rename_i rest' hclose
        cases h
        obtain ⟨ws, hws, rfl⟩ := eq_of_eat hclose
        exact ⟨a, ws, .one ha, hws, rfl⟩
      · split at h
        · cases h
        · rename_i afterComma hcomma
          split at h
          · cases h
          · rename_i us rest' hitems
            cases h
            obtain ⟨ws, hws, rfl⟩ := eq_of_eat hcomma
            obtain ⟨as, ws', has, hws', rfl⟩ := derives_of_readItems hitems
            exact ⟨_, ws', .more ha hws has, hws', by simp only [List.append_assoc]⟩

end

/-! ## What is derived is read -/

theorem Derives.head {a : List Char} {t : Ty} (h : Derives a t) :
    ∃ ws c cs, Blanks ws ∧ isWordChar c = true ∧ a = ws ++ c :: cs := by
  cases h with
  | @word ws w t hws hw _ =>
    obtain ⟨c, cs, rfl, hc, -⟩ := hw.exists_cons
    exact ⟨ws, c, cs, hws, hc, rfl⟩
  | @fn ws ps gap r ts t hws _ _ _ => exact ⟨ws, 'f', _, hws, by decide +kernel, rfl⟩

theorem DerivesItems.head {as : List Char} {ts : List Ty} (h : DerivesItems as ts) :
    ∃ ws c cs, Blanks ws ∧ isWordChar c = true ∧ as = ws ++ c :: cs := by
  cases h with
  | one ha => exact ha.head
  | more ha =>
    obtain ⟨ws, c, cs, hws, hc, rfl⟩ := ha.head
    exact ⟨ws, c, _, hws, hc, List.append_assoc ..⟩

theorem eat_close_of_head {a : List Char}
    (h : ∃ ws c cs, Blanks ws ∧ isWordChar c = true ∧ a = ws ++ c :: cs) (rest : List Char) :
    eat ")" (a ++ rest) = none := by
  obtain ⟨ws, c, cs, hws, hc, rfl⟩ := h
  rw [List.append_assoc, List.cons_append]
  refine eat_append_of_ne hws (not_isBlank_of_wordChar hc) fun rest' heq => ?_
  obtain ⟨rfl, -⟩ := List.cons.inj heq
  exact absurd hc (by decide +kernel)

mutual

theorem read_of_derives : ∀ {a : List Char} {t : Ty}, Derives a t →
    ∀ {bound : Nat} {rest : List Char}, Stops rest → 3 * a.length ≤ bound →
      read bound (a ++ rest) = some (t, rest)
  | _, _, @Derives.word ws w _ hws hw hname, bound, rest, hrest, hbound => by
    have hlen : 0 < w.length := List.length_pos_iff.2 hw.nonempty
    rw [List.length_append] at hbound
    obtain ⟨bound, rfl⟩ : ∃ m, bound = m + 1 := ⟨bound - 1, by omega⟩
    rw [List.append_assoc, read_word hw hrest hws, ofWord_of_names hname]
  | _, _, @Derives.fn ws ps gap r ts t hws hps hgap hr, bound, rest, hrest, hbound => by
    have hfn : "fn(".toList.length = 3 := rfl
    simp only [List.length_append, hfn] at hbound
    obtain ⟨bound, rfl⟩ : ∃ m, bound = m + 1 := ⟨bound - 1, by omega⟩
    have hopen := eat_append "fn(" hws ⟨'f', ['n', '('], rfl, by decide⟩
      (ps ++ (gap ++ ("->".toList ++ (r ++ rest))))
    have hparams : readParams bound (ps ++ (gap ++ ("->".toList ++ (r ++ rest)))) =
        some (ts, gap ++ ("->".toList ++ (r ++ rest))) :=
      readParams_of_derives hps (by omega)
    have harrow := eat_append "->" hgap ⟨'-', ['>'], rfl, by decide⟩ (r ++ rest)
    have hresult : read bound (r ++ rest) = some (t, rest) :=
      read_of_derives hr hrest (by omega)
    simp only [List.append_assoc]
    rw [read, hopen]
    simp only [hparams, harrow, hresult]

theorem readParams_of_derives : ∀ {ps : List Char} {ts : List Ty}, DerivesParams ps ts →
    ∀ {bound : Nat} {rest : List Char}, 3 * ps.length ≤ bound →
      readParams bound (ps ++ rest) = some (ts, rest)
  | _, _, @DerivesParams.none ws hws, bound, rest, hbound => by
    have hclose : ")".toList.length = 1 := rfl
    simp only [List.length_append, hclose] at hbound
    obtain ⟨bound, rfl⟩ : ∃ m, bound = m + 1 := ⟨bound - 1, by omega⟩
    rw [List.append_assoc, readParams, eat_append ")" hws ⟨')', [], rfl, by decide⟩]
  | _, _, @DerivesParams.some as ws ts has hws, bound, rest, hbound => by
    have hclose : ")".toList.length = 1 := rfl
    simp only [List.length_append, hclose] at hbound
    obtain ⟨bound, rfl⟩ : ∃ m, bound = m + 1 := ⟨bound - 1, by omega⟩
    simp only [List.append_assoc]
    rw [readParams, eat_close_of_head has.head]
    exact readItems_of_derives has hws (by omega)

theorem readItems_of_derives : ∀ {as : List Char} {ts : List Ty}, DerivesItems as ts →
    ∀ {bound : Nat} {ws rest : List Char}, Blanks ws → 3 * as.length + 1 ≤ bound →
      readItems bound (as ++ (ws ++ (")".toList ++ rest))) = some (ts, rest)
  | _, _, @DerivesItems.one a t ha, bound, ws, rest, hws, hbound => by
    obtain ⟨bound, rfl⟩ : ∃ m, bound = m + 1 := ⟨bound - 1, by omega⟩
    have hstops : Stops (ws ++ (")".toList ++ rest)) :=
      stops_of_blanks hws fun c hc => by
        cases hc
        exact ⟨by decide +kernel, by decide⟩
    rw [readItems, read_of_derives ha hstops (by omega)]
    simp only [eat_append ")" hws ⟨')', [], rfl, by decide⟩ rest]
  | _, _, @DerivesItems.more a gap as t ts ha hgap has, bound, ws, rest, hws, hbound => by
    have hcomma : ",".toList.length = 1 := rfl
    simp only [List.length_append, hcomma] at hbound
    obtain ⟨bound, rfl⟩ : ∃ m, bound = m + 1 := ⟨bound - 1, by omega⟩
    have hitems : readItems bound (as ++ (ws ++ (")".toList ++ rest))) = some (ts, rest) :=
      readItems_of_derives has hws (by omega)
    have hstops : Stops (gap ++ (",".toList ++ (as ++ (ws ++ (")".toList ++ rest))))) :=
      stops_of_blanks hgap fun c hc => by
        cases hc
        exact ⟨by decide +kernel, by decide⟩
    have hnot : eat ")" (gap ++ (",".toList ++ (as ++ (ws ++ (")".toList ++ rest))))) = none :=
      eat_append_of_ne hgap (by decide) fun rest' heq => by cases heq
    simp only [List.append_assoc]
    rw [readItems, read_of_derives ha hstops (by omega)]
    simp only [hnot, eat_append "," hgap ⟨',', [], rfl, by decide⟩, hitems]

end

/-! ## Whole texts -/

theorem parse_eq_ok_iff {s : String} {t : Ty} : parse s = .ok t ↔ Written s t := by
  constructor
  · intro h
    unfold parse at h
    split at h
    · rename_i t' rest hread
      split at h
      · rename_i hrest
        cases h
        obtain ⟨a, ha, hs⟩ := derives_of_read hread
        exact ⟨a, rest, ha, blanks_of_skipBlanks hrest, hs⟩
      · cases h
    · cases h
  · rintro ⟨a, ws, ha, hws, hs⟩
    have hstops : Stops (ws ++ []) := stops_of_blanks hws fun c hc => by cases hc
    rw [List.append_nil] at hstops
    have hlen : 3 * a.length ≤ bound s.toList := by
      rw [hs, bound, List.length_append]
      omega
    have hread := read_of_derives ha hstops hlen
    rw [← hs] at hread
    simp [parse, hread, skipBlanks_of_blanks hws]

/-- A refusal carries the whole text. -/
theorem parse_eq_ok_or_error (s : String) : (∃ t, parse s = .ok t) ∨ parse s = .error ⟨s⟩ := by
  unfold parse
  split
  · split
    · exact .inl ⟨_, rfl⟩
    · exact .inr rfl
  · exact .inr rfl

/-- The grammar is not ambiguous. -/
theorem Written.unique {s : String} {t u : Ty} (ht : Written s t) (hu : Written s u) : t = u :=
  Except.ok.inj ((parse_eq_ok_iff.2 ht).symm.trans (parse_eq_ok_iff.2 hu))

/-- A text is read as a type exactly if the grammar derives the type from it, and is refused, with
all of it in the error, exactly if the grammar derives nothing from it. -/
theorem parse_iff_written (s : String) :
    (∀ t, parse s = .ok t ↔ Written s t) ∧ (parse s = .error ⟨s⟩ ↔ ∀ t, ¬Written s t) := by
  refine ⟨fun t => parse_eq_ok_iff, ?_⟩
  constructor
  · intro h t ht
    rw [parse_eq_ok_iff.2 ht] at h
    cases h
  · intro h
    obtain ⟨t, ht⟩ | herror := parse_eq_ok_or_error s
    · exact absurd (parse_eq_ok_iff.1 ht) (h t)
    · exact herror

/-- `fn` is a word unless a parenthesis follows, and a longer word never is `fn`. -/
example : parse " fn( fn ,fnord)->fn() -> bool " =
    .ok (.fn [.named "fn", .named "fnord"] (.fn [] .bool)) := by decide +kernel

end Ty

end PredicateTree
