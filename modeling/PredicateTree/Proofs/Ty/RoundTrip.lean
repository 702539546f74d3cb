import Mathlib.Data.Set.Function
import PredicateTree.Proofs.Ty.Grammar

/-!
# Proofs.Ty.RoundTrip

Printed types and the reader of types.

* `Readable`: every class in the type has a name that is a word and that no scalar has. These are
  the types that the grammar derives at all (`Derives.readable`).
* `derives_text`: the grammar derives such a type from its printed form. A parameter behind a comma
  and a result behind the arrow are printed behind a blank, which counts to the type that follows.
* `read_back`: so printing and reading are inverse on these types.
-/

namespace PredicateTree

namespace Ty

/-- The name of a class that is read as this class. -/
structure IsClassName (name : String) : Prop where
  word : IsWord name.toList
  notScalar : name ∉ ["bool", "int", "float", "string"]

mutual

def Readable : Ty → Prop
  | named name => IsClassName name
  | fn params result => ReadableAll params ∧ result.Readable
  | bool | int | float | string => True

def ReadableAll : List Ty → Prop
  | [] => True
  | t :: ts => t.Readable ∧ ReadableAll ts

end

/-! ## What is derived is readable -/

theorem readable_of_names {w : List Char} {t : Ty} (hw : IsWord w)
    (h : Names (String.ofList w) t) : t.Readable := by
  generalize hname : String.ofList w = name at h
  cases h with
  | named hnot =>
    refine ⟨?_, hnot⟩
    rw [← hname, String.toList_ofList]
    exact hw
  | bool | int | float | string => trivial

mutual

theorem Derives.readable : ∀ {a : List Char} {t : Ty}, Derives a t → t.Readable
  | _, _, .word _ hw hname => readable_of_names hw hname
  | _, _, .fn _ hps _ hr => ⟨hps.readable, hr.readable⟩

theorem DerivesParams.readable : ∀ {ps : List Char} {ts : List Ty}, DerivesParams ps ts →
    ReadableAll ts
  | _, _, .none _ => trivial
  | _, _, .some has _ => has.readable

theorem DerivesItems.readable : ∀ {as : List Char} {ts : List Ty}, DerivesItems as ts →
    ReadableAll ts
  | _, _, .one ha => ⟨ha.readable, trivial⟩
  | _, _, .more ha _ has => ⟨ha.readable, has.readable⟩

end

theorem readable_of_parse {s : String} {t : Ty} (h : parse s = .ok t) : t.Readable := by
  obtain ⟨a, ws, ha, -, -⟩ := parse_eq_ok_iff.1 h
  exact ha.readable

/-! ## What is printed is derived -/

theorem Blanks.append {vs ws : List Char} (hvs : Blanks vs) (hws : Blanks ws) :
    Blanks (vs ++ ws) := by
  intro c hc
  rcases List.mem_append.1 hc with hc | hc
  · exact hvs c hc
  · exact hws c hc

theorem blanks_nil : Blanks [] := by
  intro c hc
  cases hc

theorem blanks_space : Blanks [' '] := by
  intro c hc
  obtain rfl := List.mem_singleton.1 hc
  decide

theorem Derives.behind {ws a : List Char} {t : Ty} (hws : Blanks ws) (h : Derives a t) :
    Derives (ws ++ a) t := by
  cases h with
  | word hvs hw hname =>
    rw [← List.append_assoc]
    exact .word (hws.append hvs) hw hname
  | fn hvs hps hgap hr =>
    rw [← List.append_assoc]
    exact .fn (hws.append hvs) hps hgap hr

theorem DerivesItems.behind {ws as : List Char} {ts : List Ty} (hws : Blanks ws)
    (h : DerivesItems as ts) : DerivesItems (ws ++ as) ts := by
  cases h with
  | one ha => exact .one (ha.behind hws)
  | more ha hgap has =>
    rw [← List.append_assoc]
    exact .more (ha.behind hws) hgap has

theorem derives_word {name : String} {t : Ty} (hw : IsWord name.toList) (h : Names name t) :
    Derives name.toList t := by
  have hname : Names (String.ofList name.toList) t := by rwa [String.ofList_toList]
  exact .word blanks_nil hw hname

theorem isWord_scalar {name : String} (h : name ∈ ["bool", "int", "float", "string"]) :
    IsWord name.toList := by
  have hnil : ∀ w ∈ ["bool", "int", "float", "string"], w.toList ≠ [] := by decide
  have hchars : ∀ w ∈ ["bool", "int", "float", "string"], w.toList.all isWordChar = true := by
    decide +kernel
  exact ⟨hnil name h, List.all_eq_true.1 (hchars name h)⟩

theorem toList_text_fn (ps : List Ty) (r : Ty) :
    (fn ps r).text.toList = "fn(".toList ++ ((commaSeparated (texts ps)).toList ++
      (")".toList ++ ([' '] ++ ("->".toList ++ (' ' :: r.text.toList))))) := by
  have hclose : ") -> ".toList = ")".toList ++ ([' '] ++ ("->".toList ++ [' '])) := rfl
  simp only [text, String.toList_append, hclose, List.append_assoc, List.cons_append,
    List.nil_append]

theorem toList_commaSeparated_cons_cons (s t : String) (ss : List String) :
    (commaSeparated (s :: t :: ss)).toList =
      s.toList ++ ([] ++ (",".toList ++ ([' '] ++ (commaSeparated (t :: ss)).toList))) := by
  have hcomma : ", ".toList = ",".toList ++ [' '] := rfl
  simp only [commaSeparated, String.toList_append, hcomma, List.append_assoc, List.nil_append]

/-- The parameters between the parentheses, given what is between the commas. -/
theorem derivesParams_of_items {as : List Char} {ts : List Ty}
    (h : ts = [] ∧ as = [] ∨ DerivesItems as ts) : DerivesParams (as ++ ")".toList) ts := by
  rcases h with ⟨rfl, rfl⟩ | h
  · exact .none blanks_nil
  · exact .some h blanks_nil

mutual

theorem derives_text : ∀ {t : Ty}, t.Readable → Derives t.text.toList t
  | .bool, _ => derives_word (isWord_scalar (by decide)) .bool
  | .int, _ => derives_word (isWord_scalar (by decide)) .int
  | .float, _ => derives_word (isWord_scalar (by decide)) .float
  | .string, _ => derives_word (isWord_scalar (by decide)) .string
  | .named _, h => derives_word h.word (.named h.notScalar)
  | .fn ps r, h => by
    have hps : DerivesParams ((commaSeparated (texts ps)).toList ++ ")".toList) ps :=
      derivesParams_of_items (derivesItems_texts h.1)
    have hr : Derives (' ' :: r.text.toList) r := (derives_text h.2).behind blanks_space
    rw [toList_text_fn]
    have := Derives.fn blanks_nil hps blanks_space hr
    rwa [List.nil_append, List.append_assoc] at this

theorem derivesItems_texts : ∀ {ts : List Ty}, ReadableAll ts →
    ts = [] ∧ (commaSeparated (texts ts)).toList = [] ∨
      DerivesItems (commaSeparated (texts ts)).toList ts
  | [], _ => .inl ⟨rfl, rfl⟩
  | [_], h => .inr (.one (derives_text h.1))
  | t :: u :: ts, h => by
    refine .inr ?_
    obtain ⟨hnil, -⟩ | hrest := derivesItems_texts h.2
    · cases hnil
    · rw [texts, texts, toList_commaSeparated_cons_cons]
      exact .more (derives_text h.1) blanks_nil (hrest.behind blanks_space)

end

theorem parse_text {t : Ty} (h : t.Readable) : parse t.text = .ok t :=
  parse_eq_ok_iff.2 ⟨t.text.toList, [], derives_text h, blanks_nil, (List.append_nil _).symm⟩

/-- A type is read back from its printed form exactly if it is readable, every type that is read is,
and so what is read from a text is read from its own printed form and printed unlike any other. -/
theorem read_back :
    (∀ t : Ty, parse t.text = .ok t ↔ t.Readable) ∧
    (∀ (s : String) (t : Ty), parse s = .ok t → t.Readable ∧ parse t.text = parse s) ∧
    Set.InjOn text {t | ∃ s, parse s = .ok t} := by
  refine ⟨fun t => ⟨readable_of_parse, parse_text⟩, fun s t h => ?_, ?_⟩
  · have ht : t.Readable := readable_of_parse h
    exact ⟨ht, (parse_text ht).trans h.symm⟩
  · rintro t ⟨s, hs⟩ u ⟨s', hs'⟩ htext
    have ht : parse t.text = .ok t := parse_text (readable_of_parse hs)
    have hu : parse u.text = .ok u := parse_text (readable_of_parse hs')
    rw [htext] at ht
    exact Except.ok.inj (ht.symm.trans hu)

/-- Functions on both sides of the arrow, and classes called `fn` and `.`. -/
theorem read_back_nested :
    parse "fn(fn(.,fn)->fn()->int,bool)->fn" =
        .ok (.fn [.fn [.named ".", .named "fn"] (.fn [] .int), .bool] (.named "fn")) ∧
      parse "fn(fn(., fn) -> fn() -> int, bool) -> fn" = parse "fn(fn(.,fn)->fn()->int,bool)->fn" := by
  have h : parse "fn(fn(.,fn)->fn()->int,bool)->fn" =
      .ok (.fn [.fn [.named ".", .named "fn"] (.fn [] .int), .bool] (.named "fn")) := by
    decide +kernel
  exact ⟨h, (read_back.2.1 _ _ h).2⟩

end Ty

end PredicateTree
