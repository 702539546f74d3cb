import PredicateTree.Proofs.Json.Reading

/-!
# Proofs.Json.Written

Trees as they are written in a text. `Written room c j c'` says that the text from `c` to `c'` is
the tree `j`, with room for so many arrays and objects to be open at once. It says so without the
rounds that readers count down.

* `written_of_tree`, `Written.tree`: what is read is written so, and twice as many rounds as there
  are characters are enough to read what is written.
* `value_eq_ok`: so `value` reads exactly what is written.
* `Written.skip`: what is written as a tree is skipped to its end. Skipping keeps a list of what is
  open where reading calls itself, so the statement by which the induction goes
  (`Written.skipFrom`) is about any outcome `x` of skipping on from the end.
-/

namespace PredicateTree

namespace Json

namespace Reading

variable {α β : Type} {r : Reading α} {f : α → Reading β} {c c' c₁ : Cursor} {a : α} {b : β}

mutual

/-- From `c` to `c'` the text is written as the tree, with room for so much to be open at once. -/
inductive Written : Nat → Cursor → Json → Cursor → Prop where
  | scalar {room : Nat} {c c' : Cursor} {ch : Char} {j : Json} (htoken : c.token? = some ch)
      (harray : ch ≠ '[') (hobject : ch ≠ '\x7b') (h : Reading.scalar ch c.spaced = .ok j c') :
      Written room c j c'
  | array {room : Nat} {c c₁ c₂ c' : Cursor} {js : List Json} (htoken : c.token? = some '[')
      (hopen : advance c.spaced = .ok () c₁) (hitems : WrittenItems room true c₁ js c₂)
      (hclose : closeArray c₂ = .ok () c') : Written (room + 1) c (.array js) c'
  | object {room : Nat} {c c₁ c₂ c' : Cursor} {ms : List (String × Json)}
      (htoken : c.token? = some '\x7b') (hopen : advance c.spaced = .ok () c₁)
      (hmembers : WrittenMembers room true c₁ ms c₂) (hclose : closeObject c₂ = .ok () c') :
      Written (room + 1) c (.object ms) c'

inductive WrittenItems : Nat → Bool → Cursor → List Json → Cursor → Prop where
  | nil {room : Nat} {first : Bool} {c c' : Cursor} (hmore : moreItems first c = .ok false c') :
      WrittenItems room first c [] c'
  | cons {room : Nat} {first : Bool} {c c₁ c₂ c' : Cursor} {j : Json} {js : List Json}
      (hmore : moreItems first c = .ok true c₁) (hj : Written room c₁ j c₂)
      (hjs : WrittenItems room false c₂ js c') : WrittenItems room first c (j :: js) c'

inductive WrittenMembers : Nat → Bool → Cursor → List (String × Json) → Cursor → Prop where
  | nil {room : Nat} {first : Bool} {c c' : Cursor} (hmore : moreMembers first c = .ok false c') :
      WrittenMembers room first c [] c'
  | cons {room : Nat} {first : Bool} {c c₁ c₂ c₃ c₄ c' : Cursor} {k : String} {j : Json}
      {ms : List (String × Json)} (hmore : moreMembers first c = .ok true c₁)
      (hkey : key c₁ = .ok k c₂) (hcolon : colon c₂ = .ok () c₃) (hj : Written room c₃ j c₄)
      (hms : WrittenMembers room false c₄ ms c') : WrittenMembers room first c ((k, j) :: ms) c'

end

theorem tree_eq {ch : Char} (htoken : c.token? = some ch) (fuel room : Nat) :
    tree (fuel + 1) room c =
      (if ch = '[' then within room (fun room => return .array (← items fuel room true)) closeArray
      else if ch = '\x7b' then
        within room (fun room => return .object (← members fuel room true)) closeObject
      else scalar ch) c.spaced := by
  rw [tree]
  exact token_eq htoken

theorem within_eq_ok {room : Nat} {inside : Nat → Reading α} {close : Reading Unit}
    (h : within room inside close c = .ok a c') :
    ∃ room' c₁ c₂, room = room' + 1 ∧ advance c = .ok () c₁ ∧ inside room' c₁ = .ok a c₂ ∧
      close c₂ = .ok () c' := by
  cases room with
  | zero => exact absurd h (failNext_ne_ok _)
  | succ room =>
    obtain ⟨_, c₁, hopen, h⟩ := bind_eq_ok.1 h
    obtain ⟨c₂, hinside, hclose⟩ := closedBy_eq_ok.1 h
    exact ⟨room, c₁, c₂, rfl, hopen, hinside, hclose⟩

theorem within_of_ok {room : Nat} {inside : Nat → Reading α} {close : Reading Unit} {c₂ : Cursor}
    (hopen : advance c = .ok () c₁) (hinside : inside room c₁ = .ok a c₂)
    (hclose : close c₂ = .ok () c') : within (room + 1) inside close c = .ok a c' :=
  (bind_of_ok hopen).trans (closedBy_eq_ok.2 ⟨c₂, hinside, hclose⟩)

theorem written_of_tree (fuel : Nat) :
    (∀ {room c j c'}, tree fuel room c = .ok j c' → Written room c j c') ∧
    (∀ {room first c js c'}, items fuel room first c = .ok js c' →
      WrittenItems room first c js c') ∧
    ∀ {room first c ms c'}, members fuel room first c = .ok ms c' →
      WrittenMembers room first c ms c' := by
  induction fuel with
  | zero =>
    refine ⟨fun h => ?_, fun h => ?_, fun h => ?_⟩
    · exact absurd h (failHere_ne_ok _)
    · exact absurd h (failHere_ne_ok _)
    · exact absurd h (failHere_ne_ok _)
  | succ fuel ih =>
    obtain ⟨htree, hitems, hmembers⟩ := ih
    refine ⟨fun {room c j c'} h => ?_, fun {room first c js c'} h => ?_,
      fun {room first c ms c'} h => ?_⟩
    · obtain ⟨ch, htoken, h⟩ := token_eq_ok h
      split at h
      · rename_i harray
        subst harray
        obtain ⟨room, c₁, c₂, rfl, hopen, hinside, hclose⟩ := within_eq_ok h
        obtain ⟨js, _, hjs, hinside⟩ := bind_eq_ok.1 hinside
        cases hinside
        exact .array htoken hopen (hitems hjs) hclose
      rename_i harray
      split at h
      · rename_i hobject
        subst hobject
        obtain ⟨room, c₁, c₂, rfl, hopen, hinside, hclose⟩ := within_eq_ok h
        obtain ⟨ms, _, hms, hinside⟩ := bind_eq_ok.1 hinside
        cases hinside
        exact .object htoken hopen (hmembers hms) hclose
      · rename_i hobject
        exact .scalar htoken harray hobject h
    · obtain ⟨more, c₁, hmore, h⟩ := bind_eq_ok.1 h
      cases more with
      | true =>
        obtain ⟨j, c₂, hj, h⟩ := bind_eq_ok.1 h
        obtain ⟨js, c₃, hjs, h⟩ := bind_eq_ok.1 h
        cases h
        exact .cons hmore (htree hj) (hitems hjs)
      | false =>
        cases h
        exact .nil hmore
    · obtain ⟨more, c₁, hmore, h⟩ := bind_eq_ok.1 h
      cases more with
      | true =>
        obtain ⟨k, c₂, hkey, h⟩ := bind_eq_ok.1 h
        obtain ⟨_, c₃, hcolon, h⟩ := bind_eq_ok.1 h
        obtain ⟨j, c₄, hj, h⟩ := bind_eq_ok.1 h
        obtain ⟨ms, c₅, hms, h⟩ := bind_eq_ok.1 h
        cases h
        exact .cons hmore hkey hcolon (htree hj) (hmembers hms)
      | false =>
        cases h
        exact .nil hmore

/-! ## How much is taken -/

theorem takes_string : Takes 1 string :=
  fun _ _ _ h => takes_skipString _ _ _ (skipString_of_string h)

theorem takes_key : Takes 1 key := takes_advance.bind fun _ => takes_string

theorem takes_colon : Takes 0 colon := by
  refine takes_peekToken.after fun ch? => ?_
  split
  · exact takes_advance
  · exact takes_failNext 0 _
  · exact takes_failNext 0 _

theorem takes_moreItems (first : Bool) : Takes 0 (moreItems first) := by
  have hnext : Takes 0 nextItem :=
    takes_advance.after fun _ => takes_token fun _ => takes_ite (takes_failNext 0 _) (takes_pure _)
  exact takes_token fun _ => takes_ite (takes_pure _)
    (takes_ite (takes_pure _) (takes_ite hnext (takes_failNext 0 _)))

theorem takes_moreMembers (first : Bool) : Takes 0 (moreMembers first) := by
  have hnext : Takes 0 nextMember :=
    takes_advance.after fun _ => takes_token fun _ =>
      takes_ite (takes_pure _) (takes_ite (takes_failNext 0 _) (takes_failNext 0 _))
  exact takes_token fun _ => takes_ite (takes_pure _)
    (takes_ite (takes_ite (takes_pure _) (takes_failNext 0 _))
      (takes_ite hnext (takes_failNext 0 _)))

theorem closeArray_eq_ok {u : Unit} (h : closeArray c = .ok u c') :
    c.token? = some ']' ∧ advance c.spaced = .ok () c' := by
  obtain ⟨ch, htoken, h⟩ := token_eq_ok h
  split at h
  · rename_i hend
    exact ⟨hend ▸ htoken, h⟩
  split at h
  · obtain ⟨_, c₁, _, h⟩ := bind_eq_ok.1 h
    obtain ⟨ch?, c₂, _, h⟩ := bind_eq_ok.1 h
    split at h
    · exact absurd h (failNext_ne_ok _)
    · exact absurd h (failNext_ne_ok _)
  · exact absurd h (failNext_ne_ok _)

theorem closeObject_eq_ok {u : Unit} (h : closeObject c = .ok u c') :
    c.token? = some '\x7d' ∧ advance c.spaced = .ok () c' := by
  obtain ⟨ch, htoken, h⟩ := token_eq_ok h
  split at h
  · rename_i hend
    exact ⟨hend ▸ htoken, h⟩
  split at h
  · exact absurd h (failNext_ne_ok _)
  · exact absurd h (failNext_ne_ok _)

theorem length_of_scalar {ch : Char} {j : Json} (h : scalar ch c.spaced = .ok j c') :
    c'.rest.length < c.rest.length :=
  Nat.lt_of_lt_of_le (takes_skipScalar _ _ _ _ (skipScalar_of_scalar h)) (length_dropSpace ..)

/-- What opens an array or object is a character. -/
theorem length_of_open {ch : Char} (htoken : c.token? = some ch)
    (hopen : advance c.spaced = .ok () c₁) : c₁.rest.length < c.rest.length := by
  have hspaced : c.spaced.rest.length ≤ c.rest.length := length_dropSpace ..
  rw [Cursor.token?] at htoken
  cases hc : c.spaced with
  | mk cs l =>
    rw [hc] at htoken hopen hspaced
    cases cs with
    | nil => cases htoken
    | cons ch' rest =>
      cases hopen
      exact hspaced

mutual

theorem Written.length_lt {room : Nat} {c c' : Cursor} {j : Json} (h : Written room c j c') :
    c'.rest.length < c.rest.length :=
  match h with
  | .scalar _ _ _ h => length_of_scalar h
  | .array htoken hopen hitems hclose => by
    have hlt := length_of_open htoken hopen
    have hle := hitems.length_le
    have hlt' := length_of_open (closeArray_eq_ok hclose).1 (closeArray_eq_ok hclose).2
    omega
  | .object htoken hopen hmembers hclose => by
    have hlt := length_of_open htoken hopen
    have hle := hmembers.length_le
    have hlt' := length_of_open (closeObject_eq_ok hclose).1 (closeObject_eq_ok hclose).2
    omega
termination_by structural h

theorem WrittenItems.length_le {room : Nat} {first : Bool} {c c' : Cursor} {js : List Json}
    (h : WrittenItems room first c js c') : c'.rest.length ≤ c.rest.length :=
  match h with
  | .nil hmore => takes_moreItems _ _ _ _ hmore
  | .cons hmore hj hjs => by
    have hle := takes_moreItems _ _ _ _ hmore
    have hlt := hj.length_lt
    have hle' := hjs.length_le
    omega
termination_by structural h

theorem WrittenMembers.length_le {room : Nat} {first : Bool} {c c' : Cursor}
    {ms : List (String × Json)} (h : WrittenMembers room first c ms c') :
    c'.rest.length ≤ c.rest.length :=
  match h with
  | .nil hmore => takes_moreMembers _ _ _ _ hmore
  | .cons hmore hkey hcolon hj hms => by
    have hle := takes_moreMembers _ _ _ _ hmore
    have hk := takes_key _ _ _ hkey
    have hc := takes_colon _ _ _ hcolon
    have hlt := hj.length_lt
    have hle' := hms.length_le
    omega
termination_by structural h

end

/-! ## Enough rounds -/

mutual

theorem Written.tree {room : Nat} {c c' : Cursor} {j : Json} (h : Written room c j c') :
    ∀ fuel, 2 * c.rest.length ≤ fuel → tree fuel room c = .ok j c' :=
  match h with
  | .scalar htoken harray hobject h => fun fuel hfuel => by
    have hlt := length_of_scalar h
    obtain ⟨fuel, rfl⟩ : ∃ n, fuel = n + 1 := ⟨fuel - 1, by omega⟩
    rw [tree_eq htoken, if_neg harray, if_neg hobject, h]
  | .array htoken hopen hitems hclose => fun fuel hfuel => by
    have hlt := length_of_open htoken hopen
    obtain ⟨fuel, rfl⟩ : ∃ n, fuel = n + 1 := ⟨fuel - 1, by omega⟩
    rw [tree_eq htoken, if_pos rfl]
    exact within_of_ok hopen (bind_of_ok (hitems.items fuel (by omega))) hclose
  | .object htoken hopen hmembers hclose => fun fuel hfuel => by
    have hlt := length_of_open htoken hopen
    obtain ⟨fuel, rfl⟩ : ∃ n, fuel = n + 1 := ⟨fuel - 1, by omega⟩
    rw [tree_eq htoken, if_neg (by decide), if_pos rfl]
    exact within_of_ok hopen (bind_of_ok (hmembers.members fuel (by omega))) hclose
termination_by structural h

theorem WrittenItems.items {room : Nat} {first : Bool} {c c' : Cursor} {js : List Json}
    (h : WrittenItems room first c js c') :
    ∀ fuel, 2 * c.rest.length < fuel → items fuel room first c = .ok js c' :=
  match h with
  | .nil hmore => fun fuel hfuel => by
    obtain ⟨fuel, rfl⟩ : ∃ n, fuel = n + 1 := ⟨fuel - 1, by omega⟩
    rw [Reading.items, bind_of_ok hmore]
    rfl
  | .cons hmore hj hjs => fun fuel hfuel => by
    have hle := takes_moreItems _ _ _ _ hmore
    have hlt := hj.length_lt
    obtain ⟨fuel, rfl⟩ : ∃ n, fuel = n + 1 := ⟨fuel - 1, by omega⟩
    rw [Reading.items, bind_of_ok hmore, if_pos rfl, bind_of_ok (hj.tree fuel (by omega)),
      bind_of_ok (hjs.items fuel (by omega))]
    rfl
termination_by structural h

theorem WrittenMembers.members {room : Nat} {first : Bool} {c c' : Cursor}
    {ms : List (String × Json)} (h : WrittenMembers room first c ms c') :
    ∀ fuel, 2 * c.rest.length < fuel → members fuel room first c = .ok ms c' :=
  match h with
  | .nil hmore => fun fuel hfuel => by
    obtain ⟨fuel, rfl⟩ : ∃ n, fuel = n + 1 := ⟨fuel - 1, by omega⟩
    rw [Reading.members, bind_of_ok hmore]
    rfl
  | .cons hmore hkey hcolon hj hms => fun fuel hfuel => by
    have hle := takes_moreMembers _ _ _ _ hmore
    have hk := takes_key _ _ _ hkey
    have hc := takes_colon _ _ _ hcolon
    have hlt := hj.length_lt
    obtain ⟨fuel, rfl⟩ : ∃ n, fuel = n + 1 := ⟨fuel - 1, by omega⟩
    rw [Reading.members, bind_of_ok hmore, if_pos rfl, bind_of_ok hkey, bind_of_ok hcolon,
      bind_of_ok (hj.tree fuel (by omega)), bind_of_ok (hms.members fuel (by omega))]
    rfl
termination_by structural h

end

/-- A value is read exactly as it is written. -/
theorem value_eq_ok {room : Nat} {j : Json} : value room c = .ok j c' ↔ Written room c j c' := by
  have hfuel : value room c = tree (2 * c.rest.length + 2) room c := rfl
  rw [hfuel]
  exact ⟨(written_of_tree _).1, fun h => h.tree _ (Nat.le_add_right _ _)⟩

/-! ## Skipping -/

theorem peekToken_spaced (c : Cursor) : peekToken c.spaced = peekToken c := by
  rw [peekToken_eq, peekToken_eq, token?_spaced, spaced_spaced]

theorem closeArray_spaced (c : Cursor) : closeArray c.spaced = closeArray c :=
  bind_congr (peekToken_spaced c)

theorem closeObject_spaced (c : Cursor) : closeObject c.spaced = closeObject c :=
  bind_congr (peekToken_spaced c)

theorem skipStart_spaced (c : Cursor) : skipStart c.spaced = skipStart c :=
  bind_congr (peekToken_spaced c)

theorem skipToValue_spaced (outer : List Bool) (c : Cursor) :
    skipToValue true outer c.spaced = skipToValue true outer c :=
  have hkey : skipKey c.spaced = skipKey c := bind_congr (peekToken_spaced c)
  bind_congr hkey

theorem nextItem_eq_ok {more : Bool} (h : nextItem c = .ok more c') :
    more = true ∧ ∃ c₁, advance c = .ok () c₁ ∧ c' = c₁.spaced := by
  obtain ⟨_, c₁, hadvance, h⟩ := bind_eq_ok.1 h
  obtain ⟨ch, -, h⟩ := token_eq_ok h
  split at h
  · exact absurd h (failNext_ne_ok _)
  · cases h
    exact ⟨rfl, c₁, hadvance, rfl⟩

/-- Whether an array goes on: it does before anything but the end, and after a comma. -/
theorem moreItems_eq_ok {first more : Bool} (h : moreItems first c = .ok more c') :
    ∃ ch, c.token? = some ch ∧
      (ch = ']' ∧ more = false ∧ c' = c.spaced ∨
        ch ≠ ']' ∧ first = true ∧ more = true ∧ c' = c.spaced ∨
        ch = ',' ∧ first = false ∧ more = true ∧
          ∃ c₁, advance c.spaced = .ok () c₁ ∧ c' = c₁.spaced) := by
  obtain ⟨ch, htoken, h⟩ := token_eq_ok h
  refine ⟨ch, htoken, ?_⟩
  split at h
  · rename_i hend
    cases h
    exact .inl ⟨hend, rfl, rfl⟩
  rename_i hend
  cases first with
  | true =>
    cases h
    exact .inr (.inl ⟨hend, rfl, rfl, rfl⟩)
  | false =>
    rw [if_neg Bool.false_ne_true] at h
    split at h
    · rename_i hcomma
      obtain ⟨hmore, hnext⟩ := nextItem_eq_ok h
      exact .inr (.inr ⟨hcomma, rfl, hmore, hnext⟩)
    · exact absurd h (failNext_ne_ok _)

theorem nextMember_eq_ok {more : Bool} (h : nextMember c = .ok more c') :
    more = true ∧ ∃ c₁, advance c = .ok () c₁ ∧ c₁.token? = some '"' ∧ c' = c₁.spaced := by
  obtain ⟨_, c₁, hadvance, h⟩ := bind_eq_ok.1 h
  obtain ⟨ch, htoken, h⟩ := token_eq_ok h
  split at h
  · rename_i hquote
    cases h
    exact ⟨rfl, c₁, hadvance, hquote ▸ htoken, rfl⟩
  split at h
  · exact absurd h (failNext_ne_ok _)
  · exact absurd h (failNext_ne_ok _)

theorem moreMembers_eq_ok {first more : Bool} (h : moreMembers first c = .ok more c') :
    ∃ ch, c.token? = some ch ∧
      (ch = '\x7d' ∧ more = false ∧ c' = c.spaced ∨
        ch = '"' ∧ first = true ∧ more = true ∧ c' = c.spaced ∨
        ch = ',' ∧ first = false ∧ more = true ∧
          ∃ c₁, advance c.spaced = .ok () c₁ ∧ c₁.token? = some '"' ∧ c' = c₁.spaced) := by
  obtain ⟨ch, htoken, h⟩ := token_eq_ok h
  refine ⟨ch, htoken, ?_⟩
  split at h
  · rename_i hend
    cases h
    exact .inl ⟨hend, rfl, rfl⟩
  cases first with
  | true =>
    rw [if_pos rfl] at h
    split at h
    · rename_i hquote
      cases h
      exact .inr (.inl ⟨hquote, rfl, rfl, rfl⟩)
    · exact absurd h (failNext_ne_ok _)
  | false =>
    rw [if_neg Bool.false_ne_true] at h
    split at h
    · rename_i hcomma
      obtain ⟨hmore, hnext⟩ := nextMember_eq_ok h
      exact .inr (.inr ⟨hcomma, rfl, hmore, hnext⟩)
    · exact absurd h (failNext_ne_ok _)

/-- The name of a member and the colon after it are skipped where they are read. -/
theorem skipToValue_of_key {k : String} {c₂ : Cursor} (htoken : c.token? = some '"')
    (hkey : key c.spaced = .ok k c₁) (hcolon : colon c₁ = .ok () c₂) (outer : List Bool) :
    skipToValue true outer c = .ok (some (true :: outer)) c₂ := by
  obtain ⟨_, c₃, hadvance, hstring⟩ := bind_eq_ok.1 hkey
  have hskip : skipKey c = .ok () c₂ := by
    rw [skipKey, bind_of_ok (peekToken_eq c), htoken]
    exact bind_eq_ok.2
      ⟨_, c₃, hadvance, bind_eq_ok.2 ⟨_, c₁, skipString_of_string hstring, hcolon⟩⟩
  exact bind_of_ok hskip

/-- What is skipped from behind a value or an opening on. -/
def resume (rounds fuel : Nat) (fresh : Bool) (isOpen : List Bool) : Reading Unit := do
  match ← skipToNext rounds fresh isOpen with
  | some isOpen => skipFrom fuel isOpen
  | none => return

section Resume

variable {isObject : Bool} {isOpen : List Bool} {c₂ : Cursor} (rounds fuel : Nat)

theorem skipStart_of_scalar {ch : Char} {j : Json} (htoken : c.token? = some ch)
    (harray : ch ≠ '[') (hobject : ch ≠ '\x7b') (h : scalar ch c.spaced = .ok j c') :
    skipStart c = .ok none c' := by
  refine (token_eq htoken).trans ?_
  rw [if_neg harray, if_neg hobject, bind_of_ok (skipScalar_of_scalar h)]
  rfl

theorem skipStart_of_array (htoken : c.token? = some '[') (hopen : advance c.spaced = .ok () c₁) :
    skipStart c = .ok (some false) c₁ := by
  refine (token_eq htoken).trans ?_
  rw [if_pos rfl, bind_of_ok hopen]
  rfl

theorem skipStart_of_object (htoken : c.token? = some '\x7b')
    (hopen : advance c.spaced = .ok () c₁) : skipStart c = .ok (some true) c₁ := by
  refine (token_eq htoken).trans ?_
  rw [if_neg (by decide), if_pos rfl, bind_of_ok hopen]
  rfl

theorem skipFrom_of_scalar (hstart : skipStart c = .ok none c₁) :
    skipFrom (fuel + 1) isOpen c = resume (fuel + 1) fuel false isOpen c₁ := by
  rw [skipFrom, bind_of_ok hstart]
  rfl

theorem skipFrom_of_open (hstart : skipStart c = .ok (some isObject) c₁) :
    skipFrom (fuel + 1) isOpen c = resume (fuel + 1) fuel true (isObject :: isOpen) c₁ := by
  rw [skipFrom, bind_of_ok hstart]
  rfl

theorem skipFrom_spaced (c : Cursor) :
    skipFrom (fuel + 1) isOpen c.spaced = skipFrom (fuel + 1) isOpen c := by
  rw [skipFrom]
  exact bind_congr (skipStart_spaced c)

theorem resume_closing (fresh : Bool) (htoken : c.token? = some (closing isObject))
    (hadvance : advance c.spaced = .ok () c₁) :
    resume (rounds + 1) fuel fresh (isObject :: isOpen) c = resume rounds fuel false isOpen c₁ := by
  refine bind_congr ?_
  refine (token_eq htoken).trans ?_
  rw [if_pos rfl, bind_of_ok hadvance]

theorem resume_fresh {ch : Char} (htoken : c.token? = some ch) (hch : ch ≠ closing isObject)
    (hvalue : skipToValue isObject isOpen c.spaced = .ok (some (isObject :: isOpen)) c₁) :
    resume (rounds + 1) fuel true (isObject :: isOpen) c =
      skipFrom fuel (isObject :: isOpen) c₁ := by
  have hnext : skipToNext (rounds + 1) true (isObject :: isOpen) c =
      .ok (some (isObject :: isOpen)) c₁ := by
    refine (token_eq htoken).trans ?_
    rw [if_neg hch, if_pos rfl, hvalue]
  rw [resume, bind_of_ok hnext]

theorem resume_comma (htoken : c.token? = some ',') (hadvance : advance c.spaced = .ok () c₁)
    (hvalue : skipToValue isObject isOpen c₁ = .ok (some (isObject :: isOpen)) c₂) :
    resume (rounds + 1) fuel false (isObject :: isOpen) c =
      skipFrom fuel (isObject :: isOpen) c₂ := by
  have hch : ',' ≠ closing isObject := by cases isObject <;> decide
  have hnext : skipToNext (rounds + 1) false (isObject :: isOpen) c =
      .ok (some (isObject :: isOpen)) c₂ := by
    refine (token_eq htoken).trans ?_
    rw [if_neg hch, if_neg Bool.false_ne_true, if_pos rfl, bind_of_ok hadvance, hvalue]
  rw [resume, bind_of_ok hnext]

end Resume

mutual

/-- What is written as a tree is skipped, and then what comes behind it. -/
theorem Written.skipFrom {room : Nat} {c c' : Cursor} {j : Json} (h : Written room c j c') :
    ∀ (isOpen : List Bool) (x : EStateM.Result ReadError Cursor Unit),
      (∀ rounds fuel, c'.rest.length < rounds → c'.rest.length < fuel →
        resume rounds fuel false isOpen c' = x) →
      ∀ fuel, c.rest.length < fuel → skipFrom fuel isOpen c = x :=
  match h with
  | .scalar htoken harray hobject h => fun isOpen x hx fuel hfuel => by
    have hlt := length_of_scalar h
    obtain ⟨fuel, rfl⟩ : ∃ n, fuel = n + 1 := ⟨fuel - 1, by omega⟩
    rw [skipFrom_of_scalar fuel (skipStart_of_scalar htoken harray hobject h)]
    exact hx _ _ (by omega) (by omega)
  | .array htoken hopen hitems hclose => fun isOpen x hx fuel hfuel => by
    have hlt := length_of_open htoken hopen
    obtain ⟨fuel, rfl⟩ : ∃ n, fuel = n + 1 := ⟨fuel - 1, by omega⟩
    rw [skipFrom_of_open fuel (skipStart_of_array htoken hopen)]
    exact hitems.resume hclose isOpen x hx _ _ (by omega) (by omega)
  | .object htoken hopen hmembers hclose => fun isOpen x hx fuel hfuel => by
    have hlt := length_of_open htoken hopen
    obtain ⟨fuel, rfl⟩ : ∃ n, fuel = n + 1 := ⟨fuel - 1, by omega⟩
    rw [skipFrom_of_open fuel (skipStart_of_object htoken hopen)]
    exact hmembers.resume hclose isOpen x hx _ _ (by omega) (by omega)
termination_by structural h

theorem WrittenItems.resume {room : Nat} {first : Bool} {c c₂ c' : Cursor} {js : List Json}
    (h : WrittenItems room first c js c₂) (hclose : closeArray c₂ = .ok () c') :
    ∀ (isOpen : List Bool) (x : EStateM.Result ReadError Cursor Unit),
      (∀ rounds fuel, c'.rest.length < rounds → c'.rest.length < fuel →
        resume rounds fuel false isOpen c' = x) →
      ∀ rounds fuel, c.rest.length < rounds → c.rest.length < fuel →
        resume rounds fuel first (false :: isOpen) c = x :=
  match h with
  | .nil hmore => fun isOpen x hx rounds fuel hrounds hfuel => by
    obtain ⟨rounds, rfl⟩ : ∃ n, rounds = n + 1 := ⟨rounds - 1, by omega⟩
    obtain ⟨ch, -, ⟨-, -, rfl⟩ | ⟨-, -, hmore, -⟩ | ⟨-, -, hmore, -⟩⟩ := moreItems_eq_ok hmore
    · obtain ⟨htoken, hadvance⟩ := closeArray_eq_ok (closeArray_spaced c ▸ hclose)
      have hlt := length_of_open htoken hadvance
      rw [resume_closing rounds fuel first htoken hadvance]
      exact hx rounds fuel (by omega) (by omega)
    · cases hmore
    · cases hmore
  | .cons hmore hj hjs => fun isOpen x hx rounds fuel hrounds hfuel => by
    obtain ⟨rounds, rfl⟩ : ∃ n, rounds = n + 1 := ⟨rounds - 1, by omega⟩
    have hvalue := hj.skipFrom (false :: isOpen) x (hjs.resume hclose isOpen x hx) fuel
    obtain ⟨ch, htoken, ⟨-, hfalse, -⟩ | ⟨hch, rfl, -, rfl⟩ | ⟨rfl, rfl, -, c₁, hadvance, rfl⟩⟩ :=
      moreItems_eq_ok hmore
    · cases hfalse
    · have hle := length_dropSpace c.rest c.place
      have hend : ch ≠ closing false := hch
      rw [resume_fresh rounds fuel htoken hend rfl]
      exact hvalue (Nat.lt_of_le_of_lt hle hfuel)
    · have hlt := length_of_open htoken hadvance
      have hle := length_dropSpace c₁.rest c₁.place
      obtain ⟨fuel, rfl⟩ : ∃ n, fuel = n + 1 := ⟨fuel - 1, by omega⟩
      rw [resume_comma rounds _ htoken hadvance rfl, ← skipFrom_spaced]
      exact hvalue (Nat.lt_of_le_of_lt hle (Nat.lt_trans hlt hfuel))
termination_by structural h

theorem WrittenMembers.resume {room : Nat} {first : Bool} {c c₂ c' : Cursor}
    {ms : List (String × Json)}
    (h : WrittenMembers room first c ms c₂) (hclose : closeObject c₂ = .ok () c') :
    ∀ (isOpen : List Bool) (x : EStateM.Result ReadError Cursor Unit),
      (∀ rounds fuel, c'.rest.length < rounds → c'.rest.length < fuel →
        resume rounds fuel false isOpen c' = x) →
      ∀ rounds fuel, c.rest.length < rounds → c.rest.length < fuel →
        resume rounds fuel first (true :: isOpen) c = x :=
  match h with
  | .nil hmore => fun isOpen x hx rounds fuel hrounds hfuel => by
    obtain ⟨rounds, rfl⟩ : ∃ n, rounds = n + 1 := ⟨rounds - 1, by omega⟩
    obtain ⟨ch, -, ⟨-, -, rfl⟩ | ⟨-, -, hmore, -⟩ | ⟨-, -, hmore, -⟩⟩ := moreMembers_eq_ok hmore
    · obtain ⟨htoken, hadvance⟩ := closeObject_eq_ok (closeObject_spaced c ▸ hclose)
      have hlt := length_of_open htoken hadvance
      rw [resume_closing rounds fuel first htoken hadvance]
      exact hx rounds fuel (by omega) (by omega)
    · cases hmore
    · cases hmore
  | .cons hmore hkey hcolon hj hms => fun isOpen x hx rounds fuel hrounds hfuel => by
    obtain ⟨rounds, rfl⟩ : ∃ n, rounds = n + 1 := ⟨rounds - 1, by omega⟩
    have hvalue := hj.skipFrom (true :: isOpen) x (hms.resume hclose isOpen x hx) fuel
    have hle := takes_moreMembers _ _ _ _ hmore
    have hk := takes_key _ _ _ hkey
    have hc := takes_colon _ _ _ hcolon
    obtain ⟨ch, htoken, ⟨-, hfalse, -⟩ | ⟨rfl, rfl, -, rfl⟩ |
      ⟨rfl, rfl, -, c₁, hadvance, hquote, rfl⟩⟩ := moreMembers_eq_ok hmore
    · cases hfalse
    · have hname := (skipToValue_spaced isOpen c).trans
        (skipToValue_of_key htoken hkey hcolon isOpen)
      rw [resume_fresh rounds fuel htoken (by decide) hname]
      exact hvalue (by omega)
    · rw [resume_comma rounds fuel htoken hadvance (skipToValue_of_key hquote hkey hcolon isOpen)]
      exact hvalue (by omega)
termination_by structural h

end

/-- What is written as a tree is skipped to its end. -/
theorem Written.skip {room : Nat} {j : Json} (h : Written room c j c') : skip c = .ok () c' := by
  have hfuel : c.rest.length < 2 * c.rest.length + 2 := by omega
  refine h.skipFrom [] (.ok () c') (fun rounds fuel hrounds _ => ?_) _ hfuel
  obtain ⟨rounds, rfl⟩ : ∃ n, rounds = n + 1 := ⟨rounds - 1, by omega⟩
  rfl

end Reading

end Json

end PredicateTree
