import PredicateTree.Json.Reader

/-!
# Proofs.Json.Reading

Runs of the readers of JSON text.

* `bind_eq_ok`, `bind_of_ok`, `bind_congr`: the run of one reader after another.
* `closedBy_eq_ok`: the run inside an array or object.
* `Cursor.spaced`, `Cursor.token?`: what is looked at when white space has been passed. Most readers
  go by it and fail where there is nothing (`token_eq`, `token_eq_ok`).
* `Takes`: how many characters a reader takes at least. The loops count down from what is left, so
  this is what makes their rounds enough.
* `Succeeds`: a reader that does what another one does wherever that succeeds.
* `skipString_of_string`, `skipScalar_of_scalar`: what is read is skipped to the same place. A
  string is read with its surrogates put together and skipped without, and a number with another
  fault for the end of the text.
-/

namespace PredicateTree

namespace Json

/-- The cursor past white space. -/
def Cursor.spaced (c : Cursor) : Cursor := Reading.dropSpace c.rest c.place

/-- The character that comes next past white space. -/
def Cursor.token? (c : Cursor) : Option Char := c.spaced.rest.head?

/-- Null, a Boolean or a number. -/
def isPlain : Json → Bool
  | null | bool _ | unsigned _ | negative _ | float _ => true
  | string _ | array _ | object _ => false

/-- Neither an array nor an object. -/
def isScalar : Json → Bool
  | array _ | object _ => false
  | null | bool _ | unsigned _ | negative _ | float _ | string _ => true

namespace Reading

variable {α β : Type} {r : Reading α} {f : α → Reading β} {c c' c₁ : Cursor} {a : α} {b : β}

/-! ## Runs -/

theorem bind_of_ok (h : r c = .ok a c₁) : (r >>= f) c = f a c₁ := by
  show EStateM.bind r f c = _
  rw [EStateM.bind, h]

theorem bind_of_error {e : ReadError} (h : r c = .error e c₁) : (r >>= f) c = .error e c₁ := by
  show EStateM.bind r f c = _
  rw [EStateM.bind, h]

theorem bind_congr {s : Reading α} (h : r c = s c₁) : (r >>= f) c = (s >>= f) c₁ := by
  show EStateM.bind r f c = EStateM.bind s f c₁
  rw [EStateM.bind, EStateM.bind, h]

theorem bind_eq_ok : (r >>= f) c = .ok b c' ↔ ∃ a c₁, r c = .ok a c₁ ∧ f a c₁ = .ok b c' := by
  cases h : r c with
  | ok a c₁ =>
    rw [bind_of_ok h]
    refine ⟨fun hf => ⟨a, c₁, rfl, hf⟩, fun ⟨_, _, hr, hf⟩ => ?_⟩
    cases hr
    exact hf
  | error e c₁ =>
    rw [bind_of_error h]
    refine ⟨fun hf => ?_, fun ⟨_, _, hr, _⟩ => ?_⟩
    · cases hf
    · cases hr

theorem pure_eq_ok : (pure a : Reading α) c = .ok a c := rfl

theorem peekToken_eq (c : Cursor) : peekToken c = .ok c.token? c.spaced := rfl

theorem peek_eq (c : Cursor) : peek c = .ok c.rest.head? c := rfl

theorem failNext_ne_ok (g : SyntaxFault) : (failNext g : Reading α) c ≠ .ok a c' := by
  intro h
  cases h

theorem failHere_ne_ok (g : SyntaxFault) : (failHere g : Reading α) c ≠ .ok a c' := by
  intro h
  cases h

theorem closedBy_eq_ok {close : Reading Unit} :
    closedBy r close c = .ok a c' ↔ ∃ c₁, r c = .ok a c₁ ∧ close c₁ = .ok () c' := by
  rw [closedBy]
  cases r c with
  | ok a' c₁ =>
    dsimp only
    cases hclose : close c₁ with
    | ok u c₂ =>
      refine ⟨fun h => ?_, fun ⟨c₃, hr, hc⟩ => ?_⟩
      · cases h
        exact ⟨c₁, rfl, hclose⟩
      · cases hr
        cases hclose.symm.trans hc
        rfl
    | error e c₂ =>
      refine ⟨fun h => ?_, fun ⟨c₃, hr, hc⟩ => ?_⟩
      · cases h
      · cases hr
        cases hclose.symm.trans hc
  | error e c₁ =>
    refine ⟨fun h => ?_, fun ⟨c₃, hr, _⟩ => ?_⟩
    · dsimp only at h
      cases hclose : close c₁ <;> rw [hclose] at h <;> cases h
    · cases hr

/-! ### Tokens -/

section Token

variable {e : SyntaxFault} {k : Char → Reading α}

theorem token_eq {ch : Char} (htoken : c.token? = some ch) :
    (do
      match ← peekToken with
      | none => failNext e
      | some ch => k ch : Reading α) c = k ch c.spaced := by
  rw [bind_of_ok (peekToken_eq c), htoken]

theorem token_eq_ok
    (h : (do
      match ← peekToken with
      | none => failNext e
      | some ch => k ch : Reading α) c = .ok a c') :
    ∃ ch, c.token? = some ch ∧ k ch c.spaced = .ok a c' := by
  cases htoken : c.token? with
  | none =>
    rw [bind_of_ok (peekToken_eq c), htoken] at h
    exact absurd h (failNext_ne_ok _)
  | some ch =>
    rw [token_eq htoken] at h
    exact ⟨ch, rfl, h⟩

end Token

theorem dropSpace_dropSpace (cs : List Char) (l : Location) :
    (dropSpace cs l).spaced = dropSpace cs l := by
  induction cs generalizing l with
  | nil => rfl
  | cons ch cs ih =>
    rw [dropSpace]
    split
    · exact ih _
    · rename_i h
      rw [Cursor.spaced, dropSpace, if_neg h]

theorem spaced_spaced (c : Cursor) : c.spaced.spaced = c.spaced := dropSpace_dropSpace ..

theorem token?_spaced (c : Cursor) : c.spaced.token? = c.token? := by
  rw [Cursor.token?, Cursor.token?, spaced_spaced]

/-! ## What they take -/

/-- Where `r` succeeds, it takes so many characters at least. -/
def Takes (n : Nat) (r : Reading α) : Prop :=
  ∀ c a c', r c = .ok a c' → c'.rest.length + n ≤ c.rest.length

theorem Takes.bind {m n : Nat} (hr : Takes m r) (hf : ∀ a, Takes n (f a)) :
    Takes (m + n) (r >>= f) := by
  intro c b c' h
  obtain ⟨a, c₁, hr', hf'⟩ := bind_eq_ok.1 h
  have := hr c a c₁ hr'
  have := hf a c₁ b c' hf'
  omega

theorem Takes.after {n : Nat} (hr : Takes 0 r) (hf : ∀ a, Takes n (f a)) : Takes n (r >>= f) := by
  intro c b c' h
  exact Nat.zero_add n ▸ hr.bind hf c b c' h

theorem Takes.mono {m n : Nat} (hr : Takes m r) (h : n ≤ m) : Takes n r := by
  intro c a c' hok
  have := hr c a c' hok
  omega

theorem takes_pure (a : α) : Takes 0 (pure a : Reading α) := by
  intro c b c' h
  cases h
  exact Nat.le_refl _

theorem takes_get : Takes 0 (get : Reading Cursor) := by
  intro c a c' h
  cases h
  exact Nat.le_refl _

theorem takes_failHere (n : Nat) (g : SyntaxFault) : Takes n (failHere g : Reading α) :=
  fun _ _ _ h => absurd h (failHere_ne_ok g)

theorem takes_failNext (n : Nat) (g : SyntaxFault) : Takes n (failNext g : Reading α) :=
  fun _ _ _ h => absurd h (failNext_ne_ok g)

theorem takes_ite {n : Nat} {p : Prop} [Decidable p] {r s : Reading α} (hr : Takes n r)
    (hs : Takes n s) : Takes n (if p then r else s) := by
  split
  · exact hr
  · exact hs

theorem length_dropSpace (cs : List Char) (l : Location) :
    (dropSpace cs l).rest.length ≤ cs.length := by
  induction cs generalizing l with
  | nil => exact Nat.le_refl _
  | cons ch cs ih =>
    rw [dropSpace]
    split
    · exact Nat.le_succ_of_le (ih _)
    · exact Nat.le_refl _

theorem takes_peekToken : Takes 0 peekToken := by
  intro c a c' h
  cases h
  exact length_dropSpace ..

/-- What goes by the token takes as much as any of its branches. -/
theorem takes_token {n : Nat} {e : SyntaxFault} {k : Char → Reading α}
    (h : ∀ ch, Takes n (k ch)) :
    Takes n (do
      match ← peekToken with
      | none => failNext e
      | some ch => k ch) := by
  intro c a c' hok
  obtain ⟨ch, -, hok⟩ := token_eq_ok hok
  exact Nat.le_trans (h ch _ _ _ hok) (length_dropSpace ..)

theorem takes_peek : Takes 0 peek := by
  intro c a c' h
  cases h
  exact Nat.le_refl _

theorem takes_isNext (p : Char → Bool) : Takes 0 (isNext p) := takes_peek.bind fun _ => takes_pure _

theorem takes_advance : Takes 0 advance := by
  intro ⟨cs, l⟩ a c' h
  cases cs with
  | nil =>
    cases h
    exact Nat.le_refl _
  | cons ch cs =>
    cases h
    exact Nat.le_succ _

theorem nextOr_eq_ok {g atEnd : SyntaxFault} {accept : Char → Option α}
    (h : nextOr g accept atEnd c = .ok a c') :
    ∃ ch rest, c.rest = ch :: rest ∧ accept ch = some a ∧ c' = ⟨rest, c.place.after ch⟩ := by
  obtain ⟨_, _, hget, h⟩ := bind_eq_ok.1 h
  cases hget
  cases hrest : c.rest with
  | nil =>
    rw [hrest] at h
    cases h
  | cons ch rest =>
    rw [hrest] at h
    dsimp only at h
    cases ha : accept ch with
    | none =>
      rw [ha] at h
      cases h
    | some a' =>
      rw [ha] at h
      cases h
      exact ⟨ch, rest, rfl, ha, rfl⟩

theorem takes_nextOr (g atEnd : SyntaxFault) (accept : Char → Option α) :
    Takes 1 (nextOr g accept atEnd) := by
  intro c a c' h
  obtain ⟨ch, rest, hrest, -, rfl⟩ := nextOr_eq_ok h
  rw [hrest]
  exact Nat.le_refl _

theorem takes_ident (cs : List Char) : Takes cs.length (ident cs) := by
  induction cs with
  | nil => exact takes_pure ()
  | cons ch cs ih =>
    refine ((takes_nextOr _ _ _).bind fun _ => ih).mono ?_
    exact Nat.le_of_eq (Nat.add_comm _ _)

theorem takes_codeUnit : Takes 0 codeUnit := by
  intro c n c' h
  obtain ⟨_, c₁, hget, h⟩ := bind_eq_ok.1 h
  cases hget
  split at h
  · cases h
  · split at h
    · cases h
      exact (List.drop_suffix _ _).length_le
    · cases h

/-! ## Strings -/

theorem takes_skipEscape : Takes 1 skipEscape :=
  Takes.bind (n := 0) (takes_nextOr _ _ _) fun _ =>
    takes_ite (takes_codeUnit.bind fun _ => takes_pure _) (takes_pure _)

theorem ite_apply {p : Prop} [Decidable p] (r s : Reading α) (c : Cursor) :
    (if p then r else s) c = if p then r c else s c := by
  split <;> rfl

theorem characters_cons (fuel : Nat) (before : List Char) (ch : Char) (rest : List Char)
    (l : Location) :
    characters (fuel + 1) before ⟨ch :: rest, l⟩ =
      if ch = '"' then .ok (String.ofList before.reverse) ⟨rest, l.after ch⟩
      else if ch = '\\' then
        (escape >>= fun c => characters fuel (c :: before)) ⟨rest, l.after ch⟩
      else if ch.toNat < 0x20 then failNext .controlCharacter ⟨ch :: rest, l⟩
      else characters fuel (ch :: before) ⟨rest, l.after ch⟩ := by
  rw [characters, bind_of_ok (peek_eq _)]
  simp only [List.head?_cons, ite_apply]
  rfl

theorem skipCharacters_cons (fuel : Nat) (ch : Char) (rest : List Char) (l : Location) :
    skipCharacters (fuel + 1) ⟨ch :: rest, l⟩ =
      if ch = '"' then .ok () ⟨rest, l.after ch⟩
      else if ch = '\\' then
        (skipEscape >>= fun _ => skipCharacters fuel) ⟨rest, l.after ch⟩
      else if ch.toNat < 0x20 then failHere .controlCharacter ⟨ch :: rest, l⟩
      else skipCharacters fuel ⟨rest, l.after ch⟩ := by
  rw [skipCharacters, bind_of_ok (peek_eq _)]
  simp only [List.head?_cons, ite_apply]
  rfl

theorem takes_skipCharacters (fuel : Nat) : Takes 1 (skipCharacters fuel) := by
  induction fuel with
  | zero => exact takes_failHere 1 _
  | succ fuel ih =>
    intro ⟨cs, l⟩ a c' h
    cases cs with
    | nil => cases h
    | cons ch rest =>
      rw [skipCharacters_cons] at h
      split at h
      · cases h
        exact Nat.le_refl _
      split at h
      · have htakes := takes_skipEscape.bind (fun _ => ih) _ _ _ h
        exact Nat.le_trans (Nat.le_succ _) (Nat.le_succ_of_le htakes)
      split at h
      · exact absurd h (failHere_ne_ok _)
      · exact Nat.le_succ_of_le (ih _ _ _ h)

theorem takes_skipString : Takes 1 skipString := by
  intro c a c' h
  exact takes_skipCharacters _ c a c' h

theorem surrogateMark_eq_ok {ch : Char} {u : Unit} (h : surrogateMark ch c = .ok u c') :
    ∃ rest l, c = ⟨ch :: rest, l⟩ ∧ c' = ⟨rest, l.after ch⟩ := by
  obtain ⟨ch', rest, hrest, haccept, rfl⟩ := nextOr_eq_ok h
  split at haccept
  · rename_i heq
    subst heq
    refine ⟨rest, c.place, ?_, rfl⟩
    rw [← hrest]
  · cases haccept

/-- A character of code units is written as one of them, or as two with the marks of an escape
between them. -/
theorem codePoint_eq_ok {ch : Char} (h : codePoint c = .ok ch c') :
    (∃ n, codeUnit c = .ok n c') ∨
      ∃ n m rest l, codeUnit c = .ok n ⟨'\\' :: 'u' :: rest, l⟩ ∧
        codeUnit ⟨rest, (l.after '\\').after 'u'⟩ = .ok m c' := by
  obtain ⟨n, c₁, hunit, h⟩ := bind_eq_ok.1 h
  split at h
  · cases h
  split at h
  · cases h
    exact .inl ⟨n, hunit⟩
  · obtain ⟨_, c₂, hbackslash, h⟩ := bind_eq_ok.1 h
    obtain ⟨_, c₃, hu, h⟩ := bind_eq_ok.1 h
    obtain ⟨m, c₄, hunit', h⟩ := bind_eq_ok.1 h
    split at h
    · cases h
    · rw [pure_eq_ok, EStateM.Result.ok.injEq] at h
      obtain ⟨-, rfl⟩ := h
      obtain ⟨_, l, rfl, rfl⟩ := surrogateMark_eq_ok hbackslash
      obtain ⟨rest, _, heq, rfl⟩ := surrogateMark_eq_ok hu
      cases heq
      exact .inr ⟨n, m, rest, l, hunit, hunit'⟩

/-- An escape is skipped as one or two escapes. -/
theorem skipEscape_of_escape {ch : Char} (h : escape c = .ok ch c') :
    skipEscape c = .ok () c' ∨
      ∃ rest l, skipEscape c = .ok () ⟨'\\' :: rest, l⟩ ∧
        skipEscape ⟨rest, l.after '\\'⟩ = .ok () c' := by
  obtain ⟨mark?, c₁, hmark, h⟩ := bind_eq_ok.1 h
  cases mark? with
  | some ch' =>
    cases h
    refine .inl ?_
    rw [skipEscape, bind_of_ok hmark]
    rfl
  | none =>
    have hskip : ∀ {n c₂}, codeUnit c₁ = .ok n c₂ → skipEscape c = .ok () c₂ := fun hunit => by
      rw [skipEscape, bind_of_ok hmark]
      exact bind_of_ok hunit
    obtain ⟨n, hunit⟩ | ⟨n, m, rest, l, hunit, hunit'⟩ := codePoint_eq_ok h
    · exact .inl (hskip hunit)
    · exact .inr ⟨_, l, hskip hunit, bind_of_ok hunit'⟩

/-- What is read as a string is skipped in as many rounds as there are characters. -/
theorem skipCharacters_of_characters {fuel : Nat} {before : List Char} {s : String}
    (h : characters fuel before c = .ok s c') {fuel' : Nat} (hfuel : c.rest.length < fuel') :
    skipCharacters fuel' c = .ok () c' := by
  induction fuel generalizing before c fuel' with
  | zero => exact absurd h (failHere_ne_ok _)
  | succ fuel ih =>
    obtain ⟨fuel', rfl⟩ : ∃ n, fuel' = n + 1 := ⟨fuel' - 1, by omega⟩
    obtain ⟨cs, l⟩ := c
    cases cs with
    | nil => cases h
    | cons ch rest =>
      have hrest : rest.length < fuel' := Nat.lt_of_succ_lt_succ hfuel
      rw [characters_cons] at h
      rw [skipCharacters_cons]
      split at h
      · rename_i hquote
        cases h
        rw [if_pos hquote]
      rename_i hquote
      rw [if_neg hquote]
      split at h
      · rename_i hbackslash
        rw [if_pos hbackslash]
        -- What is read in one round may be skipped in two; each of them takes a character.
        obtain ⟨ch', c₁, hescape, h⟩ := bind_eq_ok.1 h
        obtain hskip | ⟨rest', l', hskip, hskip'⟩ := skipEscape_of_escape hescape
        · have hc₁ := takes_skipEscape _ _ _ hskip
          rw [bind_of_ok hskip]
          exact ih h (Nat.lt_of_succ_lt (Nat.lt_of_le_of_lt hc₁ hrest))
        · have hc₁ := takes_skipEscape _ _ _ hskip
          have hc₂ := takes_skipEscape _ _ _ hskip'
          simp only [List.length_cons] at hc₁ hc₂
          obtain ⟨fuel', rfl⟩ : ∃ n, fuel' = n + 1 := ⟨fuel' - 1, by omega⟩
          rw [bind_of_ok hskip, skipCharacters_cons, if_neg (by decide), if_pos rfl,
            bind_of_ok hskip']
          exact ih h (by omega)
      rename_i hbackslash
      rw [if_neg hbackslash]
      split at h
      · exact absurd h (failNext_ne_ok _)
      · rename_i hcontrol
        rw [if_neg hcontrol]
        exact ih h hrest

theorem skipString_of_string {s : String} (h : string c = .ok s c') : skipString c = .ok () c' :=
  skipCharacters_of_characters h (Nat.lt_succ_self _)

/-! ## Numbers and other scalars -/

theorem someDigits_eq_ok {atEnd : SyntaxFault} {ds : List Char}
    (h : someDigits atEnd c = .ok ds c') : ds ≠ [] ∧ digits c = .ok ds c' := by
  obtain ⟨ds', c₁, hdigits, h⟩ := bind_eq_ok.1 h
  split at h
  · cases h
  · rename_i hne
    cases h
    exact ⟨fun heq => hne (heq ▸ rfl), hdigits⟩

theorem takes_someDigits (atEnd : SyntaxFault) : Takes 1 (someDigits atEnd) := by
  intro c ds c' h
  obtain ⟨hne, hdigits⟩ := someDigits_eq_ok h
  cases hdigits
  have hlength := congrArg List.length
    (List.takeWhile_append_dropWhile (p := Char.isDigit) (l := c.rest))
  have hpos := List.length_pos_iff.2 hne
  simp only [List.length_append] at hlength
  change 0 < (c.rest.takeWhile Char.isDigit).length at hpos
  change (c.rest.dropWhile Char.isDigit).length + 1 ≤ _
  omega

/-- Where `r` succeeds, `s` does in the same way. -/
def Succeeds (r s : Reading α) : Prop := ∀ c a c', r c = .ok a c' → s c = .ok a c'

theorem Succeeds.refl (r : Reading α) : Succeeds r r := fun _ _ _ => id

theorem Succeeds.bind {r s : Reading α} {f g : α → Reading β} (hr : Succeeds r s)
    (hf : ∀ a, Succeeds (f a) (g a)) : Succeeds (r >>= f) (s >>= g) := by
  intro c b c' h
  obtain ⟨a, c₁, hr', hf'⟩ := bind_eq_ok.1 h
  exact bind_eq_ok.2 ⟨a, c₁, hr c a c₁ hr', hf a c₁ b c' hf'⟩

theorem Succeeds.ite {p : Prop} [Decidable p] {r s r' s' : Reading α} (hr : Succeeds r r')
    (hs : Succeeds s s') : Succeeds (if p then r else s) (if p then r' else s') := by
  split
  · exact hr
  · exact hs

section AtEnd

variable (atEnd atEnd' : SyntaxFault)

theorem succeeds_someDigits : Succeeds (someDigits atEnd) (someDigits atEnd') := by
  intro c ds c' h
  obtain ⟨hne, hdigits⟩ := someDigits_eq_ok h
  rw [someDigits, bind_of_ok hdigits, if_neg (by simpa using hne)]
  rfl

/-- Only the fault for the end of the text is different. -/
theorem succeeds_scanNumber : Succeeds (scanNumber atEnd) (scanNumber atEnd') := by
  have hdigits := succeeds_someDigits atEnd atEnd'
  have hwhole : Succeeds (scanWhole atEnd) (scanWhole atEnd') :=
    (Succeeds.refl _).bind fun _ => .ite (.refl _) hdigits
  have hfraction : Succeeds (scanFraction atEnd) (scanFraction atEnd') :=
    (Succeeds.refl _).bind fun _ => .ite ((Succeeds.refl _).bind fun _ => hdigits) (.refl _)
  have hexponent : Succeeds (scanExponent atEnd) (scanExponent atEnd') :=
    (Succeeds.refl _).bind fun _ => .ite
      ((Succeeds.refl _).bind fun _ => (Succeeds.refl _).bind fun _ =>
        (Succeeds.refl _).bind fun _ => hdigits.bind fun _ => .refl _)
      (.refl _)
  exact hwhole.bind fun _ => hfraction.bind fun _ => hexponent.bind fun _ => .refl _

theorem takes_scanWhole : Takes 1 (scanWhole atEnd) := by
  intro c ds c' h
  obtain ⟨isZero, _, hzero, h⟩ := bind_eq_ok.1 h
  cases hzero
  split at h
  · rename_i hzero
    obtain ⟨cs, l⟩ := c
    cases cs with
    | nil => cases hzero
    | cons ch rest =>
      have hrest : Takes 0 (isNext Char.isDigit >>= fun isDigit =>
          if isDigit then failNext .invalidNumber else pure ['0']) :=
        (takes_isNext _).bind fun _ => takes_ite (takes_failNext 0 _) (takes_pure _)
      exact Nat.succ_le_succ (hrest _ _ _ h)
  · exact takes_someDigits atEnd _ _ _ h

theorem takes_scanNumber : Takes 1 (scanNumber atEnd) := by
  have hdigits : Takes 0 (someDigits atEnd) := (takes_someDigits atEnd).mono (Nat.zero_le _)
  have hfraction : Takes 0 (scanFraction atEnd) :=
    (takes_isNext _).bind fun _ => takes_ite (takes_advance.bind fun _ => hdigits) (takes_pure _)
  have hsign : Takes 0 scanSign :=
    (takes_isNext _).bind fun _ => (takes_isNext _).bind fun _ =>
      takes_ite (takes_advance.bind fun _ => takes_pure _) (takes_pure _)
  have hexponent : Takes 0 (scanExponent atEnd) :=
    (takes_isNext _).bind fun _ => takes_ite
      (takes_advance.bind fun _ => hsign.bind fun _ => takes_get.bind fun _ =>
        hdigits.bind fun _ => takes_pure _)
      (takes_pure _)
  exact (takes_scanWhole atEnd).bind fun _ => hfraction.bind fun _ => hexponent.bind fun _ =>
    takes_pure _

end AtEnd

theorem floatOf_eq_ok {positive : Bool} {significand : Nat} {exponent : Int} {j : Json}
    (h : floatOf positive significand exponent c = .ok j c') : c' = c ∧ j.isPlain = true := by
  rw [floatOf] at h
  cases hscaled : scaled (.ofNat significand) exponent 8 with
  | some x =>
    rw [hscaled] at h
    cases h
    exact ⟨rfl, rfl⟩
  | none =>
    rw [hscaled] at h
    cases h

theorem isPlain_integer (positive : Bool) (n : Nat) : (integer positive n).isPlain = true := by
  unfold integer
  split
  · rfl
  split
  · rfl
  · rfl

/-- What a number amounts to is worked out where it ends. -/
theorem Numeral.read_eq_ok {n : Numeral} {positive : Bool} {j : Json}
    (h : n.read positive c = .ok j c') : c' = c ∧ j.isPlain = true := by
  obtain ⟨whole, fraction, exponent?⟩ := n
  rw [Numeral.read] at h
  cases exponent? with
  | some exponent =>
    obtain ⟨isNegative, start, ds⟩ := exponent
    dsimp only at h
    cases he : exponentDigits 0 start ds with
    | ok e =>
      rw [he] at h
      exact floatOf_eq_ok h
    | error l =>
      rw [he] at h
      dsimp only at h
      split at h
      · cases h
      · cases h
        exact ⟨rfl, rfl⟩
  | none =>
    dsimp only at h
    split at h
    · cases h
      exact ⟨rfl, isPlain_integer _ _⟩
    · exact floatOf_eq_ok h

theorem isPlain_of_number {positive : Bool} {j : Json} (h : number positive c = .ok j c') :
    j.isPlain = true := by
  obtain ⟨n, c₁, _, h⟩ := bind_eq_ok.1 h
  exact (Numeral.read_eq_ok h).2

theorem skipNumber_of_number {positive : Bool} {j : Json} (h : number positive c = .ok j c') :
    skipNumber c = .ok () c' := by
  obtain ⟨n, c₁, hscan, h⟩ := bind_eq_ok.1 h
  cases (Numeral.read_eq_ok h).1
  exact bind_of_ok (succeeds_scanNumber _ _ _ _ _ hscan)

theorem takes_skipNumber : Takes 1 skipNumber :=
  (takes_scanNumber _).bind fun _ => takes_pure _

theorem skipScalar_of_scalar {ch : Char} {j : Json} (h : scalar ch c = .ok j c') :
    skipScalar ch c = .ok () c' := by
  have hliteral : ∀ {rest : String} {i : Json},
      (literal rest >>= fun _ => pure i) c = .ok j c' → literal rest c = .ok () c' := fun h => by
    obtain ⟨_, _, hliteral, h⟩ := bind_eq_ok.1 h
    cases h
    exact hliteral
  unfold scalar at h
  unfold skipScalar
  split at h
  · exact hliteral h
  · exact hliteral h
  · exact hliteral h
  · obtain ⟨_, c₁, hadvance, h⟩ := bind_eq_ok.1 h
    exact bind_eq_ok.2 ⟨_, c₁, hadvance, skipNumber_of_number h⟩
  · obtain ⟨_, c₁, hadvance, h⟩ := bind_eq_ok.1 h
    obtain ⟨_, c₂, hstring, h⟩ := bind_eq_ok.1 h
    cases h
    exact bind_eq_ok.2 ⟨_, c₁, hadvance, skipString_of_string hstring⟩
  · split at h
    · rename_i hdigit
      rw [if_pos hdigit]
      exact skipNumber_of_number h
    · exact absurd h (failNext_ne_ok _)

/-- A string is told by its first character from the other scalars. -/
theorem scalar_eq_ok {ch : Char} {j : Json} (h : scalar ch c = .ok j c') :
    (ch = '"' ∧ ∃ s c₁, j = .string s ∧ advance c = .ok () c₁ ∧ string c₁ = .ok s c') ∨
      ch ≠ '"' ∧ j.isPlain = true := by
  have hliteral : ∀ {rest : String} {i : Json}, i.isPlain = true →
      (literal rest >>= fun _ => pure i) c = .ok j c' → j.isPlain = true := fun hi h => by
    obtain ⟨_, _, _, h⟩ := bind_eq_ok.1 h
    cases h
    exact hi
  unfold scalar at h
  split at h
  · exact .inr ⟨by decide, hliteral rfl h⟩
  · exact .inr ⟨by decide, hliteral rfl h⟩
  · exact .inr ⟨by decide, hliteral rfl h⟩
  · obtain ⟨_, _, _, h⟩ := bind_eq_ok.1 h
    exact .inr ⟨by decide, isPlain_of_number h⟩
  · obtain ⟨_, c₁, hadvance, h⟩ := bind_eq_ok.1 h
    obtain ⟨s, _, hstring, h⟩ := bind_eq_ok.1 h
    cases h
    exact .inl ⟨rfl, s, c₁, rfl, hadvance, hstring⟩
  · rename_i hquote
    split at h
    · exact .inr ⟨hquote, isPlain_of_number h⟩
    · exact absurd h (failNext_ne_ok _)

theorem isScalar_of_scalar {ch : Char} {j : Json} (h : scalar ch c = .ok j c') :
    j.isScalar = true := by
  obtain ⟨-, s, -, rfl, -⟩ | ⟨-, hplain⟩ := scalar_eq_ok h
  · rfl
  · cases j with
    | array | object => cases hplain
    | _ => rfl

theorem takes_skipScalar (ch : Char) : Takes 1 (skipScalar ch) := by
  have hliteral : ∀ ch cs, Takes 1 (literal (String.ofList (ch :: cs))) := fun ch cs => by
    rw [literal, String.toList_ofList]
    exact (takes_advance.bind fun _ => takes_ident (ch :: cs)).mono (by simp)
  unfold skipScalar
  split
  · exact hliteral 'u' ['l', 'l']
  · exact hliteral 'r' ['u', 'e']
  · exact hliteral 'a' ['l', 's', 'e']
  · exact takes_advance.bind fun _ => takes_skipNumber
  · exact takes_advance.bind fun _ => takes_skipString
  · exact takes_ite takes_skipNumber (takes_failNext 1 _)

end Reading

end Json

end PredicateTree
