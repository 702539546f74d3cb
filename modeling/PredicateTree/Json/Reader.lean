import PredicateTree.Json
import PredicateTree.Number.Reading
import PredicateTree.Text.Location

/-!
# Json.Reader

Reading of JSON text, with the place of every fault.

* `Cursor`: what is left of the text and where it starts.
* `Reading`: a reader of something. Also when it fails it leaves a cursor behind.
* `Reading.scanNumber`: the digits of a number, to be read or skipped.
* `Reading.value`: a whole tree. At most 127 arrays and objects may be open at once.
* `Reading.skip`: passes over a value of no interest, to any depth.

A number with a fraction or an exponent is worked out from as many leading digits as fit 64 bits by
one multiplication or division with a power of ten, which is not always the nearest number.

Loops count down from the length of what is left, since each round takes a character away.
-/

namespace PredicateTree

namespace Json

/-- Faults of the text itself. -/
inductive SyntaxFault where
  | endInList
  | endInObject
  | endInString
  | endInValue
  | expectedColon
  | expectedListCommaOrEnd
  | expectedObjectCommaOrEnd
  | expectedIdent
  | expectedValue
  | invalidEscape
  | invalidNumber
  | numberOutOfRange
  | controlCharacter
  | keyMustBeString
  | loneLeadingSurrogate
  | trailingComma
  | trailingCharacters
  | unexpectedEndOfHexEscape
  | recursionLimit
deriving DecidableEq

def SyntaxFault.message : SyntaxFault → String
  | endInList => "EOF while parsing a list"
  | endInObject => "EOF while parsing an object"
  | endInString => "EOF while parsing a string"
  | endInValue => "EOF while parsing a value"
  | expectedColon => "expected `:`"
  | expectedListCommaOrEnd => "expected `,` or `]`"
  | expectedObjectCommaOrEnd => "expected `,` or `\x7d`"
  | expectedIdent => "expected ident"
  | expectedValue => "expected value"
  | invalidEscape => "invalid escape"
  | invalidNumber => "invalid number"
  | numberOutOfRange => "number out of range"
  | controlCharacter => "control character (\\u0000-\\u001F) found while parsing a string"
  | keyMustBeString => "key must be a string"
  | loneLeadingSurrogate => "lone leading surrogate in hex escape"
  | trailingComma => "trailing comma"
  | trailingCharacters => "trailing characters"
  | unexpectedEndOfHexEscape => "unexpected end of hex escape"
  | recursionLimit => "recursion limit exceeded"

/-- Faults of what a well-formed text says. -/
inductive DataFault where
  | invalidType (found : Shape) (wanted : String)
  | invalidValue (found : Shape) (wanted : String)
  | invalidLength (found : Nat) (wanted : String)
  | missingField (name : String)
  | duplicateField (name : String)
  | unknownVariant (name : String) (known : List String)
  /-- The data is none of the forms that a value may have. -/
  | noMatch
deriving DecidableEq

namespace DataFault

def ticked (s : String) : String := "`" ++ s ++ "`"

/-- The names that would have been understood. -/
def oneOf : List String → String
  | [] => "there are no variants"
  | [a] => "expected " ++ ticked a
  | [a, b] => "expected " ++ ticked a ++ " or " ++ ticked b
  | names => "expected one of " ++ ", ".intercalate (names.map ticked)

def message : DataFault → String
  | invalidType found wanted => "invalid type: " ++ found.text ++ ", expected " ++ wanted
  | invalidValue found wanted => "invalid value: " ++ found.text ++ ", expected " ++ wanted
  | invalidLength found wanted => "invalid length " ++ toString found ++ ", expected " ++ wanted
  | missingField name => "missing field " ++ ticked name
  | duplicateField name => "duplicate field " ++ ticked name
  | unknownVariant name known => "unknown variant " ++ ticked name ++ ", " ++ oneOf known
  | noMatch => "data did not match any variant of untagged enum ValueDoc"

end DataFault

inductive Fault where
  | syntaxFault (f : SyntaxFault)
  | dataFault (f : DataFault)
deriving DecidableEq

/-- A fault and, once it is known, its place. -/
structure ReadError where
  fault : Fault
  place : Option Location
deriving DecidableEq

def ReadError.message (e : ReadError) : String :=
  let what := match e.fault with
    | .syntaxFault f => f.message
    | .dataFault f => f.message
  match e.place with
  | some l => what ++ " at line " ++ toString l.line ++ " column " ++ toString l.column
  | none => what

structure Cursor where
  rest : List Char
  place : Location

def Cursor.ofText (s : String) : Cursor := ⟨s.toList, .start⟩

abbrev Reading := EStateM ReadError Cursor

namespace Reading

variable {α : Type}

/-! ## Faults -/

def failAt (l : Location) (f : SyntaxFault) : Reading α := throw ⟨.syntaxFault f, some l⟩

/-- A fault right behind what has been read. -/
def failHere (f : SyntaxFault) : Reading α := do failAt (← get).place f

/-- A fault on the character that comes next, if there is one. -/
def failNext (f : SyntaxFault) : Reading α := do
  let c ← get
  failAt (match c.rest with | ch :: _ => c.place.afterByte ch | [] => c.place) f

/-- A fault on the character that comes next, or another one if the text ends. -/
def failNextOr (f atEnd : SyntaxFault) : Reading α := do
  let c ← get
  failNext (if c.rest.isEmpty then atEnd else f)

/-- A fault of the data, not placed yet. -/
def failData (f : DataFault) : Reading α := throw ⟨.dataFault f, none⟩

def ofExcept : Except DataFault α → Reading α
  | .ok a => pure a
  | .error f => failData f

/-- Places a fault of `r` that has no place where `r` stopped. -/
def placed (r : Reading α) : Reading α := fun c =>
  match r c with
  | .ok a c => .ok a c
  | .error e c => .error { e with place := e.place.or (some c.place) } c

/-- Reads `r` and then `close`, which also moves on if `r` failed. -/
def closedBy (r : Reading α) (close : Reading Unit) : Reading α := fun c =>
  match r c with
  | .ok a c =>
    match close c with
    | .ok _ c => .ok a c
    | .error e c => .error e c
  | .error e c =>
    match close c with
    | .ok _ c => .error e c
    | .error _ c => .error e c

/-! ## Characters -/

def peek : Reading (Option Char) := do return (← get).rest.head?

/-- Takes the next character. -/
def next : Reading (Option Char) := do
  let c ← get
  match c.rest with
  | [] => return none
  | ch :: rest =>
    set (⟨rest, c.place.after ch⟩ : Cursor)
    return some ch

def advance : Reading Unit := do
  let _ ← next

/-- Takes the next character; a fault found in it lies on its first byte. -/
def nextOr (f : SyntaxFault) (accept : Char → Option α) (atEnd : SyntaxFault) : Reading α := do
  let c ← get
  match c.rest with
  | [] => failHere atEnd
  | ch :: rest =>
    match accept ch with
    | some a =>
      set (⟨rest, c.place.after ch⟩ : Cursor)
      return a
    | none => failAt (c.place.afterByte ch) f

def isSpace (c : Char) : Bool := c = ' ' || c = '\n' || c = '\t' || c = '\r'

def dropSpace : List Char → Location → Cursor
  | [], l => ⟨[], l⟩
  | c :: cs, l => if isSpace c then dropSpace cs (l.after c) else ⟨c :: cs, l⟩

/-- Passes over white space and looks at what comes then. -/
def peekToken : Reading (Option Char) := do
  let c ← get
  set (dropSpace c.rest c.place)
  peek

/-- Takes the decimal digits that come next. -/
def digits : Reading (List Char) := do
  let c ← get
  let (ds, rest) := spanDigits c.rest
  set (⟨rest, ⟨c.place.line, c.place.column + ds.length⟩⟩ : Cursor)
  return ds

def isNext (p : Char → Bool) : Reading Bool := do return (← peek).any p

/-- The rest of a literal name whose first letter has been taken. -/
def ident : List Char → Reading Unit
  | [] => pure ()
  | c :: cs => do
    nextOr .expectedIdent (fun d => if d = c then some () else none) .endInValue
    ident cs

/-- A literal name whose first letter comes next. -/
def literal (rest : String) : Reading Unit := do
  advance
  ident rest.toList

/-! ## Numbers -/

/-- A number as it is written, without its sign. -/
structure Numeral where
  whole : List Char
  fraction : List Char
  /-- Of an exponent: whether it is negative, where its digits start, and these. -/
  exponent : Option (Bool × Location × List Char)

/-- Takes the decimal digits that come next, of which there has to be one. -/
def someDigits (atEnd : SyntaxFault) : Reading (List Char) := do
  let ds ← digits
  if ds.isEmpty then failNextOr .invalidNumber atEnd
  else return ds

/-- The digits before the point. After a zero there is no other one. -/
def scanWhole (atEnd : SyntaxFault) : Reading (List Char) := do
  if ← isNext (· = '0') then
    advance
    if ← isNext Char.isDigit then failNext .invalidNumber
    else return ['0']
  else someDigits atEnd

def scanFraction (atEnd : SyntaxFault) : Reading (List Char) := do
  if ← isNext (· = '.') then
    advance
    someDigits atEnd
  else return []

/-- Takes a sign if one comes next; whether it is a minus. -/
def scanSign : Reading Bool := do
  let isMinus ← isNext (· = '-')
  if isMinus || (← isNext (· = '+')) then advance
  return isMinus

def scanExponent (atEnd : SyntaxFault) : Reading (Option (Bool × Location × List Char)) := do
  if ← isNext (fun c => c = 'e' || c = 'E') then
    advance
    let isNegative ← scanSign
    let start ← get
    let ds ← someDigits atEnd
    return some (isNegative, start.place, ds)
  else return none

/-- A number whose sign has been taken. -/
def scanNumber (atEnd : SyntaxFault) : Reading Numeral := do
  let whole ← scanWhole atEnd
  let fraction ← scanFraction atEnd
  let exponent ← scanExponent atEnd
  return ⟨whole, fraction, exponent⟩

/-- Digits read so far into a whole number below 2⁶⁴, and how many came after that was full. -/
structure Digits where
  value : Nat
  ignored : Nat

/-- Adds digits as long as they fit; from the first that does not, all are ignored. -/
def Digits.add (d : Digits) (more : List Char) : Digits :=
  more.foldl
    (fun d c =>
      let wider := 10 * d.value + (c.toNat - '0'.toNat)
      if d.ignored = 0 && wider < Nat.pow 2 64 then { d with value := wider }
      else { d with ignored := d.ignored + 1 })
    d

/-- Ten to a power of at most 308, rounded. -/
def powerOfTen (n : Nat) : Binary64 := .ofDecimal false 1 n

/-- `significand · 10 ^ exponent`, or `none` beyond the largest number. Exponents below -308 are
taken in several steps, until nothing is left. -/
def scaled (x : Binary64) (exponent : Int) : Nat → Option Binary64
  | 0 => some x
  | steps + 1 =>
    if exponent.natAbs ≤ 308 then
      if 0 ≤ exponent then
        let y := x.mul (powerOfTen exponent.natAbs)
        if y.isInfinite then none else some y
      else some (x.div (powerOfTen exponent.natAbs))
    else if x.isZero then some x
    else if 0 ≤ exponent then none
    else scaled (x.div (powerOfTen 308)) (exponent + 308) steps

def signed (positive : Bool) (x : Binary64) : Binary64 := if positive then x else x.neg

def floatOf (positive : Bool) (significand : Nat) (exponent : Int) : Reading Json := do
  match scaled (.ofNat significand) exponent 8 with
  | some x => return .float (signed positive x)
  | none => failHere .numberOutOfRange

/-- Digits of an exponent, up to the one with which it passes 32 bits; the place of that one. -/
def exponentDigits (value : Nat) (l : Location) : List Char → Except Location Nat
  | [] => .ok value
  | c :: cs =>
    let wider := 10 * value + (c.toNat - '0'.toNat)
    let l := l.after c
    if Nat.pow 2 31 ≤ wider then .error l else exponentDigits wider l cs

def integer (positive : Bool) (n : Nat) : Json :=
  if positive then .unsigned n.toUInt64
  else if n = 0 || Nat.pow 2 63 < n then .float (Binary64.ofNat n).neg
  else .negative (.ofInt (-(n : Int)))

/-- The number that has been scanned. -/
def Numeral.read (n : Numeral) (positive : Bool) : Reading Json := do
  let whole := Digits.add ⟨0, 0⟩ n.whole
  let all := Digits.add ⟨whole.value, 0⟩ n.fraction
  let exponent : Int := whole.ignored - (n.fraction.length - all.ignored)
  match n.exponent with
  | some (isNegative, start, ds) =>
    match exponentDigits 0 start ds with
    | .ok e => floatOf positive all.value (if isNegative then exponent - e else exponent + e)
    | .error l =>
      if all.value ≠ 0 && !isNegative then failAt l .numberOutOfRange
      else return .float (signed positive (.zero false))
  | none =>
    if n.fraction.isEmpty && whole.ignored = 0 then return integer positive whole.value
    else floatOf positive all.value exponent

def number (positive : Bool) : Reading Json := do (← scanNumber .endInValue).read positive

/-! ## Strings -/

def hexValue? (c : Char) : Option Nat :=
  if c.isDigit then some (c.toNat - '0'.toNat)
  else if 'a' ≤ c && c ≤ 'f' then some (c.toNat - 'a'.toNat + 10)
  else if 'A' ≤ c && c ≤ 'F' then some (c.toNat - 'A'.toNat + 10)
  else none

def hexValue4? : List Char → Option Nat
  | [a, b, c, d] => do
    return (((← hexValue? a) * 16 + (← hexValue? b)) * 16 + (← hexValue? c)) * 16 + (← hexValue? d)
  | _ => none

/-- The four bytes of a code unit. -/
def codeUnit : Reading Nat := do
  let c ← get
  if (c.rest.take 4).foldl (fun n d => n + d.utf8Size) 0 < 4 then
    failAt (c.place.afterBytes 4 c.rest) .endInString
  match hexValue4? (c.rest.take 4) with
  | some n =>
    set (⟨c.rest.drop 4, c.place.afterBytes 4 c.rest⟩ : Cursor)
    return n
  | none => failAt (c.place.afterBytes 4 c.rest) .invalidEscape

/-- One given character of an escape that a leading surrogate calls for. -/
def surrogateMark (mark : Char) : Reading Unit :=
  nextOr .unexpectedEndOfHexEscape (fun c => if c = mark then some () else none) .endInString

/-- The character of one or two code units. -/
def codePoint : Reading Char := do
  let n ← codeUnit
  if 0xDC00 ≤ n && n ≤ 0xDFFF then failHere .loneLeadingSurrogate
  else if n < 0xD800 || 0xDBFF < n then return Char.ofNat n
  else
    surrogateMark '\\'
    surrogateMark 'u'
    let m ← codeUnit
    if m < 0xDC00 || 0xDFFF < m then failHere .loneLeadingSurrogate
    else return Char.ofNat ((n - 0xD800) * 1024 + (m - 0xDC00) + 0x10000)

/-- What a letter after a backslash stands for; `none` announces code units. -/
def escape? : Char → Option (Option Char)
  | '"' => some (some '"')
  | '\\' => some (some '\\')
  | '/' => some (some '/')
  | 'b' => some (some '\x08')
  | 'f' => some (some '\x0c')
  | 'n' => some (some '\n')
  | 'r' => some (some '\r')
  | 't' => some (some '\t')
  | 'u' => some none
  | _ => none

def escape : Reading Char := do
  match ← nextOr .invalidEscape escape? .endInString with
  | some c => return c
  | none => codePoint

/-- The characters of a string up to its closing quote, after those in `before` (the last one
first). -/
def characters : Nat → List Char → Reading String
  | 0, _ => failHere .endInString
  | fuel + 1, before => do
    match ← peek with
    | none => failHere .endInString
    | some c =>
      if c = '"' then
        advance
        return String.ofList before.reverse
      else if c = '\\' then
        advance
        let c ← escape
        characters fuel (c :: before)
      else if c.toNat < 0x20 then failNext .controlCharacter
      else
        advance
        characters fuel (c :: before)

/-- A string whose opening quote has been taken. -/
def string : Reading String := do characters ((← get).rest.length + 1) []

/-- Passes over an escape. Code units are not put together. -/
def skipEscape : Reading Unit := do
  if (← nextOr .invalidEscape escape? .endInString).isNone then
    let _ ← codeUnit

/-- Passes over the characters of a string. -/
def skipCharacters : Nat → Reading Unit
  | 0 => failHere .endInString
  | fuel + 1 => do
    match ← peek with
    | none => failHere .endInString
    | some c =>
      if c = '"' then advance
      else if c = '\\' then
        advance
        skipEscape
        skipCharacters fuel
      else if c.toNat < 0x20 then failHere .controlCharacter
      else
        advance
        skipCharacters fuel

def skipString : Reading Unit := do skipCharacters ((← get).rest.length + 1)

/-! ## Arrays and objects -/

/-- Passes over the comma before an item. -/
def nextItem : Reading Bool := do
  advance
  match ← peekToken with
  | none => failNext .endInValue
  | some c => if c = ']' then failNext .trailingComma else return true

/-- Whether an array goes on with another item, which comes next then. -/
def moreItems (first : Bool) : Reading Bool := do
  match ← peekToken with
  | none => failNext .endInList
  | some c =>
    if c = ']' then return false
    else if first then return true
    else if c = ',' then nextItem
    else failNext .expectedListCommaOrEnd

/-- Passes over the comma before a member. -/
def nextMember : Reading Bool := do
  advance
  match ← peekToken with
  | none => failNext .endInValue
  | some c =>
    if c = '"' then return true
    else if c = '\x7d' then failNext .trailingComma
    else failNext .keyMustBeString

/-- Whether an object goes on with another member, whose name comes next then. -/
def moreMembers (first : Bool) : Reading Bool := do
  match ← peekToken with
  | none => failNext .endInObject
  | some c =>
    if c = '\x7d' then return false
    else if first then if c = '"' then return true else failNext .keyMustBeString
    else if c = ',' then nextMember
    else failNext .expectedObjectCommaOrEnd

/-- The name of a member. -/
def key : Reading String := do
  advance
  string

def colon : Reading Unit := do
  match ← peekToken with
  | some ':' => advance
  | some _ => failNext .expectedColon
  | none => failNext .endInObject

def closeArray : Reading Unit := do
  match ← peekToken with
  | none => failNext .endInList
  | some c =>
    if c = ']' then advance
    else if c = ',' then
      advance
      match ← peekToken with
      | some ']' => failNext .trailingComma
      | _ => failNext .trailingCharacters
    else failNext .trailingCharacters

def closeObject : Reading Unit := do
  match ← peekToken with
  | none => failNext .endInObject
  | some c =>
    if c = '\x7d' then advance
    else if c = ',' then failNext .trailingComma
    else failNext .trailingCharacters

/-- Opens an array or object and reads what is inside, with room for one less inside it. -/
def within (room : Nat) (inside : Nat → Reading α) (close : Reading Unit) : Reading α :=
  match room with
  | 0 => failNext .recursionLimit
  | room + 1 => do
    advance
    (inside room).closedBy close

/-- How many arrays and objects may be open at once. -/
def maxOpen : Nat := 127

/-- A scalar that starts with `c`, which comes next. -/
def scalar (c : Char) : Reading Json := do
  match c with
  | 'n' =>
    literal "ull"
    return .null
  | 't' =>
    literal "rue"
    return .bool true
  | 'f' =>
    literal "alse"
    return .bool false
  | '-' =>
    advance
    number false
  | '"' =>
    advance
    return .string (← string)
  | c => if c.isDigit then number true else failNext .expectedValue

mutual

/-- A whole tree. -/
def tree : Nat → Nat → Reading Json
  | 0, _ => failHere .endInValue
  | fuel + 1, room => do
    match ← peekToken with
    | none => failNext .endInValue
    | some c =>
      if c = '[' then within room (fun room => return .array (← items fuel room true)) closeArray
      else if c = '\x7b' then
        within room (fun room => return .object (← members fuel room true)) closeObject
      else scalar c

def items : Nat → Nat → Bool → Reading (List Json)
  | 0, _, _ => failHere .endInValue
  | fuel + 1, room, first => do
    if ← moreItems first then
      let j ← tree fuel room
      return j :: (← items fuel room false)
    else return []

def members : Nat → Nat → Bool → Reading (List (String × Json))
  | 0, _, _ => failHere .endInValue
  | fuel + 1, room, first => do
    if ← moreMembers first then
      let k ← key
      colon
      let j ← tree fuel room
      return (k, j) :: (← members fuel room false)
    else return []

end

/-- Rounds enough for what is left of the text. -/
def fuel : Reading Nat := do return 2 * (← get).rest.length + 2

def value (room : Nat) : Reading Json := do tree (← fuel) room

/-- The items of an array that are left. -/
def restItems (room : Nat) : Reading (List Json) := do items (← fuel) room false

/-! ## Skipping -/

def skipNumber : Reading Unit := do
  let _ ← scanNumber .invalidNumber

def skipScalar (c : Char) : Reading Unit := do
  match c with
  | 'n' => literal "ull"
  | 't' => literal "rue"
  | 'f' => literal "alse"
  | '-' =>
    advance
    skipNumber
  | '"' =>
    advance
    skipString
  | c => if c.isDigit then skipNumber else failNext .expectedValue

/-- Passes over a scalar, or over the opening of an array or object and tells which. -/
def skipStart : Reading (Option Bool) := do
  match ← peekToken with
  | none => failNext .endInValue
  | some c =>
    if c = '[' then
      advance
      return some false
    else if c = '\x7b' then
      advance
      return some true
    else
      skipScalar c
      return none

/-- Passes over the name of a member and the colon after it. -/
def skipKey : Reading Unit := do
  match ← peekToken with
  | some '"' =>
    advance
    skipString
    colon
  | some _ => failNext .keyMustBeString
  | none => failNext .endInObject

/-- Stops before the next value of an array or object. -/
def skipToValue (isObject : Bool) (outer : List Bool) : Reading (Option (List Bool)) := do
  if isObject then skipKey
  return some (isObject :: outer)

/-- The character that ends an array or object. -/
def closing (isObject : Bool) : Char := if isObject then '\x7d' else ']'

/-- After a value, or right after an opening (`fresh`): closes what ends here and stops before the
next value. What is open is listed innermost first, an object as `true`. The result is what is
open around that next value, if there is one. -/
def skipToNext : Nat → Bool → List Bool → Reading (Option (List Bool))
  | 0, _, _ => failHere .endInValue
  | _, _, [] => return none
  | fuel + 1, fresh, isObject :: outer => do
    match ← peekToken with
    | none => failNext (if isObject then .endInObject else .endInList)
    | some c =>
      if c = closing isObject then
        advance
        skipToNext fuel false outer
      else if fresh then skipToValue isObject outer
      else if c = ',' then
        advance
        skipToValue isObject outer
      else failNext (if isObject then .expectedObjectCommaOrEnd else .expectedListCommaOrEnd)

def skipFrom : Nat → List Bool → Reading Unit
  | 0, _ => failHere .endInValue
  | fuel + 1, isOpen => do
    let opened ← skipStart
    let next ← match opened with
      | some isObject => skipToNext (fuel + 1) true (isObject :: isOpen)
      | none => skipToNext (fuel + 1) false isOpen
    match next with
    | some isOpen => skipFrom fuel isOpen
    | none => return

def skip : Reading Unit := do skipFrom (← fuel) []

/-! ## Unwanted data -/

/-- The fault of a value that is not `wanted`. A scalar is read for it; an array or object is not
entered. -/
def unwanted (wanted : String) : Reading α := do
  let invalid (s : Shape) : Reading α := failData (.invalidType s wanted)
  placed do
    match ← peek with
    | some '[' => invalid .sequence
    | some '\x7b' => invalid .map
    | _ => invalid (← value maxOpen).shape

/-- Nothing but white space may follow. -/
def finish : Reading Unit := do
  if (← peekToken).isSome then failNext .trailingCharacters

def run (r : Reading α) (text : String) : Except ReadError α :=
  match r (.ofText text) with
  | .ok a _ => .ok a
  | .error e _ => .error e

end Reading

end Json

end PredicateTree
