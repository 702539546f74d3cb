import PredicateTree.Text.Alphanumeric
import PredicateTree.Text.Blank
import PredicateTree.Ty

/-!
# Ty.Parser

Reading of types. Blanks may stand before every token and at the end. A type is a word, as long
as it can be, or `fn(`, types divided by commas, `)`, `->` and a type. The four scalar names are
the scalars and every other word is a class.

The reader counts down a bound on the number of tokens still to come; a text has no more of them
than characters, so `Ty.parse` starts from its length.
-/

namespace PredicateTree

/-- The text that is not a type. -/
structure TyError where
  input : String
deriving DecidableEq

def TyError.message (e : TyError) : String := "invalid type `" ++ e.input ++ "`"

namespace Ty

def isWordChar (c : Char) : Bool := isAlphanumeric c || c == '_' || c == '.'

/-- What follows `token`, if the text starts with it after blanks. -/
def eat (token : String) (cs : List Char) : Option (List Char) :=
  token.toList.isPrefixOf? (skipBlanks cs)

def ofWord (word : String) : Ty :=
  if word = "bool" then .bool
  else if word = "int" then .int
  else if word = "float" then .float
  else if word = "string" then .string
  else .named word

/-- The longest word at the front, after blanks. -/
def readWord (cs : List Char) : Option (Ty × List Char) :=
  let cs := skipBlanks cs
  let word := cs.takeWhile isWordChar
  if word.isEmpty then none else some (ofWord (String.ofList word), cs.dropWhile isWordChar)

mutual

def read : Nat → List Char → Option (Ty × List Char)
  | 0, _ => none
  | bound + 1, cs =>
    match eat "fn(" cs with
    | none => readWord cs
    | some rest =>
      match readParams bound rest with
      | none => none
      | some (params, rest) =>
        match eat "->" rest with
        | none => none
        | some rest =>
          match read bound rest with
          | none => none
          | some (result, rest) => some (.fn params result, rest)

/-- Parameter types up to and with the closing parenthesis. -/
def readParams : Nat → List Char → Option (List Ty × List Char)
  | 0, _ => none
  | bound + 1, cs =>
    match eat ")" cs with
    | some rest => some ([], rest)
    | none => readItems bound cs

/-- One or more types divided by commas, up to and with the closing parenthesis. -/
def readItems : Nat → List Char → Option (List Ty × List Char)
  | 0, _ => none
  | bound + 1, cs =>
    match read bound cs with
    | none => none
    | some (t, rest) =>
      match eat ")" rest with
      | some rest => some ([t], rest)
      | none =>
        match eat "," rest with
        | none => none
        | some rest =>
          match readItems bound rest with
          | none => none
          | some (ts, rest) => some (t :: ts, rest)

end

/-- Enough for every text of the given characters: between two tokens there are at most three
countdowns. -/
def bound (cs : List Char) : Nat := 3 * cs.length + 3

def parse (s : String) : Except TyError Ty :=
  match read (bound s.toList) s.toList with
  | some (t, rest) => if (skipBlanks rest).isEmpty then .ok t else .error ⟨s⟩
  | none => .error ⟨s⟩

end Ty

end PredicateTree
