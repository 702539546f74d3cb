import PredicateTree.Number.Binary64

/-!
# Number.Reading

Reading of whole numbers and of decimals. A decimal is read to the nearest number.
-/

namespace PredicateTree

/-- The value of a row of decimal digits. -/
def digitsValue (cs : List Char) : Nat :=
  cs.foldl (fun n c => 10 * n + (c.toNat - '0'.toNat)) 0

/-- Splits the decimal digits off the front. -/
def spanDigits (cs : List Char) : List Char × List Char :=
  (cs.takeWhile Char.isDigit, cs.dropWhile Char.isDigit)

/-- Splits a sign off the front: whether it is a minus, and the rest. -/
def splitSign (cs : List Char) : Bool × List Char :=
  match cs with
  | '-' :: rest => (true, rest)
  | '+' :: rest => (false, rest)
  | cs => (false, cs)

def readInt? (s : String) : Option Int :=
  let (negative, cs) := splitSign s.toList
  if cs.isEmpty || !cs.all Char.isDigit then none
  else some (if negative then -(digitsValue cs : Int) else digitsValue cs)

namespace Binary64

/-- The exponent part of a decimal, absent or complete. -/
def readExponent? (cs : List Char) : Option Int :=
  match cs with
  | [] => some 0
  | c :: rest => if c = 'e' || c = 'E' then readInt? (String.ofList rest) else none

/-- A decimal with optional sign, point and exponent, or the name of a number that has none. -/
def read? (s : String) : Option Binary64 :=
  let (negative, cs) := splitSign s.toList
  let name := (String.ofList cs).toLower
  if name = "nan" then some (if negative then nan.neg else nan)
  else if name = "inf" || name = "infinity" then some (infinity negative)
  else
    let (whole, cs) := spanDigits cs
    let (fraction, cs) := match cs with
      | '.' :: rest => spanDigits rest
      | cs => ([], cs)
    if whole.isEmpty && fraction.isEmpty then none
    else
      (readExponent? cs).map fun e =>
        ofDecimal negative (digitsValue (whole ++ fraction)) (e - fraction.length)

end Binary64

end PredicateTree
