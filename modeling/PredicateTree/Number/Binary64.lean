/-!
# Number.Binary64

Double-precision numbers as their 64 bits, with arithmetic in exact whole numbers.

Every finite number is a whole multiple of 2⁻¹⁰⁷⁴. `units` reads that multiple and `ofRatio` goes
back: it takes a quotient counted in the same unit to the nearest number, a half to the even
neighbour, and past the largest number to infinity. An operation is then its exact counterpart on
units followed by one `ofRatio`.

An operation without a result gives the not-a-number whose sign bit is set (`undefined`); an
operand that is not a number is handed on as it is.
-/

namespace PredicateTree

structure Binary64 where
  bits : UInt64
deriving DecidableEq, Inhabited

namespace Binary64

/-- The word with the given sign and the other 63 bits. -/
def ofFields (negative : Bool) (magnitude : Nat) : Binary64 :=
  ⟨(if negative then magnitude + Nat.pow 2 63 else magnitude).toUInt64⟩

def isNegative (x : Binary64) : Bool := Nat.pow 2 63 ≤ x.bits.toNat

/-- The word without its sign. -/
def magnitude (x : Binary64) : Nat := x.bits.toNat % Nat.pow 2 63

/-- The magnitude of infinity; above it stand the words that are not numbers. -/
def infinityMagnitude : Nat := 2047 * Nat.pow 2 52

def isNaN (x : Binary64) : Bool := infinityMagnitude < x.magnitude

def isInfinite (x : Binary64) : Bool := x.magnitude == infinityMagnitude

def isZero (x : Binary64) : Bool := x.magnitude == 0

def infinity (negative : Bool) : Binary64 := ofFields negative infinityMagnitude

def zero (negative : Bool) : Binary64 := ofFields negative 0

def nan : Binary64 := ofFields false (infinityMagnitude + Nat.pow 2 51)

def undefined : Binary64 := ofFields true (infinityMagnitude + Nat.pow 2 51)

/-- The absolute value of a finite number, counted in units of 2⁻¹⁰⁷⁴. -/
def absUnits (x : Binary64) : Nat :=
  let exponent := x.magnitude / Nat.pow 2 52
  let fraction := x.magnitude % Nat.pow 2 52
  if exponent = 0 then fraction else (Nat.pow 2 52 + fraction) * Nat.pow 2 (exponent - 1)

def units (x : Binary64) : Int := if x.isNegative then -(x.absUnits : Int) else x.absUnits

/-- The quotient rounded to a whole number, a half to the even neighbour. -/
def roundedQuotient (num den : Nat) : Nat :=
  let q := num / den
  let r := num % den
  if 2 * r < den then q
  else if den < 2 * r then q + 1
  else if q % 2 = 0 then q else q + 1

/-- The number nearest to `num / den` units. Counted in `2 ^ shift` units the quotient has at most
53 binary digits, and the word is that count with the shift in its exponent field; a count rounded
up to 2⁵³ carries into the exponent by itself. -/
def ofRatio (negative : Bool) (num den : Nat) : Binary64 :=
  let shift := Nat.log2 (num / den) - 52
  let word := shift * Nat.pow 2 52 + roundedQuotient num (den * Nat.pow 2 shift)
  if word < infinityMagnitude then ofFields negative word else infinity negative

/-- How many units make one. -/
def unitsPerOne : Nat := Nat.pow 2 1074

def ofInt (n : Int) : Binary64 := ofRatio (n < 0) (n.natAbs * unitsPerOne) 1

def ofNat (n : Nat) : Binary64 := ofInt n

/-- The number nearest to `digits · 10 ^ exponent`. Exponents so large that every nonzero number
of digits overflows, or so small that it vanishes, are not worked out. -/
def ofDecimal (negative : Bool) (digits : Nat) (exponent : Int) : Binary64 :=
  if digits = 0 then zero negative
  else if 310 < exponent then infinity negative
  else if exponent + (Nat.toDigits 10 digits).length < -330 then zero negative
  else if 0 ≤ exponent then ofRatio negative (digits * Nat.pow 10 exponent.toNat * unitsPerOne) 1
  else ofRatio negative (digits * unitsPerOne) (Nat.pow 10 (-exponent).toNat)

/-! ## Comparison -/

/-- A key that orders the numbers, infinities included; the two zeros have one key. -/
def orderKey (x : Binary64) : Int := if x.isNegative then -(x.magnitude : Int) else x.magnitude

/-- No order relates a word that is not a number to anything. -/
def compare? (x y : Binary64) : Option Ordering :=
  if x.isNaN || y.isNaN then none else some (compare x.orderKey y.orderKey)

/-- Equality as numbers: the zeros are equal, and what is not a number equals nothing. -/
def equals (x y : Binary64) : Bool := x.compare? y == some .eq

/-! ## Arithmetic -/

def neg (x : Binary64) : Binary64 := ofFields (!x.isNegative) x.magnitude

/-- Hands on an operand that is not a number, the left one first. -/
def orNaN (x y : Binary64) (result : Binary64) : Binary64 :=
  if x.isNaN then x else if y.isNaN then y else result

/-- A sum of two numbers. An exact zero is negative only if both operands are negative zeros. -/
def sum (x y : Binary64) : Binary64 :=
  if x.isInfinite then
    if y.isInfinite && x.isNegative != y.isNegative then undefined else x
  else if y.isInfinite then y
  else
    let n := x.units + y.units
    if n = 0 then zero (x.isNegative && y.isNegative) else ofRatio (n < 0) n.natAbs 1

def add (x y : Binary64) : Binary64 := orNaN x y (sum x y)

def sub (x y : Binary64) : Binary64 := orNaN x y (sum x y.neg)

def mul (x y : Binary64) : Binary64 :=
  let negative := x.isNegative != y.isNegative
  orNaN x y <|
    if x.isInfinite || y.isInfinite then
      if x.isZero || y.isZero then undefined else infinity negative
    else ofRatio negative (x.absUnits * y.absUnits) unitsPerOne

def div (x y : Binary64) : Binary64 :=
  let negative := x.isNegative != y.isNegative
  orNaN x y <|
    if x.isInfinite then
      if y.isInfinite then undefined else infinity negative
    else if y.isInfinite then zero negative
    else if y.isZero then
      if x.isZero then undefined else infinity negative
    else ofRatio negative (x.absUnits * unitsPerOne) y.absUnits

/-- The exact remainder of a division toward zero, with the sign of the dividend. -/
def rem (x y : Binary64) : Binary64 :=
  orNaN x y <|
    if x.isInfinite || y.isZero then undefined
    else if y.isInfinite then x
    else ofRatio x.isNegative (x.absUnits % y.absUnits) 1

end Binary64

end PredicateTree
