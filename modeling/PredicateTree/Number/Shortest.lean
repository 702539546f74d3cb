import PredicateTree.Number.Binary64

/-!
# Number.Shortest

The decimal text of a number: the fewest digits that read back as it, and of those the nearest.
What this leaves open is a `Layout`: which of two equally near ones is taken, where the text is
positional, with at least one digit after the point, and how an exponent is written.

* `Layout.shown`: how a number is shown as a value.
* `Binary64.textIn`: the text in a layout; `Binary64.text` is the one of a shown value.
-/

namespace PredicateTree

namespace Binary64

/-- Which of two equally near decimals is taken. -/
inductive Tie where
  | upward
  | toEven
deriving DecidableEq

/-- Of `n` and `n + 1`. -/
def Tie.choose (n : Nat) : Tie → Nat
  | upward => n + 1
  | toEven => if n % 2 = 0 then n else n + 1

/-- How a number is laid out: positional if the exponent of its first digit is from `least` up to
below `bound`, with an exponent elsewhere. -/
structure Layout where
  least : Int
  bound : Int
  tie : Tie
  /-- What stands before an exponent that is not negative. -/
  plus : String
deriving DecidableEq

/-- A shown value is positional from 10⁻⁴ up to below 10¹⁶, and a tie goes upward. -/
def Layout.shown : Layout := ⟨-4, 16, .upward, ""⟩

/-- A decimal `digits · 10 ^ exponent`. -/
structure Decimal where
  digits : Nat
  exponent : Int

/-- The rational numbers that round to one number: from `low / scale` to `high / scale` around
`mid / scale`, ends included if `closed`. -/
structure RoundingInterval where
  low : Nat
  mid : Nat
  high : Nat
  scale : Nat
  closed : Bool

/-- The interval of a finite positive number. Below a power of two the neighbour stands half as
far away. -/
def roundingInterval (x : Binary64) : RoundingInterval :=
  let exponent := x.magnitude / Nat.pow 2 52
  let fraction := x.magnitude % Nat.pow 2 52
  let gap := Nat.pow 2 (exponent - 1)
  let below := if fraction = 0 ∧ 1 < exponent then gap else 2 * gap
  let mid := 4 * x.absUnits
  { low := mid - below, mid := mid, high := mid + 2 * gap, scale := 4 * unitsPerOne,
    closed := fraction % 2 = 0 }

/-- The multiple `n` of `num / den` lies in the interval. -/
def RoundingInterval.holds (i : RoundingInterval) (n num den : Nat) : Bool :=
  let point := n * num * i.scale
  if i.closed then i.low * den ≤ point && point ≤ i.high * den
  else i.low * den < point && point < i.high * den

/-- The point of the grid of multiples of `10 ^ exponent` that reads back, if a neighbour of the
number on that grid does. -/
def RoundingInterval.onGrid (i : RoundingInterval) (tie : Tie) (exponent : Int) : Option Decimal :=
  let num := if 0 ≤ exponent then Nat.pow 10 exponent.toNat else 1
  let den := if 0 ≤ exponent then 1 else Nat.pow 10 (-exponent).toNat
  let down := i.mid * den / (i.scale * num)
  let up := down + 1
  match i.holds down num den && down != 0, i.holds up num den with
  | true, true =>
    let twice := 2 * i.mid * den
    let middle := (down + up) * num * i.scale
    if twice < middle then some ⟨down, exponent⟩
    else if twice = middle then some ⟨tie.choose down, exponent⟩
    else some ⟨up, exponent⟩
  | true, false => some ⟨down, exponent⟩
  | false, true => some ⟨up, exponent⟩
  | false, false => none

/-- Tries ever finer grids. -/
def RoundingInterval.shortestFrom (i : RoundingInterval) (tie : Tie) : Nat → Int → Decimal
  | 0, exponent => ⟨i.mid / i.scale, exponent⟩
  | tries + 1, exponent =>
    match i.onGrid tie exponent with
    | some d => d
    | none => i.shortestFrom tie tries (exponent - 1)

/-- The greatest `k` with `10 ^ k ≤ num / den`, searched downward from `k`. -/
def floorLog10 (num den : Nat) : Nat → Int → Int
  | 0, k => k
  | steps + 1, k =>
    let reached :=
      if 0 ≤ k then den * Nat.pow 10 k.toNat ≤ num else den ≤ num * Nat.pow 10 (-k).toNat
    if reached then k else floorLog10 num den steps (k - 1)

/-- The shortest decimal of a finite positive number. An estimate of its decimal exponent from
above comes from the binary one. -/
def shortest (x : Binary64) (tie : Tie) : Decimal :=
  let i := x.roundingInterval
  let estimate := ((Nat.log2 x.absUnits : Int) - 1073) * 30103 / 100000 + 2
  i.shortestFrom tie 20 (floorLog10 i.mid i.scale 10 estimate)

/-- Drops the zeros at the end. -/
def trimZeros (digits : List Char) : List Char :=
  (digits.reverse.dropWhile (· == '0')).reverse

/-- Writes `0.d₁d₂… · 10 ^ point` without an exponent. -/
def positional (digits : List Char) (point : Int) : List Char :=
  if point ≤ 0 then "0.".toList ++ List.replicate (-point).toNat '0' ++ digits
  else
    let whole := digits.take point.toNat
    let rest := digits.drop point.toNat
    whole ++ List.replicate (point.toNat - digits.length) '0' ++ ['.'] ++
      (if rest.isEmpty then ['0'] else rest)

/-- Writes `0.d₁d₂… · 10 ^ point` with one digit before the point and the exponent after an e. -/
def scientific (plus : String) (digits : List Char) (point : Int) : List Char :=
  let exponent := point - 1
  digits.take 1 ++ (if digits.length ≤ 1 then [] else '.' :: digits.drop 1) ++
    'e' :: ((if 0 ≤ exponent then plus else "") ++ toString exponent).toList

def absTextIn (x : Binary64) (layout : Layout) : List Char :=
  if x.isZero then "0.0".toList
  else
    let d := x.shortest layout.tie
    let all := Nat.toDigits 10 d.digits
    let digits := trimZeros all
    let point := d.exponent + all.length
    if layout.least < point && point ≤ layout.bound then positional digits point
    else scientific layout.plus digits point

def textIn (x : Binary64) (layout : Layout) : String :=
  if x.isNaN then "NaN"
  else
    let sign := if x.isNegative then ['-'] else []
    String.ofList (sign ++ if x.isInfinite then "inf".toList else x.absTextIn layout)

/-- The text of a number as a value. -/
def text (x : Binary64) : String := x.textIn .shown

end Binary64

end PredicateTree
