/-
The shortest decimal text of a binary floating point number.

`Decimal.shortest` finds the decimal of fewest digits that reads back as the number: for each count of digits it tests
the two neighbours of the number on that decimal grid against the interval of reals that round to it, ends included
exactly when the mantissa is even. Of two neighbours inside, the nearer wins. Which one wins a tie, and how the decimal is
laid out, is the business of a `Layout`.
-/
import MigrationOperator.Json.Binary64

namespace MigrationOperator

/-- the decimal coefficient * 10^exponent -/
structure Decimal where
  coefficient : Nat
  exponent : Int
deriving DecidableEq

/-- the way of a number halfway between two decimals -/
inductive Tie where
  /-- to the decimal with the even last digit -/
  | even
  /-- to the greater decimal -/
  | up
deriving DecidableEq

/-- of the two decimals around a tie the lower one wins; `below` is its coefficient -/
def Tie.isLow (t : Tie) (below : Nat) : Bool :=
  match t with
  | .even => below % 2 == 0
  | .up => false

namespace Decimal

/-- the quotient num / den times 10^-e, as a quotient of naturals -/
def scale (num den : Nat) (e : Int) : Nat × Nat :=
  if e < 0 then (num * Nat.pow 10 e.natAbs, den) else (num, den * Nat.pow 10 e.natAbs)

/-- the power of ten of the leading digit of a positive quotient -/
def leading (num den : Nat) : Int :=
  let guess : Int := ((num.log2 : Int) - den.log2) * 30103 / 100000
  let reaches (e : Int) : Bool := let (n, d) := scale num den e; d ≤ n
  if reaches (guess + 1) then guess + 1 else if reaches guess then guess else guess - 1

/-- without trailing zeros -/
def trim : Nat → Decimal → Decimal
  | 0, d => d
  | n + 1, d => if d.coefficient ≠ 0 ∧ d.coefficient % 10 = 0 then trim n ⟨d.coefficient / 10, d.exponent + 1⟩ else d

/-- the reals that round to a number: both ends as quotients over one denominator, and whether the ends belong -/
structure Interval where
  low : Nat
  high : Nat
  den : Nat
  closed : Bool

/-- half the gap to either neighbour; the gap below a power of two is half as wide -/
def interval (x : Binary64) : Interval :=
  let narrow := x.mantissa = 1 <<< 52 ∧ Binary64.minExponent < x.exponent
  let (unit, den) := Binary64.scale 1 4 (-x.exponent)
  { low := (4 * x.mantissa - if narrow then 1 else 2) * unit
    high := (4 * x.mantissa + 2) * unit
    den, closed := x.mantissa % 2 == 0 }

/-- the decimal lies in the interval -/
def Interval.holds (i : Interval) (d : Decimal) : Bool :=
  let (n, m) := scale d.coefficient 1 (-d.exponent)
  if i.closed then i.low * m ≤ n * i.den && n * i.den ≤ i.high * m
  else i.low * m < n * i.den && n * i.den < i.high * m

/-- the best decimal of `count` digits inside the interval, if there is one -/
def ofCount? (tie : Tie) (x : Binary64) (i : Interval) (lead : Int) (count : Nat) : Option Decimal :=
  let (num, den) := x.magnitude
  let e := lead - count + 1
  let (n, d) := scale num den e
  let below : Decimal := ⟨n / d, e⟩
  let above : Decimal := ⟨n / d + 1, e⟩
  let r := n % d
  match i.holds below, i.holds above with
  | false, false => none
  | true, false => some below
  | false, true => some above
  | true, true => some (if 2 * r < d ∨ (2 * r = d ∧ tie.isLow below.coefficient) then below else above)

/-- the shortest decimal that reads back as the magnitude; seventeen digits always suffice -/
def shortest (tie : Tie) (x : Binary64) : Decimal :=
  if x.isZero then ⟨0, 0⟩
  else
    let (num, den) := x.magnitude
    let lead := leading num den
    let found := (List.range 17).findSome? (fun n => ofCount? tie x (interval x) lead (n + 1))
    trim 400 (found.getD ⟨x.mantissa, 0⟩)

end Decimal

/-! ## Layout -/

/-- how a number is laid out -/
structure Layout where
  /-- a whole number ends in `.0` -/
  wholePoint : Bool
  /-- the powers of ten of the leading digit that are written without an exponent; all of them when none is given -/
  positional : Option (Int × Int)
  /-- the way of a tie between two shortest decimals -/
  tie : Tie

namespace Layout

/-- JSON text: `10.0`, `0.00001`, `1e-6`, `1e+16` -/
def json : Layout := ⟨true, some (-5, 15), .even⟩

/-- plain text: `10`, `0.000001`, `10000000000000000` -/
def plain : Layout := ⟨false, none, .up⟩

private def zeros (n : Nat) : String := String.ofList (List.replicate n '0')

/-- digits around a decimal point, no exponent -/
def spread (l : Layout) (digits : String) (exponent : Int) : String :=
  if 0 ≤ exponent then digits ++ zeros exponent.natAbs ++ (if l.wholePoint then ".0" else "")
  else
    let k := exponent.natAbs
    let n := digits.length
    if k < n then String.ofList (digits.toList.take (n - k)) ++ "." ++ String.ofList (digits.toList.drop (n - k))
    else "0." ++ zeros (k - n) ++ digits

/-- one digit before the point, and the power of ten with its sign -/
def scientific (digits : String) (lead : Int) : String :=
  let mark := if lead < 0 then "e-" else "e+"
  let fraction := String.ofList (digits.toList.drop 1)
  String.ofList (digits.toList.take 1) ++ (if fraction.isEmpty then "" else "." ++ fraction) ++ mark ++
    toString lead.natAbs

def render (l : Layout) (x : Binary64) : String :=
  let d := Decimal.shortest l.tie x
  let digits := toString d.coefficient
  let lead := d.exponent + digits.length - 1
  let spreads := match l.positional with
    | none => true
    | some (low, high) => decide (low ≤ lead ∧ lead ≤ high)
  (if x.negative then "-" else "") ++ (if spreads then l.spread digits d.exponent else scientific digits lead)

end Layout

end MigrationOperator
