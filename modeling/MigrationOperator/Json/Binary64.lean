/-
Finite binary floating point numbers of 64 bits, in exact arithmetic.

A number is a sign, a mantissa below 2^53 and a power of two not below -1074. `round` takes a quotient of naturals to
the nearest such number, a tie to the even mantissa, and is the one place where precision is lost: sums, products,
quotients and conversions are exact quotients rounded once. Magnitudes beyond the largest finite number have no value here.
-/

namespace MigrationOperator

/-- the number (-1)^negative * mantissa * 2^exponent -/
structure Binary64 where
  negative : Bool
  mantissa : Nat
  exponent : Int
deriving DecidableEq

namespace Binary64

/-- the least power of two of a mantissa -/
def minExponent : Int := -1074

/-- the greatest power of two of a mantissa -/
def maxExponent : Int := 971

def zero : Binary64 := ⟨false, 0, minExponent⟩

instance : Inhabited Binary64 := ⟨zero⟩

def isZero (x : Binary64) : Bool := x.mantissa == 0

/-- the same magnitude with the given sign -/
def withSign (negative : Bool) (x : Binary64) : Binary64 := { x with negative }

/-- the quotient num / den times 2^-e, as a quotient of naturals -/
def scale (num den : Nat) (e : Int) : Nat × Nat :=
  if e < 0 then (num <<< e.natAbs, den) else (num, den <<< e.natAbs)

/-- the quotient rounded to a natural, a tie to the even one -/
def halfEven (num den : Nat) : Nat :=
  let q := num / den
  let r := num % den
  if 2 * r > den ∨ (2 * r = den ∧ q % 2 = 1) then q + 1 else q

/-- the power of two at which the mantissa of num / den has 53 binary digits, or the least one -/
def exponentOf (num den : Nat) : Int :=
  let l : Int := (num.log2 : Int) - den.log2
  let (n, d) := scale num den l
  max (if d ≤ n then l - 52 else l - 53) minExponent

/-- the number nearest to num / den; none when that is beyond the largest finite number -/
def round (num den : Nat) : Option Binary64 :=
  if num = 0 then some zero
  else
    let e := exponentOf num den
    let (n, d) := scale num den e
    let m := halfEven n d
    let (m, e) := if m = 1 <<< 53 then (1 <<< 52, e + 1) else (m, e)
    if maxExponent < e then none else some ⟨false, m, e⟩

/-- the magnitude as a quotient of naturals -/
def magnitude (x : Binary64) : Nat × Nat := scale x.mantissa 1 (-x.exponent)

def ofNat (n : Nat) : Option Binary64 := round n 1

/-- the integer as a number; beyond the finite numbers only for integers of more than a thousand bits -/
def ofInt (n : Int) : Option Binary64 := (round n.natAbs 1).map (withSign (n < 0))

/-- the magnitude of the first number is less -/
def less (x y : Binary64) : Bool :=
  let (a, b) := x.magnitude
  let (c, d) := y.magnitude
  a * d < c * b

/-- the rounded sum of the magnitudes -/
def add (x y : Binary64) : Option Binary64 :=
  let (a, b) := x.magnitude
  let (c, d) := y.magnitude
  round (a * d + c * b) (b * d)

/-- the rounded product of the magnitudes -/
def mul (x y : Binary64) : Option Binary64 :=
  let (a, b) := x.magnitude
  let (c, d) := y.magnitude
  round (a * c) (b * d)

/-- the rounded quotient of the magnitudes -/
def div (x y : Binary64) : Option Binary64 :=
  let (a, b) := x.magnitude
  let (c, d) := y.magnitude
  round (a * d) (b * c)

end Binary64

end MigrationOperator
