/-
Numbers in JSON text.

`Numeral` collects the digits of a number character by character; `Numeral.doc` gives it its value. An integer of 64 bits,
signed or unsigned, stays an integer; any other number is a floating point number, and so is `-0`. Its significand is
read as far as it fits into 64 bits: of the digits that do not, those before the point only move the point and those
after it are dropped. The power of ten is then applied by one rounded multiplication or division, so the result can be
one unit in the last place away from the nearest number.
-/
import MigrationOperator.Json.Document

namespace MigrationOperator

/-- the part of a number that was read last -/
inductive NumeralPart where
  | sign
  | zero
  | whole
  | point
  | fraction
  | mark
  | markSign
  | exponent
deriving DecidableEq

/-- digits of a number, the last read first -/
structure Numeral where
  part : NumeralPart
  negative : Bool := false
  whole : List Nat := []
  fraction : List Nat := []
  exponent : List Nat := []
  exponentNegative : Bool := false

/-- what a character does to a number: it belongs to it, ends it, or breaks it -/
inductive NumeralStep where
  | more (n : Numeral)
  | ended
  | broken

namespace Numeral

def digit? (c : Char) : Option Nat := if c.isDigit then some (c.toNat - 48) else none

/-- the number that begins with a minus sign or a digit -/
def start? (c : Char) : Option Numeral :=
  if c = '-' then some { part := .sign, negative := true }
  else (digit? c).map fun d => { part := if d = 0 then .zero else .whole, whole := [d] }

/-- after the digits before the point -/
private def afterWhole (n : Numeral) (c : Char) : NumeralStep :=
  if c = '.' then .more { n with part := .point }
  else if c = 'e' ∨ c = 'E' then .more { n with part := .mark }
  else .ended

private def firstExponent (n : Numeral) (c : Char) : NumeralStep :=
  match digit? c with
  | some d => .more { n with part := .exponent, exponent := [d] }
  | none => .broken

def step (n : Numeral) (c : Char) : NumeralStep :=
  match n.part with
  | .sign =>
    match digit? c with
    | some d => .more { n with part := if d = 0 then .zero else .whole, whole := [d] }
    | none => .broken
  | .zero => if c.isDigit then .broken else n.afterWhole c
  | .whole =>
    match digit? c with
    | some d => .more { n with whole := d :: n.whole }
    | none => n.afterWhole c
  | .point =>
    match digit? c with
    | some d => .more { n with part := .fraction, fraction := [d] }
    | none => .broken
  | .fraction =>
    match digit? c with
    | some d => .more { n with fraction := d :: n.fraction }
    | none => if c = 'e' ∨ c = 'E' then .more { n with part := .mark } else .ended
  | .mark =>
    if c = '+' then .more { n with part := .markSign }
    else if c = '-' then .more { n with part := .markSign, exponentNegative := true }
    else n.firstExponent c
  | .markSign => n.firstExponent c
  | .exponent =>
    match digit? c with
    | some d => .more { n with exponent := d :: n.exponent }
    | none => .ended

/-- the text may end here -/
def complete (n : Numeral) : Bool :=
  match n.part with
  | .zero | .whole | .fraction | .exponent => true
  | .sign | .point | .mark | .markSign => false

/-! ## The value of a number -/

/-- the greatest significand -/
def maxSignificand : Nat := UInt64.size - 1

/-- a significand, the power of ten that goes with it, and whether a digit did not fit -/
structure Significand where
  value : Nat
  exponent : Int
  full : Bool

/-- a digit before the point -/
def Significand.whole (s : Significand) (d : Nat) : Significand :=
  if s.full then { s with exponent := s.exponent + 1 }
  else if maxSignificand < s.value * 10 + d then { s with exponent := s.exponent + 1, full := true }
  else { s with value := s.value * 10 + d }

/-- a digit after the point -/
def Significand.fraction (s : Significand) (d : Nat) : Significand :=
  if s.full then s
  else if maxSignificand < s.value * 10 + d then { s with full := true }
  else { s with value := s.value * 10 + d, exponent := s.exponent - 1 }

def naturalOf (digits : List Nat) : Nat := digits.foldl (fun n d => n * 10 + d) 0

/-- divide by a power of ten, in steps of at most 10^308 -/
def scaleDown (x : Binary64) (k : Nat) : Option Binary64 :=
  if k ≤ 308 then (Binary64.ofNat (Nat.pow 10 k)).bind x.div
  else if x.isZero then some x
  else (Binary64.ofNat (Nat.pow 10 308)).bind x.div |>.bind (scaleDown · (k - 308))
termination_by k

/-- a significand times a power of ten; none beyond the largest finite number -/
def assemble (significand : Nat) (exponent : Int) : Option Binary64 := do
  let x ← Binary64.ofNat significand
  if exponent < 0 then scaleDown x exponent.natAbs
  else if 308 < exponent then (if x.isZero then some x else none)
  else x.mul (← Binary64.ofNat (Nat.pow 10 exponent.natAbs))

/-- the value of a complete number -/
def doc (n : Numeral) : Doc :=
  let whole := n.whole.reverse.foldl Significand.whole ⟨0, 0, false⟩
  let isWhole : Bool := match n.part with
    | .fraction | .exponent => false
    | _ => !whole.full
  if isWhole && !n.negative then .int whole.value
  else if isWhole && 0 < whole.value && Int64.minValue.toInt ≤ -(whole.value : Int) then .int (-(whole.value : Int))
  else
    let s := n.fraction.reverse.foldl Significand.fraction { whole with full := false }
    let e : Int := naturalOf n.exponent.reverse
    match assemble s.value (if n.exponentNegative then s.exponent - e else s.exponent + e) with
    | some x => .float (x.withSign n.negative)
    | none => .flawed ⟨.numberOutOfRange, none⟩

end Numeral

end MigrationOperator
