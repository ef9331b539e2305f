/-
Base64 with the standard alphabet of RFC 4648: padding is required, and the bits that the last symbol does not use are
zero, so a sequence of bytes has one encoding and `decode` accepts that one alone.
-/

namespace MigrationOperator.Base64

/-- why a text is no encoding -/
inductive Fault where
  | symbol (byte : UInt8) (offset : Nat)
  | length (n : Nat)
  | lastSymbol (byte : UInt8) (offset : Nat)
  | padding
deriving DecidableEq

def Fault.message : Fault → String
  | .symbol byte offset => "Invalid symbol " ++ toString byte.toNat ++ ", offset " ++ toString offset ++ "."
  | .length n => "Invalid input length: " ++ toString n
  | .lastSymbol byte offset => "Invalid last symbol " ++ toString byte.toNat ++ ", offset " ++ toString offset ++ "."
  | .padding => "Invalid padding"

/-- the padding symbol -/
def pad : UInt8 := 61

/-- the six bits of a symbol -/
def sextet? (b : UInt8) : Option Nat :=
  let n := b.toNat
  if 65 ≤ n ∧ n ≤ 90 then some (n - 65)
  else if 97 ≤ n ∧ n ≤ 122 then some (n - 71)
  else if 48 ≤ n ∧ n ≤ 57 then some (n + 4)
  else if n = 43 then some 62
  else if n = 47 then some 63
  else none

/-- the symbol of six bits -/
def symbol (n : Nat) : Char :=
  if n < 26 then Char.ofNat (n + 65)
  else if n < 52 then Char.ofNat (n + 71)
  else if n < 62 then Char.ofNat (n - 4)
  else if n = 62 then '+'
  else '/'

/-- the bytes of an encoding -/
def encode : List UInt8 → List Char
  | [] => []
  | [a] =>
    let v := a.toNat * 16
    [symbol (v / 64), symbol (v % 64), '=', '=']
  | [a, b] =>
    let v := (a.toNat * 256 + b.toNat) * 4
    [symbol (v / 4096), symbol (v / 64 % 64), symbol (v % 64), '=']
  | a :: b :: c :: rest =>
    let v := (a.toNat * 256 + b.toNat) * 256 + c.toNat
    symbol (v / 262144) :: symbol (v / 4096 % 64) :: symbol (v / 64 % 64) :: symbol (v % 64) :: encode rest

private def byte (n : Nat) : UInt8 := UInt8.ofNat n

private def sextet (b : UInt8) (offset : Nat) : Except Fault Nat :=
  match sextet? b with
  | some n => .ok n
  | none => .error (.symbol b offset)

/-- four symbols at a time, none of them padding -/
def decodeQuads (offset : Nat) : List UInt8 → Except Fault (List UInt8)
  | a :: b :: c :: d :: rest => do
    let w ← sextet a offset
    let x ← sextet b (offset + 1)
    let y ← sextet c (offset + 2)
    let z ← sextet d (offset + 3)
    let v := ((w * 64 + x) * 64 + y) * 64 + z
    let more ← decodeQuads (offset + 4) rest
    return byte (v / 65536) :: byte (v / 256 % 256) :: byte (v % 256) :: more
  | _ => .ok []

/-- the symbols of the last, possibly padded quad, and the count of its padding; `seen` counts its bytes so far -/
def lastSymbols (offset seen : Nat) : List UInt8 → Except Fault (List Nat × Nat)
  | [] => .ok ([], 0)
  | b :: rest =>
    if b = pad then
      if seen < 2 then .error (.symbol b (offset + seen))
      else if rest.all (· = pad) then .ok ([], rest.length + 1)
      else .error (.symbol pad (offset + seen))
    else do
      let n ← sextet b (offset + seen)
      let (more, padding) ← lastSymbols offset (seen + 1) rest
      return (n :: more, padding)

/-- the last quad, at most four bytes -/
def decodeLast (offset : Nat) (bytes : List UInt8) : Except Fault (List UInt8) := do
  let (sextets, padding) ← lastSymbols offset 0 bytes
  if sextets.length < 2 then throw (.length (offset + sextets.length))
  if (sextets.length + padding) % 4 ≠ 0 then throw .padding
  let unused : Except Fault Unit := match bytes[sextets.length - 1]? with
    | some b => .error (.lastSymbol b (offset + sextets.length - 1))
    | none => .ok ()
  match sextets with
  | [w, x] =>
    let v := w * 64 + x
    if v % 16 ≠ 0 then unused
    return [byte (v / 16)]
  | [w, x, y] =>
    let v := (w * 64 + x) * 64 + y
    if v % 4 ≠ 0 then unused
    return [byte (v / 1024), byte (v / 4 % 256)]
  | [w, x, y, z] =>
    let v := ((w * 64 + x) * 64 + y) * 64 + z
    return [byte (v / 65536), byte (v / 256 % 256), byte (v % 256)]
  | _ => return []

/-- a single byte left over that is no symbol, such as a line end, is named before anything else -/
def checkLeftover (bytes : List UInt8) : Except Fault Unit :=
  if bytes.length % 4 = 1 then
    match bytes.getLast? with
    | some b => if b ≠ pad ∧ (sextet? b).isNone then .error (.symbol b (bytes.length - 1)) else .ok ()
    | none => .ok ()
  else .ok ()

/-- the bytes that a text encodes -/
def decode (text : List UInt8) : Except Fault (List UInt8) := do
  if text.isEmpty then return []
  checkLeftover text
  let leftover := if text.length % 4 = 0 then 4 else text.length % 4
  let whole := text.length - leftover
  let head ← decodeQuads 0 (text.take whole)
  let last ← decodeLast whole (text.drop whole)
  return head ++ last

end MigrationOperator.Base64
