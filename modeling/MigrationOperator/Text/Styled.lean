/-
Text in several faces.

A terminal shows a face between control sequences: one for each of its attributes in front, and one behind that ends them
all. Where no terminal interprets them, `Styled.plain` leaves them out, along with what the text itself holds of that kind.
-/
import MigrationOperator.Text.Terminal

namespace MigrationOperator

inductive Face where
  | plain
  /-- what is typed as it stands -/
  | literal
  | heading
  /-- the word that announces an error -/
  | failure
  /-- what was given and is not understood -/
  | invalid
  /-- what may be meant instead -/
  | valid
deriving DecidableEq

namespace Face

/-- the numbers of the attributes: 1 is bold, 4 underlined, 31 red, 32 green and 33 yellow -/
def attributes : Face → List Nat
  | .plain => []
  | .literal => [1]
  | .heading => [1, 4]
  | .failure => [1, 31]
  | .invalid => [33]
  | .valid => [32]

/-- the control sequence of an attribute; 0 ends all others -/
def sequence (n : Nat) : String := "\x1b[" ++ toString n ++ "m"

/-- a text between the sequences of its face -/
def around (f : Face) (text : String) : String :=
  match f.attributes with
  | [] => text
  | attributes => String.join (attributes.map sequence) ++ text ++ sequence 0

end Face

/-- pieces of text, each in a face -/
structure Styled where
  pieces : List (Face × String)

namespace Styled

instance : Append Styled := ⟨fun a b => ⟨a.pieces ++ b.pieces⟩⟩

instance : Coe String Styled := ⟨fun s => ⟨[(.plain, s)]⟩⟩

def empty : Styled := ⟨[]⟩

/-- a text in one face -/
def text (face : Face) (s : String) : Styled := ⟨[(face, s)]⟩

def join (ts : List Styled) : Styled := ⟨ts.flatMap pieces⟩

def intercalate (separator : String) (ts : List Styled) : Styled := join (ts.intersperse separator)

/-- the text for a terminal -/
def coloured (t : Styled) : String := String.join (t.pieces.map fun (face, s) => face.around s)

/-- the text where no terminal interprets it -/
def plain (i : Terminal.Interruption) (t : Styled) : String := Terminal.strip i t.coloured

end Styled

end MigrationOperator
