/-
Reading JSON text.

The reader is an automaton over the characters of the text: `Reader.step` takes one character, `Reading.ofText` folds it
over a text. Its state is the stack of lists and objects that are open and what is being read. A fault closes everything
that is open where it stands (`Reader.fail`), so the document holds all that was read before it.

A string with a lone surrogate, a number out of range and a value nested too deep are faults of reading only: their
grammar is sound, so the reader goes on behind them and records what passing over meets.
-/
import MigrationOperator.Json.Numeral

namespace MigrationOperator

/-! ## State -/

/-- an open list or object: what it holds so far, the last first, and the fault that spoiled it -/
inductive Frame where
  | list (items : List Doc) (spoiled : Option TextFault)
  /-- `key` is the key whose value is being read -/
  | object (members : List (String × Doc)) (key : String) (spoiled : Option TextFault)

namespace Frame

/-- how a list or an object ends that closes with its bracket -/
def closing : Option TextFault → Ending
  | none => .closed
  | some f => .broken ⟨f, none⟩

/-- how a list or an object ends that a flaw cuts off -/
def cut (flaw : Flaw) (spoiled : Option TextFault) : Ending := .broken ⟨spoiled.getD flaw.read, flaw.skipped⟩

/-- one more value in an open list or object; what is spoiled holds no more -/
def add (d : Doc) : Frame → Frame
  | .list items none => .list (d :: items) none
  | .object members key none => .object ((key, d) :: members) key none
  | frame => frame

/-- the document of a frame that ends -/
def close (ending : Option TextFault → Ending) : Frame → Doc
  | .list items spoiled => .arr items.reverse (ending spoiled)
  | .object members _ spoiled => .obj members.reverse (ending spoiled)

/-- the document of the open frames around a value, each cut off by the flaw -/
def unwind (flaw : Flaw) (d : Doc) (stack : List Frame) : Doc :=
  stack.foldl (fun d frame => (frame.add d).close (cut flaw)) d

end Frame

/-- what may stand next between tokens -/
inductive Place where
  | root
  | firstItem
  | item
  | afterItem
  | firstKey
  | key
  | colon
  | memberValue
  | afterMember
  | done
deriving DecidableEq

/-- within a string: between characters, after a backslash, or among the digits of a hexadecimal escape -/
inductive Escape where
  | none
  | backslash
  | hex (value bytes : Nat) (bad : Bool)
deriving DecidableEq

/-- a string under way: its characters, the last first -/
structure Quoted where
  isKey : Bool
  chars : List Char := []
  escape : Escape := .none
  /-- a leading surrogate that waits for its partner -/
  surrogate : Option Nat := .none
  spoiled : Option TextFault := .none

namespace Quoted

/-- record the fault that reading meets first -/
def spoil (f : TextFault) (q : Quoted) : Quoted := { q with spoiled := some (q.spoiled.getD f) }

/-- a leading surrogate turns out to have no partner -/
def drop (q : Quoted) : Quoted :=
  match q.surrogate with
  | some _ => { q.spoil .truncatedSurrogate with surrogate := none }
  | none => q

def push (c : Char) (q : Quoted) : Quoted := { q with chars := c :: q.chars, escape := .none }

/-- the code unit of a hexadecimal escape -/
def unit (n : Nat) (q : Quoted) : Quoted :=
  let trails := 0xDC00 ≤ n ∧ n ≤ 0xDFFF
  match q.surrogate with
  | some high =>
    let q := { q with surrogate := none, escape := .none }
    if trails then q.push (Char.ofNat (0x10000 + (high - 0xD800) * 0x400 + (n - 0xDC00))) else q.spoil .loneSurrogate
  | none =>
    if trails then { q.spoil .loneSurrogate with escape := .none }
    else if 0xD800 ≤ n ∧ n ≤ 0xDBFF then { q with surrogate := some n, escape := .none }
    else q.push (Char.ofNat n)

end Quoted

/-- the value of a hexadecimal digit -/
def hexDigit? (c : Char) : Option Nat :=
  if c.isDigit then some (c.toNat - 48)
  else if 'a' ≤ c ∧ c ≤ 'f' then some (c.toNat - 87)
  else if 'A' ≤ c ∧ c ≤ 'F' then some (c.toNat - 55)
  else none

/-- what is being read -/
inductive Mode where
  | between (place : Place)
  /-- the rest of a literal name and its value -/
  | word (rest : List Char) (value : Doc)
  | number (n : Numeral)
  | quoted (q : Quoted)
  | failed

structure Reader where
  stack : List Frame := []
  mode : Mode := .between .root
  root : Doc := .null
  trailing : Bool := false

namespace Reader

def start : Reader := {}

/-- lists and objects may be nested this deep -/
def maxDepth : Nat := 127

/-! ## Closing -/

/-- break off; `pending` says that the value of a member is being read -/
def fail (flaw : Flaw) (pending : Bool) (r : Reader) : Reader :=
  let doc := match r.stack with
    | [] => .flawed flaw
    | frame :: frames =>
      let frame := match frame with
        | .object .. => if pending then frame.add (.flawed flaw) else frame
        | .list .. => frame
      Frame.unwind flaw (frame.close (Frame.cut flaw)) frames
  { r with stack := [], mode := .failed, root := doc }

/-- put a value that has been read where it belongs -/
def attach (d : Doc) (r : Reader) : Reader :=
  match r.stack with
  | [] => { r with root := d, mode := .between .done }
  | frame :: frames =>
    let place := match frame with
      | .list .. => Place.afterItem
      | .object .. => Place.afterMember
    { r with stack := frame.add d :: frames, mode := .between place }

/-- close the innermost list or object -/
def close (r : Reader) : Reader :=
  match r.stack with
  | [] => r
  | frame :: frames => { r with stack := frames }.attach (frame.close Frame.closing)

/-! ## Tokens -/

/-- open a list or an object; one that is nested too deep is spoiled from the start -/
def push (frame : Option TextFault → Frame) (place : Place) (r : Reader) : Reader :=
  let spoiled := if maxDepth ≤ r.stack.length then some TextFault.nestedTooDeep else none
  { r with stack := frame spoiled :: r.stack, mode := .between place }

/-- the first character of a value -/
def startValue (c : Char) (r : Reader) : Reader :=
  match c with
  | 'n' => { r with mode := .word "ull".toList .null }
  | 't' => { r with mode := .word "rue".toList (.bool true) }
  | 'f' => { r with mode := .word "alse".toList (.bool false) }
  | '"' => { r with mode := .quoted { isKey := false } }
  | '[' => r.push (.list []) .firstItem
  | '{' => r.push (.object [] "") .firstKey
  | c =>
    match Numeral.start? c with
    | some n => { r with mode := .number n }
    | none => r.fail TextFault.expectedValue.flaw true

def isBlank (c : Char) : Bool := c == ' ' || c == '\n' || c == '\t' || c == '\r'

/-- one character between tokens -/
def between (place : Place) (c : Char) (r : Reader) : Reader :=
  if isBlank c then { r with mode := .between place }
  else
    match place with
    | .root | .memberValue => r.startValue c
    | .firstItem => if c = ']' then r.close else r.startValue c
    | .item => if c = ']' then r.fail ⟨.trailingComma, some .expectedValue⟩ false else r.startValue c
    | .afterItem =>
      if c = ',' then { r with mode := .between .item }
      else if c = ']' then r.close
      else r.fail TextFault.expectedListCommaOrEnd.flaw false
    | .firstKey =>
      if c = '"' then { r with mode := .quoted { isKey := true } }
      else if c = '}' then r.close
      else r.fail TextFault.keyNotString.flaw false
    | .key =>
      if c = '"' then { r with mode := .quoted { isKey := true } }
      else r.fail ⟨if c = '}' then .trailingComma else .keyNotString, some .keyNotString⟩ false
    | .colon =>
      if c = ':' then { r with mode := .between .memberValue } else r.fail TextFault.expectedColon.flaw true
    | .afterMember =>
      if c = ',' then { r with mode := .between .key }
      else if c = '}' then r.close
      else r.fail TextFault.expectedObjectCommaOrEnd.flaw false
    | .done => { r with mode := .between .done, trailing := true }

/-! ## Strings -/

/-- break off within a string -/
def failQuoted (f : TextFault) (q : Quoted) (r : Reader) : Reader :=
  r.fail ⟨q.spoiled.getD f, some f⟩ (!q.isKey)

/-- the closing quote -/
def finishQuoted (q : Quoted) (r : Reader) : Reader :=
  let text := String.ofList q.chars.reverse
  if q.isKey then
    match r.stack with
    | .object members _ spoiled :: frames =>
      { r with
        stack := .object members text (spoiled.or q.spoiled) :: frames
        mode := .between .colon }
    | _ => r
  else r.attach (match q.spoiled with
    | none => .str text
    | some f => .flawed ⟨f, none⟩)

/-- the character after a backslash, the `u` of a code unit aside -/
def unescape? : Char → Option Char
  | '"' => some '"'
  | '\\' => some '\\'
  | '/' => some '/'
  | 'b' => some '\x08'
  | 'f' => some '\x0c'
  | 'n' => some '\n'
  | 'r' => some '\r'
  | 't' => some '\t'
  | _ => none

/-- one character within a string; the four digits of a code unit are counted in bytes -/
def quoted (q : Quoted) (c : Char) (r : Reader) : Reader :=
  match q.escape with
  | .none =>
    if c = '\\' then { r with mode := .quoted { q with escape := .backslash } }
    else
      let q := q.drop
      if c = '"' then r.finishQuoted q
      else if c.toNat < 0x20 then r.failQuoted .controlCharacter q
      else { r with mode := .quoted (q.push c) }
  | .backslash =>
    if c = 'u' then { r with mode := .quoted { q with escape := .hex 0 0 false } }
    else
      let q := q.drop
      match unescape? c with
      | some e => { r with mode := .quoted (q.push e) }
      | none => r.failQuoted .invalidEscape q
  | .hex value bytes bad =>
    let bad := bad || (hexDigit? c).isNone
    let value := value * 16 + (hexDigit? c).getD 0
    let bytes := bytes + c.utf8Size
    if bytes < 4 then { r with mode := .quoted { q with escape := .hex value bytes bad } }
    else if bad then r.failQuoted .invalidEscape q
    else { r with mode := .quoted (q.unit value) }

/-! ## Runs -/

/-- one character -/
def step (r : Reader) (c : Char) : Reader :=
  match r.mode with
  | .between place => r.between place c
  | .word [] value => r.attach value
  | .word [x] value => if c = x then r.attach value else r.fail TextFault.expectedIdent.flaw true
  | .word (x :: xs) value =>
    if c = x then { r with mode := .word xs value } else r.fail TextFault.expectedIdent.flaw true
  | .number n =>
    match n.step c with
    | .more n => { r with mode := .number n }
    | .broken => r.fail TextFault.invalidNumber.flaw true
    | .ended =>
      let r := r.attach n.doc
      match r.mode with
      | .between place => r.between place c
      | _ => r
  | .quoted q => r.quoted q c
  | .failed => r

/-- the end of the text -/
def finish (r : Reader) : Reader :=
  match r.mode with
  | .between .root | .between .memberValue | .between .item => r.fail TextFault.endInValue.flaw true
  | .between .firstItem | .between .afterItem => r.fail TextFault.endInList.flaw false
  | .between .firstKey | .between .afterMember => r.fail TextFault.endInObject.flaw false
  | .between .key => r.fail ⟨.endInValue, some .endInObject⟩ false
  | .between .colon => r.fail TextFault.endInObject.flaw true
  | .between .done => r
  | .word _ _ => r.fail TextFault.endInValue.flaw true
  | .number n =>
    if n.complete then
      let r := r.attach n.doc
      match r.stack with
      | [] => r
      | .list .. :: _ => r.fail TextFault.endInList.flaw false
      | .object .. :: _ => r.fail TextFault.endInObject.flaw false
    else r.fail ⟨.endInValue, some .invalidNumber⟩ true
  | .quoted q => r.failQuoted .endInString q
  | .failed => r

end Reader

/-- read a whole text -/
def Reading.ofText (s : String) : Reading :=
  let r := (s.toList.foldl Reader.step Reader.start).finish
  ⟨r.root, r.trailing⟩

/-- the value of a whole text -/
def Reading.value (t : Reading) : Except TextFault Json := do
  let j ← t.doc.value
  if t.trailing then throw .trailingCharacters
  return j

/-- the value that a text writes -/
def Json.ofText (s : String) : Except TextFault Json := (Reading.ofText s).value

end MigrationOperator
