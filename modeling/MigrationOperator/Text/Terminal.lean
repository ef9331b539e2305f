/-
Text as it is shown where no terminal interprets it.

A terminal takes some characters as instructions: control characters, and sequences that begin with the escape character.
`Terminal.strip` leaves them out. Line breaks and tabs count as text; one that stands inside a sequence whose controls take
effect at once interrupts the sequence. Characters beyond ASCII are text, but inside a sequence they are passed over. A
string for the device also ends with the byte 9C, which any such character can hold.
-/

namespace MigrationOperator.Terminal

/-- what the characters before one have begun -/
inductive Mode where
  /-- nothing: characters are text -/
  | ground
  /-- an escape character was met -/
  | escape
  /-- a sequence of two characters or more whose last one is still to come -/
  | intermediate
  /-- a control sequence: parameters and a final letter -/
  | control
  /-- a command, which a bell ends -/
  | command
  /-- a control string for the device, of which nothing was read yet -/
  | device
  /-- the parameters of a control string -/
  | deviceParameter
  /-- what stands between the parameters of a control string and its final letter -/
  | deviceIntermediate
  /-- a string for the device, up to its end -/
  | string
deriving DecidableEq

/-- what becomes of a sequence that a line break or a tab interrupts -/
inductive Interruption where
  /-- it ends -/
  | ends
  /-- it goes on behind the next character that does not show -/
  | resumes
deriving DecidableEq

/-- a control character -/
def isControl (c : Char) : Bool := c < ' '

/-- a control character that is text: tab, line feed, form feed or carriage return -/
def isBreak (c : Char) : Bool := c = '\t' || c = '\n' || c = '\x0c' || c = '\r'

/-- a character beyond ASCII -/
def isWide (c : Char) : Bool := '\x80' ≤ c

/-- the byte that ends a string for the device is part of a character in UTF-8 -/
def holdsEnd (c : Char) : Bool := (String.utf8EncodeChar c).contains 0x9c

namespace Mode

/-- controls take effect at once -/
def obeys : Mode → Bool
  | .ground | .escape | .intermediate | .control => true
  | .command | .device | .deviceParameter | .deviceIntermediate | .string => false

/-- a character is text -/
def shows (m : Mode) (c : Char) : Bool :=
  if isControl c then isBreak c && m.obeys else decide (m = .ground) && decide (c ≠ '\x7f')

/-- the mode behind a character that is neither a control nor beyond ASCII -/
def next (m : Mode) (c : Char) : Mode :=
  if c = '\x7f' then m
  else
    match m with
    | .ground => .ground
    | .escape =>
      if c < '0' then .intermediate
      else if c = '[' then .control
      else if c = ']' then .command
      else if c = 'P' then .device
      else if c = 'X' ∨ c = '^' ∨ c = '_' then .string
      else .ground
    | .intermediate => if c < '0' then .intermediate else .ground
    | .control => if c < '@' then .control else .ground
    | .command => .command
    | .device =>
      if c < '0' then .deviceIntermediate else if c < '@' ∧ c ≠ ':' then .deviceParameter else .string
    | .deviceParameter =>
      if c < '0' then .deviceIntermediate else if c < '<' ∧ c ≠ ':' then .deviceParameter else .string
    | .deviceIntermediate => if c < '0' then .deviceIntermediate else .string
    | .string => .string

/-- the mode behind a character that is not text -/
def after (m : Mode) (c : Char) : Mode :=
  if c = '\x1b' then .escape
  else if c = '\x18' ∨ c = '\x1a' then .ground
  else if isControl c then (if m = .command ∧ c = '\x07' then .ground else m)
  else if isWide c then (if m = .string ∧ holdsEnd c then .ground else m)
  else m.next c

end Mode

/-- the characters that are text; behind one that was, others are judged as if nothing was begun -/
def stripChars (i : Interruption) (m : Mode) (shown : Bool) : List Char → List Char
  | [] => []
  | c :: cs =>
    if (if shown then .ground else m).shows c then
      c :: stripChars i (if i = .resumes && !isWide c then m else .ground) true cs
    else stripChars i (m.after c) false cs

/-- the text without instructions to a terminal -/
def strip (i : Interruption) (s : String) : String := String.ofList (stripChars i .ground false s.toList)

/-- text of printable ASCII stays as it is -/
theorem stripChars_of_printable {i : Interruption} {shown : Bool} {cs : List Char}
    (h : ∀ c ∈ cs, ' ' ≤ c ∧ c < '\x7f') : stripChars i .ground shown cs = cs := by
  induction cs generalizing shown with
  | nil => rfl
  | cons c cs ih =>
    obtain ⟨low, high⟩ := h c List.mem_cons_self
    have hs : Mode.ground.shows c = true := by
      have hc : isControl c = false := decide_eq_false (Char.not_lt.mpr low)
      have hd : c ≠ '\x7f' := fun e => absurd high (by subst e; decide)
      simp [Mode.shows, hc, hd]
    simp [stripChars, hs, ih fun d hd => h d (List.mem_cons_of_mem _ hd)]

end MigrationOperator.Terminal
