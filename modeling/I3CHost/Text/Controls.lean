/-!
# Control functions

A text for a terminal mixes characters to show with control functions: single controls, escape
sequences, control sequences, operating system commands and control strings. Shown on anything
else, the control functions are left out. The controls that move on the page are shown like
characters, in the middle of a sequence too. There they suspend it: what follows is shown until the
next control, which resumes the sequence, or until a character above ASCII, which gives it up. In a
command or a string nothing is shown. Otherwise a character above ASCII has no place in a control
function and is left out there; a control string ends at one whose encoding holds the byte of its
terminator. The escape character starts anew wherever it stands.
-/
namespace I3CHost.Text

/-- A control function that has begun and is not complete. -/
inductive ControlState where
  /-- None. -/
  | ground
  /-- The escape character. -/
  | escape
  /-- The escape character and intermediates. -/
  | intermediates
  /-- A control sequence, which ends at its first letter. -/
  | sequence
  /-- An operating system command. -/
  | command
  /-- The start of a device control string. -/
  | deviceStart
  | deviceParameters
  | deviceIntermediates
  /-- The body of a control string. -/
  | string
deriving DecidableEq, Repr

/-- The controls that move on the page: tab, line feed, form feed and carriage return. -/
def movesOnPage (c : Char) : Bool := c = '\t' || c = '\n' || c = Char.ofNat 0x0C || c = '\r'

def escapeChar : Char := Char.ofNat 0x1B

/-- The byte that ends a control string. -/
def stringTerminator : UInt8 := 0x9C

namespace ControlState

/-- What a character that is not shown makes of a control function. Cancel and substitute give up
everything; other controls, delete and what is above ASCII change nothing in a sequence. -/
def next (s : ControlState) (c : Char) : ControlState :=
  let n := c.toNat
  if n = 0x18 ∨ n = 0x1A then ground
  else if c = escapeChar then escape
  else
    match s with
    | ground => ground
    | escape =>
      if n < 0x20 ∨ 0x7F ≤ n then escape
      else if n < 0x30 then intermediates
      else if c = '[' then sequence
      else if c = ']' then command
      else if c = 'P' then deviceStart
      else if c = 'X' ∨ c = '^' ∨ c = '_' then string
      else ground
    | intermediates => if n < 0x30 ∨ 0x7F ≤ n then intermediates else ground
    | sequence => if n < 0x40 ∨ 0x7F ≤ n then sequence else ground
    | command => if n = 0x07 then ground else command
    | deviceStart =>
      if n < 0x20 ∨ 0x7F ≤ n then deviceStart
      else if n < 0x30 then deviceIntermediates
      else if n < 0x40 then deviceParameters
      else string
    | deviceParameters =>
      if n < 0x20 ∨ 0x7F ≤ n then deviceParameters
      else if n < 0x30 then deviceIntermediates
      else if n < 0x3C then deviceParameters
      else string
    | deviceIntermediates => if n < 0x30 ∨ 0x7F ≤ n then deviceIntermediates else string
    | string => if (String.utf8EncodeChar c).contains stringTerminator then ground else string

/-- A character that is shown in the middle of a control function. -/
def shows (s : ControlState) (c : Char) : Bool :=
  match s with
  | ground => movesOnPage c || (0x20 ≤ c.toNat && c.toNat ≠ 0x7F)
  | escape | intermediates | sequence => movesOnPage c
  | _ => false

end ControlState

/-- Where a reader of a text stands. -/
structure ControlReader where
  state : ControlState
  /-- The control function is suspended, and characters are shown as if there were none. -/
  isSuspended : Bool
deriving DecidableEq, Repr

namespace ControlReader

/-- In no control function. -/
def start : ControlReader := ⟨.ground, false⟩

/-- A character that is shown where the reader stands. -/
def shows (r : ControlReader) (c : Char) : Bool :=
  if r.isSuspended then ControlState.ground.shows c else r.state.shows c

/-- Where the reader stands after a character. What is shown suspends a control function, or ends
it if it is above ASCII; what is not shown resumes it. -/
def next (r : ControlReader) (c : Char) : ControlReader :=
  if r.shows c then if c.toNat < 0x80 then ⟨r.state, true⟩ else start
  else ⟨r.state.next c, false⟩

/-- The characters of a text that are shown. -/
def shown : ControlReader → List Char → List Char
  | _, [] => []
  | r, c :: cs => if r.shows c then c :: (r.next c).shown cs else (r.next c).shown cs

/-- The control sequence that takes back every mark. -/
def reset : List Char := [escapeChar, '[', '0', 'm']

end ControlReader

/-- A text without its control functions. -/
def withoutControls (text : String) : String :=
  String.ofList (ControlReader.start.shown text.toList)

end I3CHost.Text
