import I3CHost.CommandLine.Argument
import I3CHost.Word

/-!
# Values received

`Given` holds what one level of the command line has received so far, already read into its type. A
value is counted before it is looked at, and an option may be given once a level; only the words of
a table entry add up over several occurrences.
-/
namespace I3CHost.CommandLine

/-! ## Values -/

/-- A 64-bit number in the form of the settings. -/
def numberOf (text : String) : Except ValueFault UInt64 :=
  match Settings.number text with
  | .ok n => .ok n
  | .error why => .error (.settings why)

/-- A number in the same form that fits a register. -/
def wordOf (text : String) : Except ValueFault Word := do
  let n ← numberOf text
  if n.toNat < UInt32.size then .ok n.toUInt32 else .error (.tooWide text)

/-- A decimal number from 0 to 255; it is read as a signed one before it is compared. -/
def byteOf (text : String) : Except ValueFault UInt8 :=
  match Text.signed text.toList with
  | .error why => .error (.numeral why)
  | .ok n => if 0 ≤ n ∧ n ≤ 255 then .ok (UInt8.ofNat n.toNat) else .error (.notAByte n)

/-- A decimal entry index. -/
def indexOf (text : String) : Except ValueFault UInt64 :=
  match Text.size text.toList with
  | .ok n => .ok n
  | .error why => .error (.numeral why)

/-- A space by its name, in lower case. -/
def spaceOf (text : String) : Except ValueFault Space :=
  if text = "csr" then .ok .csr
  else if text = "dat" then .ok .dat
  else if text = "dct" then .ok .dct
  else .error .unknownChoice

/-! ## What has been given -/

structure Given where
  device : Option String
  base : Option Address
  size : Option Address
  software : Bool
  space : Option Space
  word : Option UInt8
  reg : Option String
  value : Option Word
  location : Option String
  low : Option UInt8
  mask : Option Word
  index : Option UInt64
  words : List Word
deriving DecidableEq, Repr

namespace Given

def nothing : Given :=
  ⟨none, none, none, false, none, none, none, none, none, none, none, none, []⟩

/-- An argument that has been given. -/
def has (g : Given) : Argument → Bool
  | .device => g.device.isSome
  | .base => g.base.isSome
  | .size => g.size.isSome
  | .software => g.software
  | .space => g.space.isSome
  | .word => g.word.isSome
  | .help => false
  | .version => false
  | .reg => g.reg.isSome
  | .value => g.value.isSome
  | .location => g.location.isSome
  | .low => g.low.isSome
  | .mask => g.mask.isSome
  | .index => g.index.isSome
  | .words _ => !g.words.isEmpty

/-- One value of an argument, put in place. -/
def set (g : Given) (a : Argument) (text : String) : Except ValueFault Given :=
  match a with
  | .device => .ok { g with device := some text }
  | .base => do return { g with base := some (← numberOf text) }
  | .size => do return { g with size := some (← numberOf text) }
  | .space => do return { g with space := some (← spaceOf text) }
  | .word => do return { g with word := some (← byteOf text) }
  | .reg => .ok { g with reg := some text }
  | .value => do return { g with value := some (← wordOf text) }
  | .location => .ok { g with location := some text }
  | .low => do return { g with low := some (← byteOf text) }
  | .mask => do return { g with mask := some (← wordOf text) }
  | .index => do return { g with index := some (← indexOf text) }
  | .words _ => do return { g with words := g.words ++ [← wordOf text] }
  | .software | .help | .version => .ok g

/-- The path of a device and the name of a space must not be empty. -/
def refusesEmpty : Argument → Bool
  | .device | .space => true
  | _ => false

/-- One value of an argument, or what is wrong with it. -/
def accept (g : Given) (a : Argument) (text : String) : Except UsageFault Given :=
  if refusesEmpty a && text.isEmpty then .error (.valueRequired a)
  else
    match g.set a text with
    | .ok g => .ok g
    | .error why => .error (.invalidValue text a why)

/-- One occurrence of an argument with its values: too few, too many, given before, and then the
values from left to right. -/
def put (g : Given) (a : Argument) (texts : List String) : Except UsageFault Given :=
  if a.isFlag then
    if g.has a then .error (.repeated a) else .ok { g with software := a == .software }
  else
    match texts.getLast? with
    | none => .error (.valueRequired a)
    | some text =>
      if a.most < texts.length then .error (.unexpectedValue text a)
      else if g.has a && !a.isMany then .error (.repeated a)
      else texts.foldlM (fun g text => g.accept a text) g

end Given

end I3CHost.CommandLine
