import I3CHost.CommandLine.Given
import I3CHost.Field

/-!
# Commands

A verb names what to do; a command is a verb with everything it needs. Registers are named as
texts here because an unknown name is found out only when the controller is open.
-/
namespace I3CHost.CommandLine

/-- The first word of a command. -/
inductive Verb where
  | smoke
  | read
  | write
  | readField
  | writeField
  | datRead
  | datWrite
  | dctRead
  | dctWrite
  | discover
deriving DecidableEq, Repr

/-- Where a field is: a register by name or offset, or an entry of a table by index. -/
structure FieldPlace where
  space : Space
  location : String
  field : Field
deriving DecidableEq, Repr

inductive Command where
  | smoke
  | read (reg : String)
  | write (reg : String) (value : Word)
  | readField (place : FieldPlace)
  | writeField (place : FieldPlace) (value : Word)
  | readEntry (table : TableKind) (index : UInt64)
  | writeEntry (table : TableKind) (index : UInt64) (words : List Word)
  | discover
deriving DecidableEq, Repr

namespace Verb

def all : List Verb :=
  [smoke, read, write, readField, writeField, datRead, datWrite, dctRead, dctWrite, discover]

def label : Verb → String
  | smoke => "smoke"
  | read => "read"
  | write => "write"
  | readField => "read-field"
  | writeField => "write-field"
  | datRead => "dat-read"
  | datWrite => "dat-write"
  | dctRead => "dct-read"
  | dctWrite => "dct-write"
  | discover => "discover"

def ofText? (text : String) : Option Verb := all.find? fun v => v.label == text

/-- The positional arguments of a verb, all of them required. -/
def positionals : Verb → List Argument
  | smoke | discover => []
  | read => [.reg]
  | write => [.reg, .value]
  | readField => [.location, .low, .mask]
  | writeField => [.location, .low, .mask, .value]
  | datRead | dctRead => [.index]
  | datWrite => [.index, .words .dat]
  | dctWrite => [.index, .words .dct]

/-- The options of a verb that other verbs do not have. -/
def options : Verb → List Argument
  | readField | writeField => [.space, .word]
  | _ => []

/-- The field asked for: in register space and in word 0 unless said otherwise. -/
def fieldPlace? (g : Given) : Option FieldPlace := do
  let field : Field := ⟨g.word.getD 0, ← g.low, ← g.mask⟩
  return ⟨g.space.getD .csr, ← g.location, field⟩

/-- The words for an entry, if there are any. -/
def words? (g : Given) : Option (List Word) := if g.words.isEmpty then none else some g.words

/-- The command, if nothing is missing. -/
def command? (v : Verb) (g : Given) : Option Command :=
  match v with
  | smoke => some .smoke
  | read => return .read (← g.reg)
  | write => return .write (← g.reg) (← g.value)
  | readField => return .readField (← fieldPlace? g)
  | writeField => return .writeField (← fieldPlace? g) (← g.value)
  | datRead => return .readEntry .dat (← g.index)
  | datWrite => return .writeEntry .dat (← g.index) (← words? g)
  | dctRead => return .readEntry .dct (← g.index)
  | dctWrite => return .writeEntry .dct (← g.index) (← words? g)
  | discover => some .discover

/-- The command, or the arguments that are missing. -/
def command (v : Verb) (g : Given) : Except UsageFault Command :=
  match v.command? g with
  | some c => .ok c
  | none => .error (.missing (v.positionals.filter fun a => !g.has a))

end Verb

end I3CHost.CommandLine
