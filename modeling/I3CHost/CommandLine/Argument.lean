import I3CHost.Settings
import I3CHost.Text.Styled

/-!
# Arguments

What can be given on the command line: options and flags by name, and positional values; and what
can be wrong with it, as causes. The wording of a value's fault stands in `ValueFault.message?`. A
command line is taken apart by a parser that has its own words for what is wrong with it; those are
a parameter of the program, and `UsageFault.notice` is as much of them as is repeated here.
-/
namespace I3CHost.CommandLine

inductive Argument where
  | device
  | base
  | size
  | software
  | space
  | word
  | help
  | version
  | reg
  | value
  | location
  | low
  | mask
  | index
  /-- Words for an entry of a table. -/
  | words (table : TableKind)
deriving DecidableEq, Repr

namespace Argument

/-- The name after two dashes, for an option or a flag. -/
def name? : Argument → Option String
  | device => some "device"
  | base => some "base"
  | size => some "size"
  | software => some "software"
  | space => some "space"
  | word => some "word"
  | help => some "help"
  | version => some "version"
  | _ => none

/-- The letter after one dash. -/
def letter? : Argument → Option Char
  | help => some 'h'
  | version => some 'V'
  | _ => none

/-- How an argument is shown in a fault. -/
def display : Argument → String
  | device => "--device <DEVICE>"
  | base => "--base <BASE>"
  | size => "--size <SIZE>"
  | software => "--software"
  | space => "--space <SPACE>"
  | word => "--word <WORD>"
  | help => "--help"
  | version => "--version"
  | reg => "<REG>"
  | value => "<VALUE>"
  | location => "<LOCATION>"
  | low => "<LOW>"
  | mask => "<MASK>"
  | index => "<INDEX>"
  | words _ => "<WORDS>..."

/-- The most values one occurrence may have. -/
def most : Argument → Nat
  | software | help | version => 0
  | words table => (TableLayout.standard table).entryWords.toNat
  | _ => 1

/-- Flags stand alone; everything else has at least one value. -/
def isFlag (a : Argument) : Bool := a.most == 0

/-- A positional argument of several values. -/
def isMany : Argument → Bool
  | words _ => true
  | _ => false

end Argument

/-! ## Faults -/

/-- Why a value is not accepted. -/
inductive ValueFault where
  | unknownChoice
  | settings (why : Fault)
  | tooWide (text : String)
  | numeral (why : Text.NumeralFault)
  | notAByte (n : Int)
deriving DecidableEq, Repr

/-- The reason, if one is given. -/
def ValueFault.message? : ValueFault → Option String
  | unknownChoice => none
  | settings why => some why.message
  | tooWide text => some (text ++ " does not fit in 32 bits")
  | numeral why => some why.message
  | notAByte n => some s!"{n} is not in 0..=255"

/-- Why a command line is not accepted. -/
inductive UsageFault where
  | unexpectedArgument (text : String)
  | unrecognizedSubcommand (text : String)
  | unexpectedValue (text : String) (a : Argument)
  | valueRequired (a : Argument)
  | repeated (a : Argument)
  | invalidValue (text : String) (a : Argument) (why : ValueFault)
  | missing (arguments : List Argument)
  | noSubcommand
deriving DecidableEq, Repr

namespace UsageFault

/-- What is wrong, with the words of the command line marked. A reason may quote its value once
more; that text is not marked. -/
def parts : UsageFault → List Text.Span
  | unexpectedArgument text =>
    [.bare "unexpected argument '", .marked .invalid text, .bare "' found"]
  | unrecognizedSubcommand text =>
    [.bare "unrecognized subcommand '", .marked .invalid text, .bare "'"]
  | unexpectedValue text a =>
    [.bare "unexpected value '", .marked .invalid text, .bare "' for '",
      .marked .literal a.display, .bare "' found; no more were expected"]
  | valueRequired a =>
    [.bare "a value is required for '", .marked .invalid a.display,
      .bare "' but none was supplied"]
  | repeated a =>
    [.bare "the argument '", .marked .invalid a.display,
      .bare "' cannot be used multiple times"]
  | invalidValue text a why =>
    [.bare "invalid value '", .marked .invalid text, .bare "' for '",
      .marked .literal a.display, .bare "'"]
      ++ match why.message? with
        | some m => [.bare (": " ++ m)]
        | none => []
  | missing arguments =>
    .bare "the following required arguments were not provided:"
      :: arguments.flatMap fun a => [.bare "\n  ", .marked .valid a.display]
  | noSubcommand =>
    [.bare "'", .marked .invalid "i3c", .bare "' requires a subcommand but one was not provided"]

/-- A headline, what is wrong, and where to read more. -/
def notice (f : UsageFault) : List Text.Span :=
  [.marked .headline "error:", .bare " "] ++ f.parts
    ++ [.bare "\n\nFor more information, try '", .marked .literal "--help", .bare "'.\n"]

end UsageFault

end I3CHost.CommandLine
