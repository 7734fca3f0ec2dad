import I3CHost.CommandLine.Command
import I3CHost.CommandLine.Token

/-!
# Reading one level

A command line has two levels: options that hold for every command, then a verb with its own
arguments. Each level is read from left to right by one small machine. Values that belong to an
argument are collected first and judged when the next argument starts, so a word that belongs
nowhere is reported before a bad value to the left of it.

After `--` everything is positional. An option that waits for its value takes the next word even if
it is a verb; a word that starts with a dash is never taken as a value.
-/
namespace I3CHost.CommandLine

/-- Why reading ends without a command. -/
inductive Stop where
  | fault (f : UsageFault)
  | help
  | version
  /-- There was nothing to read. -/
  | nothing
deriving DecidableEq, Repr

/-! ## Levels -/

/-- What may stand at one level. -/
structure Level where
  options : List Argument
  positionals : List Argument
  /-- A verb may follow. -/
  hasVerbs : Bool

/-- The options of both levels. -/
def sharedOptions : List Argument := [.device, .base, .size, .software, .help]

namespace Level

def outer : Level := ⟨sharedOptions ++ [.version], [], true⟩

def ofVerb (v : Verb) : Level := ⟨sharedOptions ++ v.options, v.positionals, false⟩

/-- The name of the verb that explains the others. -/
def helpVerb : String := "help"

/-- The fault of a positional word for which there is no place. -/
def surplus (l : Level) (trailing : Bool) (text : String) : UsageFault :=
  let isVerb := (Verb.ofText? text).isSome || text == helpVerb
  if l.hasVerbs && !(trailing && isVerb) then .unrecognizedSubcommand text
  else .unexpectedArgument text

end Level

/-! ## The machine -/

structure Scan where
  given : Given
  /-- The argument whose values are being collected. -/
  pending : Option (Argument × List String)
  /-- Positional arguments still to come; one of several values stays. -/
  slots : List Argument
  /-- Two dashes have been seen. -/
  trailing : Bool

namespace Scan

def start (l : Level) : Scan := ⟨.nothing, none, l.positionals, false⟩

/-- An option waits for its value. -/
def isAwaiting (s : Scan) : Bool :=
  match s.pending with
  | some (_, []) => !s.trailing
  | _ => false

/-- One complete occurrence of an argument. -/
def give (s : Scan) (a : Argument) (texts : List String) : Except Stop Scan :=
  match s.given.put a texts with
  | .ok given => .ok { s with given }
  | .error f => .error (.fault f)

/-- Judge what has been collected. -/
def settle (s : Scan) : Except Stop Scan :=
  match s.pending with
  | none => .ok s
  | some (a, texts) => { s with pending := none }.give a texts

/-- A flag takes effect at once. -/
def flag (s : Scan) (a : Argument) : Except Stop Scan := do
  let s ← s.settle
  match a with
  | .help => .error .help
  | .version => .error .version
  | _ => s.give a []

/-- An option or flag by name. -/
def long (s : Scan) (l : Level) (name : String) (value : Option String) : Except Stop Scan :=
  match l.options.find? fun a => a.name? == some name, value with
  | none, _ => .error (.fault (.unexpectedArgument ("--" ++ name)))
  | some a, some text =>
    if a.isFlag then .error (.fault (.unexpectedValue text a))
    else do (← s.settle).give a [text]
  | some a, none =>
    if a.isFlag then s.flag a
    else do return { ← s.settle with pending := some (a, []) }

/-- A flag by letter. -/
def short (s : Scan) (l : Level) (letter : Char) : Except Stop Scan :=
  match l.options.find? fun a => a.letter? == some letter with
  | some a => s.flag a
  | none => .error (.fault (.unexpectedArgument (String.ofList ['-', letter])))

/-- A positional word. -/
def positional (s : Scan) (l : Level) (text : String) : Except Stop Scan :=
  match s.slots with
  | [] => .error (.fault (l.surplus s.trailing text))
  | a :: slots =>
    match s.pending with
    | some (b, texts) =>
      if a = b then .ok { s with pending := some (a, texts ++ [text]) }
      else do
        return { ← s.settle with
          pending := some (a, [text]), slots := if a.isMany then s.slots else slots }
    | none =>
      .ok { s with pending := some (a, [text]), slots := if a.isMany then s.slots else slots }

/-- The value an option waits for, or a positional word. -/
def plain (s : Scan) (l : Level) (text : String) : Except Stop Scan :=
  match s.pending, s.isAwaiting with
  | some (a, _), true => .ok { s with pending := some (a, [text]) }
  | _, _ => s.positional l text

/-- One word. -/
def step (s : Scan) (l : Level) (text : String) : Except Stop Scan :=
  if s.trailing then s.positional l text
  else
    match Token.ofText text with
    | .escape => .ok { s with trailing := true }
    | .long name value => s.long l name value
    | .short letter => s.short l letter
    | .plain => s.plain l text

end Scan

namespace Level

/-- What the verb that explains the others answers: it takes the name of one verb. -/
def helpOn : List String → Stop
  | [] => .help
  | text :: rest =>
    if (Verb.ofText? text).isSome || text == helpVerb then
      match rest with
      | [] => .help
      | text :: _ => .fault (.unrecognizedSubcommand text)
    else .fault (.unrecognizedSubcommand text)

/-- Read a level up to the end or up to a verb, which is returned with the words after it. -/
def scan (l : Level) : Scan → List String → Except Stop (Scan × Option (Verb × List String))
  | s, [] => .ok (s, none)
  | s, text :: rest =>
    if l.hasVerbs && !s.trailing && !s.isAwaiting && text == helpVerb then .error (helpOn rest)
    else
      match if l.hasVerbs && !s.trailing && !s.isAwaiting then Verb.ofText? text else none with
      | some v => .ok (s, some (v, rest))
      | none =>
        match s.step l text with
        | .ok s => l.scan s rest
        | .error e => .error e

end Level

end I3CHost.CommandLine
