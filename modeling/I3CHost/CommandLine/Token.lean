/-!
# Words of a command line

A word is told apart by its first characters alone. One dash by itself is an ordinary word, and so
is the empty word.
-/
namespace I3CHost.CommandLine

/-- A word of the command line by its looks. -/
inductive Token where
  /-- Two dashes alone. -/
  | escape
  /-- Two dashes and a name, with a value after an equals sign. -/
  | long (name : String) (value : Option String)
  /-- One dash and a letter; what follows the letter does not matter. -/
  | short (letter : Char)
  | plain
deriving DecidableEq, Repr

namespace Token

/-- The name before the first equals sign, and the value after it. -/
def ofLong (cs : List Char) : Token :=
  let name := String.ofList (cs.takeWhile (· != '='))
  match cs.dropWhile (· != '=') with
  | [] => long name none
  | _ :: value => long name (some (String.ofList value))

def ofText (text : String) : Token :=
  match text.toList with
  | ['-', '-'] => escape
  | '-' :: '-' :: cs => ofLong cs
  | '-' :: c :: _ => short c
  | _ => plain

end Token

end I3CHost.CommandLine
