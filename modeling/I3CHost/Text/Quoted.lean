import I3CHost.Text.Radix
import I3CHost.Text.Unseen

/-!
# Quoted text

A path is shown in the log between double quotes. The double quote and the backslash get a
backslash, the usual control characters their letter, and any other character without a mark of its
own is shown by its code point. So the quotes that enclose a path are the only bare ones, and no
two paths look alike.
-/
namespace I3CHost.Text

/-- The code point between braces. -/
def codePoint (c : Char) : List Char :=
  '\\' :: 'u' :: Char.ofNat 0x7B :: (hexDigits c.toNat ++ [Char.ofNat 0x7D])

/-- How one character stands inside quotes. -/
def quoteChar (c : Char) : List Char :=
  if c = '"' then ['\\', '"']
  else if c = '\\' then ['\\', '\\']
  else if c = '\n' then ['\\', 'n']
  else if c = '\r' then ['\\', 'r']
  else if c = '\t' then ['\\', 't']
  else if c = Char.ofNat 0 then ['\\', '0']
  else if isUnseen c then codePoint c
  else [c]

/-- The text between double quotes. -/
def quote (s : String) : String :=
  "\"" ++ String.ofList (s.toList.flatMap quoteChar) ++ "\""

end I3CHost.Text
