/-!
# Listings

Values with parts are shown over several lines: one part a line, indented by four blanks and closed
by a comma, between a line that opens and a line that closes. A list without items stays on one
line. Parts are taken as they are; a part of several lines is not indented further.
-/
namespace I3CHost.Text

/-- A part on a line of its own. -/
def part (text : String) : String := "    " ++ text ++ ",\n"

/-- A list, one item a line. -/
def lines (items : List String) : String :=
  if items.isEmpty then "[]" else "[\n" ++ String.join (items.map part) ++ "]"

/-- A named value with named members, one member a line. -/
def record (name : String) (members : List (String × String)) : String :=
  name ++ " \x7b\n" ++ String.join (members.map fun m => part (m.1 ++ ": " ++ m.2)) ++ "\x7d"

end I3CHost.Text
