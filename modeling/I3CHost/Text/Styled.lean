import I3CHost.Text.Controls

/-!
# Styled text

A text for people is a list of parts, some of them set off by a mark. A marked part stands between
the control sequence of its mark and a reset, so what a part holds does not reach beyond it. Where
marks cannot be shown they are left out together with every control function that a part brings
along.
-/
namespace I3CHost.Text

/-- What a part of a text is set off as. -/
inductive Mark where
  /-- The word that announces a fault. -/
  | headline
  /-- What has been given and is at fault. -/
  | invalid
  /-- What could have been given. -/
  | valid
  /-- What is to be typed as it stands. -/
  | literal
deriving DecidableEq, Repr

namespace Mark

/-- Bold red, yellow, green and bold. -/
def opening : Mark → String
  | headline => "\x1b[1m\x1b[31m"
  | invalid => "\x1b[33m"
  | valid => "\x1b[32m"
  | literal => "\x1b[1m"

/-- Takes back every mark. -/
def closing : String := String.ofList ControlReader.reset

end Mark

/-- A part of a text. -/
inductive Span where
  | bare (text : String)
  | marked (mark : Mark) (text : String)
deriving DecidableEq, Repr

/-- A part with its mark as control sequences. -/
def Span.encode : Span → String
  | bare text => text
  | marked mark text => mark.opening ++ text ++ Mark.closing

/-- A text with its marks. -/
def encode (spans : List Span) : String := String.join (spans.map Span.encode)

/-- A text without marks. -/
def plain (spans : List Span) : String := withoutControls (encode spans)

end I3CHost.Text
