import I3CHost.Settings
import I3CHost.Text.Styled

/-!
# Appearance

Texts for people are marked on request only, since the output need not go to a terminal. One
variable asks for marks and another forbids them; the one that forbids wins, and a variable without
a text asks for nothing.
-/
namespace I3CHost.CommandLine

inductive Appearance where
  | plain
  | marked
deriving DecidableEq, Repr

namespace Appearance

/-- Asks for marks. -/
def forceVariable : String := "CLICOLOR_FORCE"

/-- Forbids marks. -/
def plainVariable : String := "NO_COLOR"

/-- A variable is set to some text. -/
def isRaised (env : Environment) (name : String) : Bool :=
  match env.lookup name with
  | some text => !text.isEmpty
  | none => false

/-- The appearance that the variables ask for. -/
def ofVariables (env : Environment) : Appearance :=
  if isRaised env forceVariable && !isRaised env plainVariable then marked else plain

def render : Appearance → List Text.Span → String
  | plain => Text.plain
  | marked => Text.encode

end Appearance

end I3CHost.CommandLine
