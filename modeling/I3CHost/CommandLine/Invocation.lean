import I3CHost.CommandLine.Scan

/-!
# Command lines

The shared options may stand at either level, and the inner one wins. The last argument of the
outer level is judged only when the level of the verb is complete, so a fault further right can be
the one that is reported.
-/
namespace I3CHost.CommandLine

/-- A command with the options of both levels. -/
structure Invocation where
  software : Bool
  amendments : Amendments
  command : Command

namespace Invocation

/-- The shared options of the inner level, and those of the outer level where it has none. -/
def ofLevels (inner outer : Given) (command : Command) : Invocation where
  software := inner.software || outer.software
  amendments :=
    { devicePath := inner.device.or outer.device
      baseAddress := inner.base.or outer.base
      windowSize := inner.size.or outer.size
      dat := none
      dct := none }
  command := command

/-- Read a command line, without the name of the program. -/
def ofArguments (arguments : List String) : Except Stop Invocation := do
  let (outer, entered) ← Level.outer.scan (Scan.start .outer) arguments
  match entered with
  | none =>
    let outer ← outer.settle
    if outer.given = .nothing then .error .nothing else .error (.fault .noSubcommand)
  | some (v, rest) =>
    let level := Level.ofVerb v
    let (inner, _) ← level.scan (Scan.start level) rest
    let inner ← inner.settle
    match v.command inner.given with
    | .error f => .error (.fault f)
    | .ok command =>
      let outer ← outer.settle
      return ofLevels inner.given outer.given command

end Invocation

end I3CHost.CommandLine
