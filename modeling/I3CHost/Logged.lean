import I3CHost.Event

/-!
# Work that needs no bus

Opening a window or reading settings touches no register, but it can fail and it is logged. A
`Logged` value is the result with the events that came before it.
-/
namespace I3CHost

structure Logged (α : Type) where
  result : Except Fault α
  events : List Event

namespace Logged

variable {α β : Type}

/-- Go on with the value, if there is one. -/
def bind (x : Logged α) (f : α → Logged β) : Logged β :=
  match x.result with
  | .ok a => ⟨(f a).result, x.events ++ (f a).events⟩
  | .error e => ⟨.error e, x.events⟩

instance : Monad Logged where
  pure a := ⟨.ok a, []⟩
  bind := bind

def emit (event : Event) : Logged Unit := ⟨.ok (), [event]⟩

def fail (fault : Fault) : Logged α := ⟨.error fault, []⟩

def ofExcept (result : Except Fault α) : Logged α := ⟨result, []⟩

end Logged

/-- The standard settings under variables and amendments. The event tells the settings before the
amendments. -/
def Settings.gather (env : Environment) (a : Amendments) : Logged Settings := do
  let s ← Logged.ofExcept (Settings.ofVariables env)
  Logged.emit (.settings s)
  return s.amend a

end I3CHost
