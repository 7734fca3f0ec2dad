import I3CHost.Controller

/-!
# Methods that see their faults

A `Bus` program ends at the first access that fails. The methods of a driver need not: each access
hands its outcome back, a fault as well as a word, and a method that is handed a fault may make the
access again, carry on without it, or change the layouts in use before it gives up. `Calls` is the
syntax of what can be done so.

A `Procedure` borrows the window and may pass a fault up. A `Method` has the controller itself in
hand too, and what it assigned stays assigned when it fails. In the `do` notation of both, going on
to the next line is going on after a success; a fault that is not caught ends the block.
-/
namespace I3CHost

/-- Accesses whose outcomes are values. -/
inductive Calls (α : Type) where
  | done (value : α)
  | load (offset : Address) (next : Except Fault Word → Calls α)
  | store (offset : Address) (value : Word) (next : Except Fault Unit → Calls α)
  | note (event : Event) (next : Calls α)

namespace Calls

variable {α β γ σ : Type}

def bind : Calls α → (α → Calls β) → Calls β
  | done a, f => f a
  | load o next, f => load o fun x => (next x).bind f
  | store o v next, f => store o v fun x => (next x).bind f
  | note e next, f => note e (next.bind f)

instance : Monad Calls where
  pure := done
  bind := bind

theorem bind_done (p : Calls α) : p.bind done = p := by
  induction p with
  | done => rfl
  | load o next ih => simp only [bind, ih]
  | store o v next ih => simp only [bind, ih]
  | note e next ih => simp only [bind, ih]

theorem bind_assoc (p : Calls α) (f : α → Calls β) (g : β → Calls γ) :
    (p.bind f).bind g = p.bind fun a => (f a).bind g := by
  induction p with
  | done => rfl
  | load o next ih => simp only [bind, ih]
  | store o v next ih => simp only [bind, ih]
  | note e next ih => simp only [bind, ih]

instance : LawfulMonad Calls := LawfulMonad.mk' Calls bind_done (fun _ _ => rfl) bind_assoc

/-- What became of some calls. -/
structure Record (σ α : Type) where
  value : α
  state : σ
  transactions : List Transaction
  events : List Event

/-- The record of calls of which one more came first. -/
def Record.after (o : Record σ α) (t : Transaction) (events : List Event) : Record σ α :=
  { o with transactions := t :: o.transactions, events := events ++ o.events }

def loaded (offset : Address) : Except Fault Word → Transaction
  | .ok w => .load offset (some w)
  | .error _ => .load offset none

def stored (offset : Address) (value : Word) : Except Fault Unit → Transaction
  | .ok _ => .store offset value true
  | .error _ => .store offset value false

/-- Let a responder answer; what comes after a failed access is up to the calls. -/
def run (r : Responder σ) : Calls α → σ → Record σ α
  | done a, s => ⟨a, s, [], []⟩
  | load o next, s =>
    let reply := r.load o s
    (run r (next reply.result) reply.state).after (loaded o reply.result) reply.events
  | store o v next, s =>
    let reply := r.store o v s
    (run r (next reply.result) reply.state).after (stored o v reply.result) reply.events
  | note e next, s =>
    let rest := run r next s
    { rest with events := e :: rest.events }

end Calls

/-- What borrows the window. -/
abbrev Procedure := ExceptT Fault Calls

namespace Procedure

variable {α σ : Type}

def load (offset : Address) : Procedure Word := ExceptT.mk (.load offset .done)

def store (offset : Address) (value : Word) : Procedure Unit :=
  ExceptT.mk (.store offset value .done)

def emit (event : Event) : Procedure Unit := ExceptT.mk (.note event (.done (.ok ())))

/-- The value of a check that needs no bus, or its fault. -/
def require (x : Except Fault α) : Procedure α := ExceptT.mk (.done x)

def run (r : Responder σ) (p : Procedure α) (s : σ) : Outcome σ α :=
  let o := Calls.run r (ExceptT.run p) s
  ⟨o.value, o.state, o.transactions, o.events⟩

end Procedure

/-- What has the controller in hand. -/
abbrev Method := ExceptT Fault (StateT Controller Calls)

/-- A procedure on the window of the controller. -/
def Procedure.method {α : Type} (p : Procedure α) : Method α :=
  ExceptT.mk fun c => (ExceptT.run p).bind fun x => .done (x, c)

instance : MonadLift Procedure Method := ⟨Procedure.method⟩

end I3CHost
