import I3CHost.Event

/-!
# Bus programs

Everything above the bus is written as a program that asks for one aligned load or store at a time.
`Bus α` is the syntax of such programs: it ends with a value or a fault, and in between it loads,
stores and emits log events. A program never sees a failed access; the first one ends it. In the
wider syntax of `Calls` a failed access is a value like another and could be made again; the methods
of the driver are written there as well and proved to do what the programs do.

`Responder σ` is what answers: a window of registers with its state, which may be a model, a
mapped file, or either of these behind a fuse. `Bus.run` lets a responder answer a program and
keeps the transactions in order, the failed one included.
-/
namespace I3CHost

/-- A program over a register window. -/
inductive Bus (α : Type) where
  | done (value : α)
  | stop (fault : Fault)
  | load (offset : Address) (next : Word → Bus α)
  | store (offset : Address) (value : Word) (next : Bus α)
  | note (event : Event) (next : Bus α)

namespace Bus

variable {α β : Type}

/-- Run the first program, then the one chosen by its value. -/
def bind : Bus α → (α → Bus β) → Bus β
  | done a, f => f a
  | stop e, _ => stop e
  | load o next, f => load o fun w => (next w).bind f
  | store o v next, f => store o v (next.bind f)
  | note e next, f => note e (next.bind f)

instance : Monad Bus where
  pure := done
  bind := bind

@[simp] theorem pure_eq (a : α) : (pure a : Bus α) = done a := rfl
@[simp] theorem bind_eq (p : Bus α) (f : α → Bus β) : p >>= f = p.bind f := rfl

theorem bind_done (p : Bus α) : p.bind done = p := by
  induction p with
  | done => rfl
  | stop => rfl
  | load o next ih => simp only [bind, ih]
  | store o v next ih => simp only [bind, ih]
  | note e next ih => simp only [bind, ih]

theorem bind_assoc {γ : Type} (p : Bus α) (f : α → Bus β) (g : β → Bus γ) :
    (p.bind f).bind g = p.bind fun a => (f a).bind g := by
  induction p with
  | done => rfl
  | stop => rfl
  | load o next ih => simp only [bind, ih]
  | store o v next ih => simp only [bind, ih]
  | note e next ih => simp only [bind, ih]

instance : LawfulMonad Bus := LawfulMonad.mk' Bus bind_done (fun _ _ => rfl) bind_assoc

/-- One load. -/
def read (offset : Address) : Bus Word := load offset done

/-- One store. -/
def write (offset : Address) (value : Word) : Bus Unit := store offset value (done ())

/-- One log event. -/
def emit (event : Event) : Bus Unit := note event (done ())

/-- The value of a check that needs no bus, or its fault. -/
def ofExcept : Except Fault α → Bus α
  | .ok a => done a
  | .error e => stop e

end Bus

/-- One bus access as an observer sees it. -/
inductive Transaction where
  /-- A load, with the word if it was answered. -/
  | load (offset : Address) (value : Option Word)
  /-- A store, and whether it was accepted. -/
  | store (offset : Address) (value : Word) (accepted : Bool)
deriving DecidableEq, Repr

/-- How a responder answers one access. -/
structure Reply (σ α : Type) where
  result : Except Fault α
  state : σ
  events : List Event

/-- Something that answers accesses and has a state. -/
structure Responder (σ : Type) where
  load : Address → σ → Reply σ Word
  store : Address → Word → σ → Reply σ Unit

/-- What became of a program, and what could be observed on the way. -/
structure Outcome (σ α : Type) where
  result : Except Fault α
  state : σ
  transactions : List Transaction
  events : List Event

namespace Outcome

variable {σ α β : Type}

/-- The outcome of a program of which one more transaction came first. -/
def after (o : Outcome σ α) (t : Transaction) (events : List Event) : Outcome σ α :=
  { o with transactions := t :: o.transactions, events := events ++ o.events }

/-- Go on from the state reached, if there is a value; what was observed before stays in front. -/
def andThen (o : Outcome σ α) (f : α → σ → Outcome σ β) : Outcome σ β :=
  match o.result with
  | .ok a =>
    let rest := f a o.state
    { rest with
      transactions := o.transactions ++ rest.transactions
      events := o.events ++ rest.events }
  | .error e => ⟨.error e, o.state, o.transactions, o.events⟩

theorem andThen_after (o : Outcome σ α) (t : Transaction) (events : List Event)
    (f : α → σ → Outcome σ β) : (o.after t events).andThen f = (o.andThen f).after t events := by
  obtain ⟨result, s, ts, es⟩ := o
  cases result <;> simp [after, andThen]

end Outcome

namespace Bus

variable {σ α β : Type}

/-- Let a responder answer a program. -/
def run (r : Responder σ) : Bus α → σ → Outcome σ α
  | done a, s => ⟨.ok a, s, [], []⟩
  | stop e, s => ⟨.error e, s, [], []⟩
  | load o next, s =>
    let reply := r.load o s
    match reply.result with
    | .ok w => (run r (next w) reply.state).after (.load o (some w)) reply.events
    | .error e => ⟨.error e, reply.state, [.load o none], reply.events⟩
  | store o v next, s =>
    let reply := r.store o v s
    match reply.result with
    | .ok _ => (run r next reply.state).after (.store o v true) reply.events
    | .error e => ⟨.error e, reply.state, [.store o v false], reply.events⟩
  | note e next, s =>
    let rest := run r next s
    { rest with events := e :: rest.events }

theorem run_done (r : Responder σ) (a : α) (s : σ) : (done a).run r s = ⟨.ok a, s, [], []⟩ := rfl

/-- A program in two parts runs as its first part and then, from the state reached, its second. -/
theorem run_bind (r : Responder σ) (p : Bus α) (f : α → Bus β) (s : σ) :
    (p.bind f).run r s = (p.run r s).andThen fun a s => (f a).run r s := by
  induction p generalizing s with
  | done a => simp [bind, run, Outcome.andThen]
  | stop e => simp [bind, run, Outcome.andThen]
  | load o next ih =>
    simp only [bind, run]
    cases h : (r.load o s).result with
    | ok w => simp only [ih, Outcome.andThen_after]
    | error e => simp [Outcome.andThen]
  | store o v next ih =>
    simp only [bind, run]
    cases h : (r.store o v s).result with
    | ok u => simp only [ih, Outcome.andThen_after]
    | error e => simp [Outcome.andThen]
  | note e next ih =>
    simp only [bind, run, ih]
    cases h : (run r next s).result <;> simp [Outcome.andThen, h]

end Bus

end I3CHost
