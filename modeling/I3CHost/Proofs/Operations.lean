import I3CHost.Proofs.Courses
import I3CHost.Session

/-!
# Runs of a controller

A driver is a controller with the window it owns. An operation is a request through the controller
as it then is, or a discovery; it returns an answer, the accesses it made and the driver after it.
Requests leave the controller alone. A discovery replaces it if it succeeds.

The steps of a session that reach the bus are such operations on its target behind the fuse, so
whatever holds of every run of operations over every window holds of sessions.
-/
namespace I3CHost

/-- A controller over a window with its state. -/
structure Driver (σ : Type) where
  controller : Controller
  io : σ

inductive Operation where
  /-- A request through the controller as it is at the time. -/
  | access (a : Controller → Access)
  | discover

variable {σ : Type}

def Operation.run (r : Responder σ) (d : Driver σ) : Operation → Outcome (Driver σ) Answer
  | access a =>
    let o := (a d.controller).program.run r d.io
    ⟨o.result, ⟨d.controller, o.state⟩, o.transactions, o.events⟩
  | discover =>
    let o := d.controller.discover.run r d.io
    match o.result with
    | .ok c => ⟨.ok (.layouts c.dat c.dct), ⟨c, o.state⟩, o.transactions, o.events⟩
    | .error e => ⟨.error e, ⟨d.controller, o.state⟩, o.transactions, o.events⟩

/-- A discovery as an operation makes the accesses of its program and leaves the window in the same
state; only the value is told in other words. -/
theorem Operation.run_discover (r : Responder σ) (d : Driver σ) :
    let o := d.controller.discover.run r d.io
    let o' := Operation.discover.run r d
    o'.result = (o.result.map fun c => .layouts c.dat c.dct) ∧ o'.state.io = o.state ∧
      o'.transactions = o.transactions := by
  intro o o'
  simp only [o, o', Operation.run]
  cases h : (d.controller.discover.run r d.io).result with
  | ok c => exact ⟨rfl, rfl, rfl⟩
  | error e => exact ⟨rfl, rfl, rfl⟩

/-- An operation that fails leaves the layouts. -/
theorem Operation.controller_of_error {r : Responder σ} {d : Driver σ} {op : Operation} {e : Fault}
    (h : (op.run r d).result = .error e) : (op.run r d).state.controller = d.controller := by
  cases op with
  | access a => rfl
  | discover =>
      unfold Operation.run at h ⊢
      cases hr : (d.controller.discover.run r d.io).result with
      | ok c =>
          simp only [hr] at h
          cases h
      | error e => simp only [hr]

/-- The driver after some operations. -/
def Driver.after (r : Responder σ) (d : Driver σ) (ops : List Operation) : Driver σ :=
  ops.foldl (fun d op => (op.run r d).state) d

/-- What every operation keeps, every run keeps. -/
theorem Driver.after_preserves {r : Responder σ} {P : Driver σ → Prop}
    (hstep : ∀ d op, P d → P (Operation.run r d op).state) {d : Driver σ} (h : P d)
    (ops : List Operation) : P (d.after r ops) := by
  unfold Driver.after
  induction ops generalizing d with
  | nil => exact h
  | cons op ops ih => exact ih (hstep d op h)

theorem Screened.size_operation {r : Responder σ} {size : σ → Address} (hr : Screened r size)
    (d : Driver σ) (op : Operation) : size (op.run r d).state.io = size d.io := by
  cases op with
  | access a => exact hr.size_run _ d.io
  | discover =>
      rw [(Operation.run_discover r d).2.1]
      exact hr.size_run d.controller.discover d.io

/-! ## Sessions -/

/-- The step of a session that asks for an operation. -/
def Operation.step : Operation → Step
  | access a => .access a
  | discover => .discover

namespace Session

/-- The controller of a session over the target behind its fuse. -/
def driver (s : Session) : Driver (Fuse × Target × DeviceTree) :=
  ⟨s.controller, s.fuse, s.target, s.tree⟩

def withDriver (s : Session) (d : Driver (Fuse × Target × DeviceTree)) : Session :=
  { s with controller := d.controller, fuse := d.io.1, target := d.io.2.1, tree := d.io.2.2 }

/-- A session does an operation as its driver does. -/
theorem step_operation (s : Session) (op : Operation) :
    let o := op.run (Fuse.guard Fuse.blown Target.responder) s.driver
    s.step op.step = (⟨o.result, o.transactions, o.events⟩, s.withDriver o.state) := by
  cases op with
  | access a =>
      simp only [Operation.step, step, answered, perform, Operation.run, driver, withDriver,
        Except.map_id, id]
  | discover =>
      simp only [Operation.step, step, perform, Operation.run, driver]
      cases h : (s.controller.discover.run (Fuse.guard Fuse.blown Target.responder)
          (s.fuse, s.target, s.tree)).result with
      | ok c => simp only [answered, withDriver, Except.map]
      | error e => simp only [answered, withDriver, Except.map]

end Session

end I3CHost
