import I3CHost.Access
import I3CHost.Target

/-!
# Sessions

A session drives one controller over one target, a step at a time, and can open another target in
its place. Each step gives a result, the bus transactions it caused and the events it logged. A
fuse stands between the controller and the target; work behind the bus does not pass it. The fuse
stays in place when another target is opened. The tree of device files outlives the targets, so a
window opened later sees what an earlier one stored.
-/
namespace I3CHost

/-- What to open. -/
inductive Opening where
  /-- A software window with the given registers put in place. -/
  | model (controller : Bool) (size : Address) (registers : List (Address × Word × Word))
  | mapping (path : String) (base size : Address)
  | mappingOf (env : Environment) (a : Amendments)
  | selected (s : Selection) (env : Environment) (a : Amendments)

/-- How the controller over a new target gets its layouts. -/
inductive LayoutSource where
  | standard
  | given (dat dct : TableLayout)
  | settings (env : Environment) (a : Amendments)

/-- A step. -/
inductive Step where
  /-- An access through the controller as it is at the time of the step. -/
  | access (a : Controller → Access)
  /-- The smoke sequence after some interrupts. -/
  | smoke (pending : List (InterruptSource × InterruptKind))
  | discover
  | layouts
  | info
  | relayout (dat dct : TableLayout)
  /-- Another target in place of this one, behind the same fuse. The old one stays if the new one
  cannot be had. -/
  | replace (target : Opening) (layouts : LayoutSource)
  | fuse (count : Option Nat)
  | peek (offset : Address)
  | poke (offset : Address) (value : Word)
  | withRegister (offset : Address) (reset writable : Word)
  | reset
  | resetStats
  | dump
  | fileBytes (path : String) (offset length : Nat)
  | patchFile (path : String) (offset : Nat) (bytes : List UInt8)

/-- What one step gave. -/
structure StepResult where
  result : Except Fault Answer
  transactions : List Transaction
  events : List Event

structure Session where
  tree : DeviceTree
  fuse : Fuse
  target : Target
  /-- The target was opened as such and not chosen by settings, so it can be asked about itself. -/
  isDirect : Bool
  controller : Controller

namespace Session

/-! ## Opening -/

/-- Open a target. -/
def openTarget (t : DeviceTree) : Opening → Logged Target
  | .model false size registers => do
    Logged.ofExcept (Model.roomFor size)
    return .model ((Model.blank size).withRegisters registers)
  | .model true size registers => do
    match ← Target.openModel size with
    | .model m => return .model (m.withRegisters registers)
    | other => return other
  | .mapping path base size => do
    return .mapping (← Mapping.openAt t path base size)
  | .mappingOf env a => do
    Target.openMapping t (← Settings.gather env a)
  | .selected s env a => do
    Target.select t (← Settings.gather env a) s

/-- A controller over a window of some size. -/
def controllerFor (window : Address) : LayoutSource → Logged Controller
  | .standard => pure (.standard window)
  | .given dat dct => pure ⟨window, dat, dct⟩
  | .settings env a => do
    Logged.ofExcept (Controller.ofSettings window (← Settings.gather env a))

def isDirectOpening : Opening → Bool
  | .selected .. => false
  | _ => true

/-- Open a target and a controller over it. If the controller is refused the target is closed
again. -/
def start (t : DeviceTree) (o : Opening) (l : LayoutSource) : Logged Session := do
  let target ← openTarget t o
  let made := controllerFor target.size l
  match made.result with
  | .ok controller => ⟨.ok ⟨t, .off, target, isDirectOpening o, controller⟩, made.events⟩
  | .error e => ⟨.error e, made.events ++ target.closing⟩

/-! ## Steps -/

/-- What a session says about its target. -/
def info (s : Session) : Answer :=
  let place :=
    match s.target, s.isDirect with
    | .mapping m, true => some (m.path, m.base)
    | _, _ => none
  .target s.target.label s.target.size place

/-- Let the target answer a program. -/
def perform {α : Type} (s : Session) (p : Bus α) : Outcome Session α :=
  let o := p.run (Fuse.guard Fuse.blown Target.responder) (s.fuse, s.target, s.tree)
  ⟨o.result, { s with fuse := o.state.1, target := o.state.2.1, tree := o.state.2.2 },
    o.transactions, o.events⟩

/-- A result that involved neither the bus nor the log. -/
def silent (result : Except Fault Answer) : StepResult := ⟨result, [], []⟩

/-- Work behind the bus of a model, with what it logs; a mapping refuses. -/
def onModel (s : Session) (f : Model → Model × Answer) (events : List Event) :
    StepResult × Session :=
  match s.target with
  | .model m => (⟨.ok (f m).2, [], events⟩, { s with target := .model (f m).1 })
  | .mapping _ => (silent (.error (.device "not a software model")), s)

/-- A program's outcome as a step. -/
def answered {α : Type} (o : Outcome Session α) (f : α → Answer) : StepResult × Session :=
  (⟨o.result.map f, o.transactions, o.events⟩, o.state)

/-- Record interrupts one after the other, with the events. -/
def recordAll (l : InterruptLog) :
    List (InterruptSource × InterruptKind) → InterruptLog × List Event
  | [] => (l, [])
  | (source, kind) :: rest =>
    let next := l.record source kind
    let later := recordAll next rest
    (later.1, .interrupt source kind next.interrupts :: later.2)

/-- The bytes of an open file from an offset on; those past its end are left out. -/
def fileBytes (t : DeviceTree) (path : String) (offset length : Nat) : Except Fault Answer :=
  match t.open? path with
  | .ok (place, _) => .ok (.bytes (((t.bytes place).toList.drop offset).take length))
  | .error why => .error (.device why.message)

def patchFile (t : DeviceTree) (path : String) (offset : Nat) (bytes : List UInt8) :
    Except Fault DeviceTree :=
  match t.open? path with
  | .ok (place, _) => .ok (t.modifyBytes place fun old => DeviceTree.overwrite old offset bytes)
  | .error why => .error (.device why.message)

/-- One step. -/
def step (s : Session) : Step → StepResult × Session
  | .access a => answered (s.perform (a s.controller).program) id
  | .smoke pending =>
    let (log, events) := recordAll .empty pending
    let (r, s) := answered (s.perform (Smoke.run s.controller log)) .report
    ({ r with events := events ++ r.events }, s)
  | .discover =>
    let o := s.perform s.controller.discover
    match o.result with
    | .ok c => answered { o with state := { o.state with controller := c } } fun c =>
        .layouts c.dat c.dct
    | .error _ => answered o fun c => .layouts c.dat c.dct
  | .layouts => (silent (.ok (.layouts s.controller.dat s.controller.dct)), s)
  | .info => (silent (.ok s.info), s)
  | .relayout dat dct =>
    (silent (.ok .nothing), { s with controller := { s.controller with dat, dct } })
  | .replace target layouts =>
    let opened := Session.start s.tree target layouts
    match opened.result with
    | .ok new =>
      (⟨.ok new.info, [], opened.events ++ s.target.closing⟩, { new with fuse := s.fuse })
    | .error e => (⟨.error e, [], opened.events⟩, s)
  | .fuse count => (silent (.ok .nothing), { s with fuse := ⟨count⟩ })
  | .peek offset => s.onModel (fun m => (m, .perhapsWord (m.peek offset))) []
  | .poke offset value => s.onModel (fun m => (m.poke offset value, .nothing)) []
  | .withRegister offset reset writable =>
    s.onModel (fun m => (m.withRegister offset reset writable, .nothing)) []
  | .reset => s.onModel (fun m => (m.reset, .nothing)) [.modelReset]
  | .resetStats => s.onModel (fun m => (m.resetStats, .nothing)) []
  | .dump => s.onModel (fun m => (m, .cells m.nonzero)) []
  | .fileBytes path offset length => (silent (fileBytes s.tree path offset length), s)
  | .patchFile path offset bytes =>
    match patchFile s.tree path offset bytes with
    | .ok t => (silent (.ok .nothing), { s with tree := t })
    | .error e => (silent (.error e), s)

/-- The counters of a model that is at hand. -/
def stats? (s : Session) : Option (UInt64 × UInt64) :=
  match s.target, s.isDirect with
  | .model m, true => some (m.reads, m.writes)
  | _, _ => none

end Session

end I3CHost
