import I3CHost.Controller
import I3CHost.Mapping
import I3CHost.Model

/-!
# Targets

A register window is either a software model or a mapping of a device file; both answer the same
bus. `select` picks one for some settings. A fuse in front of a window lets a given number of
accesses through and fails every later one without passing it on.
-/
namespace I3CHost

inductive Target where
  | model (m : Model)
  | mapping (m : Mapping)
deriving DecidableEq, Repr

/-- How to choose between a device and the model. -/
inductive Selection where
  /-- The device if its path leads anywhere, else the model. -/
  | auto
  | mmap
  | software
deriving DecidableEq, Repr

namespace Target

def label : Target → String
  | model _ => "Software (model)"
  | mapping _ => "mmap"

def size : Target → Address
  | model m => m.size
  | mapping m => m.size

/-- Replies of the model and of the mapping, seen as replies of a target. -/
def load (o : Address) : Target × DeviceTree → Reply (Target × DeviceTree) Word
  | (model m, t) =>
    let r := m.load o
    ⟨r.result, (model r.state, t), r.events⟩
  | (mapping m, t) =>
    let r := m.load t o
    ⟨r.result, (mapping r.state.1, r.state.2), r.events⟩

def store (o : Address) (v : Word) : Target × DeviceTree → Reply (Target × DeviceTree) Unit
  | (model m, t) =>
    let r := m.store o v
    ⟨r.result, (model r.state, t), r.events⟩
  | (mapping m, t) =>
    let r := m.store t o v
    ⟨r.result, (mapping r.state.1, r.state.2), r.events⟩

def responder : Responder (Target × DeviceTree) := ⟨load, store⟩

/-! ## Opening and closing -/

/-- A model of the controller. -/
def openModel (size : Address) : Logged Target := do
  Logged.ofExcept (Model.roomFor size)
  let m := Model.controller size
  Logged.emit (.modelBuilt m.cells.size)
  return .model m

theorem openModel_of_room {size : Address} (h : Model.roomFor size = .ok ()) :
    (openModel size).result = .ok (.model (.controller size)) := by
  simp only [openModel, Bind.bind, Logged.bind, Logged.ofExcept, h]
  rfl

theorem openModel_eq_ok {size : Address} {target : Target}
    (h : (openModel size).result = .ok target) :
    Model.roomFor size = .ok () ∧ target = .model (.controller size) := by
  cases hroom : Model.roomFor size with
  | error e =>
      simp only [openModel, Bind.bind, Logged.bind, Logged.ofExcept, hroom] at h
      cases h
  | ok u =>
      rw [openModel_of_room hroom] at h
      cases h
      exact ⟨rfl, rfl⟩

def openMapping (t : DeviceTree) (s : Settings) : Logged Target := do
  return .mapping (← Mapping.ofSettings t s)

def select (t : DeviceTree) (s : Settings) : Selection → Logged Target
  | .auto =>
    if t.hasPath s.devicePath then do
      Logged.emit (.deviceChosen s.devicePath)
      openMapping t s
    else do
      Logged.emit (.deviceAbsent s.devicePath)
      openModel s.windowSize
  | .mmap => openMapping t s
  | .software => openModel s.windowSize

/-- What is logged when a target is given up. -/
def closing : Target → List Event
  | model _ => []
  | mapping m => [.unmapping m.path m.base]

end Target

/-- Accesses that still pass; no number means no limit. -/
structure Fuse where
  left : Option Nat
deriving DecidableEq, Repr

namespace Fuse

/-- Passes everything. -/
def off : Fuse := ⟨none⟩

/-- The usual fault of an access that does not pass. -/
def blown : Fault := .device "injected fault"

/-- The fuse after one more access, if that access passes. -/
def pass : Fuse → Option Fuse
  | ⟨none⟩ => some ⟨none⟩
  | ⟨some 0⟩ => none
  | ⟨some (n + 1)⟩ => some ⟨some n⟩

variable {σ : Type}

/-- A responder behind a fuse; an access that does not pass fails with `why`. -/
def guard (why : Fault) (inner : Responder σ) : Responder (Fuse × σ) where
  load o s :=
    match s.1.pass with
    | none => ⟨.error why, s, []⟩
    | some f =>
      let r := inner.load o s.2
      ⟨r.result, (f, r.state), r.events⟩
  store o v s :=
    match s.1.pass with
    | none => ⟨.error why, s, []⟩
    | some f =>
      let r := inner.store o v s.2
      ⟨r.result, (f, r.state), r.events⟩

end Fuse

end I3CHost
