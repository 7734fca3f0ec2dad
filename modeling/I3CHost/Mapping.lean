import I3CHost.Bus
import I3CHost.DeviceTree
import I3CHost.Logged

/-!
# Mapped windows

A window over the bytes `base` to `base + size` of a device file. The mapping starts at the page
that holds the base, and an access is shifted by the rest. Memory is shared: what one window stores
another window over the same file loads, and so does anyone who reads the file. A word stands in
the file low byte first. The length of a device is not known before it is mapped, so only a regular
file is checked to hold the window.
-/
namespace I3CHost

/-- Where the words of a mapping are kept. -/
inductive Backing where
  /-- In a regular file of the tree. -/
  | file (place : Place)
  /-- In zeroed memory of the mapping's own; the stores so far, latest first. -/
  | memory (stores : List (Address × Word))
deriving DecidableEq, Repr

structure Mapping where
  /-- The path it was opened under. -/
  path : String
  /-- Where the window starts in the file. -/
  base : Address
  size : Address
  backing : Backing
deriving DecidableEq, Repr

namespace Mapping

/-! ## Pages -/

/-- Bytes in a page. -/
def pageSize : Address := 4096

/-- Start of the page that holds `base`; the page size is a power of two. -/
def pageBase (page base : Address) : Address := base &&& ~~~(page - 1)

/-- Distance from the start of its page. -/
def skew (page base : Address) : Address := base - pageBase page base

/-- Bytes to map. -/
def mappedLength (page base size : Address) : Except Fault Address :=
  Address.plus size (skew page base)

/-- Bytes in the longest free range of an address space. A program is loaded at two thirds of the
0x7FFFFFFFF000 bytes there are, its libraries at the top, so the longest free range is below it. -/
def longestFreeRange : Address := 0x555555554000

/-- Why a length cannot be mapped from an offset, whatever the device. -/
def rangeRefusal (page length offset : Address) : Option MapRefusal :=
  let whole := (length.toNat + page.toNat - 1) / page.toNat * page.toNat
  if length == 0 then some .emptyRange
  else if longestFreeRange.toNat < whole then some .outOfMemory
  else if (Address.last.toNat - whole) / page.toNat < offset.toNat / page.toNat then
    some .offsetTooLarge
  else none

/-! ## Opening -/

def refuse {α : Type} (why : MapFault) : Logged α := Logged.fail (.mapFailed why)

/-- Map `size` bytes of the file at `path` from `base` on, with pages of some size. -/
def openOn (page : Address) (t : DeviceTree) (path : String) (base size : Address) :
    Logged Mapping := do
  if size == 0 || !size.isAligned then refuse (.windowSize size)
  if !base.isAligned then refuse (.base base)
  Logged.emit (.mapping path base size)
  match t.open? path with
  | .error why => refuse (.cannotOpen path why)
  | .ok (place, node) =>
    let finish := Address.addSat base size
    let backing ←
      match node with
      | .regular bytes =>
        if bytes.size < finish.toNat then
          refuse (.tooShort path (UInt64.ofNat bytes.size) finish)
        else do
          let _ ← Logged.ofExcept (mappedLength page base size)
          pure (Backing.file place)
      | _ => do
        let length ← Logged.ofExcept (mappedLength page base size)
        match rangeRefusal page length (pageBase page base), node with
        | some why, _ => refuse (.refused why)
        | none, .zeros => pure (Backing.memory [])
        | none, _ => refuse (.refused .noSuchDevice)
    Logged.emit (.mapped path base size)
    return ⟨path, base, size, backing⟩

/-- Map `size` bytes of the file at `path` from `base` on. -/
def openAt : DeviceTree → String → Address → Address → Logged Mapping := openOn pageSize

/-- Map the window of some settings. -/
def ofSettings (t : DeviceTree) (s : Settings) : Logged Mapping :=
  openAt t s.devicePath s.baseAddress s.windowSize

/-! ## Access -/

/-- Where the word at `offset` stands in the file. -/
def position (m : Mapping) (offset : Address) : Nat :=
  (pageBase pageSize m.base + (skew pageSize m.base + offset)).toNat

/-- The word at a position of a file; bytes past the end count as zero. -/
def wordAt (bytes : Array UInt8) (p : Nat) : Word :=
  let byte := fun k => bytes[p + k]?.getD 0
  Word.ofBytes (byte 0) (byte 1) (byte 2) (byte 3)

/-- A file with the word at a position replaced; its length stays. -/
def putWord (bytes : Array UInt8) (p : Nat) (w : Word) : Array UInt8 :=
  (w.bytes.zipIdx p).foldl (fun bs b => bs.setIfInBounds b.2 b.1) bytes

/-- The word at an offset of the window. -/
def peek (m : Mapping) (t : DeviceTree) (offset : Address) : Word :=
  match m.backing with
  | .file place => wordAt (t.bytes place) (m.position offset)
  | .memory stores => (stores.lookup offset).getD 0

/-- Replace the word at an offset of the window. -/
def poke (m : Mapping) (t : DeviceTree) (offset : Address) (w : Word) : Mapping × DeviceTree :=
  match m.backing with
  | .file place => (m, t.modifyBytes place fun bytes => putWord bytes (m.position offset) w)
  | .memory stores => ({ m with backing := .memory ((offset, w) :: stores) }, t)

def load (m : Mapping) (t : DeviceTree) (offset : Address) : Reply (Mapping × DeviceTree) Word :=
  match checkAccess offset m.size with
  | .ok _ => ⟨.ok (m.peek t offset), (m, t), [.wordRead offset (m.peek t offset)]⟩
  | .error e => ⟨.error e, (m, t), []⟩

def store (m : Mapping) (t : DeviceTree) (offset : Address) (value : Word) :
    Reply (Mapping × DeviceTree) Unit :=
  match checkAccess offset m.size with
  | .ok _ => ⟨.ok (), m.poke t offset value, [.wordWritten offset value]⟩
  | .error e => ⟨.error e, (m, t), []⟩

def responder : Responder (Mapping × DeviceTree) :=
  ⟨fun o s => s.1.load s.2 o, fun o v s => s.1.store s.2 o v⟩

end Mapping

end I3CHost
