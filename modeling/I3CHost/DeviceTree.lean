import I3CHost.Fault

/-!
# Device files

The part of a file system that a register window can be opened on: directories, regular files with
their bytes, a device that maps as zeroed memory, and devices that cannot be mapped. Paths are
resolved component by component. `.` and empty components stay where they are, `..` goes up (and
stays at the root), and everything but the last component has to be a directory; so does the last
one if a slash follows it. Links and permissions are not modelled.
-/
namespace I3CHost

/-- What stands at a place. -/
inductive Node where
  | directory
  | regular (bytes : Array UInt8)
  /-- Maps as zeroed memory of any length. -/
  | zeros
  /-- Opens, but has no mapping. -/
  | unmappable
deriving DecidableEq, Repr

/-- A place in the tree: the names from the root on. -/
abbrev Place := List String

structure DeviceTree where
  /-- Everything there is below the root. -/
  nodes : List (Place × Node)
  /-- Where relative paths start. -/
  workingDirectory : Place
deriving DecidableEq, Repr

namespace DeviceTree

/-- The usual places of a host without controller hardware. -/
def host : DeviceTree where
  nodes :=
    (["bin", "dev", "etc", "home", "lib", "proc", "root", "run", "sys", "tmp", "usr", "var"].map
        fun name => ([name], Node.directory))
      ++ [(["dev", "zero"], .zeros), (["dev", "null"], .unmappable),
        (["dev", "full"], .unmappable), (["dev", "random"], .unmappable),
        (["dev", "urandom"], .unmappable)]
  workingDirectory := ["root"]

def node? (t : DeviceTree) (p : Place) : Option Node :=
  if p = [] then some .directory else t.nodes.lookup p

/-- Put a node at a place, replacing what stands there. -/
def put (t : DeviceTree) (p : Place) (n : Node) : DeviceTree :=
  { t with nodes := (p, n) :: t.nodes.filter fun q => q.1 ≠ p }

/-! ## Paths -/

/-- Longest name of a component, in bytes. -/
def nameLimit : Nat := 255

/-- A path has fewer bytes than this. -/
def pathLimit : Nat := 4096

/-- One step from a place. -/
def descend (t : DeviceTree) (p : Place) (name : String) : Except PathFault Place :=
  if t.node? p ≠ some .directory then .error .notDirectory
  else if name = "" ∨ name = "." then .ok p
  else if name = ".." then .ok p.dropLast
  else if nameLimit < name.utf8ByteSize then .error .nameTooLong
  else if (t.node? (p ++ [name])).isSome then .ok (p ++ [name])
  else .error .missing

/-- Where a path leads. -/
def resolve (t : DeviceTree) (path : String) : Except PathFault Place :=
  if path.toList.contains (Char.ofNat 0) then .error .embeddedNul
  else if path = "" then .error .missing
  else if pathLimit ≤ path.utf8ByteSize then .error .nameTooLong
  else
    let start : Place := if path.toList.head? = some '/' then [] else t.workingDirectory
    (path.splitOn "/").foldlM t.descend start

def hasPath (t : DeviceTree) (path : String) : Bool :=
  match t.resolve path with
  | .ok _ => true
  | .error _ => false

/-- A file or device opened for reading and writing. -/
def open? (t : DeviceTree) (path : String) : Except PathFault (Place × Node) :=
  match t.resolve path with
  | .error e => .error e
  | .ok p =>
    match t.node? p with
    | some .directory => .error .isDirectory
    | some n => .ok (p, n)
    | none => .error .missing

/-! ## Bytes -/

/-- The bytes of a regular file; none for anything else. -/
def bytes (t : DeviceTree) (p : Place) : Array UInt8 :=
  match t.nodes.lookup p with
  | some (.regular bs) => bs
  | _ => #[]

/-- Change the bytes of a regular file. -/
def modifyBytes (t : DeviceTree) (p : Place) (f : Array UInt8 → Array UInt8) : DeviceTree :=
  { t with
    nodes := t.nodes.map fun q =>
      if q.1 = p then
        match q.2 with
        | .regular bs => (q.1, .regular (f bs))
        | n => (q.1, n)
      else q }

/-- Write bytes into a file, which grows by zeros if it ends before them. To write nothing leaves a
file as it is, wherever that happens. -/
def overwrite (old : Array UInt8) (offset : Nat) (new : List UInt8) : Array UInt8 :=
  if new.isEmpty then old
  else
    let grown := old ++ Array.replicate (offset + new.length - old.size) 0
    (new.zipIdx offset).foldl (fun bs b => bs.setIfInBounds b.2 b.1) grown

/-- The bytes of the regular file at a path; none if there is no such file. -/
def bytesAt (t : DeviceTree) (path : String) : Array UInt8 :=
  match t.resolve path with
  | .ok p => t.bytes p
  | .error _ => #[]

/-! ## Putting files in place -/

/-- Go down one component, making a directory where there is nothing. -/
def enter (acc : DeviceTree × Place) (name : String) : DeviceTree × Place :=
  let place := if name = ".." then acc.2.dropLast else acc.2 ++ [name]
  (if (acc.1.node? place).isSome then acc.1 else acc.1.put place .directory, place)

/-- Put a node at the end of a path, with the directories that lead to it. -/
def putAt (t : DeviceTree) (path : String) (n : Node) : DeviceTree :=
  let names := (path.splitOn "/").filter fun name => name ≠ "" && name ≠ "."
  let start : Place := if path.toList.head? = some '/' then [] else t.workingDirectory
  let acc := names.dropLast.foldl enter (t, start)
  match names.getLast? with
  | some name => acc.1.put (acc.2 ++ [name]) n
  | none => t

end DeviceTree

end I3CHost
