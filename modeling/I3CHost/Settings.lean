import I3CHost.Fault
import I3CHost.Text.Quoted

/-!
# Settings

Where the controller lives and how its tables are laid out. Three sources are laid over each other:
the standard memory map behind a UIO node, environment variables, and amendments made by hand. A
variable that does not hold a number is a fault even if an amendment would replace its value,
because the variables are read first.

`check` accepts settings whose base and window are made of whole words and whose tables end inside
the window. It says nothing about alignment or overlap of the tables.
-/
namespace I3CHost

/-- A table that ends inside a window. -/
def TableLayout.checkFits (l : TableLayout) (window : Address) : Except Fault Unit :=
  match l.finish? with
  | none => .error (.invalidSettings (.tableOverflows l.kind l.offset l.capacity))
  | some finish =>
    if window < finish then .error (.invalidSettings (.tableEnds l.kind finish window))
    else .ok ()

structure Settings where
  /-- The device file to map. -/
  devicePath : String
  /-- Where the controller starts inside the device file. -/
  baseAddress : Address
  windowSize : Address
  dat : TableLayout
  dct : TableLayout
deriving DecidableEq, Repr

/-- Values that replace those of the variables. -/
structure Amendments where
  devicePath : Option String
  baseAddress : Option Address
  windowSize : Option Address
  dat : Option TableLayout
  dct : Option TableLayout

/-- Environment variables with their texts; of two with one name the first counts. -/
abbrev Environment := List (String × String)

namespace Settings

/-- The standard memory map behind the first UIO node. -/
def standard : Settings := ⟨"/dev/uio0", 0, 0x1000, .dat, .dct⟩

def pathVariable : String := "I3C_DEVICE_PATH"
def baseVariable : String := "I3C_BASE_ADDR"
def sizeVariable : String := "I3C_WINDOW_SIZE"

/-- The number a text stands for. -/
def number (text : String) : Except Fault UInt64 :=
  match Text.bareNumber (Text.bare text) with
  | .ok n => .ok n
  | .error why => .error (.invalidSettings (.notANumber (String.ofList (Text.bare text)) why))

/-- The number in a variable, or `old` if the variable is not set. -/
def numberOr (old : Address) : Option String → Except Fault Address
  | none => .ok old
  | some text => number text

/-- Lay variables over settings; the base is read before the window size. -/
def overlay (s : Settings) (lookup : String → Option String) : Except Fault Settings := do
  let baseAddress ← numberOr s.baseAddress (lookup baseVariable)
  let windowSize ← numberOr s.windowSize (lookup sizeVariable)
  return { s with devicePath := (lookup pathVariable).getD s.devicePath, baseAddress, windowSize }

/-- The standard settings under environment variables. -/
def ofVariables (env : Environment) : Except Fault Settings :=
  standard.overlay (env.lookup ·)

/-- Put amendments in place. -/
def amend (s : Settings) (a : Amendments) : Settings where
  devicePath := a.devicePath.getD s.devicePath
  baseAddress := a.baseAddress.getD s.baseAddress
  windowSize := a.windowSize.getD s.windowSize
  dat := a.dat.getD s.dat
  dct := a.dct.getD s.dct

/-- The first inconsistency, in the order base, window, DAT, DCT. -/
def check (s : Settings) : Except Fault Unit :=
  if !s.baseAddress.isAligned then .error (.invalidSettings (.baseAddress s.baseAddress))
  else if s.windowSize == 0 || !s.windowSize.isAligned then
    .error (.invalidSettings (.windowSize s.windowSize))
  else do
    s.dat.checkFits s.windowSize
    s.dct.checkFits s.windowSize

/-- How a layout is shown in the log. -/
def describeLayout (l : TableLayout) : String :=
  let kind := match l.kind with | .dat => "Dat" | .dct => "Dct"
  "TableLayout \x7b kind: " ++ kind ++ ", offset: " ++ toString l.offset.toNat
    ++ ", entry_words: " ++ toString l.entryWords.toNat
    ++ ", capacity: " ++ toString l.capacity.toNat ++ " \x7d"

/-- How settings are shown in the log. -/
def describe (s : Settings) : String :=
  "I3cConfig \x7b device_path: " ++ Text.quote s.devicePath
    ++ ", base_address: " ++ toString s.baseAddress.toNat
    ++ ", window_size: " ++ toString s.windowSize.toNat
    ++ ", dat: " ++ describeLayout s.dat ++ ", dct: " ++ describeLayout s.dct ++ " \x7d"

end Settings

end I3CHost
