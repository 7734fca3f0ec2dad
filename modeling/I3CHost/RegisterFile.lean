import I3CHost.Model

/-!
# A register file in three arrays

The software model with its words, their reset values and their masks each in an array of its own,
as it lies in memory. Nothing about the type says that the arrays are of one length: every position
is looked up in the array it is meant for, and a copy wants two arrays of one length. What is not
there is a panic, and a file that panicked answers nothing any more.
-/
namespace I3CHost

structure RegisterFile where
  words : Array Word
  resets : Array Word
  masks : Array Word
  reads : UInt64
  writes : UInt64
deriving DecidableEq, Repr

namespace RegisterFile

/-! ## Arrays -/

/-- An array of one word over and over. -/
def filled (count : Nat) (w : Word) : Except Panic (Array Word) :=
  if 4 * count < Model.arrayLimit then .ok (Array.replicate count w) else .error .capacityOverflow

def fetch (xs : Array Word) (i : Nat) : Except Panic Word :=
  match xs[i]? with
  | some w => .ok w
  | none => .error (.index xs.size i)

def put (xs : Array Word) (i : Nat) (w : Word) : Except Panic (Array Word) :=
  if i < xs.size then .ok (xs.setIfInBounds i w) else .error (.index xs.size i)

/-- `target` with every element replaced by the one of `source`. -/
def copy (source target : Array Word) : Except Panic (Array Word) :=
  if source.size = target.size then .ok source
  else .error (.copyLengths source.size target.size)

/-! ## Behind the bus -/

/-- A cleared window whose every bit is writable. -/
def new (size : Address) : Except Panic RegisterFile := do
  let words ← filled (Model.index size) 0
  let resets ← filled (Model.index size) 0
  let masks ← filled (Model.index size) Word.ones
  return ⟨words, resets, masks, 0, 0⟩

/-- Whether there is a word is asked of the words alone. -/
def withRegister (f : RegisterFile) (offset : Address) (reset writable : Word) :
    Except Panic RegisterFile :=
  let i := Model.index offset
  if i < f.words.size then do
    let words ← put f.words i reset
    let resets ← put f.resets i reset
    let masks ← put f.masks i writable
    return { f with words, resets, masks }
  else .ok f

/-- Put several registers in place, in order. -/
def withRegisters (f : RegisterFile) (registers : List (Address × Word × Word)) :
    Except Panic RegisterFile :=
  registers.foldlM (fun f r => f.withRegister r.1 r.2.1 r.2.2) f

/-- The controller out of reset. -/
def controller (size : Address) : Except Panic RegisterFile := do
  (← new size).withRegisters Model.controllerRegisters

def reset (f : RegisterFile) : Except Panic RegisterFile := do
  return { f with words := ← copy f.resets f.words }

def poke (f : RegisterFile) (offset : Address) (value : Word) : RegisterFile :=
  { f with words := f.words.setIfInBounds (Model.index offset) value }

def resetStats (f : RegisterFile) : RegisterFile := { f with reads := 0, writes := 0 }

/-! ## On the bus -/

def size (f : RegisterFile) : Except Panic Address :=
  match Address.mul? (UInt64.ofNat f.words.size) Address.wordBytes with
  | some n => .ok n
  | none => .error .mulOverflow

def load (f : RegisterFile) (offset : Address) : Except Panic (Reply RegisterFile Word) := do
  match checkAccess offset (← f.size) with
  | .error e => return ⟨.error e, f, []⟩
  | .ok () =>
    let w ← fetch f.words (Model.index offset)
    return ⟨.ok w, { f with reads := f.reads + 1 }, [.wordRead offset w]⟩

def store (f : RegisterFile) (offset : Address) (value : Word) :
    Except Panic (Reply RegisterFile Unit) := do
  match checkAccess offset (← f.size) with
  | .error e => return ⟨.error e, f, []⟩
  | .ok () =>
    let i := Model.index offset
    let mask ← fetch f.masks i
    let old ← fetch f.words i
    let words ← put f.words i (old.merge value mask)
    let stored ← fetch words i
    return ⟨.ok (), { f with words, writes := f.writes + 1 }, [.wordStored offset value stored]⟩

/-- A reply, or the panic in its place. -/
def answer {α : Type} : Except Panic (Reply RegisterFile α) → Reply (Except Panic RegisterFile) α
  | .ok r => ⟨r.result, .ok r.state, r.events⟩
  | .error why => ⟨.error (.panic why), .error why, []⟩

/-- Once the file is lost to a panic, every access meets that panic. -/
def responder : Responder (Except Panic RegisterFile) where
  load o s := answer (s >>= fun f => f.load o)
  store o v s := answer (s >>= fun f => f.store o v)

end RegisterFile

end I3CHost
