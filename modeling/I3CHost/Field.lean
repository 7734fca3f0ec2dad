import I3CHost.Word

/-!
# Bit fields

A field names the bits `mask` of one word of a register or table entry, with `low` the distance to
shift them down by. The mask stands in the positions of the word itself. Nothing requires the mask
to be one run of bits or to start at `low`: a pair that disagrees reads a shifted value, and that
is the caller's business.
-/
namespace I3CHost

/-- A set of bits of one word, with its shift. -/
structure Field where
  /-- Which word of a table entry; 0 for a plain register. -/
  word : UInt8
  low : UInt8
  mask : Word
deriving DecidableEq, Repr

namespace Field

/-- The masked bits of `w`, shifted down. -/
def extract (w : Word) (low : UInt8) (mask : Word) : Word := (w &&& mask).down low

/-- `old` with its masked bits replaced by those of `value` shifted up. -/
def inject (old : Word) (low : UInt8) (mask value : Word) : Word :=
  old.merge (value.up low) mask

/-- `width` ones, or 32 if that is fewer, shifted up by `low`. -/
def maskOf (low width : UInt8) : Word :=
  let run : Word := if 32 ≤ width then Word.ones else (1 <<< width.toUInt32) - 1
  run.up low

/-- A field of a plain register, or of word 0. -/
def ofMask (low : UInt8) (mask : Word) : Field := ⟨0, low, mask⟩

/-- `width` bits from `low` up. -/
def bits (low width : UInt8) : Field := ofMask low (maskOf low width)

/-- A field of a table entry whose bits are numbered through the whole entry. The word number has
8 bits, so entries of more than 256 words cannot be numbered this way. -/
def ofEntryBit (low : UInt16) (mask : Word) : Field :=
  ⟨(low / 32).toUInt8, (low % 32).toUInt8, mask⟩

/-- The same bits of another word. -/
def atWord (f : Field) (word : UInt8) : Field := { f with word }

/-- The field's value in a word. -/
def get (f : Field) (w : Word) : Word := extract w f.low f.mask

/-- A word with the field replaced. -/
def set (f : Field) (w value : Word) : Word := inject w f.low f.mask value

/-- The largest value the field can hold. -/
def maxValue (f : Field) : Word := f.get f.mask

end Field

end I3CHost
