/-!
# Register words

A register holds 32 bits. Shift distances count modulo 32, so a field description whose low bit
lies past the word wraps round instead of losing the field. A device file stores a word low byte
first. Only single words are treated here; runs of words belong to the table views.
-/
namespace I3CHost

/-- The contents of one register. -/
abbrev Word := UInt32

namespace Word

/-- Every bit set. -/
def ones : Word := 0xFFFFFFFF

/-- Shift towards bit 0 by `low` modulo 32. -/
def down (w : Word) (low : UInt8) : Word := w >>> low.toUInt32

/-- Shift away from bit 0 by `low` modulo 32; bits pushed past bit 31 are lost. -/
def up (w : Word) (low : UInt8) : Word := w <<< low.toUInt32

/-- The old word outside `mask`, the new one inside it. -/
def merge (old new mask : Word) : Word := (old &&& ~~~mask) ||| (new &&& mask)

/-- The four bytes of a word, lowest first. -/
def bytes (w : Word) : List UInt8 :=
  [w.toUInt8, (w >>> 8).toUInt8, (w >>> 16).toUInt8, (w >>> 24).toUInt8]

/-- The word whose bytes are `b0` to `b3`, lowest first. -/
def ofBytes (b0 b1 b2 b3 : UInt8) : Word :=
  b0.toUInt32 ||| (b1.toUInt32 <<< 8) ||| (b2.toUInt32 <<< 16) ||| (b3.toUInt32 <<< 24)

end Word

end I3CHost
