import I3CHost.Field

/-!
# Packing fields into entry words

A table entry is a short vector of words. `pack` writes a list of field values into cleared words,
in order, so a later value wins where masks overlap. `pick` reads one field from the word that
holds it.
-/
namespace I3CHost.Entry

/-- Word `k` of an entry that starts clear and takes the given field values. -/
def packWord (k : Nat) (values : List (Field × Word)) : Word :=
  (values.filter fun v => v.1.word.toNat = k).foldl (fun w v => v.1.set w v.2) 0

/-- An entry of `n` words from field values. -/
def pack (n : Nat) (values : List (Field × Word)) : Vector Word n :=
  Vector.ofFn fun k => packWord k values

/-- The value of a field in an entry; 0 if the entry has no such word. -/
def pick {n : Nat} (words : Vector Word n) (f : Field) : Word :=
  f.get (words[f.word.toNat]?.getD 0)

end I3CHost.Entry
