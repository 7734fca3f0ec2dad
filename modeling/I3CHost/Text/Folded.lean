/-!
# Letter case

Register names are compared without regard to the case of the letters `A` to `Z`. Other characters
have no case here, so a dotted or long letter never stands for a plain one.
-/
namespace I3CHost.Text

/-- Lower case for `A` to `Z`; every other character is its own folding. -/
def fold (c : Char) : Char := c.toLower

/-- Equality up to the case of `A` to `Z`. -/
def sameFolded (s t : String) : Bool := s.toList.map fold == t.toList.map fold

theorem sameFolded_iff {s t : String} :
    sameFolded s t = true ↔ s.toList.map fold = t.toList.map fold := by
  simp [sameFolded]

end I3CHost.Text
