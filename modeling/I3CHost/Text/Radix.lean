/-!
# Hexadecimal text

Numbers are written in hexadecimal with the mark `0x` and lower-case digits. A width counts the
mark, and zeros go between the mark and the first digit.
-/
namespace I3CHost.Text

/-- Hexadecimal digits, most significant first, without a mark. -/
def hexDigits (n : Nat) : List Char := Nat.toDigits 16 n

/-- The shortest hexadecimal form, as in `0x1f`. -/
def hex (n : Nat) : String := "0x" ++ String.ofList (hexDigits n)

/-- At least `width` characters with the mark, as in `0x0000001f` for width 10. -/
def hexWide (width n : Nat) : String :=
  let digits := hexDigits n
  "0x" ++ String.ofList (List.replicate (width - 2 - digits.length) '0' ++ digits)

end I3CHost.Text
