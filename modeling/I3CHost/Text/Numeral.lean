import I3CHost.Text.Blank

/-!
# Numerals

Numbers are read digit by digit from the left, and reading stops at the first digit that is not one
or that takes the value out of range. So of two faults the one further left is reported, and a bad
digit before a range fault at the same place. One leading `+` is allowed, and for signed numbers
one leading `-`; a sign alone is a bad digit.

`number` reads the form used in settings and on the command line: blanks at both ends and every
underscore are dropped, and `0x` or `0X` introduces hexadecimal.
-/
namespace I3CHost.Text

/-- Why a text is not a number of the wanted kind. -/
inductive NumeralFault where
  | empty
  | badDigit
  | tooLarge
  | tooSmall
deriving DecidableEq, Repr

def NumeralFault.message : NumeralFault → String
  | .empty => "cannot parse integer from empty string"
  | .badDigit => "invalid digit found in string"
  | .tooLarge => "number too large to fit in target type"
  | .tooSmall => "number too small to fit in target type"

/-- The value of a digit in some radix up to 16, in either letter case. -/
def digit? (radix : Nat) (c : Char) : Option Nat :=
  let d :=
    if '0' ≤ c ∧ c ≤ '9' then c.toNat - '0'.toNat
    else if 'a' ≤ c ∧ c ≤ 'f' then c.toNat - 'a'.toNat + 10
    else if 'A' ≤ c ∧ c ≤ 'F' then c.toNat - 'A'.toNat + 10
    else 16
  if d < radix then some d else none

/-- Continue a number `acc` with digits, keeping every value on the way at most `most`. -/
def digits (radix most : Nat) (fault : NumeralFault) :
    Nat → List Char → Except NumeralFault Nat
  | acc, [] => .ok acc
  | acc, c :: cs =>
    match digit? radix c with
    | none => .error .badDigit
    | some d =>
      if acc * radix + d ≤ most then digits radix most fault (acc * radix + d) cs
      else .error fault

/-- An unsigned number at most `most`. -/
def unsigned (radix most : Nat) (cs : List Char) : Except NumeralFault Nat :=
  match cs with
  | [] => .error .empty
  | ['+'] => .error .badDigit
  | '+' :: rest => digits radix most .tooLarge 0 rest
  | _ => digits radix most .tooLarge 0 cs

/-- One past the largest signed number, which has 64 bits. -/
def signedLimit : Nat := 0x8000000000000000

/-- A signed decimal number of 64 bits. -/
def signed (cs : List Char) : Except NumeralFault Int :=
  match cs with
  | [] => .error .empty
  | ['+'] => .error .badDigit
  | ['-'] => .error .badDigit
  | '-' :: rest => (digits 10 signedLimit .tooSmall 0 rest).map fun n => -(n : Int)
  | '+' :: rest => (digits 10 (signedLimit - 1) .tooLarge 0 rest).map Int.ofNat
  | _ => (digits 10 (signedLimit - 1) .tooLarge 0 cs).map Int.ofNat

/-- An unsigned decimal number of 64 bits. -/
def size (cs : List Char) : Except NumeralFault UInt64 :=
  (unsigned 10 (UInt64.size - 1) cs).map UInt64.ofNat

/-- A text without the blanks at its ends and without underscores. -/
def bare (s : String) : List Char := (trim s.toList).filter (· != '_')

/-- A bare text read as decimal, or as hexadecimal after its mark. -/
def bareNumber : List Char → Except NumeralFault UInt64
  | '0' :: 'x' :: rest => (unsigned 16 (UInt64.size - 1) rest).map UInt64.ofNat
  | '0' :: 'X' :: rest => (unsigned 16 (UInt64.size - 1) rest).map UInt64.ofNat
  | cs => size cs

end I3CHost.Text
