/-!
# Numerals

A natural number as a user types it: digits, with an optional plus sign in front.
-/

namespace RadioScan.Text

inductive NumeralError
  | empty
  | invalidDigit
  | tooLarge
deriving DecidableEq

/-- Reads digits behind a number that has been read so far. -/
def readDigits (bound n : Nat) : List Char → Except NumeralError Nat
  | [] => .ok n
  | c :: cs =>
    if c.isDigit then
      let next := 10 * n + (c.toNat - '0'.toNat)
      if next < bound then readDigits bound next cs else .error .tooLarge
    else .error .invalidDigit

/-- Reads a numeral below a bound. -/
def readNumeral (bound : Nat) (s : String) : Except NumeralError Nat :=
  match s.toList with
  | [] => .error .empty
  | ['+'] => .error .invalidDigit
  | '+' :: cs => readDigits bound 0 cs
  | cs => readDigits bound 0 cs

def readUInt32 (s : String) : Except NumeralError UInt32 :=
  (readNumeral UInt32.size s).map UInt32.ofNat

def readUInt16 (s : String) : Except NumeralError UInt16 :=
  (readNumeral UInt16.size s).map UInt16.ofNat

end RadioScan.Text
