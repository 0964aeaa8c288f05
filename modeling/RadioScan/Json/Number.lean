import RadioScan.Double.Shortest

/-!
# Numbers in JSON

A number is kept as it is written: sign, whole part, digits behind the point, power of ten. What it
stands for is an integer when it is written as one and fits 64 bits, else a double, unless it is too
large for that.
-/

namespace RadioScan.Json

/-- The parts of a number's text. Leading zeros occur behind the point only. -/
structure Number where
  negative : Bool
  whole : Nat
  /-- The digits behind the point; none when there is no point. -/
  fraction : List Char
  exponent : Option Int
deriving DecidableEq

/-- What a number stands for. -/
inductive Quantity
  | integer (n : Int)
  | double (x : Float)
  /-- Beyond the greatest double. -/
  | tooLarge

namespace Number

def ofNat (n : Nat) : Number := ⟨false, n, [], none⟩

/-- Appends digits to a number while it fits 64 bits, and counts the digits left over. -/
def significand (n : Nat) : List Char → Nat × Nat
  | [] => (n, 0)
  | d :: ds =>
    let next := 10 * n + (d.toNat - '0'.toNat)
    if next < UInt64.size then significand next ds else (n, ds.length + 1)

/-- A power of ten between the first and the 308th, rounded to a double. -/
def powerOfTen (n : Nat) : Float := Float.ofScientific 1 false n

/-- Scales by a power of ten within the range of doubles: `none` beyond the greatest one. -/
def scale (x : Float) (e : Int) : Option Float :=
  if 0 ≤ e then
    if e ≤ 308 then
      let y := x * powerOfTen e.toNat
      if y.isInf then none else some y
    else if x == 0 then some x else none
  else shrink x (-e).toNat (1 + (-e).toNat / 308)
where
  /-- Divides by 10 ^ 308 until the rest of the power is itself a double. -/
  shrink (x : Float) (e : Nat) : Nat → Option Float
    | 0 => some x
    | steps + 1 =>
      if e ≤ 308 then some (x / powerOfTen e)
      else if x == 0 then some x
      else shrink (x / powerOfTen 308) (e - 308) steps

/-- The largest power of ten that is told apart from still larger ones. -/
def maxExponent : Nat := 2147483647

/-- The double of a number's magnitude: its leading digits, as many as fit 64 bits, scaled. -/
def magnitude (n : Number) : Option Float :=
  let (whole, dropped) := significand 0 (Nat.toDigits 10 n.whole)
  let (digits, left) := significand whole n.fraction
  let point : Int := dropped + left - n.fraction.length
  let x := digits.toUInt64.toFloat
  match n.exponent with
  | none => scale x point
  | some e =>
    if maxExponent < e.natAbs then if digits = 0 ∨ e < 0 then some 0 else none
    else scale x (max (-maxExponent - 1) (min maxExponent (point + e)))

/-- Written as an integer within 64 bits; minus zero is not. -/
def integer? (n : Number) : Option Int :=
  if n.fraction ≠ [] ∨ n.exponent.isSome then none
  else if n.negative then
    if 0 < n.whole ∧ n.whole ≤ UInt64.size / 2 then some (-n.whole) else none
  else if n.whole < UInt64.size then some n.whole else none

def quantity (n : Number) : Quantity :=
  match n.integer? with
  | some i => .integer i
  | none =>
    match n.magnitude with
    | some x => .double (if n.negative then -x else x)
    | none => .tooLarge

def isTooLarge (n : Number) : Bool :=
  match n.quantity with
  | .tooLarge => true
  | _ => false

/-- The number as it is written. -/
def spell (n : Number) : List Char :=
  (if n.negative then ['-'] else []) ++ Nat.toDigits 10 n.whole ++
    (if n.fraction = [] then [] else '.' :: n.fraction) ++
    match n.exponent with
    | none => []
    | some e => 'e' :: ((if e < 0 then ['-'] else []) ++ Nat.toDigits 10 e.natAbs)

end Number

end RadioScan.Json
