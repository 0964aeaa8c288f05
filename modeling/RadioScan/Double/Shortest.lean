/-!
# Shortest decimals

The digits of a double are the fewest that read back as it, and of those the closest to it. They
are found by exact arithmetic on the double's bits: a positive double is `m * 2 ^ q`, the reals that
round to it form an interval around it, and the grids of 1, 2, … digits are searched for a point of
that interval. On each grid only the two neighbours of the double need a look.
-/

namespace RadioScan.Double

/-- A positive double `mantissa * 2 ^ exponent` with the reals that round to it. -/
structure Span where
  mantissa : Nat
  exponent : Int
  /-- The gap to the double below is half the gap above. -/
  narrowBelow : Bool

/-- The leading bit of a mantissa, which a bit pattern leaves out. -/
def leadingBit : Nat := 1 <<< 52

/-- The span of a bit pattern, its sign left out. -/
def Span.ofBits (bits : UInt64) : Span :=
  let fraction : Nat := bits.toNat % leadingBit
  let biased : Nat := bits.toNat / leadingBit % 2048
  if biased = 0 then ⟨fraction, -1074, false⟩
  else ⟨fraction + leadingBit, Int.ofNat biased - 1075, fraction == 0 && 1 < biased⟩

/-- A decimal `digits * 10 ^ exponent`. -/
structure Decimal where
  digits : Nat
  exponent : Int
deriving DecidableEq

/-- Brings `x * 2 ^ q` and `10 ^ e` to a common denominator: the numerators of the two. -/
def overCommon (x : Nat) (q e : Int) : Nat × Nat :=
  (x * Nat.pow 2 q.toNat * Nat.pow 10 (-e).toNat, Nat.pow 10 e.toNat * Nat.pow 2 (-q).toNat)

/-- The point of the span closest to its double among the multiples of `10 ^ e`, if there is one.
All amounts are quarters of the last place, so that the ends of the interval are whole. -/
def Span.pointOn (s : Span) (e : Int) : Option Nat :=
  let (value, unit) := overCommon (4 * s.mantissa) (s.exponent - 2) e
  let (above, _) := overCommon 2 (s.exponent - 2) e
  let (below, _) := overCommon (if s.narrowBelow then 1 else 2) (s.exponent - 2) e
  let closed := s.mantissa % 2 == 0
  let inside (n : Nat) : Bool :=
    let x := n * unit
    if closed then value ≤ x + below && x ≤ value + above
    else value < x + below && x < value + above
  let low := value / unit
  let high := low + 1
  let remainder := value % unit
  match inside low, inside high with
  | false, false => none
  | true, false => some low
  | false, true => some high
  | true, true =>
    if 2 * remainder < unit || (2 * remainder == unit && low % 2 == 0) then some low else some high

/-- The number of decimal digits in front of the point of `m * 2 ^ q`; for values below one, zero
or less. -/
def magnitude (m : Nat) (q : Int) : Int :=
  if 0 ≤ q then ((Nat.toDigits 10 (m * Nat.pow 2 q.toNat)).length : Int)
  else
    let shift := (-q).toNat
    -- scaled up by a power of ten above `2 ^ shift`, so that no digit is lost
    ((Nat.toDigits 10 (m * Nat.pow 10 shift / Nat.pow 2 shift)).length : Int) - shift

/-- Searches the grids from one digit on; `grids` bounds how many are tried. -/
def Span.search (s : Span) (top : Int) : Nat → Nat → Decimal
  | 0, count => ⟨s.mantissa, top - count⟩
  | grids + 1, count =>
    match s.pointOn (top - count) with
    | some n => if n = 0 then s.search top grids (count + 1) else ⟨n, top - count⟩
    | none => s.search top grids (count + 1)

/-- Moves trailing zeros into the exponent. -/
def Decimal.strip (d : Decimal) : Nat → Decimal
  | 0 => d
  | n + 1 => if d.digits % 10 = 0 then Decimal.strip ⟨d.digits / 10, d.exponent + 1⟩ n else d

/-- The shortest decimal of a positive double, given by its bits. -/
def shortest (bits : UInt64) : Decimal :=
  let s := Span.ofBits bits
  (s.search (magnitude s.mantissa s.exponent) 17 1).strip 20

/-- The layout of a double's text. -/
structure Layout where
  /-- Least and greatest power of ten of the first digit that are written without an exponent. -/
  leastPlain : Int
  greatestPlain : Int

/-- Plain from five zeros after the point up to sixteen digits before it. -/
def Layout.standard : Layout := ⟨-5, 15⟩

/-- Writes a decimal. A whole number keeps one zero behind the point; an exponent has its sign and
no zeros in front. -/
def Layout.write (l : Layout) (d : Decimal) : List Char :=
  let ds := Nat.toDigits 10 d.digits
  let leading := d.exponent + ds.length - 1
  if l.leastPlain ≤ leading ∧ leading ≤ l.greatestPlain then
    if 0 ≤ d.exponent then ds ++ List.replicate d.exponent.toNat '0' ++ ['.', '0']
    else if 0 ≤ leading then
      ds.take (leading + 1).toNat ++ '.' :: ds.drop (leading + 1).toNat
    else '0' :: '.' :: (List.replicate (-leading - 1).toNat '0' ++ ds)
  else
    let fraction := match ds.drop 1 with
      | [] => []
      | rest => '.' :: rest
    ds.take 1 ++ fraction ++ 'e' :: (if leading < 0 then '-' else '+') ::
      Nat.toDigits 10 leading.natAbs

/-- The text of a finite double. -/
def text (x : Float) : String :=
  let bits := x.toBits
  let magnitudeBits : UInt64 := bits &&& 0x7fffffffffffffff
  let body := if magnitudeBits = 0 then ['0', '.', '0']
    else Layout.standard.write (shortest magnitudeBits)
  String.ofList (if bits = magnitudeBits then body else '-' :: body)

end RadioScan.Double
