import RadioScan.Schedule

/-!
# Limits

Five ceilings hold a schedule down. Each is at least one and at most what the hardware allows:
`clamped` moves a value into that range, `fault?` names the first limit outside it.
-/

namespace RadioScan

/-- Ceilings that a schedule must respect. -/
structure Limits where
  maxBuckets : UInt64
  maxChannels : UInt64
  maxBatch : UInt32
  maxApPerScan : UInt32
  idlePeriod : Millis
deriving DecidableEq

/-- A limit outside its range, which starts at one. -/
structure LimitError where
  name : String
  value : Nat
  greatest : Nat
deriving DecidableEq

def LimitError.message (e : LimitError) : String :=
  s!"{e.name} = {e.value} is outside 1..={e.greatest}"

namespace Limits

/-- The limits that every supported controller accepts. -/
def standard : Limits where
  maxBuckets := 8
  maxChannels := 64
  maxBatch := 10
  maxApPerScan := 32
  idlePeriod := 40000

/-- The nearest value in `1..=greatest`. -/
def clamp (value greatest : Nat) : Nat := max 1 (min value greatest)

/-- Every limit moved to the nearest value in its range. -/
def clamped (l : Limits) : Limits where
  maxBuckets := .ofNat (clamp l.maxBuckets.toNat Hardware.maxBuckets)
  maxChannels := .ofNat (clamp l.maxChannels.toNat Hardware.maxChannels)
  maxBatch := .ofNat (clamp l.maxBatch.toNat Hardware.maxBatch)
  maxApPerScan := .ofNat (clamp l.maxApPerScan.toNat Hardware.maxApPerScan)
  idlePeriod := max 1 l.idlePeriod

/-- The limits with their names and their greatest values, in the order in which they are
checked. -/
def ranges (l : Limits) : List LimitError :=
  [⟨"max_buckets", l.maxBuckets.toNat, Hardware.maxBuckets⟩,
    ⟨"max_channels", l.maxChannels.toNat, Hardware.maxChannels⟩,
    ⟨"max_batch", l.maxBatch.toNat, Hardware.maxBatch⟩,
    ⟨"max_ap_per_scan", l.maxApPerScan.toNat, Hardware.maxApPerScan⟩,
    ⟨"idle_period_ms", l.idlePeriod.toNat, UInt32.size - 1⟩]

/-- The first limit outside its range. -/
def fault? (l : Limits) : Option LimitError :=
  l.ranges.find? fun r => r.value == 0 || r.greatest < r.value

end Limits

end RadioScan
