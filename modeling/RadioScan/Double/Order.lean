/-!
# The total order of doubles

Comparing two doubles by their place in one list that holds them all, from the negative values
with the largest magnitude up to the positive ones, needs no exception for zeros or NaNs: no two
bit patterns share a place (`place_injective`).
-/

namespace RadioScan.Double

/-- The place of a bit pattern in that list: below zero a larger magnitude comes earlier. -/
def place (bits : UInt64) : Nat :=
  if bits.toNat < UInt64.size / 2 then bits.toNat + UInt64.size / 2
  else UInt64.size - 1 - bits.toNat

/-- The place of a double among all doubles. -/
def rank (x : Float) : Nat := place x.toBits

theorem place_injective {a b : UInt64} (h : place a = place b) : a = b := by
  have ha : a.toNat < UInt64.size := a.toNat_lt
  have hb : b.toNat < UInt64.size := b.toNat_lt
  have hsize : UInt64.size = 2 * (UInt64.size / 2) := rfl
  unfold place at h
  apply UInt64.toNat_inj.1
  split at h <;> split at h <;> omega

end RadioScan.Double
