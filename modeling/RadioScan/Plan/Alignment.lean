import RadioScan.Plan.Candidate

/-!
# Alignment

Every bucket's period is a multiple of one base period. The base is the shortest table period in
use, halved while that brings it down towards the shortest exact one; exact periods then move to
the nearest multiple of it.
-/

namespace RadioScan.Plan

/-- Halves a period while it is above the bound and even. -/
def halve (bound base : Millis) : Millis :=
  if h : bound < base ∧ base % 2 = 0 then halve bound (base / 2) else base
termination_by base.toNat
decreasing_by
  have : bound.toNat < base.toNat := UInt32.lt_iff_toNat_lt.1 h.1
  have : (base / 2).toNat = base.toNat / 2 := by simp
  omega

/-- The nearest multiple of a base, at least one and still a period; halfway goes down. -/
def nearestMultiple (period base : Millis) : Millis :=
  let quotient := period.toNat / base.toNat
  let remainder := period.toNat % base.toNat
  if quotient = 0 then base
  else if base.toNat < 2 * remainder ∧ (quotient + 1) * base.toNat < UInt32.size then
    .ofNat ((quotient + 1) * base.toNat)
  else .ofNat (quotient * base.toNat)

/-- The shortest period among the candidates of a kind. -/
def leastPeriod? (cs : List Candidate) (exact : Bool) : Option Millis :=
  ((cs.filter fun c => c.isExact == exact).map Candidate.period).min?

/-- The base period for some candidates; the idle period when there are none. -/
def basePeriod (idle : Millis) (cs : List Candidate) : Millis :=
  match leastPeriod? cs false, leastPeriod? cs true with
  | some pooled, some exact => halve exact pooled
  | some pooled, none => pooled
  | none, some exact => exact
  | none, none => idle

/-- A candidate with its period moved to a multiple of the base, if it is not one by itself. -/
def alignTo (base : Millis) (c : Candidate) : Candidate :=
  if c.isExact then { c with period := nearestMultiple c.period base } else c

end RadioScan.Plan
