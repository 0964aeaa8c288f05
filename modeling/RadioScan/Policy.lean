import RadioScan.Double.Order
import RadioScan.PeriodTable
import RadioScan.Plan.Key

/-!
# Reassignment policies

When a bucket has to go, its members move to a bucket with a close period. A policy says how far
two periods are apart and how much a move harms. Both are doubles, compared in the total order, so
all that planning needs of a policy is where its doubles stand in that order: its metric.
-/

namespace RadioScan

/-- How distances and harms compare, as places in a total order. -/
structure Metric where
  distance : Millis → Millis → Nat
  harm : Millis → Millis → Nat → Nat

namespace Metric

/-- What decides between two new homes: the distance, then the shorter period. -/
def closeness (m : Metric) (origin : Millis) (home : Nat × Millis) : Plan.Key :=
  ⟨m.distance origin home.2, home.2.toNat, 0⟩

/-- The closest of some numbered periods; the first of those that nothing else tells apart. -/
def closest? (m : Metric) (origin : Millis) (homes : List (Nat × Millis)) : Option Nat :=
  (homes.minOn? (m.closeness origin)).map Prod.fst

end Metric

/-- How far apart two periods are. -/
inductive Policy
  /-- By ratio: 10 s and 20 s are as far apart as 80 s and 160 s. -/
  | logScale
  /-- By difference. -/
  | absolute
deriving DecidableEq

namespace Policy

def standard : Policy := logScale

/-- The bits of positive infinity. -/
def infinity : Float := Float.ofBits 0x7ff0000000000000

/-- The distance of two periods; on the logarithmic scale no period is near zero. -/
def distance (p : Policy) (origin home : Millis) : Float :=
  match p with
  | logScale =>
    if origin = 0 ∨ home = 0 then infinity else (home.toFloat / origin.toFloat).log2.abs
  | absolute => Float.ofNat (origin.gap home)

/-- The harm of moving members, which is double when they are polled less often afterwards. -/
def harm (p : Policy) (origin home : Millis) (members : Nat) : Float :=
  p.distance origin home * (if origin < home then 2 else 1) * Float.ofNat members

def metric (p : Policy) : Metric where
  distance origin home := Double.rank (p.distance origin home)
  harm origin home members := Double.rank (p.harm origin home members)

end Policy

end RadioScan
