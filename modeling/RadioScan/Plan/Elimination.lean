import RadioScan.Plan.Candidate
import RadioScan.Policy

/-!
# Elimination

While there are more candidates than buckets, the one whose loss harms least is folded into the
closest of the others. A candidate with a fixed period goes to another such one if there is one.
-/

namespace RadioScan.Plan

/-- A candidate to give up, the one that takes over its members, and what that costs. -/
structure Elimination where
  victim : Nat
  target : Nat
  cost : Key

/-- The others that may take over a candidate's members, by position. -/
def homes (cs : List Candidate) (position : Nat) (c : Candidate) : List (Nat × Millis) :=
  let others := cs.zipIdx.filter (·.2 != position)
  let fixedOnly := !c.isBackoff && others.any fun other => !other.1.isBackoff
  (others.filter fun other => !(fixedOnly && other.1.isBackoff)).map fun other =>
    (other.2, other.1.period)

/-- The harm of giving a candidate up; of equal harms the loosest candidate's costs least. -/
def cost (m : Metric) (c target : Candidate) : Key :=
  ⟨m.harm c.period target.period c.members.length, -c.period.toNat, -c.order⟩

/-- What giving up the candidate at a position would mean, if another can take over. -/
def elimination? (m : Metric) (cs : List Candidate) (c : Candidate) (position : Nat) :
    Option Elimination := do
  let target ← m.closest? c.period (homes cs position c)
  let home ← cs[target]?
  return ⟨position, target, cost m c home⟩

/-- The least harmful elimination. -/
def pick? (m : Metric) (cs : List Candidate) : Option Elimination :=
  (cs.zipIdx.filterMap fun (c, i) => elimination? m cs c i).minOn? Elimination.cost

/-- Folds the candidate at one position into that at another. -/
def fold (cs : List Candidate) (victim target : Nat) : List Candidate :=
  match cs[victim]? with
  | some removed => (cs.modify target fun c => c.absorb removed).eraseIdx victim
  | none => cs

/-- Gives up one candidate. -/
def eliminateOne (m : Metric) (cs : List Candidate) : List Candidate :=
  match pick? m cs with
  | some e => fold cs e.victim e.target
  | none => cs

/-- Gives up candidates one at a time, a given number of times. -/
def eliminateTimes (m : Metric) : Nat → List Candidate → List Candidate
  | 0, cs => cs
  | n + 1, cs => eliminateTimes m n (eliminateOne m cs)

/-- Gives up as many candidates as there are above the limit. -/
def eliminate (m : Metric) (maxBuckets : Nat) (cs : List Candidate) : List Candidate :=
  eliminateTimes m (cs.length - maxBuckets) cs

end RadioScan.Plan
