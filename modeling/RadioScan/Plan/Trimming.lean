import RadioScan.Plan.Candidate

/-!
# Trimming

While the channel lists are too long together, the loosest candidate with more than one channel
loses its oldest. Once every candidate is down to one channel, the loosest one is dropped whole.
-/

namespace RadioScan.Plan

/-- The position of the loosest of the candidates that satisfy a condition. -/
def loosest? (cs : List Candidate) (p : Candidate → Bool) : Option Nat :=
  ((cs.zipIdx.filter (p ·.1)).maxOn? (·.1.looseness)).map Prod.snd

/-- The candidate without the channel that it has held longest. -/
def Candidate.dropOldest (c : Candidate) : Candidate := { c with channels := c.channels.dropOldest }

/-- Gives up one channel. -/
def trimOne (cs : List Candidate) : List Candidate :=
  match loosest? cs fun c => 1 < c.channels.size with
  | some i => cs.modify i Candidate.dropOldest
  | none =>
    match loosest? cs fun _ => true with
    | some i => cs.eraseIdx i
    | none => cs

/-- Gives up channels one at a time, a given number of times. -/
def trimTimes : Nat → List Candidate → List Candidate
  | 0, cs => cs
  | n + 1, cs => trimTimes n (trimOne cs)

/-- Gives up as many channels as there are above the limit. -/
def trim (maxChannels : Nat) (cs : List Candidate) : List Candidate :=
  trimTimes (totalChannels cs - maxChannels) cs

end RadioScan.Plan
