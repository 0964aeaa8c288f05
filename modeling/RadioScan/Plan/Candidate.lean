import RadioScan.Plan.Key
import RadioScan.Schedule

/-!
# Candidates

A candidate is a bucket under construction: the requests that will be served by it, by number, and
what their service takes. Candidates are told apart by the order in which they were opened.
-/

namespace RadioScan.Plan

/-- The curve along which a bucket's period backs off. -/
structure Backoff where
  maxPeriod : Millis
  stepCount : UInt32
deriving DecidableEq

/-- Which requests may still join a pooled candidate. -/
inductive Group
  /-- Requests for this very band. -/
  | band (b : Band)
  /-- Requests for lists of channels. -/
  | channels
deriving DecidableEq

/-- Where a candidate's period comes from. -/
inductive Cadence
  /-- The period table; the candidate is shared. -/
  | pooled (group : Group)
  /-- A request of its own; the curve is lost once a member with a fixed period joins. -/
  | exact (backoff : Option Backoff)
deriving DecidableEq

structure Candidate where
  order : Nat
  period : Millis
  cadence : Cadence
  channels : ChannelSet
  events : ReportEvents
  members : List Nat

namespace Candidate

def isExact (c : Candidate) : Bool :=
  match c.cadence with
  | .exact _ => true
  | .pooled _ => false

def backoff? (c : Candidate) : Option Backoff :=
  match c.cadence with
  | .exact curve => curve
  | .pooled _ => none

def isBackoff (c : Candidate) : Bool := c.backoff?.isSome

/-- Serves one more request. -/
def join (c : Candidate) (member : Nat) (events : ReportEvents) (channels : ChannelSet) :
    Candidate :=
  { c with
    members := c.members ++ [member]
    events := c.events.union events
    channels := c.channels.union channels }

/-- Takes over another candidate's requests. Those with a fixed period must not ride a curve. -/
def absorb (c other : Candidate) : Candidate :=
  { c with
    cadence :=
      match c.cadence with
      | .exact curve => .exact (if other.isBackoff then curve else none)
      | .pooled group => .pooled group
    members := c.members ++ other.members
    events := c.events.union other.events
    channels := c.channels.union other.channels }

/-- The larger, the looser: the longer period, then the later opening. -/
def looseness (c : Candidate) : Key := ⟨c.period.toNat, c.order, 0⟩

end Candidate

/-- The length of all channel lists together. -/
def totalChannels (cs : List Candidate) : Nat := cs.foldr (fun c n => c.channels.size + n) 0

end RadioScan.Plan
