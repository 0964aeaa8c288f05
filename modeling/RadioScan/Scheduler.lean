import RadioScan.Config
import RadioScan.Plan.Assembly

/-!
# The scheduler

A scheduler keeps its settings and what it computed last: a schedule and the bucket of each request.
Every update computes both afresh. Setting limits takes effect with the next update, except that an
idle schedule follows at once.
-/

namespace RadioScan

structure Scheduler where
  settings : Settings
  schedule : Schedule
  bucketOf : List (Option Nat)

namespace Scheduler

def ofCatalog (catalog : Catalog) : Scheduler :=
  let settings := Settings.ofCatalog catalog
  ⟨settings, settings.idleSchedule, []⟩

def limits (s : Scheduler) : Limits := s.settings.limits

def withPeriodTable (s : Scheduler) (periods : PeriodTable) : Scheduler :=
  { s with settings := { s.settings with periods } }

def withPolicy (s : Scheduler) (policy : Policy) : Scheduler :=
  { s with settings := { s.settings with policy } }

/-- Applies limits, clamped into the hardware's range. -/
def setLimits (s : Scheduler) (limits : Limits) : Scheduler :=
  let settings := { s.settings with limits := limits.clamped }
  { s with
    settings
    schedule := if s.schedule.isEmpty then settings.idleSchedule else s.schedule }

def setMaxBuckets (s : Scheduler) (n : UInt64) : Scheduler :=
  s.setLimits { s.limits with maxBuckets := n }

def setMaxChannels (s : Scheduler) (n : UInt64) : Scheduler :=
  s.setLimits { s.limits with maxChannels := n }

def setMaxBatch (s : Scheduler) (n : UInt32) : Scheduler :=
  s.setLimits { s.limits with maxBatch := n }

def setMaxApPerScan (s : Scheduler) (n : UInt32) : Scheduler :=
  s.setLimits { s.limits with maxApPerScan := n }

def setIdlePeriod (s : Scheduler) (period : Millis) : Scheduler :=
  s.setLimits { s.limits with idlePeriod := period }

/-- Computes the schedule for the given requests. -/
def update (s : Scheduler) (requests : List Request) : Scheduler :=
  let placement := Plan.compute s.settings requests
  { s with schedule := placement.schedule, bucketOf := placement.bucketOf }

/-- Whether an update would leave another schedule behind. -/
def wouldChange (s : Scheduler) (requests : List Request) : Bool :=
  (s.update requests).schedule != s.schedule

/-- The number of the bucket that a request of the last update is served by. -/
def bucketIndex? (s : Scheduler) (request : Nat) : Option Nat := s.bucketOf[request]?.join

/-- The bucket that a request of the last update is served by. -/
def bucket? (s : Scheduler) (request : Nat) : Option Bucket :=
  (s.bucketIndex? request).bind fun i => s.schedule.buckets.toList[i]?

/-- Whether a request's results are delivered one by one. -/
def reportsFullResults (s : Scheduler) (request : Nat) : Bool :=
  (s.bucket? request).any fun b => b.events.contains .fullResults

/-- A scheduler for a valid configuration. -/
def ofConfig? (c : Config) : Except ConfigError Scheduler := do
  c.validate
  let catalog ← c.channelCatalog
  let periods ← c.periodTable
  return ((ofCatalog catalog).withPeriodTable periods |>.withPolicy c.policy).setLimits c.limits

end Scheduler

end RadioScan
