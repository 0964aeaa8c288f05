import RadioScan.Plan.Alignment
import RadioScan.Plan.Elimination
import RadioScan.Plan.Pooling
import RadioScan.Plan.Trimming

/-!
# Assembly

The whole way from requests to a schedule: pool the requests, give up candidates and channels above
the limits, align the periods, and write the candidates down as buckets, tightest first. Along with
the schedule it is told which bucket each request ended up in.
-/

namespace RadioScan.Plan

/-- A schedule, and for each request the number of its bucket. -/
structure Placement where
  schedule : Schedule
  bucketOf : List (Option Nat)

/-- The smallest preference, never above the limit; zero is no preference. -/
def leastPreference (preferences : List UInt32) (limit : UInt32) : UInt32 :=
  match (preferences.filter fun v => 0 < v).min? with
  | some v => min v limit
  | none => limit

/-- Candidates that respect the bucket limit. -/
def reduced (s : Settings) (requests : List Request) : List Candidate :=
  eliminate s.policy.metric s.limits.maxBuckets.toNat (pool s requests)

/-- Candidates that respect both limits. -/
def candidates (s : Settings) (requests : List Request) : List Candidate :=
  trim s.limits.maxChannels.toNat (reduced s requests)

/-- A candidate as a bucket. Alignment may have moved its period past the ceiling. -/
def toBucket (catalog : Catalog) (c : Candidate) : Bucket where
  period := c.period
  scope := c.channels.toScope catalog
  events := c.events
  maxPeriod := (c.backoff?.map fun curve => max curve.maxPeriod c.period).getD 0
  stepCount := (c.backoff?.map Backoff.stepCount).getD 0

/-- Aligned candidates in the order of their buckets. -/
def arrange (base : Millis) (cs : List Candidate) : List Candidate :=
  (cs.map (alignTo base)).mergeSort fun a b => a.looseness ≤ b.looseness

/-- Writes arranged candidates down as buckets and notes which of them serves each request. -/
def assemble (s : Settings) (requests : List Request) (base : Millis) (arranged : List Candidate) :
    Placement :=
  let served := requests.filter fun r => r.isSchedulable s.catalog
  let maxApPerScan := leastPreference (served.map Request.bssidsPerScan) s.limits.maxApPerScan
  let threshold := leastPreference (served.map Request.maxScansToCache) s.limits.maxBatch
  { schedule := ⟨base, .ofList (arranged.map (toBucket s.catalog)), maxApPerScan, threshold⟩
    bucketOf := (List.range requests.length).map fun i =>
      arranged.findIdx? fun c => i ∈ c.members }

/-- The base period of the schedule for a list of requests. -/
def baseFor (s : Settings) (requests : List Request) : Millis :=
  basePeriod s.limits.idlePeriod (candidates s requests)

/-- The candidates that become the buckets for a list of requests. -/
def arranged (s : Settings) (requests : List Request) : List Candidate :=
  arrange (baseFor s requests) (candidates s requests)

/-- Computes the schedule for a list of requests. -/
def compute (s : Settings) (requests : List Request) : Placement :=
  assemble s requests (baseFor s requests) (arranged s requests)

end RadioScan.Plan
