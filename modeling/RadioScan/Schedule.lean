import RadioScan.Request

/-!
# Schedules

A schedule is what the radio controller runs: a base period and at most sixteen buckets, each a
scope scanned at a period of its own. Two schedules are equivalent when the hardware does the same
for both, however their scopes are written.
-/

namespace RadioScan

namespace Hardware

/-- Most buckets that run at once. -/
def maxBuckets : Nat := 16

/-- Longest channel list over all buckets. -/
def maxChannels : Nat := 128

/-- Deepest cache of scan results. -/
def maxBatch : Nat := 64

/-- Most access points reported by one scan. -/
def maxApPerScan : Nat := 256

end Hardware

/-- One polling slot; `maxPeriod` and `stepCount` are zero unless its period backs off. -/
structure Bucket where
  period : Millis
  scope : Scope
  events : ReportEvents
  maxPeriod : Millis
  stepCount : UInt32
deriving DecidableEq

namespace Bucket

def isExponential (b : Bucket) : Bool := b.maxPeriod != 0 && b.maxPeriod != b.period

def frequencies (b : Bucket) (c : Catalog) : List Frequency := c.expand b.scope

def channelCount (b : Bucket) (c : Catalog) : Nat := (b.frequencies c).length

/-- The same settings, and the same frequencies as a set. -/
def isEquivalent (a b : Bucket) (c : Catalog) : Bool :=
  a.period == b.period && a.events == b.events && a.maxPeriod == b.maxPeriod &&
    a.stepCount == b.stepCount &&
    (a.frequencies c).all (· ∈ b.frequencies c) && (b.frequencies c).all (· ∈ a.frequencies c)

end Bucket

/-- As many buckets as the hardware has room for. -/
structure BucketList where
  toList : List Bucket
  length_le : toList.length ≤ Hardware.maxBuckets
deriving DecidableEq

namespace BucketList

def empty : BucketList := ⟨[], Nat.zero_le _⟩

/-- The first buckets of a list, as many as there is room for. -/
def ofList (bs : List Bucket) : BucketList :=
  ⟨bs.take Hardware.maxBuckets, List.length_take_le _ _⟩

end BucketList

/-- The one schedule computed from all live requests. -/
structure Schedule where
  basePeriod : Millis
  buckets : BucketList
  maxApPerScan : UInt32
  reportThreshold : UInt32
deriving DecidableEq

namespace Schedule

/-- No buckets; the controller ticks at the idle period. -/
def idle (period : Millis) (maxApPerScan reportThreshold : UInt32) : Schedule :=
  ⟨period, .empty, maxApPerScan, reportThreshold⟩

def isEmpty (s : Schedule) : Bool := s.buckets.toList.isEmpty

def bucketCount (s : Schedule) : Nat := s.buckets.toList.length

/-- Channels of all buckets, counted once for each bucket that scans them. -/
def totalChannels (s : Schedule) (c : Catalog) : Nat :=
  s.buckets.toList.foldr (fun b n => b.channelCount c + n) 0

/-- Every frequency that some bucket scans, ascending. -/
def coveredFrequencies (s : Schedule) (c : Catalog) : List Frequency :=
  (ChannelSet.ofList (s.buckets.toList.flatMap fun b => b.frequencies c)).toList.mergeSort
    fun f g => f ≤ g

/-- Some bucket scans the frequency at least every `period`. -/
def coversAt (s : Schedule) (c : Catalog) (f : Frequency) (period : Millis) : Bool :=
  s.buckets.toList.any fun b => b.period ≤ period && f ∈ b.frequencies c

/-- Every bucket's period is a multiple of the base period. -/
def periodsAligned (s : Schedule) : Bool :=
  0 < s.basePeriod && s.buckets.toList.all fun b => b.period % s.basePeriod == 0

/-- The hardware does the same for both. -/
def isEquivalent (s t : Schedule) (c : Catalog) : Bool :=
  s.basePeriod == t.basePeriod && s.maxApPerScan == t.maxApPerScan &&
    s.reportThreshold == t.reportThreshold && s.bucketCount == t.bucketCount &&
    (s.buckets.toList.zip t.buckets.toList).all fun (a, b) => a.isEquivalent b c

end Schedule

end RadioScan
