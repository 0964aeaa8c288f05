import RadioScan.Registry.Admission
import RadioScan.Scheduler

/-!
# The registry

The registry holds the live requests of all clients, in the order in which they were registered, and
recomputes the schedule whenever they or the limits change. Its statistics are 32-bit counters; an
operation that would carry one past its end stops the program and has no result.
-/

namespace RadioScan

/-- A live request. -/
structure Entry where
  id : RequestId
  client : ClientTag
  request : Request
deriving DecidableEq

/-- What has happened so far, and how many requests were live at the last recomputation. -/
structure Stats where
  totalRegistered : UInt32
  totalRejected : UInt32
  totalUnregistered : UInt32
  recomputes : UInt32
  scheduleChanges : UInt32
  currentlyRegistered : UInt8
deriving DecidableEq

def Stats.zero : Stats := ⟨0, 0, 0, 0, 0, 0⟩

/-- Raises a counter, unless the sum needs more than 32 bits. -/
def raise (counter : UInt32) (n : Nat) : Option UInt32 :=
  if counter.toNat + n < UInt32.size then some (.ofNat (counter.toNat + n)) else none

structure Registry where
  scheduler : Scheduler
  entries : List Entry
  nextId : RequestId
  stats : Stats

namespace Registry

def ofScheduler (scheduler : Scheduler) : Registry := ⟨scheduler, [], 1, .zero⟩

def ofConfig? (c : Config) : Except ConfigError Registry :=
  (Scheduler.ofConfig? c).map ofScheduler

def schedule (r : Registry) : Schedule := r.scheduler.schedule

def limits (r : Registry) : Limits := r.scheduler.limits

/-- The live requests without their owners. -/
def requests (r : Registry) : List Request := r.entries.map Entry.request

def position? (r : Registry) (id : RequestId) : Option Nat :=
  r.entries.findIdx? fun e => e.id == id

/-- The bucket that serves a live request. -/
def bucketFor? (r : Registry) (id : RequestId) : Option Bucket :=
  (r.position? id).bind r.scheduler.bucket?

/-- Brings the schedule up to date with the live requests. -/
def recompute (r : Registry) : Option Registry := do
  let changed := r.scheduler.wouldChange r.requests
  let recomputes ← raise r.stats.recomputes 1
  let scheduleChanges ← raise r.stats.scheduleChanges (if changed then 1 else 0)
  return { r with
    scheduler := r.scheduler.update r.requests
    stats := { r.stats with
      recomputes, scheduleChanges, currentlyRegistered := .ofNat r.entries.length } }

/-- Whether a client may register a request, and under which tag. -/
def admission (r : Registry) (client : String) (request : Request) :
    Except AdmissionError ClientTag :=
  match ClientTag.ofString? client with
  | none => .error .invalidClientTag
  | some tag =>
    match r.scheduler.settings.requestFault? request with
    | some e => .error e
    | none => if r.entries.length < capacity then .ok tag else .error .registryFull

/-- Registers a request and reschedules; a refusal is counted and changes nothing else. -/
def register (r : Registry) (client : String) (request : Request) :
    Option (Except AdmissionError RequestId × Registry) :=
  match r.admission client request with
  | .error e => do
    let totalRejected ← raise r.stats.totalRejected 1
    return (.error e, { r with stats := { r.stats with totalRejected } })
  | .ok tag => do
    let totalRegistered ← raise r.stats.totalRegistered 1
    let r' ← recompute { r with
      entries := r.entries ++ [⟨r.nextId, tag, request⟩]
      nextId := max 1 (r.nextId + 1)
      stats := { r.stats with totalRegistered } }
    return (.ok r.nextId, r')

/-- Removes the request with the given number. -/
def unregister (r : Registry) (id : RequestId) : Option (Except AdmissionError Unit × Registry) :=
  match r.position? id with
  | none => some (.error (.unknownRequest id), r)
  | some i => do
    let totalUnregistered ← raise r.stats.totalUnregistered 1
    let r' ← recompute { r with
      entries := r.entries.eraseIdx i
      stats := { r.stats with totalUnregistered } }
    return (.ok (), r')

/-- Removes every request of a client and tells how many there were; if none, nothing changes. -/
def unregisterClient (r : Registry) (client : String) : Option (Nat × Registry) :=
  let removed := r.entries.countP fun e => e.client.text == client
  if removed = 0 then some (0, r)
  else do
    let totalUnregistered ← raise r.stats.totalUnregistered removed
    let r' ← recompute { r with
      entries := r.entries.filter fun e => e.client.text != client
      stats := { r.stats with totalUnregistered } }
    return (removed, r')

/-- Applies valid limits and reschedules. -/
def setLimits (r : Registry) (limits : Limits) : Option (Except ConfigError Unit × Registry) :=
  match limits.fault? with
  | some e => some (.error (.limit e), r)
  | none => do
    let r' ← recompute { r with scheduler := r.scheduler.setLimits limits }
    return (.ok (), r')

end Registry

end RadioScan
