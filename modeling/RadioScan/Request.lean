import RadioScan.Catalog
import RadioScan.PeriodTable

/-!
# Scan requests

A request asks for a scope to be scanned with some period. It may name a ceiling up to which its
period backs off; such a request keeps its own period and shares no bucket by choice.
-/

namespace RadioScan

/-- How results are delivered, as a bit mask; no bit means once the result buffer is full. -/
structure ReportEvents where
  bits : UInt8
deriving DecidableEq

namespace ReportEvents

def bufferFull : ReportEvents := ⟨0⟩

def eachScan : ReportEvents := ⟨1⟩

def fullResults : ReportEvents := ⟨2⟩

def noBatch : ReportEvents := ⟨4⟩

def contains (e other : ReportEvents) : Bool := e.bits &&& other.bits == other.bits

def union (e other : ReportEvents) : ReportEvents := ⟨e.bits ||| other.bits⟩

/-- The flags by name; bits without a name are not written. -/
def text (e : ReportEvents) : String :=
  if e.bits = 0 then "buffer-full"
  else
    let named := [(eachScan, "each-scan"), (fullResults, "full-results"), (noBatch, "no-batch")]
    "|".intercalate ((named.filter fun flag => e.contains flag.1).map Prod.snd)

end ReportEvents

/-- One client's periodic background scan. Zero in `maxScansToCache` or `bssidsPerScan` leaves the
choice to the scheduler, and zero in `maxPeriod` asks for no backoff. -/
structure Request where
  scope : Scope
  period : Millis
  maxPeriod : Millis
  stepCount : UInt32
  maxScansToCache : UInt32
  bssidsPerScan : UInt32
  events : ReportEvents
deriving DecidableEq

namespace Request

/-- A request that leaves everything open but the scope and the period. -/
def ofScope (scope : Scope) (period : Millis) : Request where
  scope := scope
  period := period
  maxPeriod := 0
  stepCount := 0
  maxScansToCache := 0
  bssidsPerScan := 0
  events := .bufferFull

def withBackoff (r : Request) (maxPeriod : Millis) (stepCount : UInt32) : Request :=
  { r with maxPeriod, stepCount }

def withMaxScansToCache (r : Request) (n : UInt32) : Request := { r with maxScansToCache := n }

def withBssidsPerScan (r : Request) (n : UInt32) : Request := { r with bssidsPerScan := n }

def withEvents (r : Request) (events : ReportEvents) : Request := { r with events }

/-- The period backs off: there is a ceiling, and it is not the period itself. -/
def isExponential (r : Request) : Bool := r.maxPeriod != 0 && r.maxPeriod != r.period

/-- There is something to scan, and a time between scans. -/
def isSchedulable (r : Request) (c : Catalog) : Bool :=
  0 < r.period && !(c.expand r.scope).isEmpty

end Request

end RadioScan
