import RadioScan.Settings

/-!
# Admission

What a client and its request must satisfy to be registered. The conditions are checked in a fixed
order, and the first that fails is the reason for the refusal.
-/

namespace RadioScan

/-- Numbers a registered request; zero is never one. -/
abbrev RequestId := UInt32

/-- The name that a client registers its requests under. -/
structure ClientTag where
  text : String
  ne_empty : text.utf8ByteSize ≠ 0
  size_le : text.utf8ByteSize ≤ 32
deriving DecidableEq

namespace ClientTag

/-- The longest tag, in bytes. -/
def maxSize : Nat := 32

def ofString? (s : String) : Option ClientTag :=
  if h : s.utf8ByteSize ≠ 0 ∧ s.utf8ByteSize ≤ 32 then some ⟨s, h.1, h.2⟩ else none

end ClientTag

inductive AdmissionError
  | invalidPeriod (period : Millis)
  | periodTooLong (period greatest : Millis)
  | emptyScope
  | unknownBand (b : Band)
  | tooManyChannels (count : Nat)
  | invalidBackoff (period maxPeriod : Millis) (stepCount : UInt32)
  | invalidClientTag
  | registryFull
  | unknownRequest (id : RequestId)
deriving DecidableEq

namespace Registry

/-- Live requests of all clients together. -/
def capacity : Nat := 64

end Registry

def AdmissionError.message : AdmissionError → String
  | invalidPeriod period => s!"period {period}ms must be positive"
  | periodTooLong period greatest =>
    s!"period {period}ms exceeds the longest supported {greatest}ms"
  | emptyScope => "scan scope is empty"
  | unknownBand b => s!"band 0x{Band.hexByte b.bits} has no known channels"
  | tooManyChannels count =>
    s!"{count} channels requested, at most {Hardware.maxChannels} allowed"
  | invalidBackoff period maxPeriod stepCount =>
    s!"invalid backoff: period {period}ms, max {maxPeriod}ms, {stepCount} steps"
  | invalidClientTag => s!"client tag must be 1..={ClientTag.maxSize} bytes"
  | registryFull => s!"registry full ({Registry.capacity} requests)"
  | unknownRequest id => s!"unknown request id {id}"

namespace Settings

/-- The longest period that a client may ask for: four times the table's, if that is a period. -/
def longestPeriod (s : Settings) : Millis :=
  .ofNat (min (4 * s.periods.greatest.toNat) (UInt32.size - 1))

/-- What is wrong with a request's period, if anything. -/
def periodFault? (s : Settings) (r : Request) : Option AdmissionError :=
  if r.period = 0 then some (.invalidPeriod r.period)
  else if s.longestPeriod < r.period then some (.periodTooLong r.period s.longestPeriod)
  else none

/-- What is wrong with a request's scope, if anything. Repeated channels count once. -/
def scopeFault? (s : Settings) (r : Request) : Option AdmissionError :=
  match r.scope with
  | .band b => if s.catalog.expandBand b = [] then some (.unknownBand b) else none
  | .channels fs =>
    let count := (s.catalog.expand r.scope).length
    if fs = [] then some .emptyScope
    else if Hardware.maxChannels < count then some (.tooManyChannels count)
    else none

end Settings

/-- What is wrong with a request's backoff, if anything: it must grow, and in at least one step. -/
def Request.backoffFault? (r : Request) : Option AdmissionError :=
  if r.isExponential ∧ (r.maxPeriod < r.period ∨ r.stepCount = 0) then
    some (.invalidBackoff r.period r.maxPeriod r.stepCount)
  else none

/-- The first thing wrong with a request, if anything. -/
def Settings.requestFault? (s : Settings) (r : Request) : Option AdmissionError :=
  s.periodFault? r <|> s.scopeFault? r <|> r.backoffFault?

end RadioScan
