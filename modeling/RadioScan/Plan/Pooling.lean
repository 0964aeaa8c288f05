import RadioScan.Plan.Candidate
import RadioScan.Settings

/-!
# Pooling

A request whose period backs off gets a candidate of its own. Any other is snapped to the period
table and joins the first pooled candidate of its period that takes it: one for the same band, or
one for channel lists that stays within the channel limit. If there is none it opens one.
-/

namespace RadioScan.Plan

/-- The group that a scope's requests are pooled in. -/
def groupOf : Scope → Group
  | .band b => .band b
  | .channels _ => .channels

/-- Whether a candidate of the given period takes one more request. -/
def accepts (maxChannels : Nat) (period : Millis) (group : Group) (channels : ChannelSet)
    (c : Candidate) : Bool :=
  c.period == period &&
    match c.cadence, group with
    | .pooled (.band a), .band b => a == b
    | .pooled .channels, .channels => c.channels.unionSize channels ≤ maxChannels
    | _, _ => false

/-- A candidate that serves one request. -/
def openFor (catalog : Catalog) (order index : Nat) (r : Request) (period : Millis)
    (cadence : Cadence) : Candidate where
  order := order
  period := period
  cadence := cadence
  channels := ChannelSet.ofScope catalog r.scope
  events := r.events
  members := [index]

/-- Finds a place for one request, if it can be scheduled at all. -/
def place (s : Settings) (cs : List Candidate) (index : Nat) (r : Request) : List Candidate :=
  if r.isSchedulable s.catalog then
    if r.isExponential then
      cs ++ [openFor s.catalog cs.length index r r.period
        (.exact (some ⟨r.maxPeriod, r.stepCount⟩))]
    else
      let channels := ChannelSet.ofScope s.catalog r.scope
      let period := s.periods.nearest r.period
      let group := groupOf r.scope
      match cs.findIdx? (accepts s.limits.maxChannels.toNat period group channels) with
      | some i => cs.modify i fun c => c.join index r.events channels
      | none => cs ++ [openFor s.catalog cs.length index r period (.pooled group)]
  else cs

/-- The candidates for a list of requests. -/
def pool (s : Settings) (requests : List Request) : List Candidate :=
  requests.zipIdx.foldl (fun cs (r, index) => place s cs index r) []

end RadioScan.Plan
