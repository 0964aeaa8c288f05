import RadioScan.Control.Response
import RadioScan.Scheduler
import RadioScan.Terminal.Style

/-!
# Reports

What the commands print for people: one line after the other, in colour if wanted.
-/

namespace RadioScan.Terminal

open Control (Response)

/-- The version of the period table, raised whenever its entries change. -/
def periodTableVersion : Nat := 1

/-- Lines as text, each with a line feed. -/
def unlines (lines : List String) : String := String.join (lines.map fun l => l ++ "\n")

def bucketLine (color : Bool) (index : Nat) (b : Bucket) : String :=
  let backoff :=
    if b.isExponential then s!" backoff to {b.maxPeriod} ms over {b.stepCount} steps" else ""
  s!"  [{index}] every {padLeft 9 (toString b.period)} ms  {padRight 28 b.scope.text} " ++
    paint color .cyan b.events.text ++ paint color .yellow backoff

def scheduleLines (color : Bool) (s : Schedule) : List String :=
  let head := paint color .heading "Schedule" ++
    s!"  base {s.basePeriod} ms, {s.bucketCount} bucket(s), {s.maxApPerScan} AP/scan, " ++
    s!"report every {s.reportThreshold} scan(s)"
  if s.isEmpty then [head, "  " ++ paint color .dimmed "(idle)"]
  else head :: s.buckets.toList.zipIdx.map fun (b, i) => bucketLine color i b

/-- Where each request ended up. -/
def placementLines (color : Bool) (s : Scheduler) (requests : List Request) : List String :=
  requests.zipIdx.map fun (r, i) =>
    let placement := match s.bucketIndex? i with
      | some bucket => paint color .green s!"bucket {bucket}"
      | none => paint color .red "not scheduled"
    s!"  #{padRight 3 (toString i)} {padLeft 9 (toString r.period)}ms " ++
      s!"{padRight 24 r.scope.text} -> {placement}"

def planLines (color : Bool) (s : Scheduler) (requests : List Request) : List String :=
  scheduleLines color s.schedule ++
    ["", paint color .heading "Request placement"] ++ placementLines color s requests

def periodLines (color : Bool) (t : PeriodTable) : List String :=
  (paint color .heading "Bucket period table" ++ s!" (version {periodTableVersion})") ::
    t.entries.map fun p =>
      s!"  {padLeft 10 (toString p)} ms  ({toString (p / 1000)} s)"

def channelLines (color : Bool) (c : Catalog) (b : Band) : List String :=
  (paint color .heading "Channels for" ++ " " ++ paint color .bold b.name) ::
    (c.expandBand b).map fun f => s!"  {f} MHz  [{(c.bandOf f).name}]"

def statusLine (color : Bool) : Control.Status → String
  | .success => paint color .boldGreen "✓ SUCCESS"
  | .rejected => paint color .boldRed "✗ REJECTED"
  | .notFound => paint color .boldYellow "? NOT FOUND"
  | .invalidMessage => paint color .boldRed "✗ INVALID"
  | .scheduleUpdate => paint color .boldCyan "↻ UPDATE"

def limitLines (l : Limits) : List String :=
  [s!"  max buckets:      {l.maxBuckets}",
    s!"  max channels:     {l.maxChannels}",
    s!"  max batch:        {l.maxBatch}",
    s!"  max AP per scan:  {l.maxApPerScan}",
    s!"  idle period:      {l.idlePeriod} ms"]

def statLines (s : Stats) : List String :=
  [s!"  registered now:   {s.currentlyRegistered}",
    s!"  total registered: {s.totalRegistered}",
    s!"  total rejected:   {s.totalRejected}",
    s!"  recomputes:       {s.recomputes}",
    s!"  schedule changes: {s.scheduleChanges}"]

/-- The lines for what may be missing from a response. -/
def linesOf {α : Type} (lines : α → List String) : Option α → List String
  | none => []
  | some a => lines a

def responseLines (color : Bool) (r : Response) : List String :=
  [statusLine color r.status] ++
    linesOf (fun id => ["  request id: " ++ paint color .bold (toString id)]) r.requestId ++
    linesOf (fun message => ["  " ++ message]) r.message ++
    linesOf (scheduleLines color) r.schedule ++ linesOf limitLines r.limits ++
    linesOf statLines r.stats

end RadioScan.Terminal
