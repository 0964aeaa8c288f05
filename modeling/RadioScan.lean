import RadioScan.Main
import RadioScan.Service.Start
import RadioScan.Terminal.FileTree
import RadioScan.Proofs.Catalog
import RadioScan.Proofs.Partition
import RadioScan.Proofs.Rendering
import RadioScan.Proofs.PeriodTable
import RadioScan.Proofs.Pooling
import RadioScan.Proofs.LeastHarm
import RadioScan.Proofs.Elimination
import RadioScan.Proofs.Trimming
import RadioScan.Proofs.Members
import RadioScan.Proofs.Mergers
import RadioScan.Proofs.FirstFit
import RadioScan.Proofs.LoosestFirst
import RadioScan.Proofs.Candidates
import RadioScan.Proofs.Alignment
import RadioScan.Proofs.Placement
import RadioScan.Proofs.SchedulerRun
import RadioScan.Proofs.Ceilings
import RadioScan.Proofs.Coverage
import RadioScan.Proofs.FixedPeriods
import RadioScan.Proofs.PeriodsKept
import RadioScan.Proofs.PeriodBase
import RadioScan.Proofs.Rounding
import RadioScan.Proofs.IgnoredRequests
import RadioScan.Proofs.Config
import RadioScan.Proofs.Validation
import RadioScan.Proofs.RegistryRun
import RadioScan.Proofs.RegistryHistory
import RadioScan.Proofs.ScheduleChanges
import RadioScan.Proofs.Connections
import RadioScan.Proofs.Json.Token
import RadioScan.Proofs.Json.Tree
import RadioScan.Proofs.Json.Record
import RadioScan.Proofs.Json.Listing
import RadioScan.Proofs.Json.Text
import RadioScan.Proofs.Formats
import RadioScan.Proofs.Leniency
import RadioScan.Proofs.MessageText
import RadioScan.Proofs.Announcements
import RadioScan.Proofs.ResponseText
import RadioScan.Proofs.RegistryLedger
import RadioScan.Proofs.RequestIds
import RadioScan.Proofs.ExactAdmission
import RadioScan.Proofs.ResponseSize
import RadioScan.Proofs.Replies
import RadioScan.Proofs.Broadcasts
import RadioScan.Proofs.Json.Room
import RadioScan.Proofs.Json.Within
import RadioScan.Proofs.DoubleText
import RadioScan.Proofs.Json.Report
import RadioScan.Proofs.InvalidLines
import RadioScan.Proofs.AwaitedAnswer
import RadioScan.Proofs.Equivalence
import RadioScan.Proofs.Setters
import RadioScan.Proofs.Snapping
import RadioScan.Proofs.InsertionOrder
