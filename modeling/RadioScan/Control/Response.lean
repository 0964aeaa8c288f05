import RadioScan.Control.Message

/-!
# Control responses

Each message is answered by one response. A response also announces a new schedule to clients that
asked for nothing; such a push is told from an answer by its status.
-/

namespace RadioScan.Control

open Json (Record Decoder)
open Format

inductive Status
  | success
  | rejected
  | notFound
  | invalidMessage
  /-- A push: the schedule has changed. -/
  | scheduleUpdate
deriving DecidableEq

namespace Status

def encode : Status → Json
  | .success => ofString "Success"
  | .rejected => ofString "Rejected"
  | .notFound => ofString "NotFound"
  | .invalidMessage => ofString "InvalidMessage"
  | .scheduleUpdate => ofString "ScheduleUpdate"

def decode : Decoder Status :=
  Json.choice [
    ⟨"Success", .unit .success⟩,
    ⟨"Rejected", .unit .rejected⟩,
    ⟨"NotFound", .unit .notFound⟩,
    ⟨"InvalidMessage", .unit .invalidMessage⟩,
    ⟨"ScheduleUpdate", .unit .scheduleUpdate⟩]

end Status

def statsFormat : Record Stats where
  title := "struct RegistryStats"
  blank := .zero
  fields := [
    .needed "total_registered" ofUInt32 Json.uint32 Stats.totalRegistered
      fun v s => { s with totalRegistered := v },
    .needed "total_rejected" ofUInt32 Json.uint32 Stats.totalRejected
      fun v s => { s with totalRejected := v },
    .needed "total_unregistered" ofUInt32 Json.uint32 Stats.totalUnregistered
      fun v s => { s with totalUnregistered := v },
    .needed "recomputes" ofUInt32 Json.uint32 Stats.recomputes
      fun v s => { s with recomputes := v },
    .needed "schedule_changes" ofUInt32 Json.uint32 Stats.scheduleChanges
      fun v s => { s with scheduleChanges := v },
    .needed "currently_registered" ofUInt8 Json.uint8 Stats.currentlyRegistered
      fun v s => { s with currentlyRegistered := v }]

structure Response where
  status : Status
  requestId : Option RequestId
  schedule : Option Schedule
  limits : Option Limits
  stats : Option Stats
  message : Option String
deriving DecidableEq

namespace Response

def ofStatus (status : Status) : Response := ⟨status, none, none, none, none, none⟩

def withMessage (status : Status) (message : String) : Response :=
  { ofStatus status with message }

/-- Announces a schedule. -/
def scheduleUpdate (schedule : Schedule) : Response := { ofStatus .scheduleUpdate with schedule }

def isPush (r : Response) : Bool := r.status == .scheduleUpdate

/-- Only what a response carries is written. -/
def format : Record Response where
  title := "struct ControlResponse"
  blank := ofStatus .success
  fields := [
    .needed "status" Status.encode Status.decode Response.status
      fun v r => { r with status := v },
    .skipped "request_id" ofUInt32 Json.uint32 Response.requestId
      fun v r => { r with requestId := v },
    .skipped "schedule" Format.schedule.encode Format.schedule.decode Response.schedule
      fun v r => { r with schedule := v },
    .skipped "limits" Format.limits.encode Format.limits.decode Response.limits
      fun v r => { r with limits := v },
    .skipped "stats" statsFormat.encode statsFormat.decode Response.stats
      fun v r => { r with stats := v },
    .skipped "message" ofString Json.string Response.message fun v r => { r with message := v }]

def text (r : Response) : String := (format.encode r).compact

def ofText (s : String) : Except Json.Fault Response := Json.decodeText format.decode s

/-- The text of a response, if it is short enough to send. -/
def serialize (r : Response) : Except ProtocolError String :=
  let s := r.text
  if maxResponseSize < s.utf8ByteSize then
    .error (.messageTooLarge s.utf8ByteSize maxResponseSize)
  else .ok s

end Response

end RadioScan.Control
