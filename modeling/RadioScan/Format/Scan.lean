import RadioScan.Json.Choice
import RadioScan.Schedule

/-!
# Requests and schedules in JSON

How scopes, requests, buckets and schedules are written and read.
-/

namespace RadioScan.Format

open Json (Record Field Decoder)

def ofNat (n : Nat) : Json := .number (.ofNat n)

def ofUInt8 (n : UInt8) : Json := ofNat n.toNat

def ofUInt32 (n : UInt32) : Json := ofNat n.toNat

def ofWord (n : UInt64) : Json := ofNat n.toNat

def ofString (s : String) : Json := .text (some s)

def ofList {α : Type} (encode : α → Json) (as : List α) : Json := .array (as.map encode)

def ofOption {α : Type} (encode : α → Json) : Option α → Json
  | none => .null
  | some a => encode a

/-- An object with one member. -/
def tagged (name : String) (j : Json) : Json := .object [(some name, j)]

def ofBand (b : Band) : Json := ofUInt8 b.bits

def band : Decoder Band := fun j => (Json.uint8 j).map Band.mk

def ofEvents (e : ReportEvents) : Json := ofUInt8 e.bits

def events : Decoder ReportEvents := fun j => (Json.uint8 j).map ReportEvents.mk

def ofFrequencies (fs : List Frequency) : Json := ofList ofUInt32 fs

def frequencies : Decoder (List Frequency) := Json.list Json.uint32

def ofScope : Scope → Json
  | .band b => tagged "Band" (ofBand b)
  | .channels fs => tagged "Channels" (ofFrequencies fs)

def scope : Decoder Scope :=
  Json.choice [
    ⟨"Band", .newtype fun j => (band j).map Scope.band⟩,
    ⟨"Channels", .newtype fun j => (frequencies j).map Scope.channels⟩]

/-- Only scope and period are required of a request. -/
def request : Record Request where
  title := "struct ScanRequest"
  blank := .ofScope (.channels []) 0
  fields := [
    .needed "scope" ofScope scope Request.scope fun v r => { r with scope := v },
    .needed "period_ms" ofUInt32 Json.uint32 Request.period fun v r => { r with period := v },
    .defaulted "max_period_ms" ofUInt32 Json.uint32 Request.maxPeriod
      fun v r => { r with maxPeriod := v },
    .defaulted "step_count" ofUInt32 Json.uint32 Request.stepCount
      fun v r => { r with stepCount := v },
    .defaulted "max_scans_to_cache" ofUInt32 Json.uint32 Request.maxScansToCache
      fun v r => { r with maxScansToCache := v },
    .defaulted "num_bssids_per_scan" ofUInt32 Json.uint32 Request.bssidsPerScan
      fun v r => { r with bssidsPerScan := v },
    .defaulted "report_events" ofEvents events Request.events fun v r => { r with events := v }]

def bucket : Record Bucket where
  title := "struct Bucket"
  blank := ⟨0, .channels [], .bufferFull, 0, 0⟩
  fields := [
    .needed "period_ms" ofUInt32 Json.uint32 Bucket.period fun v b => { b with period := v },
    .needed "scope" ofScope scope Bucket.scope fun v b => { b with scope := v },
    .needed "report_events" ofEvents events Bucket.events fun v b => { b with events := v },
    .needed "max_period_ms" ofUInt32 Json.uint32 Bucket.maxPeriod
      fun v b => { b with maxPeriod := v },
    .needed "step_count" ofUInt32 Json.uint32 Bucket.stepCount
      fun v b => { b with stepCount := v }]

/-- Reads buckets one after the other until there is no more room. -/
def bucketItems (read : BucketList) : List Json → Except Json.Fault BucketList
  | [] => .ok read
  | j :: js => do
    let b ← bucket.decode j
    if h : read.toList.length < Hardware.maxBuckets then
      bucketItems ⟨read.toList ++ [b], by rw [List.length_append]; exact h⟩ js
    else .error (.wrongLength (Hardware.maxBuckets + 1) "a sequence")

def buckets : Decoder BucketList
  | .array items => bucketItems .empty items
  | j => .error (Json.mismatch "a sequence" j)

def schedule : Record Schedule where
  title := "struct Schedule"
  blank := .idle 0 0 0
  fields := [
    .needed "base_period_ms" ofUInt32 Json.uint32 Schedule.basePeriod
      fun v s => { s with basePeriod := v },
    .needed "buckets" (fun bs => ofList bucket.encode bs.toList) buckets Schedule.buckets
      fun v s => { s with buckets := v },
    .needed "max_ap_per_scan" ofUInt32 Json.uint32 Schedule.maxApPerScan
      fun v s => { s with maxApPerScan := v },
    .needed "report_threshold_num_scans" ofUInt32 Json.uint32 Schedule.reportThreshold
      fun v s => { s with reportThreshold := v }]

end RadioScan.Format
