import RadioScan.Format.Config
import RadioScan.Proofs.Json.Text

/-!
# Scopes, requests, schedules and configurations in JSON

Scopes, requests, schedules and configurations are read back from what is written of them. A request
or a bucket takes little more room than its scope, and a scope little more than its frequencies.
-/

namespace RadioScan

/-- How many frequencies a scope lists one by one. -/
def Scope.listed : Scope → Nat
  | band _ => 0
  | channels fs => fs.length

/-- How many frequencies the scopes of all buckets list. -/
def Schedule.listed (s : Schedule) : Nat := (s.buckets.toList.map fun b => b.scope.listed).sum

namespace Format

open Json (Faithful)

/-! ## Reading back -/

section Tagged

variable {α β : Type} {name : String} {encode : α → Json} {decode : Json.Decoder α}

theorem isWritten_tagged {j : Json} (h : j.IsWritten) : (tagged name j).IsWritten :=
  .object (by simp) (by simpa)

/-- A variant is read back when what it holds is. -/
theorem choice_tagged (h : Faithful encode decode) {variants : List (Json.Variant β)}
    {shape : Json.Shape β} {f : α → β}
    (hfind : variants.find? (fun v => v.name == name) = some ⟨name, shape⟩)
    (hshape : ∀ j, shape.ofValue j = (decode j).map f) (a : α) :
    Json.choice variants (tagged name (encode a)) = .ok (f a) := by
  rw [tagged, Json.choice_value hfind, hshape, h.decode_encode, Except.map]

end Tagged

theorem faithful_band : Faithful ofBand band := Json.faithful_uint8.map fun _ => rfl

theorem faithful_events : Faithful ofEvents events := Json.faithful_uint8.map fun _ => rfl

theorem faithful_frequencies : Faithful ofFrequencies frequencies := Json.faithful_uint32.list

theorem faithful_scope : Faithful ofScope scope where
  written s := by
    cases s with
    | band b => exact isWritten_tagged (faithful_band.written b)
    | channels fs => exact isWritten_tagged (faithful_frequencies.written fs)
  decode_encode s := by
    cases s with
    | band b => exact choice_tagged faithful_band rfl (fun _ => rfl) b
    | channels fs => exact choice_tagged faithful_frequencies rfl (fun _ => rfl) fs

theorem faithful_request : Faithful request.encode request.decode :=
  Json.Record.faithful (by decide)
    (.cons faithful_scope.carries <| .cons Json.faithful_uint32.carries <|
      .cons Json.faithful_uint32.carries <| .cons Json.faithful_uint32.carries <|
      .cons Json.faithful_uint32.carries <| .cons Json.faithful_uint32.carries <|
      .cons faithful_events.carries .nil)
    fun _ => rfl

theorem faithful_bucket : Faithful bucket.encode bucket.decode :=
  Json.Record.faithful (by decide)
    (.cons Json.faithful_uint32.carries <| .cons faithful_scope.carries <|
      .cons faithful_events.carries <| .cons Json.faithful_uint32.carries <|
      .cons Json.faithful_uint32.carries .nil)
    fun _ => rfl

/-- Buckets are read behind those read before as long as there is room for all of them. -/
theorem bucketItems_encode : ∀ (bs : List Bucket) (read all : BucketList),
    all.toList = read.toList ++ bs → bucketItems read (bs.map bucket.encode) = .ok all
  | [], read, all, h => by
    rw [List.append_nil] at h
    cases read
    cases all
    simp_all [bucketItems]
  | b :: bs, read, all, h => by
    have hroom : read.toList.length < Hardware.maxBuckets := by
      have hlength := all.length_le
      rw [h, List.length_append, List.length_cons] at hlength
      omega
    rw [List.map_cons, bucketItems, faithful_bucket.decode_encode]
    simp only [bind, Except.bind, dif_pos hroom]
    exact bucketItems_encode bs _ all (by rw [h, List.append_assoc, List.singleton_append])

theorem faithful_buckets : Faithful (fun bs => ofList bucket.encode bs.toList) buckets where
  written bs := (faithful_bucket.list).written bs.toList
  decode_encode bs := bucketItems_encode bs.toList .empty bs rfl

theorem faithful_schedule : Faithful schedule.encode schedule.decode :=
  Json.Record.faithful (by decide)
    (.cons Json.faithful_uint32.carries <| .cons faithful_buckets.carries <|
      .cons Json.faithful_uint32.carries <| .cons Json.faithful_uint32.carries .nil)
    fun _ => rfl

theorem faithful_limits : Faithful limits.encode limits.decode :=
  Json.Record.faithful (by decide)
    (.cons Json.faithful_word.carries <| .cons Json.faithful_word.carries <|
      .cons Json.faithful_uint32.carries <| .cons Json.faithful_uint32.carries <|
      .cons Json.faithful_uint32.carries .nil)
    fun _ => rfl

theorem faithful_policy : Faithful ofPolicy policy where
  written p := by cases p <;> exact .text _
  decode_encode p := by cases p <;> rfl

theorem faithful_catalog : Faithful catalog.encode catalog.decode :=
  Json.Record.faithful (by decide)
    (.cons faithful_frequencies.carries <| .cons faithful_frequencies.carries <|
      .cons faithful_frequencies.carries .nil)
    fun _ => rfl

/-- What may be nothing is read back if nothing else is written as null. -/
theorem faithful_option {α : Type} {encode : α → Json} {decode : Json.Decoder α}
    (h : Faithful encode decode) (hnull : ∀ a, encode a ≠ .null) :
    Faithful (ofOption encode) (Json.optional decode) where
  written a := by
    cases a with
    | none => exact .null
    | some a => exact h.written a
  decode_encode a := by
    cases a with
    | none => rfl
    | some a =>
      rw [ofOption, Json.optional]
      · rw [h.decode_encode, Except.map]
      · exact hnull a

theorem faithful_config : Faithful config.encode config.decode :=
  Json.Record.faithful (by decide)
    (.cons faithful_limits.carries <| .cons faithful_policy.carries <|
      .cons (faithful_option Json.faithful_uint32.list nofun).carries <|
      .cons (faithful_option faithful_catalog nofun).carries .nil)
    fun _ => rfl

/-! ## Sizes -/

theorem size_tagged (name : String) (j : Json) :
    (tagged name j).size ≤ 6 * name.utf8ByteSize + j.size + 6 := by
  have hpair := Json.size_pair name j
  have hobject := Json.size_object [(some name, j)]
  simp only [List.map_cons, List.map_nil, List.sum_cons, List.sum_nil] at hobject
  rw [tagged]
  omega

theorem size_ofUInt8 (n : UInt8) : (ofUInt8 n).size ≤ 3 :=
  Json.size_ofNat (by decide) (Nat.lt_trans n.toNat_lt (by decide))

theorem size_ofUInt32 (n : UInt32) : (ofUInt32 n).size ≤ 10 :=
  Json.size_ofNat (by decide) (Nat.lt_trans n.toNat_lt (by decide))

theorem size_ofWord (n : UInt64) : (ofWord n).size ≤ 20 :=
  Json.size_ofNat (by decide) (Nat.lt_trans n.toNat_lt (by decide))

theorem size_ofFrequencies (fs : List Frequency) :
    (ofFrequencies fs).size ≤ 2 + 11 * fs.length := by
  have hitems : ((fs.map ofUInt32).map fun j => j.size + 1).sum ≤ 11 * fs.length := by
    induction fs with
    | nil => exact Nat.le_refl 0
    | cons f fs ih =>
      have hf := size_ofUInt32 f
      simp only [List.map_cons, List.sum_cons, List.length_cons]
      omega
  exact Nat.le_trans (Json.size_array _) (Nat.add_le_add_left hitems 2)

theorem size_band (b : Band) : (ofScope (.band b)).size ≤ 33 := by
  have hname : "Band".utf8ByteSize = 4 := by decide
  have hbits := size_ofUInt8 b.bits
  have htag := size_tagged "Band" (ofBand b)
  rw [ofBand] at htag
  rw [ofScope, ofBand]
  omega

theorem size_channels (fs : List Frequency) :
    (ofScope (.channels fs)).size ≤ 56 + 11 * fs.length := by
  have hname : "Channels".utf8ByteSize = 8 := by decide
  have hlist := size_ofFrequencies fs
  have htag := size_tagged "Channels" (ofFrequencies fs)
  rw [ofScope]
  omega

theorem size_scope (s : Scope) : (ofScope s).size ≤ 56 + 11 * s.listed := by
  cases s with
  | band b => exact (size_band b).trans (by omega)
  | channels fs => exact size_channels fs

theorem size_request (r : Request) : (request.encode r).size ≤ (ofScope r.scope).size + 605 := by
  have hnames : "scope".utf8ByteSize = 5 ∧ "period_ms".utf8ByteSize = 9 ∧
      "max_period_ms".utf8ByteSize = 13 ∧ "step_count".utf8ByteSize = 10 ∧
      "max_scans_to_cache".utf8ByteSize = 18 ∧ "num_bssids_per_scan".utf8ByteSize = 19 ∧
      "report_events".utf8ByteSize = 13 := by decide
  have hevents : (ofEvents r.events).size ≤ 3 := size_ofUInt8 r.events.bits
  have h1 := size_ofUInt32 r.period
  have h2 := size_ofUInt32 r.maxPeriod
  have h3 := size_ofUInt32 r.stepCount
  have h4 := size_ofUInt32 r.maxScansToCache
  have h5 := size_ofUInt32 r.bssidsPerScan
  refine (request.size_encode r).trans ?_
  simp only [request, Json.Field.needed, Json.Field.defaulted, Json.Field.room_plain,
    List.map_cons, List.map_nil, List.sum_cons, List.sum_nil]
  omega

theorem size_bucket (b : Bucket) : (bucket.encode b).size ≤ 411 + 11 * b.scope.listed := by
  have hnames : "period_ms".utf8ByteSize = 9 ∧ "scope".utf8ByteSize = 5 ∧
      "report_events".utf8ByteSize = 13 ∧ "max_period_ms".utf8ByteSize = 13 ∧
      "step_count".utf8ByteSize = 10 := by decide
  have hevents : (ofEvents b.events).size ≤ 3 := size_ofUInt8 b.events.bits
  have hscope := size_scope b.scope
  have h1 := size_ofUInt32 b.period
  have h2 := size_ofUInt32 b.maxPeriod
  have h3 := size_ofUInt32 b.stepCount
  refine (bucket.size_encode b).trans ?_
  simp only [bucket, Json.Field.needed, Json.Field.room_plain, List.map_cons, List.map_nil,
    List.sum_cons, List.sum_nil]
  omega

theorem size_buckets (bs : List Bucket) : (ofList bucket.encode bs).size ≤
    2 + 412 * bs.length + 11 * (bs.map fun b => b.scope.listed).sum := by
  have hitems : ((bs.map bucket.encode).map fun j => j.size + 1).sum ≤
      412 * bs.length + 11 * (bs.map fun b => b.scope.listed).sum := by
    induction bs with
    | nil => exact Nat.le_refl 0
    | cons b bs ih =>
      have hb := size_bucket b
      simp only [List.map_cons, List.sum_cons, List.length_cons]
      omega
  have harray := Json.size_array (bs.map bucket.encode)
  rw [ofList]
  omega

theorem size_schedule (s : Schedule) : (schedule.encode s).size ≤ 7014 + 11 * s.listed := by
  have hnames : "base_period_ms".utf8ByteSize = 14 ∧ "buckets".utf8ByteSize = 7 ∧
      "max_ap_per_scan".utf8ByteSize = 15 ∧ "report_threshold_num_scans".utf8ByteSize = 26 := by
    decide
  have hcount : s.buckets.toList.length ≤ 16 := s.buckets.length_le
  have hbuckets := size_buckets s.buckets.toList
  have h1 := size_ofUInt32 s.basePeriod
  have h2 := size_ofUInt32 s.maxApPerScan
  have h3 := size_ofUInt32 s.reportThreshold
  refine (schedule.size_encode s).trans ?_
  simp only [schedule, Json.Field.needed, Json.Field.room_plain, List.map_cons, List.map_nil,
    List.sum_cons, List.sum_nil, Schedule.listed]
  omega

theorem size_limits (l : Limits) : (limits.encode l).size ≤ 458 := by
  have h1 := size_ofWord l.maxBuckets
  have h2 := size_ofWord l.maxChannels
  have h3 := size_ofUInt32 l.maxBatch
  have h4 := size_ofUInt32 l.maxApPerScan
  have h5 := size_ofUInt32 l.idlePeriod
  refine Nat.le_trans (Json.Record.size_le <| .cons (Json.Field.fits_plain h1) <|
    .cons (Json.Field.fits_plain h2) <| .cons (Json.Field.fits_plain h3) <|
    .cons (Json.Field.fits_plain h4) <| .cons (Json.Field.fits_plain h5) .nil) (by decide)

end Format

end RadioScan
