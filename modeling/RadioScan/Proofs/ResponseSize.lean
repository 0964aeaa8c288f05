import RadioScan.Proofs.ResponseText
import RadioScan.Proofs.RegistryRun

/-!
# How long responses are

A schedule whose buckets list no more frequencies than the hardware scans, limits, counters and the
reason of a refusal all fit one response together (`IsShort.exists_serialize`). A schedule that was
just computed is such a schedule, and every reason is short.
-/

namespace RadioScan

open Json (utf8ByteSize_toString)

/-! ## Reasons -/

theorem utf8ByteSize_toString_uint32 (n : UInt32) : (toString n).utf8ByteSize ≤ 10 :=
  utf8ByteSize_toString (by decide) (Nat.lt_trans n.toNat_lt (by decide))

theorem LimitError.size_message {e : LimitError} (hname : e.name.utf8ByteSize ≤ 15)
    (hvalue : e.value < 10 ^ 20) (hgreatest : e.greatest < 10 ^ 10) :
    e.message.utf8ByteSize ≤ 100 := by
  have hparts : (toString " = ").utf8ByteSize = 3 ∧
      (toString " is outside 1..=").utf8ByteSize = 16 := by decide
  have h1 := utf8ByteSize_toString (by decide) hvalue
  have h2 := utf8ByteSize_toString (by decide) hgreatest
  have h3 : (toString e.name).utf8ByteSize ≤ 15 := hname
  unfold message
  simp only [String.utf8ByteSize_append]
  omega

theorem Limits.size_fault {l : Limits} {e : LimitError} (h : l.fault? = some e) :
    e.message.utf8ByteSize ≤ 100 := by
  have hnames : "max_buckets".utf8ByteSize ≤ 15 ∧ "max_channels".utf8ByteSize ≤ 15 ∧
      "max_batch".utf8ByteSize ≤ 15 ∧ "max_ap_per_scan".utf8ByteSize ≤ 15 ∧
      "idle_period_ms".utf8ByteSize ≤ 15 := by decide
  have hgreatest : Hardware.maxBuckets < 10 ^ 10 ∧ Hardware.maxChannels < 10 ^ 10 ∧
      Hardware.maxBatch < 10 ^ 10 ∧ Hardware.maxApPerScan < 10 ^ 10 ∧
      UInt32.size - 1 < 10 ^ 10 := by decide
  have hword (n : UInt64) : n.toNat < 10 ^ 20 := Nat.lt_trans n.toNat_lt (by decide)
  have hlong (n : UInt32) : n.toNat < 10 ^ 20 := Nat.lt_trans n.toNat_lt (by decide)
  have hmem := List.mem_of_find?_eq_some h
  simp only [ranges, List.mem_cons, List.not_mem_nil, or_false] at hmem
  rcases hmem with rfl | rfl | rfl | rfl | rfl
  · exact LimitError.size_message hnames.1 (hword _) hgreatest.1
  · exact LimitError.size_message hnames.2.1 (hword _) hgreatest.2.1
  · exact LimitError.size_message hnames.2.2.1 (hlong _) hgreatest.2.2.1
  · exact LimitError.size_message hnames.2.2.2.1 (hlong _) hgreatest.2.2.2.1
  · exact LimitError.size_message hnames.2.2.2.2 (hlong _) hgreatest.2.2.2.2

theorem Band.size_hexByte (b : UInt8) : (Band.hexByte b).utf8ByteSize ≤ 8 := by
  have h1 := (Nat.digitChar (b.toNat / 16)).utf8Size_le_four
  have h2 := (Nat.digitChar (b.toNat % 16)).utf8Size_le_four
  have hsum : (Band.hexByte b).utf8ByteSize = (Nat.digitChar (b.toNat / 16)).utf8Size +
      (Nat.digitChar (b.toNat % 16)).utf8Size := by
    simp [Band.hexByte]
  omega

theorem AdmissionError.size_message {e : AdmissionError}
    (h : ∀ n, e = .tooManyChannels n → n < 10 ^ 10) : e.message.utf8ByteSize ≤ 100 := by
  unfold message
  cases e with
  | invalidPeriod period =>
    have hparts : (toString "period ").utf8ByteSize = 7 ∧
        (toString "ms must be positive").utf8ByteSize = 19 := by decide
    have h1 := utf8ByteSize_toString_uint32 period
    simp only [String.utf8ByteSize_append]
    omega
  | periodTooLong period greatest =>
    have hparts : (toString "period ").utf8ByteSize = 7 ∧
        (toString "ms exceeds the longest supported ").utf8ByteSize = 33 ∧
        (toString "ms").utf8ByteSize = 2 := by decide
    have h1 := utf8ByteSize_toString_uint32 period
    have h2 := utf8ByteSize_toString_uint32 greatest
    simp only [String.utf8ByteSize_append]
    omega
  | emptyScope => decide
  | unknownBand b =>
    have hparts : (toString "band 0x").utf8ByteSize = 7 ∧
        (toString " has no known channels").utf8ByteSize = 22 := by decide
    have hhex : (toString (Band.hexByte b.bits)).utf8ByteSize ≤ 8 := Band.size_hexByte b.bits
    simp only [String.utf8ByteSize_append]
    omega
  | tooManyChannels count =>
    have hparts : (toString " channels requested, at most ").utf8ByteSize = 29 ∧
        (toString " allowed").utf8ByteSize = 8 := by decide
    have h1 := utf8ByteSize_toString (by decide) (h count rfl)
    have h2 : (toString Hardware.maxChannels).utf8ByteSize ≤ 3 :=
      utf8ByteSize_toString (by decide) (by decide)
    simp only [String.utf8ByteSize_append]
    omega
  | invalidBackoff period maxPeriod stepCount =>
    have hparts : (toString "invalid backoff: period ").utf8ByteSize = 24 ∧
        (toString "ms, max ").utf8ByteSize = 8 ∧ (toString "ms, ").utf8ByteSize = 4 ∧
        (toString " steps").utf8ByteSize = 6 := by decide
    have h1 := utf8ByteSize_toString_uint32 period
    have h2 := utf8ByteSize_toString_uint32 maxPeriod
    have h3 := utf8ByteSize_toString_uint32 stepCount
    simp only [String.utf8ByteSize_append]
    omega
  | invalidClientTag =>
    have hparts : (toString "client tag must be 1..=").utf8ByteSize = 23 ∧
        (toString " bytes").utf8ByteSize = 6 := by decide
    have h1 : (toString ClientTag.maxSize).utf8ByteSize ≤ 2 :=
      utf8ByteSize_toString (by decide) (by decide)
    simp only [String.utf8ByteSize_append]
    omega
  | registryFull =>
    have hparts : (toString "registry full (").utf8ByteSize = 15 ∧
        (toString " requests)").utf8ByteSize = 10 := by decide
    have h1 : (toString Registry.capacity).utf8ByteSize ≤ 2 :=
      utf8ByteSize_toString (by decide) (by decide)
    simp only [String.utf8ByteSize_append]
    omega
  | unknownRequest id =>
    have hparts : (toString "unknown request id ").utf8ByteSize = 19 := by decide
    have h1 := utf8ByteSize_toString_uint32 id
    simp only [String.utf8ByteSize_append]
    omega

namespace Control

open Format

/-! ## Responses -/

theorem size_status (s : Status) : s.encode.size ≤ 86 := by
  have hnames : "Success".utf8ByteSize = 7 ∧ "Rejected".utf8ByteSize = 8 ∧
      "NotFound".utf8ByteSize = 8 ∧ "InvalidMessage".utf8ByteSize = 14 ∧
      "ScheduleUpdate".utf8ByteSize = 14 := by decide
  cases s with
  | success => exact (Json.size_text "Success").trans (by omega)
  | rejected => exact (Json.size_text "Rejected").trans (by omega)
  | notFound => exact (Json.size_text "NotFound").trans (by omega)
  | invalidMessage => exact (Json.size_text "InvalidMessage").trans (by omega)
  | scheduleUpdate => exact (Json.size_text "ScheduleUpdate").trans (by omega)

theorem size_stats (s : Stats) : (statsFormat.encode s).size ≤ 657 := by
  refine Nat.le_trans (Json.Record.size_le <|
    .cons (Json.Field.fits_plain (size_ofUInt32 _)) <|
    .cons (Json.Field.fits_plain (size_ofUInt32 _)) <|
    .cons (Json.Field.fits_plain (size_ofUInt32 _)) <|
    .cons (Json.Field.fits_plain (size_ofUInt32 _)) <|
    .cons (Json.Field.fits_plain (size_ofUInt32 _)) <|
    .cons (Json.Field.fits_plain (size_ofUInt8 _)) .nil) (by decide)

namespace Response

/-- A schedule of the response lists no more frequencies than the hardware scans, and its message is
short. -/
structure IsShort (r : Response) : Prop where
  listed_le : ∀ s ∈ r.schedule, s.listed ≤ Hardware.maxChannels
  message_le : ∀ m ∈ r.message, m.utf8ByteSize ≤ 100

variable {r : Response}

theorem IsShort.size_le (h : r.IsShort) : (format.encode r).size ≤ maxResponseSize := by
  have hschedule : ∀ s ∈ r.schedule, (Format.schedule.encode s).size ≤ 8422 := by
    intro s hs
    have hlisted : s.listed ≤ 128 := h.listed_le s hs
    exact (size_schedule s).trans (by omega)
  have hmessage : ∀ m ∈ r.message, (ofString m).size ≤ 602 := by
    intro m hm
    have hshort := h.message_le m hm
    exact (Json.size_text m).trans (by omega)
  refine Nat.le_trans (Json.Record.size_le <|
    .cons (Json.Field.fits_plain (size_status _)) <|
    .cons (Json.Field.fits_skipped fun n _ => size_ofUInt32 n) <|
    .cons (Json.Field.fits_skipped hschedule) <|
    .cons (Json.Field.fits_skipped fun l _ => size_limits l) <|
    .cons (Json.Field.fits_skipped fun s _ => size_stats s) <|
    .cons (Json.Field.fits_skipped hmessage) .nil) (by decide)

theorem IsShort.exists_serialize (h : r.IsShort) : ∃ text, r.serialize = .ok text :=
  ⟨r.text, serialize_eq_ok_iff.2 ⟨by
    rw [text, Json.utf8ByteSize_compact]
    exact h.size_le, rfl⟩⟩

end Response

end Control

end RadioScan
