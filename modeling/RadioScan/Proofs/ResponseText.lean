import RadioScan.Control.Response
import RadioScan.Proofs.Formats

/-!
# Responses on the line

What a response does not carry is neither written nor missed when reading, so that every response is
read back from its text, whichever of its parts are there. A response is sent when its text is not
too long, and then it is one line that gives the response back.
-/

namespace RadioScan.Control

open Json (Faithful)
open Format

theorem Status.faithful : Faithful Status.encode Status.decode where
  written s := by cases s <;> exact .text _
  decode_encode s := by
    cases s <;> rw [Status.encode, ofString, Status.decode, Json.choice_name rfl, Json.Shape.ofName]

theorem faithful_stats : Faithful statsFormat.encode statsFormat.decode :=
  Json.Record.faithful (by decide)
    (.cons Json.faithful_uint32.carries <| .cons Json.faithful_uint32.carries <|
      .cons Json.faithful_uint32.carries <| .cons Json.faithful_uint32.carries <|
      .cons Json.faithful_uint32.carries <| .cons Json.faithful_uint8.carries .nil)
    fun _ => rfl

namespace Response

variable {r : Response} {s : String}

theorem faithful_response : Faithful format.encode format.decode := by
  refine Json.Record.faithful (by decide)
    (.cons Status.faithful.carries <|
      .cons (Json.faithful_uint32.carries_skipped (by simp)) <|
      .cons (faithful_schedule.carries_skipped (by simp [Json.Record.encode])) <|
      .cons (faithful_limits.carries_skipped (by simp [Json.Record.encode])) <|
      .cons (faithful_stats.carries_skipped (by simp [Json.Record.encode])) <|
      .cons (Json.faithful_string.carries_skipped (by simp)) .nil) ?_
  -- a part is moved over if it is there, and the blank response has none
  rintro ⟨status, requestId, schedule, limits, stats, message⟩
  cases requestId <;> cases schedule <;> cases limits <;> cases stats <;> cases message <;> rfl

theorem ofText_text (r : Response) : ofText r.text = .ok r := faithful_response.decodeText r

theorem serialize_eq_ok_iff :
    r.serialize = .ok s ↔ r.text.utf8ByteSize ≤ maxResponseSize ∧ s = r.text := by
  simp only [serialize]
  split_ifs with h
  · simp only [false_iff, not_and]
    omega
  · simp only [Except.ok.injEq, eq_comm (a := s), iff_and_self]
    omega

theorem serialize_eq_error_iff {e : ProtocolError} : r.serialize = .error e ↔
    maxResponseSize < r.text.utf8ByteSize ∧
      e = .messageTooLarge r.text.utf8ByteSize maxResponseSize := by
  simp only [serialize]
  split_ifs with h
  · simp [h, eq_comm]
  · simp [h]

/-- What becomes of a response on the line. -/
structure ReadsBack (r : Response) : Prop where
  fits : ∀ s, r.serialize = .ok s → s.utf8ByteSize ≤ maxResponseSize
  one_line : ∀ s, r.serialize = .ok s → '\n' ∉ s.toList
  decoded : ∀ s, r.serialize = .ok s → ofText s = .ok r
  refused : ∀ e, r.serialize = .error e ↔ maxResponseSize < r.text.utf8ByteSize ∧
    e = .messageTooLarge r.text.utf8ByteSize maxResponseSize

theorem readsBack_serialize (r : Response) : r.ReadsBack where
  fits s h := by
    obtain ⟨hfits, rfl⟩ := serialize_eq_ok_iff.1 h
    exact hfits
  one_line s h := by
    obtain ⟨-, rfl⟩ := serialize_eq_ok_iff.1 h
    exact Json.not_mem_compact (faithful_response.written r)
  decoded s h := by
    obtain ⟨-, rfl⟩ := serialize_eq_ok_iff.1 h
    exact ofText_text r
  refused _ := serialize_eq_error_iff

end Response

end RadioScan.Control
