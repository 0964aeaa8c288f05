import RadioScan.Control.Message
import RadioScan.Proofs.Formats

/-!
# Messages on the line

The text of a message is one line without blanks at its ends, and reading that line gives the
message back as long as it is not too long. A registration for a band, or for no more frequencies
than the hardware scans at once, is never too long.
-/

namespace RadioScan.Control.Message

open Json (Faithful)
open Format

theorem faithful_registration : Faithful registration.encode registration.decode :=
  Json.Record.faithful (by decide)
    (.cons Json.faithful_string.carries <| .cons faithful_request.carries .nil) fun _ => rfl

theorem faithful_unregistration : Faithful unregistration.encode unregistration.decode :=
  Json.Record.faithful (by decide) (.cons Json.faithful_uint32.carries .nil) fun _ => rfl

theorem faithful_departure : Faithful departure.encode departure.decode :=
  Json.Record.faithful (by decide) (.cons Json.faithful_string.carries .nil) fun _ => rfl

theorem faithful_limitation : Faithful limitation.encode limitation.decode :=
  Json.Record.faithful (by decide) (.cons faithful_limits.carries .nil) fun _ => rfl

theorem faithful : Faithful encode decode where
  written m := by
    cases m with
    | register client request => exact isWritten_tagged (faithful_registration.written _)
    | unregister id => exact isWritten_tagged (faithful_unregistration.written _)
    | unregisterClient client => exact isWritten_tagged (faithful_departure.written _)
    | setLimits limits => exact isWritten_tagged (faithful_limitation.written _)
    | getSchedule => exact .text _
    | getLimits => exact .text _
    | getStats => exact .text _
  decode_encode m := by
    cases m with
    | register client request =>
      exact choice_tagged (f := fun m => register m.1 m.2) faithful_registration rfl (fun _ => rfl)
        (client, request)
    | unregister id => exact choice_tagged faithful_unregistration rfl (fun _ => rfl) id
    | unregisterClient client => exact choice_tagged faithful_departure rfl (fun _ => rfl) client
    | setLimits limits => exact choice_tagged faithful_limitation rfl (fun _ => rfl) limits
    | _ => rw [encode, ofString, decode, Json.choice_name rfl, Json.Shape.ofName]

theorem size_register (client : String) (r : Request) :
    (register client r).encode.size ≤ 6 * client.utf8ByteSize + (ofScope r.scope).size + 755 := by
  have hnames : "Register".utf8ByteSize = 8 ∧ "client".utf8ByteSize = 6 ∧
      "request".utf8ByteSize = 7 := by decide
  have hclient : (ofString client).size ≤ 6 * client.utf8ByteSize + 2 := Json.size_text client
  have hrequest := size_request r
  refine (size_tagged "Register" _).trans ?_
  have hrecord := registration.size_encode (client, r)
  have hroom : (registration.fields.map fun f => f.room (client, r)).sum =
      (6 * "client".utf8ByteSize + (ofString client).size + 4) +
        (6 * "request".utf8ByteSize + (request.encode r).size + 4) := rfl
  omega

/-- A registration under a tag of at most 32 bytes, for a band or for no more frequencies than the
hardware scans at once. -/
def IsModest : Message → Prop
  | register client request =>
    client.utf8ByteSize ≤ 32 ∧
      match request.scope with
      | .band _ => True
      | .channels fs => fs.length ≤ Hardware.maxChannels
  | _ => False

theorem size_modest {m : Message} (h : m.IsModest) : m.text.utf8ByteSize ≤ maxMessageSize := by
  rw [text, Json.utf8ByteSize_compact]
  cases m with
  | register client request =>
    obtain ⟨hclient, hscope⟩ := h
    have hsize := size_register client request
    have hlimit : maxMessageSize = 4096 ∧ Hardware.maxChannels = 128 := by decide
    split at hscope
    · next b hb =>
      have hband := size_band b
      rw [hb] at hsize
      omega
    · next fs hfs =>
      have hchannels := size_channels fs
      rw [hfs] at hsize
      omega
  | _ => cases h

theorem parse_text (m : Message) : parse m.text =
    if m.text.utf8ByteSize ≤ maxMessageSize then .ok m
    else .error (.messageTooLarge m.text.utf8ByteSize maxMessageSize) := by
  have hdecode : Json.decodeText decode m.text = .ok m := faithful.decodeText m
  rcases Nat.lt_or_ge maxMessageSize m.text.utf8ByteSize with hlarge | hfits
  · rw [parse, if_pos hlarge, if_neg (Nat.not_le.2 hlarge)]
  · rw [parse, if_neg (Nat.not_lt.2 hfits), if_pos hfits, hdecode]

/-- What the text of a message does on the line. -/
structure RoundTrips (m : Message) : Prop where
  one_line : '\n' ∉ m.text.toList
  trimmed : Text.trim m.text = m.text
  parsed : parse m.text =
    if m.text.utf8ByteSize ≤ maxMessageSize then .ok m
    else .error (.messageTooLarge m.text.utf8ByteSize maxMessageSize)
  fits : m.IsModest → m.text.utf8ByteSize ≤ maxMessageSize

theorem roundTrips (m : Message) : m.RoundTrips where
  one_line := Json.not_mem_compact (faithful.written m)
  trimmed := Json.trim_compact (faithful.written m)
  parsed := parse_text m
  fits := size_modest

end RadioScan.Control.Message
