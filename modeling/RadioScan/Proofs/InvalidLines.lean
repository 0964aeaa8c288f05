import RadioScan.Proofs.Connections
import RadioScan.Proofs.Json.Report
import RadioScan.Proofs.ResponseText

/-!
# Lines that are no messages

A line that is no message is answered by the reason, which ends with its place in the line. The
reason quotes at most one string of the line, so that it fits a response unless that string is shown
character by character: then it may take seven times its room. A line of up to half the allowed
length is therefore always answered, and so is a longer one unless it has a string in place of
something else (`answers_of_parse`). With enough delete characters in such a string the answer is
too long. The task ends then, with its connection left open: announcements still reach it, but what
its client sends is neither read nor answered any more (`serve_deletion`).
-/

namespace RadioScan

open Control (Message Response ProtocolError)
open Json (Reports room deletes)

/-! ## Faults of messages -/

namespace Format

variable {n : Nat}

theorem reports_scope : Reports n scope :=
  Json.reports_choice (by decide) (by
    rw [List.forall_mem_cons, List.forall_mem_singleton]
    exact ⟨Reports.map (Reports.map Json.reports_uint8),
      Reports.map (Reports.list Json.reports_uint32)⟩)

theorem reports_request : Reports n request.decode :=
  Json.Record.reports (by
    unfold request
    simp only [List.forall_mem_cons]
    exact ⟨reports_scope.field (by decide), Json.reports_uint32.field (by decide),
      Json.reports_uint32.field (by decide), Json.reports_uint32.field (by decide),
      Json.reports_uint32.field (by decide), Json.reports_uint32.field (by decide),
      Json.reports_uint8.map.field (by decide), by simp⟩)
    (by decide) (by decide) (by decide)

theorem reports_limits : Reports n limits.decode :=
  Json.Record.reports (by
    unfold limits
    simp only [List.forall_mem_cons]
    exact ⟨Json.reports_word.field (by decide), Json.reports_word.field (by decide),
      Json.reports_uint32.field (by decide), Json.reports_uint32.field (by decide),
      Json.reports_uint32.field (by decide), by simp⟩)
    (by decide) (by decide) (by decide)

end Format

namespace Control

namespace Message

variable {n : Nat}

theorem reports_registration : Reports n registration.decode :=
  Json.Record.reports (by
    unfold registration
    simp only [List.forall_mem_cons]
    exact ⟨Json.reports_string.field (by decide), Format.reports_request.field (by decide),
      by simp⟩)
    (by decide) (by decide) (by decide)

theorem reports_unregistration : Reports n unregistration.decode :=
  Json.Record.reports (by
    unfold unregistration
    rw [List.forall_mem_singleton]
    exact Json.reports_uint32.field (by decide))
    (by decide) (by decide) (by decide)

theorem reports_departure : Reports n departure.decode :=
  Json.Record.reports (by
    unfold departure
    rw [List.forall_mem_singleton]
    exact Json.reports_string.field (by decide))
    (by decide) (by decide) (by decide)

theorem reports_limitation : Reports n limitation.decode :=
  Json.Record.reports (by
    unfold limitation
    rw [List.forall_mem_singleton]
    exact Format.reports_limits.field (by decide))
    (by decide) (by decide) (by decide)

theorem reports : Reports n decode :=
  Json.reports_choice (by decide) (by
    simp only [List.forall_mem_cons]
    exact ⟨reports_registration.map, reports_unregistration.map, reports_departure.map, trivial,
      trivial, reports_limitation.map, trivial, by simp⟩)

/-- A line is no message because of its length, or because of a fault that quotes no more of it than
it has. -/
theorem parse_error {line : String} {e : ProtocolError} (h : parse line = .error e) :
    e = .messageTooLarge line.utf8ByteSize maxMessageSize ∨
      ∃ fault, e = .invalidJson fault ∧ fault.Within line.utf8ByteSize ∧
        line.utf8ByteSize ≤ maxMessageSize := by
  unfold parse at h
  split_ifs at h with hlarge
  · cases h
    exact .inl rfl
  · split at h
    · cases h
    · next fault hfault =>
      cases h
      exact .inr ⟨fault, rfl, reports.decodeText hfault, Nat.not_lt.1 hlarge⟩

end Message

/-! ## Answers -/

namespace Response

theorem size_invalid (m : String) :
    (format.encode (withMessage .invalidMessage m)).size = room m + 40 := by
  have htokens : (format.encode (withMessage .invalidMessage m)).tokens =
      [.openBrace, .text (some "status"), .colon, .text (some "InvalidMessage"), .comma,
        .text (some "message"), .colon, .text (some m), .closeBrace] := rfl
  have hquotes : String.utf8Len (Json.quote "status") = 8 ∧
      String.utf8Len (Json.quote "InvalidMessage") = 16 ∧
      String.utf8Len (Json.quote "message") = 9 := by decide +kernel
  have hmarks : '\x7b'.utf8Size = 1 ∧ '\x7d'.utf8Size = 1 ∧ ':'.utf8Size = 1 ∧
      ','.utf8Size = 1 := by decide
  have hm := Json.utf8Len_quote_eq m
  simp only [Json.size, htokens, List.flatMap_cons, List.flatMap_nil, Json.Token.spell,
    String.utf8Len_append, String.utf8Len_cons, String.utf8Len_nil]
  omega

theorem serialize_invalid (m : String) : (withMessage .invalidMessage m).serialize =
    if room m + 40 ≤ maxResponseSize then .ok (withMessage .invalidMessage m).text
    else .error (.messageTooLarge (room m + 40) maxResponseSize) := by
  have hsize : (withMessage .invalidMessage m).text.utf8ByteSize = room m + 40 := by
    rw [text, Json.utf8ByteSize_compact, size_invalid]
  split_ifs with hfits
  · exact serialize_eq_ok_iff.2 ⟨hsize ▸ hfits, rfl⟩
  · exact serialize_eq_error_iff.2 ⟨by omega, by rw [hsize]⟩

end Response

end Control

/-! ## The service -/

namespace Service

variable {s : Service} {name raw : String} {e : ProtocolError} {n : Json.Notice}

theorem answerLine_invalid {notices : Json.Notices} {line : String} (r : Registry)
    (hparse : Message.parse line = .error e) (hn : notices line = n) :
    answerLine notices r line = some (.withMessage .invalidMessage (e.message n), r, none) := by
  simp only [answerLine, hparse, hn]

section Serve

variable (hready : s.stage? name = some .ready) (hne : (Text.trim raw).isEmpty = false)
  (hparse : Message.parse (Text.trim raw) = .error e) (hn : s.notices (Text.trim raw) = n)

include hready hne hparse hn

/-- A line that is no message is answered, if the answer can be written. -/
theorem serve_invalid_ok {text : String}
    (h : (Response.withMessage .invalidMessage (e.message n)).serialize = .ok text) :
    s.serve name raw = some (s.modify name fun c => (c.write text).enter .ready) := by
  rw [serve_of_written hready hne (answerLine_invalid s.registry hparse hn) h nofun]
  simp only [Option.toList_none, List.append_nil]

/-- Otherwise its task ends. -/
theorem serve_invalid_error {e' : ProtocolError}
    (h : (Response.withMessage .invalidMessage (e.message n)).serialize = .error e') :
    s.serve name raw = some (s.modify name (Connection.enter .ended)) :=
  serve_of_unwritten hready hne (answerLine_invalid s.registry hparse hn) h

end Serve

theorem message_invalidJson (n : Json.Notice) (fault : Json.Fault) :
    (ProtocolError.invalidJson fault).message n =
      "invalid message: " ++ (fault.message n ++ n.place) := rfl

/-- The reason takes little room, unless it shows a string of a long line. -/
theorem room_message {line : String} (hparse : Message.parse line = .error e)
    (hword : line.utf8ByteSize < UInt64.size) (hn : n.IsOn line)
    (hline : line.utf8ByteSize ≤ Control.maxMessageSize / 2 ∨
      ∀ s expected, e ≠ .invalidJson (.mismatch (.text s) expected)) :
    room (e.message n) ≤ 15600 := by
  have hlimit : Control.maxMessageSize = 4096 := rfl
  rcases Message.parse_error hparse with rfl | ⟨fault, rfl, hfault, hsize⟩
  · have hparts : (toString "message of ").utf8ByteSize = 11 ∧
        (toString " bytes exceeds ").utf8ByteSize = 15 := by decide
    have h1 := Json.utf8ByteSize_toString (k := 20) (by decide) (hword.trans (by decide))
    have h2 : (toString Control.maxMessageSize).utf8ByteSize ≤ 4 :=
      Json.utf8ByteSize_toString (by decide) (by decide)
    refine (Json.room_le _).trans ?_
    unfold ProtocolError.message
    simp only [String.utf8ByteSize_append]
    omega
  · have hmessage := Json.room_message_le hfault n
    have hplace := hn.size_place (by omega)
    have hpart := (Json.room_le "invalid message: ").trans (show _ ≤ 6 * 17 by decide)
    rw [message_invalidJson, Json.room_append, Json.room_append, Json.room_place]
    rcases hline with hshort | hother
    · omega
    · have := hmessage.2 fun s expected h => hother s expected (by rw [h])
      omega

theorem room_message_mismatch (n : Json.Notice) (s expected : String) :
    room ((ProtocolError.invalidJson (.mismatch (.text s) expected)).message n) + 40 =
      room (Text.quoted s) + room expected + n.place.utf8ByteSize + 89 := by
  have hparts : room "invalid message: " = 17 ∧ room "invalid type: " = 14 ∧ room "string " = 7 ∧
      room ", expected " = 11 := by decide +kernel
  simp only [message_invalidJson, Json.Fault.message_mismatch, Json.Found.describe,
    Json.room_append, Json.room_place]
  omega

/-- What becomes of a line that is no message. -/
structure Answers (line : String) (e : ProtocolError) (n : Json.Notice) : Prop where
  /-- Only a string in place of something else can make the answer too long. -/
  serialized_iff :
    (∃ text, (Response.withMessage .invalidMessage (e.message n)).serialize = .ok text) ↔
      ∀ s expected, e = .invalidJson (.mismatch (.text s) expected) →
        room (Text.quoted s) + room expected + n.place.utf8ByteSize + 89 ≤ Control.maxResponseSize
  /-- In a line of half the allowed length no string can. -/
  serialized : line.utf8ByteSize ≤ Control.maxMessageSize / 2 →
    ∃ text, (Response.withMessage .invalidMessage (e.message n)).serialize = .ok text
  /-- A ready task writes the one answer, and nothing else happens. -/
  answered : ∀ s name raw text, Text.trim raw = line → line.isEmpty = false →
    s.notices line = n → stage? s name = some .ready →
    (Response.withMessage .invalidMessage (e.message n)).serialize = .ok text →
      s.serve name raw = some (s.modify name fun c => (c.write text).enter .ready)
  /-- An answer that is too long ends the task, and no later line is served. -/
  unanswered : ∀ s name raw e', Text.trim raw = line → line.isEmpty = false →
    s.notices line = n → stage? s name = some .ready →
    (Response.withMessage .invalidMessage (e.message n)).serialize = .error e' →
      s.serve name raw = some (s.modify name (.enter .ended)) ∧
        ∀ later, (s.modify name (.enter .ended)).serve name later =
          some (s.modify name (.enter .ended))

theorem serve_ended (h : s.stage? name = some .ready) (raw : String) :
    (s.modify name (.enter .ended)).serve name raw = some (s.modify name (.enter .ended)) :=
  serve_of_ended (stage?_modify_enter h (fun _ => rfl) .ended) raw

/-- A line that has delete characters in place of a request's number. -/
def deletion (n : Nat) : String :=
  "\x7b\"Unregister\":\x7b\"id\":\"" ++ deletes n ++ "\"\x7d\x7d"

/-- The tree of the line. -/
def deletionTree (n : Nat) : Json :=
  Format.tagged "Unregister" (.object [(some "id", .text (some (deletes n)))])

theorem isWritten_deletionTree (n : Nat) : (deletionTree n).IsWritten :=
  Format.isWritten_tagged (.object (by simp) (by simpa using .text (deletes n)))

theorem compact_deletionTree (n : Nat) : (deletionTree n).compact = deletion n := by
  have hdeletes : (deletes n).toList.flatMap Json.escape = (deletes n).toList := by
    refine Json.flatMap_escape_plain fun c hc => ?_
    rw [deletes, String.toList_ofList] at hc
    rw [List.eq_of_mem_replicate hc]
    rfl
  have htokens : (deletionTree n).tokens =
      [.openBrace, .text (some "Unregister"), .colon, .openBrace, .text (some "id"), .colon,
        .text (some (deletes n)), .closeBrace, .closeBrace] := rfl
  unfold deletion
  rw [Json.compact, htokens, ← String.toList_inj, String.toList_ofList, String.toList_append,
    String.toList_append, List.append_assoc]
  simp only [List.flatMap_cons, Json.Token.spell, Json.quote, hdeletes, List.append_assoc,
    List.cons_append]
  rfl

theorem utf8ByteSize_deletion (n : Nat) : (deletion n).utf8ByteSize = n + 24 := by
  have hparts : "\x7b\"Unregister\":\x7b\"id\":\"".utf8ByteSize = 21 ∧
      "\"\x7d\x7d".utf8ByteSize = 3 := by decide
  have hdelete : (deletes n).utf8ByteSize = n := by
    rw [deletes, String.utf8ByteSize_ofList, Json.utf8Len_ascii, List.length_replicate]
    intro c hc
    rw [List.eq_of_mem_replicate hc]
    decide
  unfold deletion
  simp only [String.utf8ByteSize_append, hdelete]
  omega

theorem decode_deletionTree (n : Nat) : Message.decode (deletionTree n) =
    .error (.mismatch (.text (deletes n)) "u32") := by
  rw [deletionTree, Format.tagged, Message.decode, Json.choice_value rfl]
  rfl

theorem parse_deletion {n : Nat} (h : n ≤ 4072) : Message.parse (deletion n) =
    .error (.invalidJson (.mismatch (.text (deletes n)) "u32")) := by
  have hlimit : Control.maxMessageSize = 4096 := rfl
  have hsize := utf8ByteSize_deletion n
  have hread : Json.parse (deletion n) = (deletionTree n, []) := by
    rw [← compact_deletionTree, Json.parse_compact (isWritten_deletionTree n)]
  have hdecode : Json.decodeText Message.decode (deletion n) =
      .error (.mismatch (.text (deletes n)) "u32") := by
    rw [Json.decodeText, hread]
    simp only [decode_deletionTree, bind, Except.bind]
  unfold Message.parse
  simp only [if_neg (show ¬ Control.maxMessageSize < (deletion n).utf8ByteSize by omega), hdecode]

/-- The notice on the line: the fault is found where the string ends. -/
def deletionNotice (n : Nat) : Json.Notice := ⟨.noValue, 1, n + 22⟩

theorem size_place_deletionNotice {n : Nat} (hlow : 978 ≤ n) (hhigh : n ≤ 4072) :
    (deletionNotice n).place.utf8ByteSize = 22 := by
  have hparts : " at line ".utf8ByteSize = 9 ∧ (toString 1).utf8ByteSize = 1 ∧
      " column ".utf8ByteSize = 8 := by decide
  have hcolumn := Json.utf8ByteSize_toString_eq (n := n + 22) (k := 3) (by omega) (by omega)
  rw [Json.Notice.place_eq Nat.one_ne_zero]
  simp only [deletionNotice, String.utf8ByteSize_append]
  omega

theorem isOn_deletionNotice (n : Nat) : (deletionNotice n).IsOn (deletion n) where
  line_le := Nat.le_add_left 1 _
  column_le := by
    rw [utf8ByteSize_deletion]
    exact Nat.add_le_add_left (by decide : 22 ≤ 25) n

theorem serialize_deletion {n : Nat} (hlow : 978 ≤ n) (hhigh : n ≤ 4072) :
    (Response.withMessage .invalidMessage ((ProtocolError.invalidJson
      (.mismatch (.text (deletes n)) "u32")).message (deletionNotice n))).serialize =
    if 7 * n + 118 ≤ Control.maxResponseSize then .ok (Response.withMessage .invalidMessage
      ((ProtocolError.invalidJson
        (.mismatch (.text (deletes n)) "u32")).message (deletionNotice n))).text
    else .error (.messageTooLarge (7 * n + 118) Control.maxResponseSize) := by
  have hexpected : room "u32" = 3 := by decide +kernel
  have hroom := room_message_mismatch (deletionNotice n) (deletes n) "u32"
  rw [Json.room_quoted_deletes, hexpected, size_place_deletionNotice hlow hhigh] at hroom
  rw [Response.serialize_invalid, hroom]

/-- From some length on the line ends the task of the connection that it was sent on. -/
theorem serve_deletion {n : Nat} (hready : s.stage? name = some .ready)
    (hnotice : s.notices (deletion n) = deletionNotice n) (hlow : 2324 ≤ n) (hhigh : n ≤ 4072) :
    s.serve name (deletion n) = some (s.modify name (.enter .ended)) := by
  have hlimit : Control.maxResponseSize = 16384 := rfl
  have htrim : Text.trim (deletion n) = deletion n := by
    rw [← compact_deletionTree, Json.trim_compact (isWritten_deletionTree n)]
  have hne : (deletion n).isEmpty = false := by
    have hsize := utf8ByteSize_deletion n
    simp only [String.isEmpty, beq_eq_false_iff_ne]
    omega
  have hserialize := serialize_deletion (show 978 ≤ n by omega) hhigh
  rw [if_neg (by omega)] at hserialize
  rw [← htrim] at hnotice
  exact serve_invalid_error hready (htrim.symm ▸ hne) (htrim.symm ▸ parse_deletion hhigh) hnotice
    hserialize

/-- The notice as on a line of delete characters, whose fault is found before its last two. -/
def noticeBeforeEnd : Json.Notices := fun line => ⟨.noValue, 1, line.utf8ByteSize - 2⟩

theorem noticeBeforeEnd_deletion (n : Nat) : noticeBeforeEnd (deletion n) = deletionNotice n := by
  rw [noticeBeforeEnd, deletionNotice, utf8ByteSize_deletion]
  rfl

end Service

end RadioScan
