import RadioScan.Json.Choice
import RadioScan.Proofs.DoubleText
import RadioScan.Proofs.Json.Within

/-!
# How faults are reported

A fault names what the format expects, which is short, and at most one string of the text. Whatever
is decoded, the fault of a tree whose strings take little room quotes no larger one
(`Record.reports`, `reports_choice`), and so its message takes little room as well. Only a string
that is quoted for a reader may grow (`room_message_le`). The place of a fault in a short text takes
little room too (`Notice.IsOn.size_place`).
-/

namespace RadioScan.Json

/-- What was met, if a string, takes at most so much room. -/
def Found.Within (n : Nat) : Found → Prop
  | text s => room s ≤ n
  | _ => True

/-- The fault quotes no string that takes more room, and what else it names is short. -/
def Fault.Within (n : Nat) : Fault → Prop
  | malformed => True
  | mismatch found expected => found.Within n ∧ expected.utf8ByteSize ≤ 64
  | outOfRange i expected => i.natAbs < 10 ^ 20 ∧ expected.utf8ByteSize ≤ 64
  | wrongLength length expected => length ≤ 64 ∧ expected.utf8ByteSize ≤ 64
  | missingField name => name.utf8ByteSize ≤ 64
  | duplicateField name => name.utf8ByteSize ≤ 64
  | unknownVariant name known => room name ≤ n ∧ (alternatives known).utf8ByteSize ≤ 128

/-! ## Messages -/

theorem utf8ByteSize_toString_int {i : Int} (h : i.natAbs < 10 ^ 20) :
    (toString i).utf8ByteSize ≤ 21 := by
  have hsign : "-".utf8ByteSize = 1 := rfl
  cases i with
  | ofNat m => exact (utf8ByteSize_toString (by decide) h).trans (by decide)
  | negSucc m =>
    have hm := utf8ByteSize_toString (k := 20) (by decide) h
    change ("-" ++ toString (m + 1)).utf8ByteSize ≤ 21
    rw [String.utf8ByteSize_append, hsign]
    exact Nat.add_le_add_left hm 1

theorem natAbs_quantity {m : Number} {i : Int} (h : m.quantity = .integer i) :
    i.natAbs < 10 ^ 20 := by
  have hword : UInt64.size ≤ 10 ^ 20 := by decide
  unfold Number.quantity at h
  split at h
  · next k hk =>
    cases h
    unfold Number.integer? at hk
    split_ifs at hk <;> cases hk <;> omega
  · split at h <;> cases h

theorem size_describe (m : Number) : m.describe.utf8ByteSize ≤ 44 := by
  have hparts : "integer `".utf8ByteSize = 9 ∧ "floating point `".utf8ByteSize = 16 ∧
      "`".utf8ByteSize = 1 ∧ "number".utf8ByteSize = 6 := by decide
  unfold Number.describe
  split
  · next i hi =>
    have hdigits := utf8ByteSize_toString_int (natAbs_quantity hi)
    rw [String.utf8ByteSize_append, String.utf8ByteSize_append]
    omega
  · next x hx =>
    have hdigits := Double.utf8ByteSize_text x
    rw [String.utf8ByteSize_append, String.utf8ByteSize_append]
    omega
  · decide

theorem room_describe {n : Nat} {found : Found} (h : found.Within n) :
    room found.describe ≤ 7 * n + 264 ∧
      ((∀ s, found ≠ .text s) → room found.describe ≤ 264) := by
  have hshort {s : String} (hs : s.utf8ByteSize ≤ 44) :
      room s ≤ 7 * n + 264 ∧ ((∀ t, found ≠ .text t) → room s ≤ 264) := by
    have hs := (room_le s).trans (Nat.mul_le_mul_left 6 hs)
    exact ⟨by omega, fun _ => hs⟩
  cases found with
  | null => exact hshort (by decide)
  | bool b => exact hshort (by cases b <;> decide)
  | number m => exact hshort (size_describe m)
  | text s =>
    have hs : room s ≤ n := h
    have hquoted := room_quoted s
    have hpart := (room_le "string ").trans (show _ ≤ 6 * 7 by decide)
    refine ⟨?_, fun hne => absurd rfl (hne s)⟩
    rw [Found.describe, room_append]
    omega
  | array => exact hshort (by decide)
  | object => exact hshort (by decide)
  | unitVariant => exact hshort (by decide)

theorem Fault.message_mismatch (notice : Notice) (found : Found) (expected : String) :
    (Fault.mismatch found expected).message notice =
      "invalid type: " ++ found.describe ++ ", expected " ++ expected := rfl

theorem SyntaxFault.size_message (e : SyntaxFault) : e.message.utf8ByteSize ≤ 64 := by
  cases e <;> decide

theorem room_message_le {n : Nat} {fault : Fault} (h : fault.Within n) (notice : Notice) :
    room (fault.message notice) ≤ 7 * n + 1000 ∧
      ((∀ s expected, fault ≠ .mismatch (.text s) expected) →
        room (fault.message notice) ≤ n + 1000) := by
  have hshort {s : String} (hs : s.utf8ByteSize ≤ 150) : room s ≤ 7 * n + 1000 ∧
      ((∀ t expected, fault ≠ .mismatch (.text t) expected) → room s ≤ n + 1000) := by
    have hs := (room_le s).trans (Nat.mul_le_mul_left 6 hs)
    exact ⟨by omega, fun _ => by omega⟩
  unfold Fault.message
  cases fault with
  | malformed => exact hshort (notice.syntaxFault.size_message.trans (by decide))
  | mismatch found expected =>
    obtain ⟨hfound, hexpected⟩ := h
    have hdescribe := room_describe hfound
    have h1 := (room_le "invalid type: ").trans (show _ ≤ 6 * 14 by decide)
    have h2 := (room_le ", expected ").trans (show _ ≤ 6 * 11 by decide)
    have h3 := (room_le expected).trans (Nat.mul_le_mul_left 6 hexpected)
    simp only [room_append]
    refine ⟨by omega, fun hne => ?_⟩
    have hother := hdescribe.2 fun s hs => hne s expected (by rw [hs])
    omega
  | outOfRange i expected =>
    have hparts : "invalid value: integer `".utf8ByteSize = 24 ∧
        "`, expected ".utf8ByteSize = 12 := by decide
    have hi := utf8ByteSize_toString_int h.1
    refine hshort ?_
    simp only [String.utf8ByteSize_append]
    have := h.2
    omega
  | wrongLength length expected =>
    have hparts : "invalid length ".utf8ByteSize = 15 ∧ ", expected ".utf8ByteSize = 11 := by decide
    have hlength := utf8ByteSize_toString (k := 2) (by decide)
      (Nat.lt_of_le_of_lt h.1 (by decide))
    refine hshort ?_
    simp only [String.utf8ByteSize_append]
    have := h.2
    omega
  | missingField name =>
    have hparts : "missing field `".utf8ByteSize = 15 ∧ "`".utf8ByteSize = 1 := by decide
    have hname : name.utf8ByteSize ≤ 64 := h
    refine hshort ?_
    simp only [String.utf8ByteSize_append]
    omega
  | duplicateField name =>
    have hparts : "duplicate field `".utf8ByteSize = 17 ∧ "`".utf8ByteSize = 1 := by decide
    have hname : name.utf8ByteSize ≤ 64 := h
    refine hshort ?_
    simp only [String.utf8ByteSize_append]
    omega
  | unknownVariant name known =>
    obtain ⟨hname, hknown⟩ := h
    have h1 := (room_le "unknown variant `").trans (show _ ≤ 6 * 17 by decide)
    have h2 := (room_le "`, expected ").trans (show _ ≤ 6 * 12 by decide)
    have h3 := (room_le (alternatives known)).trans (Nat.mul_le_mul_left 6 hknown)
    simp only [room_append]
    exact ⟨by omega, fun _ => by omega⟩

/-! ## Places -/

/-- The place can be one in the text: each byte begins at most one line and fills one column, and a
fault can be noticed as late as one byte behind the end. -/
structure Notice.IsOn (notice : Notice) (s : String) : Prop where
  line_le : notice.line ≤ s.utf8ByteSize + 1
  column_le : notice.column ≤ s.utf8ByteSize + 1

theorem Notice.place_eq {notice : Notice} (h : notice.line ≠ 0) :
    notice.place = " at line " ++ toString notice.line ++ " column " ++ toString notice.column :=
  if_neg h

theorem room_place (notice : Notice) : room notice.place = notice.place.utf8ByteSize := by
  by_cases h : notice.line = 0
  · rw [Notice.place, if_pos h]
    rfl
  · have hparts : room " at line " = " at line ".utf8ByteSize ∧
        room " column " = " column ".utf8ByteSize := by decide +kernel
    simp only [Notice.place_eq h, room_append, room_toString, String.utf8ByteSize_append, hparts]

theorem Notice.IsOn.size_place {notice : Notice} {s : String} (h : notice.IsOn s)
    (hs : s.utf8ByteSize < 9999) : notice.place.utf8ByteSize ≤ 25 := by
  by_cases hline : notice.line = 0
  · rw [Notice.place, if_pos hline]
    decide
  · have hparts : " at line ".utf8ByteSize = 9 ∧ " column ".utf8ByteSize = 8 := by decide
    have h1 := utf8ByteSize_toString (n := notice.line) (k := 4) (by decide)
      (Nat.lt_of_le_of_lt h.line_le (by omega))
    have h2 := utf8ByteSize_toString (n := notice.column) (k := 4) (by decide)
      (Nat.lt_of_le_of_lt h.column_le (by omega))
    simp only [Notice.place_eq hline, String.utf8ByteSize_append]
    omega

/-! ## Decoders -/

/-- The decoder's faults quote nothing larger than what they were met in. -/
structure Reports {α : Type} (n : Nat) (decode : Decoder α) : Prop where
  within : ∀ j fault, Within n j → decode j = .error fault → fault.Within n

section Decoders

variable {α β : Type} {n : Nat} {decode : Decoder α} {j : Json} {fault : Fault}

theorem bind_eq_error {x : Except Fault α} {f : α → Except Fault β} :
    (x >>= f) = .error fault ↔ x = .error fault ∨ ∃ a, x = .ok a ∧ f a = .error fault := by
  cases x with
  | error e => simp [bind, Except.bind]
  | ok a => simp [bind, Except.bind]

theorem within_mismatch {expected : String} (hexpected : expected.utf8ByteSize ≤ 64)
    (hj : Within n j) : (mismatch expected j).Within n := by
  cases hj with
  | number m =>
    rw [mismatch]
    split_ifs
    · trivial
    · exact ⟨trivial, hexpected⟩
  | @text content h =>
    cases content with
    | none => trivial
    | some s => exact ⟨h s rfl, hexpected⟩
  | broken => trivial
  | _ => exact ⟨trivial, hexpected⟩

theorem reports_natBelow {bound : Nat} {expected : String}
    (hexpected : expected.utf8ByteSize ≤ 64) :
    Reports n (natBelow bound expected) where
  within j fault hj h := by
    unfold natBelow at h
    split at h
    · split at h
      · next i hi =>
        split_ifs at h
        cases h
        exact ⟨natAbs_quantity hi, hexpected⟩
      · cases h
        exact within_mismatch hexpected hj
    · cases h
      exact within_mismatch hexpected hj

theorem Reports.map (hdecode : Reports n decode) {f : α → β} :
    Reports n fun j => (decode j).map f where
  within j fault hj h := by
    cases hd : decode j with
    | error e =>
      rw [hd] at h
      cases h
      exact hdecode.within j _ hj hd
    | ok a =>
      rw [hd] at h
      cases h

theorem reports_uint8 : Reports n uint8 :=
  (reports_natBelow (show "u8".utf8ByteSize ≤ 64 by decide)).map

theorem reports_uint32 : Reports n uint32 :=
  (reports_natBelow (show "u32".utf8ByteSize ≤ 64 by decide)).map

theorem reports_word : Reports n word :=
  (reports_natBelow (show "usize".utf8ByteSize ≤ 64 by decide)).map

theorem reports_string : Reports n string where
  within j fault hj h := by
    unfold string at h
    split at h
    · cases h
    · cases h
      exact within_mismatch (by decide) hj

theorem Reports.items (hdecode : Reports n decode) : ∀ {items : List Json},
    (∀ j ∈ items, Within n j) → itemsOf decode items = .error fault → fault.Within n
  | [], _, h => by cases h
  | j :: js, hitems, h => by
    rw [List.forall_mem_cons] at hitems
    rw [itemsOf] at h
    obtain hd | ⟨a, -, h⟩ := bind_eq_error.1 h
    · exact hdecode.within j _ hitems.1 hd
    · obtain hrest | ⟨as, -, h⟩ := bind_eq_error.1 h
      · exact hdecode.items hitems.2 hrest
      · cases h

theorem Reports.list (hdecode : Reports n decode) : Reports n (list decode) where
  within j fault hj h := by
    unfold Json.list at h
    split at h
    · cases hj with
      | array hitems => exact hdecode.items hitems h
    · cases h
      exact within_mismatch (by decide) hj

/-! ## Choices -/

def Shape.Reports (n : Nat) : Shape α → Prop
  | unit _ => True
  | newtype decode => Json.Reports n decode
  | record decode => Json.Reports n decode

theorem Shape.within_ofName {shape : Shape α} (h : shape.ofName = .error fault) :
    fault.Within n := by
  cases shape <;> cases h <;> exact ⟨trivial, by decide⟩

theorem Shape.Reports.ofValue {shape : Shape α} (hshape : shape.Reports n) :
    Json.Reports n shape.ofValue where
  within j fault hj h := by
    cases shape with
    | unit value =>
      unfold Shape.ofValue at h
      cases j <;> cases h <;> exact within_mismatch (by decide) hj
    | newtype decode => exact hshape.within j fault hj h
    | record decode => exact hshape.within j fault hj h

theorem mem_variantOf {variants : List (Variant α)} {name : String} {v : Variant α}
    (h : variantOf variants name = .ok v) : v ∈ variants := by
  unfold variantOf at h
  split at h
  · next w hw =>
    cases h
    exact List.mem_of_find?_eq_some hw
  · cases h

theorem within_variantOf {variants : List (Variant α)}
    (hknown : (alternatives (variants.map Variant.name)).utf8ByteSize ≤ 128) {name : String}
    (hname : room name ≤ n) (h : variantOf variants name = .error fault) : fault.Within n := by
  unfold variantOf at h
  split at h
  · cases h
  · cases h
    exact ⟨hname, hknown⟩

theorem reports_choice {variants : List (Variant α)}
    (hknown : (alternatives (variants.map Variant.name)).utf8ByteSize ≤ 128)
    (hshapes : ∀ v ∈ variants, v.shape.Reports n) : Reports n (choice variants) where
  within j fault hj h := by
    unfold choice at h
    split at h
    · next name =>
      cases hj with
      | text hname =>
        obtain hv | ⟨v, -, h⟩ := bind_eq_error.1 h
        · exact within_variantOf hknown (hname name rfl) hv
        · exact Shape.within_ofName h
    · next name value members =>
      cases hj with
      | object hkeys hmembers =>
        rw [List.forall_mem_cons] at hkeys hmembers
        obtain hv | ⟨v, hv, h⟩ := bind_eq_error.1 h
        · exact within_variantOf hknown (hkeys.1 name rfl) hv
        · obtain ha | ⟨a, -, h⟩ := bind_eq_error.1 h
          · exact (hshapes v (mem_variantOf hv)).ofValue.within value _ hmembers.1 ha
          · split_ifs at h <;> cases h
            trivial
    · cases h
      trivial

/-! ## Records -/

structure Field.Reports (n : Nat) (f : Field α) : Prop where
  name_le : f.name.utf8ByteSize ≤ 64
  within : ∀ j fault, Within n j → f.read j = .error fault → fault.Within n

theorem Reports.field (hdecode : Reports n decode) {name : String} {required : Bool}
    {encode : α → Json} {get : β → α} {set : α → β → β} (hname : name.utf8ByteSize ≤ 64) :
    (Field.plain name required encode decode get set).Reports n :=
  ⟨hname, hdecode.map.within⟩

variable {r : Record α} (hfields : ∀ f ∈ r.fields, f.Reports n)

include hfields

theorem within_readMembers : ∀ (members : List (Option String × Json)) {seen : List String} {a : α},
    (∀ m ∈ members, Within n m.2) → r.readMembers seen a members = .error fault → fault.Within n
  | [], seen, a, _, h => by cases h
  | (none, v) :: members, seen, a, _, h => by
    cases h
    trivial
  | (some name, v) :: members, seen, a, hmembers, h => by
    rw [List.forall_mem_cons] at hmembers
    rw [Record.readMembers] at h
    split at h
    · next f hf =>
      have hreports := hfields f (List.mem_of_find?_eq_some hf)
      have hname : f.name = name := by simpa using List.find?_some hf
      split_ifs at h
      · cases h
        exact hname ▸ hreports.name_le
      · obtain hread | ⟨change, -, h⟩ := bind_eq_error.1 h
        · exact hreports.within v _ hmembers.1 hread
        · exact within_readMembers members hmembers.2 h
    · split_ifs at h
      · exact within_readMembers members hmembers.2 h
      · cases h
        trivial

theorem within_readItems (harity : r.arity.utf8ByteSize ≤ 64) : ∀ (fields : List (Field α))
    (items : List Json) {index : Nat} {a : α}, fields ⊆ r.fields → index + fields.length ≤ 64 →
    (∀ j ∈ items, Within n j) → r.readItems index a fields items = .error fault → fault.Within n
  | [], [], index, a, _, _, _, h => by cases h
  | [], j :: js, index, a, _, _, _, h => by
    cases h
    trivial
  | f :: fields, [], index, a, hsub, hindex, hitems, h => by
    rw [List.length_cons] at hindex
    rw [Record.readItems] at h
    split_ifs at h
    · cases h
      exact ⟨by omega, harity⟩
    · exact within_readItems harity fields [] (List.subset_of_cons_subset hsub) (by omega) hitems h
  | f :: fields, j :: js, index, a, hsub, hindex, hitems, h => by
    rw [List.length_cons] at hindex
    rw [List.forall_mem_cons] at hitems
    rw [Record.readItems] at h
    obtain hread | ⟨change, -, h⟩ := bind_eq_error.1 h
    · exact (hfields f (hsub List.mem_cons_self)).within j _ hitems.1 hread
    · have hrest := List.subset_of_cons_subset hsub
      exact within_readItems harity fields js hrest (by omega) hitems.2 h

theorem Record.reports (htitle : r.title.utf8ByteSize ≤ 64) (harity : r.arity.utf8ByteSize ≤ 64)
    (hlength : r.fields.length ≤ 64) : Reports n r.decode where
  within j fault hj h := by
    unfold Record.decode at h
    split at h
    · next members =>
      cases hj with
      | object hkeys hmembers =>
        obtain hread | ⟨p, -, h⟩ := bind_eq_error.1 h
        · exact within_readMembers hfields members hmembers hread
        · dsimp only at h
          split at h
          · next f hf =>
            cases h
            exact (hfields f (List.mem_of_find?_eq_some hf)).name_le
          · cases h
    · next items =>
      cases hj with
      | array hitems =>
        have hall := List.Subset.refl r.fields
        exact within_readItems hfields harity r.fields items hall (by omega) hitems h
    · cases h
      exact within_mismatch htitle hj

end Decoders

/-- The fault of a text quotes no string that takes more room than the text. -/
theorem Reports.decodeText {α : Type} {decode : Decoder α} {s : String} {fault : Fault}
    (hdecode : Reports s.utf8ByteSize decode) (h : decodeText decode s = .error fault) :
    fault.Within s.utf8ByteSize := by
  unfold Json.decodeText at h
  obtain ha | ⟨a, -, h⟩ := bind_eq_error.1 h
  · exact hdecode.within _ _ (within_parse s) ha
  · split_ifs at h <;> cases h
    trivial

end RadioScan.Json
