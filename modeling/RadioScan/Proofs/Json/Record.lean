import RadioScan.Json.Choice
import RadioScan.Proofs.Json.Tree

/-!
# Formats read back

A format is faithful when whatever it writes is read back. Numbers, strings, lists and choices of
faithful formats are faithful, and so is a record whose fields have different names and carry all of
it over to the blank record, one part each (`Record.faithful`). The text of a faithful format is
that of the one value it decodes to (`Faithful.decodeText`).
-/

namespace RadioScan.Json

variable {α β : Type}

/-- Whatever is written can be written, and is read back. -/
structure Faithful (encode : α → Json) (decode : Decoder α) : Prop where
  written : ∀ a, (encode a).IsWritten
  decode_encode : ∀ a, decode (encode a) = .ok a

namespace Faithful

variable {encode : α → Json} {decode : Decoder α} (h : Faithful encode decode)

include h

theorem decodeText (a : α) : Json.decodeText decode (encode a).compact = .ok a := by
  simp [Json.decodeText, parse_compact (h.written a), h.decode_encode a, bind, Except.bind, pure,
    Except.pure]

theorem map {f : α → β} {g : β → α} (hfg : ∀ b, f (g b) = b) :
    Faithful (fun b => encode (g b)) fun j => (decode j).map f where
  written b := h.written (g b)
  decode_encode b := by rw [h.decode_encode, Except.map, hfg]

theorem list : Faithful (fun as => .array (as.map encode)) (Json.list decode) where
  written as := .array (by simpa using fun a _ => h.written a)
  decode_encode as := by
    rw [Json.list]
    induction as with
    | nil => rfl
    | cons a as ih => simp [itemsOf, h.decode_encode, ih, bind, Except.bind, pure, Except.pure]

end Faithful

/-! ## Values -/

theorem natBelow_ofNat {n bound : Nat} (h : n < bound) (hbound : bound ≤ UInt64.size)
    (expected : String) : natBelow bound expected (.number (.ofNat n)) = .ok n := by
  have hfits : n < UInt64.size := Nat.lt_of_lt_of_le h hbound
  have hquantity : (Number.ofNat n).quantity = .integer n := by
    simp [Number.quantity, Number.integer?, Number.ofNat, hfits]
  simp [natBelow, hquantity, h]

theorem isWritten_ofNat (n : Nat) : (Json.number (.ofNat n)).IsWritten :=
  .number (by simp [Number.IsWritten, Number.ofNat])

theorem faithful_uint8 : Faithful (fun n : UInt8 => .number (.ofNat n.toNat)) uint8 where
  written n := isWritten_ofNat n.toNat
  decode_encode n := by
    rw [uint8, natBelow_ofNat n.toNat_lt (by decide), Except.map, UInt8.ofNat_toNat]

theorem faithful_uint32 : Faithful (fun n : UInt32 => .number (.ofNat n.toNat)) uint32 where
  written n := isWritten_ofNat n.toNat
  decode_encode n := by
    rw [uint32, natBelow_ofNat n.toNat_lt (by decide), Except.map, UInt32.ofNat_toNat]

theorem faithful_word : Faithful (fun n : UInt64 => .number (.ofNat n.toNat)) word where
  written n := isWritten_ofNat n.toNat
  decode_encode n := by
    rw [word, natBelow_ofNat n.toNat_lt (Nat.le_refl _), Except.map, UInt64.ofNat_toNat]

theorem faithful_string : Faithful (fun s => .text (some s)) string where
  written := .text
  decode_encode _ := rfl

/-! ## Choices -/

section Choice

variable {variants : List (Variant α)} {name : String} {shape : Shape α}
  (h : variants.find? (fun v => v.name == name) = some ⟨name, shape⟩)

include h

theorem choice_name : choice variants (.text (some name)) = shape.ofName := by
  simp [choice, variantOf, h, bind, Except.bind]

theorem choice_value (v : Json) :
    choice variants (.object [(some name, v)]) = shape.ofValue v := by
  simp only [choice, variantOf, h, bind, Except.bind, pure, Except.pure]
  cases shape.ofValue v <;> rfl

end Choice

/-! ## Records -/

/-- What the field writes of a record, if anything, can be written, and reading it moves that part
of the record over; the part that is left out is nothing to move. -/
def Field.Carries (f : Field α) (move : α → α → α) : Prop :=
  ∀ a, match f.write a with
    | some j => j.IsWritten ∧ f.read j = .ok (move a)
    | none => f.required = false ∧ ∀ x, move a x = x

theorem Faithful.carries {encode : β → Json} {decode : Decoder β} (h : Faithful encode decode)
    {name : String} {required : Bool} {get : α → β} {set : β → α → α} :
    (Field.plain name required encode decode get set).Carries fun a => set (get a) := by
  intro a
  refine ⟨h.written (get a), ?_⟩
  simp only [Field.plain, h.decode_encode, Except.map]

/-- A field that is left out when there is nothing to write: what is written is not null, as that
would be read as nothing. -/
theorem Faithful.carries_skipped {encode : β → Json} {decode : Decoder β}
    (h : Faithful encode decode) (hnull : ∀ b, encode b ≠ null) {name : String}
    {get : α → Option β} {set : Option β → α → α} :
    (Field.skipped name encode decode get set).Carries
      fun a x => (get a).elim x fun b => set (some b) x := by
  intro a
  cases hget : get a with
  | none => simp [Field.skipped, hget]
  | some b =>
    simp only [Field.skipped, hget, Option.map_some, Option.elim_some]
    refine ⟨h.written b, ?_⟩
    unfold optional
    split
    · next heq => exact absurd heq (hnull b)
    · simp only [h.decode_encode, Except.map]

/-- The members that fields write of a record. -/
def members (fields : List (Field α)) (a : α) : List (Option String × Json) :=
  fields.filterMap fun f => (f.write a).map fun j => (some f.name, j)

theorem find?_field {fields : List (Field α)} (hnames : (fields.map Field.name).Nodup) {f : Field α}
    (hf : f ∈ fields) : fields.find? (fun g => g.name == f.name) = some f := by
  induction fields with
  | nil => cases hf
  | cons g gs ih =>
    obtain ⟨hg, hgs⟩ := List.nodup_cons.1 hnames
    rcases List.mem_cons.1 hf with rfl | hmem
    · simp
    · have hne : g.name ≠ f.name := fun heq => hg (heq ▸ List.mem_map_of_mem hmem)
      simp [hne, ih hgs hmem]

theorem written_members {fields : List (Field α)} {moves : List (α → α → α)}
    (hmoves : List.Forall₂ Field.Carries fields moves) (a : α) :
    ∀ m ∈ members fields a, m.1.isSome ∧ m.2.IsWritten := by
  induction hmoves with
  | nil => simp [members]
  | @cons f move fields moves hf _ ih =>
    have hfa := hf a
    cases hwrite : f.write a with
    | none =>
      rw [members, List.filterMap_cons, hwrite]
      exact ih
    | some j =>
      rw [hwrite] at hfa
      rw [members, List.filterMap_cons, hwrite, Option.map_some, List.forall_mem_cons]
      exact ⟨⟨rfl, hfa.1⟩, ih⟩

section Members

variable {r : Record α} (hnames : (r.fields.map Field.name).Nodup)

include hnames

/-- A member whose key is a field's, if not seen before, is read into the record. -/
theorem readMembers_field {f : Field α} (hf : f ∈ r.fields) {seen : List String}
    (hfresh : f.name ∉ seen) {j : Json} {change : α → α} (hread : f.read j = .ok change) (x : α)
    (ms : List (Option String × Json)) :
    r.readMembers seen x ((some f.name, j) :: ms) =
      r.readMembers (f.name :: seen) (change x) ms := by
  simp [Record.readMembers, find?_field hnames hf, hfresh, hread, bind, Except.bind]

theorem readMembers_members (a : α) {fields : List (Field α)} {moves : List (α → α → α)}
    (hmoves : List.Forall₂ Field.Carries fields moves) (hsub : fields.Sublist r.fields)
    (seen : List String) (hseen : ∀ f ∈ fields, f.name ∉ seen) (x : α) :
    ∃ seen', r.readMembers seen x (members fields a) =
        .ok (seen', moves.foldl (fun x move => move a x) x) ∧
      seen ⊆ seen' ∧ ∀ f ∈ fields, f.required → f.name ∈ seen' := by
  induction hmoves generalizing seen x with
  | nil => exact ⟨seen, by simp [members, Record.readMembers]⟩
  | @cons f move fields moves hf hmoves ih =>
    have hfields : fields.Sublist r.fields := (List.sublist_cons_self f fields).trans hsub
    have hnodup := hnames.sublist (hsub.map Field.name)
    rw [List.map_cons, List.nodup_cons] at hnodup
    rw [List.forall_mem_cons] at hseen
    have hfa := hf a
    cases hwrite : f.write a with
    | none =>
      rw [hwrite] at hfa
      obtain ⟨seen', hread, hkept, hrequired⟩ := ih hfields seen hseen.2 x
      refine ⟨seen', ?_, hkept, ?_⟩
      · simpa [members, hwrite, hfa.2] using hread
      · simpa [hfa.1] using hrequired
    | some j =>
      rw [hwrite] at hfa
      have hfresh : ∀ g ∈ fields, g.name ∉ f.name :: seen := by
        intro g hg
        have hne : g.name ≠ f.name := fun heq => hnodup.1 (heq ▸ List.mem_map_of_mem hg)
        simp [hne, hseen.2 g hg]
      obtain ⟨seen', hread, hkept, hrequired⟩ := ih hfields (f.name :: seen) hfresh (move a x)
      rw [List.cons_subset] at hkept
      refine ⟨seen', ?_, hkept.2, ?_⟩
      · have hfield :=
          readMembers_field hnames (hsub.subset List.mem_cons_self) hseen.1 hfa.2 x
        simpa [members, hwrite, hfield] using hread
      · simpa [hkept.1] using hrequired

omit hnames in
/-- An object is read as the record that its members lead to, if no required field is missing. -/
theorem Record.decode_object {members : List (Option String × Json)} {seen : List String} {a : α}
    (hread : r.readMembers [] r.blank members = .ok (seen, a))
    (hrequired : ∀ f ∈ r.fields, f.required → f.name ∈ seen) :
    r.decode (.object members) = .ok a := by
  have hmissing : r.fields.find? (fun f => f.required && f.name ∉ seen) = none := by
    rw [List.find?_eq_none]
    intro f hf
    simpa using hrequired f hf
  simp only [decode, hread, hmissing, bind, Except.bind, pure, Except.pure]

/-- A record whose fields have different names is read back if its fields carry all of it over to
the blank record. -/
theorem Record.faithful {moves : List (α → α → α)}
    (hmoves : List.Forall₂ Field.Carries r.fields moves)
    (hall : ∀ a, moves.foldl (fun x move => move a x) r.blank = a) :
    Faithful r.encode r.decode where
  written a := .object (fun m hm => (written_members hmoves a m hm).1)
    fun m hm => (written_members hmoves a m hm).2
  decode_encode a := by
    obtain ⟨seen, hread, -, hrequired⟩ :=
      readMembers_members hnames a hmoves (List.Sublist.refl _) [] (by simp) r.blank
    rw [hall] at hread
    exact Record.decode_object hread hrequired

end Members

end RadioScan.Json
