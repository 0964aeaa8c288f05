import RadioScan.Proofs.Json.Record
import Mathlib.Data.List.Nodup

/-!
# Records read from listings

The texts of a record list its fields in any order, each at most once, among members with other keys
and any values; a field may be left out if it has its default (`Lists`). A record whose fields take
what is listed is read from all of them (`Record.suits`): once a field has been met, or is left out
rightly, it is settled as in the record listed, and reading any other field leaves it so.
-/

namespace RadioScan.Json

variable {α β : Type}

/-! ## Listings -/

/-- Which trees state a value. -/
abbrev Form (α : Type) := α → Json → Prop

namespace Form

/-- A value is stated as it is written. -/
def exact (encode : α → Json) : Form α := fun a j => j = encode a

/-- Nothing is stated as null. -/
def option (form : Form α) : Form (Option α)
  | none, j => j = null
  | some a, j => form a j

/-- What is written of a value states it, and whatever states it is read as the value. -/
structure Suits (form : Form α) (encode : α → Json) (decode : Decoder α) : Prop where
  states_encode : ∀ a, form a (encode a)
  decode_eq : ∀ a j, form a j → decode j = .ok a

/-- The text is that of a tree which states the value. -/
def Texts (form : Form α) (a : α) (s : String) : Prop := ∃ j, form a j ∧ IsText s j

end Form

/-- A field as it is listed: which values state it in a record, and in which records it may be left
out. -/
structure Listing (α : Type) where
  name : String
  states : α → Json → Prop
  omissible : α → Prop

namespace Listing

/-- A field that every text lists. -/
def needed (name : String) (form : Form β) (get : α → β) : Listing α where
  name := name
  states a := form (get a)
  omissible _ := False

/-- A field that may be left out when it has its default. -/
def defaulted (name : String) (form : Form β) (get : α → β) (default : β) : Listing α where
  name := name
  states a := form (get a)
  omissible a := get a = default

end Listing

/-- The members state the fields of the record that they list, in any order: no field twice, and
other keys with any values. -/
structure States (listings : List (Listing α)) (a : α) (members : List (Option String × Json)) :
    Prop where
  keys : ∀ m ∈ members, m.1.isSome
  stated : ∀ l ∈ listings, ∀ j, (some l.name, j) ∈ members → l.states a j
  once : ∀ l ∈ listings, (members.map Prod.fst).count (some l.name) ≤ 1
  others : ∀ m ∈ members, (∀ l ∈ listings, m.1 ≠ some l.name) → m.2.isWhole

/-- The members list the record: what they leave out may be left out. -/
structure Lists (listings : List (Listing α)) (a : α) (members : List (Option String × Json)) :
    Prop extends States listings a members where
  omitted : ∀ l ∈ listings, some l.name ∉ members.map Prod.fst → l.omissible a

/-- A record is stated as an object that lists its fields. -/
def Form.object (listings : List (Listing α)) : Form α := fun a j =>
  ∃ members, j = .object members ∧ Lists listings a members

theorem Faithful.suits {encode : α → Json} {decode : Decoder α} (h : Faithful encode decode) :
    (Form.exact encode).Suits encode decode where
  states_encode _ := rfl
  decode_eq := by
    rintro a _ rfl
    exact h.decode_encode a

namespace Form.Suits

variable {form : Form α} {encode : α → Json} {decode : Decoder α} (h : form.Suits encode decode)

include h

theorem decodeText {a : α} {s : String} (hs : form.Texts a s) :
    Json.decodeText decode s = .ok a := by
  obtain ⟨j, hj, htext⟩ := hs
  simp [Json.decodeText, parse_of_isText htext, h.decode_eq a j hj, bind, Except.bind, pure,
    Except.pure]

theorem texts_compact {a : α} (ha : (encode a).IsWritten) : form.Texts a (encode a).compact :=
  ⟨_, h.states_encode a, ha.isText_compact⟩

end Form.Suits

/-! ## Reading a listing -/

/-- A listed field, and how reading it carries the field of one record over to another. -/
structure Row (α : Type) extends Listing α where
  move : α → α → α

/-- The field writes what the row lists and reads whatever the row lists. -/
structure Field.Takes (blank : α) (f : Field α) (row : Row α) : Prop where
  name : f.name = row.name
  write : ∀ a, ∃ j, f.write a = some j ∧ row.states a j
  required : f.required → ∀ a, ¬row.omissible a
  omissible : ∀ a, row.omissible a → row.move a blank = blank
  read : ∀ a j, row.states a j → f.read j = .ok (row.move a)

section Field

variable {form : Form β} {encode : β → Json} {decode : Decoder β} {name : String} {get : α → β}
  {set : β → α → α} {blank : α}

theorem Form.Suits.needed (h : form.Suits encode decode) :
    (Field.needed name encode decode get set).Takes blank
      ⟨.needed name form get, fun a => set (get a)⟩ where
  name := rfl
  write a := ⟨_, rfl, h.states_encode (get a)⟩
  required _ _ := id
  omissible _ := False.elim
  read a j hj := by simp only [Field.needed, Field.plain, h.decode_eq _ j hj, Except.map]

theorem Form.Suits.defaulted (h : form.Suits encode decode) {default : β}
    (hblank : set default blank = blank) :
    (Field.defaulted name encode decode get set).Takes blank
      ⟨.defaulted name form get default, fun a => set (get a)⟩ where
  name := rfl
  write a := ⟨_, rfl, h.states_encode (get a)⟩
  required := by simp [Field.defaulted, Field.plain]
  omissible a (ha : get a = default) := by
    subst ha
    exact hblank
  read a j hj := by simp only [Field.defaulted, Field.plain, h.decode_eq _ j hj, Except.map]

end Field

/-- The field is in the second record as in the first. -/
def Row.Settled (a x : α) (row : Row α) : Prop := row.move a x = x

/-- Neither field is in the other's way. -/
def Row.Commute (p q : Row α) : Prop := ∀ a x, p.move a (q.move a x) = q.move a (p.move a x)

theorem symm_commute : Std.Symm (Row.Commute (α := α)) := ⟨fun _ _ h a x => (h a x).symm⟩

/-- Fields may be carried over in any order and more than once. -/
structure Independent (rows : List (Row α)) : Prop where
  commute : rows.Pairwise Row.Commute
  again : ∀ row ∈ rows, ∀ a x, row.move a (row.move a x) = row.move a x

theorem States.tail {listings : List (Listing α)} {a : α} {m : Option String × Json}
    {ms : List (Option String × Json)} (h : States listings a (m :: ms)) :
    States listings a ms where
  keys := (List.forall_mem_cons.1 h.keys).2
  stated l hl j hj := h.stated l hl j (List.mem_cons_of_mem m hj)
  once l hl := ((List.sublist_cons_self m ms).map Prod.fst).count_le _ |>.trans (h.once l hl)
  others := (List.forall_mem_cons.1 h.others).2

theorem foldl_settled {rows : List (Row α)} {a x : α} (h : ∀ row ∈ rows, row.Settled a x) :
    rows.foldl (fun x row => row.move a x) x = x := by
  induction rows with
  | nil => rfl
  | cons row rows ih =>
    rw [List.forall_mem_cons] at h
    rw [List.foldl_cons, h.1, ih h.2]

theorem exists_of_forall₂ {R : α → β → Prop} {as : List α} {bs : List β}
    (h : List.Forall₂ R as bs) {b : β} (hb : b ∈ bs) : ∃ a ∈ as, R a b := by
  obtain ⟨i, hi, rfl⟩ := List.getElem_of_mem hb
  have hlen := h.length_eq
  exact ⟨_, List.getElem_mem (by omega), h.get (by omega) hi⟩

section Takes

variable {blank : α} {fields : List (Field α)} {rows : List (Row α)}
  (htakes : List.Forall₂ (Field.Takes blank) fields rows)

include htakes

theorem names_eq : fields.map Field.name = rows.map fun row => row.name := by
  induction htakes with
  | nil => rfl
  | cons hf _ ih => rw [List.map_cons, List.map_cons, hf.name, ih]

theorem exists_row {f : Field α} (hf : f ∈ fields) : ∃ row ∈ rows, f.Takes blank row :=
  exists_of_forall₂ (R := fun row f => f.Takes blank row) htakes.flip hf

theorem find?_eq_none_of_ne {name : String} (h : ∀ row ∈ rows, row.name ≠ name) :
    fields.find? (fun f => f.name == name) = none := by
  rw [List.find?_eq_none]
  intro f hf
  obtain ⟨row, hrow, hfr⟩ := exists_row htakes hf
  simpa [hfr.name] using h row hrow

theorem members_forall₂ (a : α) :
    List.Forall₂ (fun row m => m.1 = some row.name ∧ row.states a m.2) rows (members fields a) := by
  induction htakes with
  | nil => exact .nil
  | cons hf _ ih =>
    obtain ⟨j, hwrite, hstates⟩ := hf.write a
    rw [members, List.filterMap_cons, hwrite]
    exact .cons ⟨congrArg some hf.name, hstates⟩ ih

theorem map_fst_members (a : α) :
    (members fields a).map Prod.fst = rows.map fun row => some row.name := by
  induction htakes with
  | nil => rfl
  | cons hf _ ih =>
    obtain ⟨j, hwrite, -⟩ := hf.write a
    rw [members, List.filterMap_cons, hwrite, List.map_cons, hf.name]
    exact congrArg _ ih

/-- What is written of a record lists it. -/
theorem lists_members (hnodup : (rows.map fun row => row.name).Nodup) (a : α) :
    Lists (rows.map Row.toListing) a (members fields a) := by
  have hkeys := map_fst_members htakes a
  have hlisted : ∀ m ∈ members fields a,
      ∃ row ∈ rows, m.1 = some row.name ∧ row.states a m.2 :=
    fun m hm => exists_of_forall₂ (members_forall₂ htakes a) hm
  refine ⟨⟨fun m hm => ?_, fun l hl j hj => ?_, fun l _ => ?_, fun m hm hother => ?_⟩, ?_⟩
  · obtain ⟨row, -, hm, -⟩ := hlisted m hm
    rw [hm, Option.isSome_some]
  · obtain ⟨row, hrow, rfl⟩ := List.mem_map.1 hl
    obtain ⟨q, hq, hname, hstates⟩ := hlisted _ hj
    obtain rfl := List.inj_on_of_nodup_map hnodup hrow hq (Option.some.inj hname)
    exact hstates
  · have hsome : (rows.map fun row => some row.name).Nodup := by
      have hmap := hnodup.map (f := some) fun _ _ => Option.some.inj
      rwa [List.map_map] at hmap
    rw [hkeys]
    exact List.nodup_iff_count_le_one.1 hsome _
  · obtain ⟨row, hrow, hm, -⟩ := hlisted m hm
    exact absurd hm (hother _ (List.mem_map_of_mem hrow))
  · intro l hl hunlisted
    obtain ⟨row, hrow, rfl⟩ := List.mem_map.1 hl
    exact absurd (hkeys ▸ List.mem_map_of_mem hrow) hunlisted

end Takes

/-- Reading members from the record `x` on, with the fields `seen` before, settles the fields that
they list and leaves the others as they are. -/
structure Settles (rows : List (Row α)) (a : α) (members : List (Option String × Json))
    (seen : List String) (x : α) (result : List String × α) : Prop where
  seen_subset : seen ⊆ result.1
  kept : ∀ row ∈ rows, row.Settled a x → row.Settled a result.2
  seen_listed : ∀ row ∈ rows, some row.name ∈ members.map Prod.fst → row.name ∈ result.1
  listed : ∀ row ∈ rows, some row.name ∈ members.map Prod.fst → row.Settled a result.2

section Members

variable {r : Record α} {rows : List (Row α)} (hnames : (r.fields.map Field.name).Nodup)
  (htakes : List.Forall₂ (Field.Takes r.blank) r.fields rows)
  (hrows : Independent rows)

include hrows in
theorem settled_move {p q : Row α} (hp : p ∈ rows) (hq : q ∈ rows) {a x : α}
    (h : q.Settled a x) : q.Settled a (p.move a x) := by
  have := symm_commute (α := α)
  have hcommute := hrows.commute.forall_of_forall (fun _ _ _ _ => rfl) hq hp
  rw [Row.Settled, hcommute, h]

section Step

variable {a x : α} {members : List (Option String × Json)} {seen : List String}
  {result : List String × α} {j : Json}

include hnames htakes hrows in
theorem Settles.cons_field {f : Field α} {row : Row α} (hrow : row ∈ rows)
    (hfr : f.Takes r.blank row)
    (h : Settles rows a members (f.name :: seen) (row.move a x) result) :
    Settles rows a ((some f.name, j) :: members) seen x result := by
  have hnodup : (rows.map fun row => row.name).Nodup := names_eq htakes ▸ hnames
  have hsub := List.cons_subset.1 h.seen_subset
  refine ⟨hsub.2, fun q hq hx => h.kept q hq (settled_move hrows hrow hq hx), ?_, ?_⟩
  · intro q hq hlisted
    rcases List.mem_cons.1 hlisted with hsame | hlater
    · exact Option.some.inj hsame ▸ hsub.1
    · exact h.seen_listed q hq hlater
  · intro q hq hlisted
    rcases List.mem_cons.1 hlisted with hsame | hlater
    · have hname : q.name = row.name := (Option.some.inj hsame).trans hfr.name
      obtain rfl := List.inj_on_of_nodup_map hnodup hq hrow hname
      exact h.kept q hq (hrows.again q hq a x)
    · exact h.listed q hq hlater

theorem Settles.cons_other {name : String} (hother : ∀ row ∈ rows, row.name ≠ name)
    (h : Settles rows a members seen x result) :
    Settles rows a ((some name, j) :: members) seen x result := by
  have hlater : ∀ row ∈ rows, some row.name ∈ ((some name, j) :: members).map Prod.fst →
      some row.name ∈ members.map Prod.fst := by
    intro row hrow hlisted
    exact (List.mem_cons.1 hlisted).resolve_left fun heq => hother row hrow (Option.some.inj heq)
  exact ⟨h.seen_subset, h.kept,
    fun row hrow hlisted => h.seen_listed row hrow (hlater row hrow hlisted),
    fun row hrow hlisted => h.listed row hrow (hlater row hrow hlisted)⟩

end Step

include hnames htakes hrows

theorem readMembers_states {a : α} {members : List (Option String × Json)}
    (h : States (rows.map Row.toListing) a members) (seen : List String)
    (hseen : ∀ row ∈ rows, row.name ∈ seen → some row.name ∉ members.map Prod.fst) (x : α) :
    ∃ result, r.readMembers seen x members = .ok result ∧
      Settles rows a members seen x result := by
  -- the fields seen are those that no later member may list again
  induction members generalizing seen x with
  | nil => exact ⟨(seen, x), rfl, List.Subset.refl seen, fun _ _ hx => hx, by simp, by simp⟩
  | cons m ms ih =>
    obtain ⟨k, v⟩ := m
    obtain ⟨name, rfl⟩ := Option.isSome_iff_exists.1 (h.keys _ List.mem_cons_self)
    by_cases hknown : ∃ row ∈ rows, row.name = name
    · obtain ⟨row, hrow, rfl⟩ := hknown
      obtain ⟨f, hf, hfr⟩ := exists_of_forall₂ htakes hrow
      have hfresh : row.name ∉ seen := fun hmem => hseen row hrow hmem List.mem_cons_self
      have hread := hfr.read a v (h.stated _ (List.mem_map_of_mem hrow) v List.mem_cons_self)
      have honce := h.once _ (List.mem_map_of_mem hrow)
      rw [List.map_cons, List.count_cons_self] at honce
      have hnext : ∀ q ∈ rows, q.name ∈ row.name :: seen → some q.name ∉ ms.map Prod.fst := by
        intro q hq hmem
        rcases List.mem_cons.1 hmem with hsame | hmem
        · rw [hsame]
          exact List.count_eq_zero.1 (by omega)
        · exact fun hlater => hseen q hq hmem (List.mem_cons_of_mem _ hlater)
      obtain ⟨result, hrest, hsettles⟩ := ih h.tail _ hnext (row.move a x)
      rw [← hfr.name] at hfresh hrest hsettles ⊢
      exact ⟨result, (readMembers_field hnames hf hfresh hread x ms).trans hrest,
        hsettles.cons_field hnames htakes hrows hrow hfr⟩
    · push Not at hknown
      have hwhole := h.others _ List.mem_cons_self
        (by simpa using fun row hrow heq => hknown row hrow heq.symm)
      obtain ⟨result, hrest, hsettles⟩ :=
        ih h.tail seen (fun q hq hmem hlater => hseen q hq hmem (List.mem_cons_of_mem _ hlater)) x
      refine ⟨result, ?_, hsettles.cons_other hknown⟩
      simp only [Record.readMembers, find?_eq_none_of_ne htakes hknown, if_pos hwhole, hrest]

variable (hall : ∀ a x, rows.foldl (fun x row => row.move a x) x = a)

include hall

theorem readMembers_lists {a : α} {members : List (Option String × Json)}
    (h : Lists (rows.map Row.toListing) a members) :
    ∃ seen, r.readMembers [] r.blank members = .ok (seen, a) ∧
      ∀ f ∈ r.fields, f.required → f.name ∈ seen := by
  obtain ⟨⟨seen, x⟩, hread, hsettles⟩ :=
    readMembers_states hnames htakes hrows h.toStates [] (by simp) r.blank
  have hsettled : ∀ row ∈ rows, row.Settled a x := by
    intro row hrow
    by_cases hlisted : some row.name ∈ members.map Prod.fst
    · exact hsettles.listed row hrow hlisted
    -- what is left out is in the blank record already
    · obtain ⟨f, -, hfr⟩ := exists_of_forall₂ htakes hrow
      have homissible := h.omitted _ (List.mem_map_of_mem hrow) hlisted
      exact hsettles.kept row hrow (hfr.omissible a homissible)
  have hx : x = a := (foldl_settled hsettled).symm.trans (hall a x)
  refine ⟨seen, hx ▸ hread, fun f hf hrequired => ?_⟩
  obtain ⟨row, hrow, hfr⟩ := exists_row htakes hf
  rw [hfr.name]
  by_contra hunseen
  have hunlisted := fun hlisted => hunseen (hsettles.seen_listed row hrow hlisted)
  exact hfr.required hrequired a (h.omitted _ (List.mem_map_of_mem hrow) hunlisted)

/-- A record whose fields take what is listed, none in another's way, is read from every listing. -/
theorem Record.suits {listings : List (Listing α)} (hlistings : rows.map Row.toListing = listings) :
    (Form.object listings).Suits r.encode r.decode where
  states_encode a := by
    subst hlistings
    exact ⟨_, rfl, lists_members htakes (names_eq htakes ▸ hnames) a⟩
  decode_eq := by
    subst hlistings
    rintro a _ ⟨members, rfl, hlists⟩
    obtain ⟨seen, hread, hrequired⟩ := readMembers_lists hnames htakes hrows hall hlists
    exact Record.decode_object hread hrequired

end Members

end RadioScan.Json
