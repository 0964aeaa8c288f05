/-!
# Period tables

The hardware polls at the periods of one table: at most sixteen, above zero, each a proper multiple
of the one before, so that any two of them divide. A period asked for is snapped to the nearest one.
-/

namespace RadioScan

/-- A duration in milliseconds. -/
abbrev Millis := UInt32

/-- How far two durations are apart. -/
def Millis.gap (a b : Millis) : Nat := (a.toNat - b.toNat) + (b.toNat - a.toNat)

/-- What makes a list of periods unfit as a table. -/
inductive PeriodTableError
  | empty
  | tooManyEntries (length : Nat)
  | zeroPeriod (index : Nat)
  | notGeometric (index : Nat) (period previous : Millis)
deriving DecidableEq

/-- One period may follow another in a table. -/
def Follows (previous period : Millis) : Prop :=
  previous < period ∧ period.toNat % previous.toNat = 0

instance (a b : Millis) : Decidable (Follows a b) := inferInstanceAs (Decidable (_ ∧ _))

/-- Not empty, above zero, and each entry follows the one before. -/
def IsGeometric : List Millis → Prop
  | [] => False
  | [p] => 0 < p
  | p :: q :: rest => 0 < p ∧ Follows p q ∧ IsGeometric (q :: rest)

theorem IsGeometric.ne_nil {ps : List Millis} (h : IsGeometric ps) : ps ≠ [] := by
  rintro rfl
  exact h

/-- The legal polling periods, ascending. -/
structure PeriodTable where
  entries : List Millis
  geometric : IsGeometric entries
  length_le : entries.length ≤ 16

namespace PeriodTable

/-- The most entries that the hardware holds. -/
def maxEntries : Nat := 16

/-- The first entry that is zero or does not follow the one before, counting from `index`. -/
def firstFault (index : Nat) (previous : Option Millis) : List Millis → Option PeriodTableError
  | [] => none
  | p :: ps =>
    if p = 0 then some (.zeroPeriod index)
    else match previous with
      | none => firstFault (index + 1) (some p) ps
      | some q =>
        if Follows q p then firstFault (index + 1) (some p) ps else some (.notGeometric index p q)

theorem isGeometric_of_firstFault_some {ps : List Millis} {index : Nat} {q : Millis} (hq : 0 < q)
    (h : firstFault index (some q) ps = none) : IsGeometric (q :: ps) := by
  induction ps generalizing index q with
  | nil => exact hq
  | cons p ps ih =>
    unfold firstFault at h
    split at h
    · simp at h
    · next hp =>
      simp only at h
      split at h
      · next hf => exact ⟨hq, hf, ih (UInt32.pos_iff_ne_zero.2 hp) h⟩
      · simp at h

theorem isGeometric_of_firstFault {ps : List Millis} (hne : ps ≠ [])
    (h : firstFault 0 none ps = none) : IsGeometric ps := by
  cases ps with
  | nil => exact absurd rfl hne
  | cons p ps =>
    unfold firstFault at h
    split at h
    · simp at h
    · next hp => exact isGeometric_of_firstFault_some (UInt32.pos_iff_ne_zero.2 hp) h

/-- Takes a list of periods as a table, or says what is wrong with it first. -/
def ofEntries? (ps : List Millis) : Except PeriodTableError PeriodTable :=
  if hne : ps = [] then .error .empty
  else if hlen : ps.length ≤ 16 then
    match h : firstFault 0 none ps with
    | some e => .error e
    | none => .ok ⟨ps, isGeometric_of_firstFault hne h, hlen⟩
  else .error (.tooManyEntries ps.length)

/-- Ten seconds and its doubles, up to 10240 seconds. -/
def standard : PeriodTable where
  entries := [10000, 20000, 40000, 80000, 160000, 320000, 640000, 1280000, 2560000, 5120000,
    10240000]
  geometric := isGeometric_of_firstFault (by decide) (by decide)
  length_le := by decide

def least (t : PeriodTable) : Millis := t.entries.head t.geometric.ne_nil

def greatest (t : PeriodTable) : Millis := t.entries.getLast t.geometric.ne_nil

/-- The entry closest to a period; of two equally close ones the smaller. -/
def nearest (t : PeriodTable) (p : Millis) : Millis :=
  t.entries.tail.foldl (fun best e => if e.gap p < best.gap p then e else best) t.least

def contains (t : PeriodTable) (p : Millis) : Bool := p ∈ t.entries

end PeriodTable

namespace PeriodTableError

def message : PeriodTableError → String
  | empty => "period table is empty"
  | tooManyEntries length =>
    s!"period table has {length} entries, at most {PeriodTable.maxEntries} supported"
  | zeroPeriod index => s!"period table entry {index} is zero"
  | notGeometric index period previous =>
    s!"period table entry {index} ({period}ms) is not a larger multiple of {previous}ms"

end PeriodTableError

end RadioScan
