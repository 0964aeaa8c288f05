import RadioScan.Proofs.Catalog
import Mathlib.Data.List.Pairwise

/-!
# How a catalog divides the spectrum

The tables of a catalog that is fit for a radio have no frequency in common, so a frequency has one
sub-band at most, and that is the one the catalog names (`Catalog.bandOf_eq_iff`). A band asks for
some of the sub-bands (`Band.requested`) and stands for their tables. Hence it stands for exactly
the frequencies whose sub-band it asks for, and the bits of two bands together stand for what the
two stand for one by one (`Catalog.partitions_channelCatalog`).
-/

namespace RadioScan

namespace SubBand

theorem mem_all (s : SubBand) : s ∈ all := by
  cases s <;> decide

theorem toBand_injective {s t : SubBand} (h : s.toBand = t.toBand) : s = t := by
  revert h
  cases s <;> cases t <;> decide

theorem toBand_ne_unspecified (s : SubBand) : s.toBand ≠ .unspecified := by
  cases s <;> decide

/-- The place of the sub-band's bit in a band. -/
def place : SubBand → Nat
  | ghz24 => 0
  | ghz5 => 1
  | ghz5Dfs => 2

end SubBand

/-! ## The sub-bands of a band -/

namespace Band

variable {a b : Band} {s : SubBand}

theorem contains_toBand (b : Band) (s : SubBand) :
    b.contains s.toBand = b.bits.toBitVec.getLsbD s.place := by
  have hbit : s.bit.toBitVec = BitVec.twoPow 8 s.place := by cases s <;> rfl
  have hne : BitVec.twoPow 8 s.place ≠ 0#8 := by cases s <;> decide
  rw [contains, SubBand.toBand, Bool.eq_iff_iff, beq_iff_eq, ← UInt8.toBitVec_inj,
    UInt8.toBitVec_and, hbit, BitVec.and_twoPow]
  split_ifs with h
  · simp [h]
  · simp [h, hne.symm]

theorem contains_union : (a.union b).contains s.toBand =
    (a.contains s.toBand || b.contains s.toBand) := by
  rw [contains_toBand, contains_toBand, contains_toBand, union, UInt8.toBitVec_or,
    BitVec.getLsbD_or]

theorem isUnspecified_union :
    (a.union b).isUnspecified = (a.isUnspecified && b.isUnspecified) := by
  rw [Bool.eq_iff_iff]
  simp only [isUnspecified, union, beq_iff_eq, Bool.and_eq_true, UInt8.or_eq_zero_iff]

theorem isUnknown_union : (a.union b).isUnknown = (a.isUnknown || b.isUnknown) := by
  have hand (m : UInt8) : (a.bits ||| b.bits) &&& m = (a.bits &&& m) ||| (b.bits &&& m) := by
    rw [← UInt8.toBitVec_inj]
    ext i
    simp [Bool.and_or_distrib_right]
  rw [Bool.eq_iff_iff]
  simp only [isUnknown, union, hand, bne_iff_ne, Bool.or_eq_true, ne_eq, UInt8.or_eq_zero_iff]
  exact not_and_or

/-- The sub-bands that a band asks for: those of its bits, all of them when it is unspecified, none
when some bit of it is unknown. -/
def requested (b : Band) : List SubBand :=
  SubBand.all.filter fun s => !b.isUnknown && (b.isUnspecified || b.contains s.toBand)

theorem mem_requested :
    s ∈ b.requested ↔
      b.isUnknown = false ∧ (b.isUnspecified = true ∨ b.contains s.toBand = true) := by
  simp [requested, SubBand.mem_all]

theorem mem_requested_union (ha : a.isUnspecified = false) (hb : b.isUnspecified = false)
    (ha' : a.isUnknown = false) (hb' : b.isUnknown = false) :
    s ∈ (a.union b).requested ↔ s ∈ a.requested ∨ s ∈ b.requested := by
  simp [mem_requested, isUnknown_union, isUnspecified_union, contains_union, ha, hb, ha', hb']

end Band

/-! ## The tables of a catalog -/

namespace Catalog

variable {c : Catalog} {f : Frequency} {s t : SubBand}

theorem expandBand_eq (c : Catalog) (b : Band) : c.expandBand b = b.requested.flatMap c.table := by
  unfold expandBand Band.requested
  split_ifs with hunknown hunspecified
  · simp [hunknown]
  · simp [hunknown, hunspecified, frequencies]
  · simp [hunknown, hunspecified, Band.subBands]

theorem mem_expandBand {b : Band} :
    f ∈ c.expandBand b ↔ ∃ s ∈ b.requested, f ∈ c.table s := by
  rw [expandBand_eq, List.mem_flatMap]

theorem expandBand_sublist (c : Catalog) (b : Band) : (c.expandBand b).Sublist c.frequencies := by
  rw [expandBand_eq]
  exact List.filter_sublist.flatMap c.table

theorem mem_frequencies : f ∈ c.frequencies ↔ ∃ s, f ∈ c.table s := by
  simp [frequencies, SubBand.mem_all]

section Nodup

variable (hc : c.frequencies.Nodup)

include hc

theorem eq_of_mem_table (hs : f ∈ c.table s) (ht : f ∈ c.table t) : s = t := by
  have hsymm : Std.Symm (Function.onFun List.Disjoint c.table) :=
    ⟨fun _ _ h => List.disjoint_symm h⟩
  have hdisjoint := (List.nodup_flatMap.1 hc).2
  by_contra hne
  exact hdisjoint.forall (SubBand.mem_all s) (SubBand.mem_all t) hne hs ht

theorem subBandOf?_eq_some_iff : c.subBandOf? f = some s ↔ f ∈ c.table s := by
  constructor
  · intro h
    simpa using List.find?_some h
  · intro h
    cases hfind : c.subBandOf? f with
    | none =>
      have hnone := List.find?_eq_none.1 hfind s (SubBand.mem_all s)
      exact absurd h (by simpa using hnone)
    | some t =>
      have ht : f ∈ c.table t := by simpa using List.find?_some hfind
      rw [eq_of_mem_table hc ht h]

/-- The band of a frequency names the table that has it. -/
theorem bandOf_eq_iff : c.bandOf f = s.toBand ↔ f ∈ c.table s := by
  rw [← subBandOf?_eq_some_iff hc, bandOf]
  cases c.subBandOf? f with
  | none => simpa using (SubBand.toBand_ne_unspecified s).symm
  | some t => simpa using ⟨SubBand.toBand_injective, congrArg _⟩

theorem bandOf_ne_unspecified_iff :
    c.bandOf f ≠ .unspecified ↔ ∃ s, c.bandOf f = s.toBand ∧ f ∈ c.table s := by
  constructor
  · intro h
    unfold bandOf at h ⊢
    cases hfind : c.subBandOf? f with
    | none => exact absurd (by rw [hfind]; rfl) h
    | some s => exact ⟨s, rfl, (subBandOf?_eq_some_iff hc).1 hfind⟩
  · rintro ⟨s, hs, -⟩
    rw [hs]
    exact SubBand.toBand_ne_unspecified s

end Nodup

/-- The catalog gives every frequency one sub-band, and a band stands for the frequencies of its
sub-bands. -/
structure Partitions (c : Catalog) : Prop where
  nodup_expandBand : ∀ b, (c.expandBand b).Nodup
  length_expandBand_le : ∀ b, (c.expandBand b).length ≤ Hardware.maxChannels
  expandBand_unknown : ∀ b, b.isUnknown = true → c.expandBand b = []
  mem_expandBand_iff : ∀ b f, b.isUnknown = false → (f ∈ c.expandBand b ↔
    c.bandOf f ≠ .unspecified ∧ (b.isUnspecified = true ∨ b.contains (c.bandOf f) = true))
  expandBand_everything : c.expandBand .everything = c.frequencies
  existsUnique_table : ∀ f ∈ c.frequencies,
    ∃ s, c.bandOf f = s.toBand ∧ ∀ t, f ∈ c.table t ↔ t = s
  mem_expandBand_union : ∀ a b f, a.isUnknown = false → b.isUnknown = false →
    a.isUnspecified = false → b.isUnspecified = false →
      (f ∈ c.expandBand (a.union b) ↔ f ∈ c.expandBand a ∨ f ∈ c.expandBand b)

theorem IsFit.partitions (h : c.IsFit) : c.Partitions where
  nodup_expandBand b := h.nodup.sublist (c.expandBand_sublist b)
  length_expandBand_le b := Nat.le_trans (c.expandBand_sublist b).length_le h.length_le
  expandBand_unknown b hb := by rw [expandBand, if_pos hb]
  mem_expandBand_iff b f hb := by
    rw [mem_expandBand, bandOf_ne_unspecified_iff h.nodup]
    constructor
    · rintro ⟨s, hs, hf⟩
      have hband := (bandOf_eq_iff h.nodup).2 hf
      rw [hband]
      exact ⟨⟨s, rfl, hf⟩, (Band.mem_requested.1 hs).2⟩
    · rintro ⟨⟨s, hband, hf⟩, hcontains⟩
      rw [hband] at hcontains
      exact ⟨s, Band.mem_requested.2 ⟨hb, hcontains⟩, hf⟩
  expandBand_everything := rfl
  existsUnique_table f hf := by
    obtain ⟨s, hs⟩ := mem_frequencies.1 hf
    refine ⟨s, (bandOf_eq_iff h.nodup).2 hs, fun t => ⟨fun ht => eq_of_mem_table h.nodup ht hs, ?_⟩⟩
    rintro rfl
    exact hs
  mem_expandBand_union a b f ha hb ha' hb' := by
    simp only [mem_expandBand, Band.mem_requested_union ha' hb' ha hb, or_and_right, exists_or]

theorem partitions_channelCatalog {config : Config} (h : config.channelCatalog = .ok c) :
    c.Partitions :=
  (Config.isFit_of_channelCatalog h).partitions

theorem partitions_channelCatalog_three_tables :
    Config.channelCatalog ⟨.standard, .standard, none, some ⟨[2412, 2437], [5180], [5500, 5260]⟩⟩
        = .ok ⟨[2412, 2437], [5180], [5500, 5260]⟩ ∧
      Partitions ⟨[2412, 2437], [5180], [5500, 5260]⟩ :=
  ⟨rfl, partitions_channelCatalog (show Config.channelCatalog
    ⟨.standard, .standard, none, some ⟨[2412, 2437], [5180], [5500, 5260]⟩⟩ = _ from rfl)⟩

end Catalog

end RadioScan
