import RadioScan.Config
import RadioScan.Proofs.ChannelSet
import Mathlib.Data.List.Flatten
import Mathlib.Data.List.Nodup
import Mathlib.Data.List.Perm.Subperm

/-!
# Catalogs and rendered scopes

A channel set's scope always counts as many channels as the set has (`length_expand_toScope`), and
for a catalog without repeats it stands for exactly the set's frequencies (`mem_expand_toScope`):
the tables of the covered sub-bands are then without repeats, lie within the set, and are as many.
A catalog that a configuration may carry is fit for a radio (`Config.isFit_of_channelCatalog`), so
it has no repeats.
-/

namespace RadioScan

namespace Band

theorem subBands_ofSubBands (p : SubBand → Bool) :
    (ofSubBands (SubBand.all.filter p)).subBands = SubBand.all.filter p := by
  simp only [SubBand.all, List.filter]
  cases p .ghz24 <;> cases p .ghz5 <;> cases p .ghz5Dfs <;> rfl

theorem isUnknown_ofSubBands (p : SubBand → Bool) :
    (ofSubBands (SubBand.all.filter p)).isUnknown = false := by
  simp only [SubBand.all, List.filter]
  cases p .ghz24 <;> cases p .ghz5 <;> cases p .ghz5Dfs <;> rfl

end Band

namespace Catalog

/-- There is no fault when nothing is zero, repeated or seen before. -/
theorem firstFault_eq_none_iff : ∀ (fs seen : List Frequency),
    firstFault seen fs = none ↔ fs.Nodup ∧ ∀ f ∈ fs, f ≠ 0 ∧ f ∉ seen
  | [], seen => by simp [firstFault]
  | f :: fs, seen => by
    rw [firstFault]
    by_cases h0 : f = 0
    · simp [h0]
    by_cases hs : f ∈ seen
    · simp [h0, hs]
    rw [if_neg h0, if_neg hs, firstFault_eq_none_iff fs (f :: seen), List.nodup_cons]
    constructor
    · rintro ⟨hn, hfs⟩
      refine ⟨⟨fun hf => (hfs f hf).2 List.mem_cons_self, hn⟩, fun g hg => ?_⟩
      rcases List.mem_cons.1 hg with rfl | hg
      · exact ⟨h0, hs⟩
      · exact ⟨(hfs g hg).1, fun h => (hfs g hg).2 (List.mem_cons_of_mem _ h)⟩
    · rintro ⟨⟨hf, hn⟩, hfs⟩
      refine ⟨hn, fun g hg => ⟨(hfs g (List.mem_cons_of_mem _ hg)).1, fun h => ?_⟩⟩
      rcases List.mem_cons.1 h with rfl | h
      · exact hf hg
      · exact (hfs g (List.mem_cons_of_mem _ hg)).2 h

/-- Fit to be the catalog of a radio: there is a frequency, none is zero or listed twice, in one
table or in two, and the hardware can scan them all at once. -/
structure IsFit (c : Catalog) : Prop where
  ne_nil : c.frequencies ≠ []
  ne_zero : 0 ∉ c.frequencies
  nodup : c.frequencies.Nodup
  length_le : c.frequencies.length ≤ Hardware.maxChannels

theorem fault?_eq_none_iff {c : Catalog} : c.fault? = none ↔ c.IsFit := by
  have hzero : 0 ∉ c.frequencies ↔ ∀ f ∈ c.frequencies, f ≠ 0 :=
    ⟨fun h f hf h0 => h (h0 ▸ hf), fun h h0 => h 0 h0 rfl⟩
  have hfirst := firstFault_eq_none_iff c.frequencies []
  simp only [List.not_mem_nil, not_false_eq_true, and_true, ← hzero] at hfirst
  unfold fault?
  by_cases hnil : c.frequencies = []
  · rw [if_pos hnil]
    exact ⟨nofun, fun h => absurd hnil h.ne_nil⟩
  rw [if_neg hnil]
  cases hfault : firstFault [] c.frequencies with
  | some e =>
    refine ⟨nofun, fun h => ?_⟩
    rw [hfirst.2 ⟨h.nodup, h.ne_zero⟩] at hfault
    cases hfault
  | none =>
    obtain ⟨hnodup, hzero⟩ := hfirst.1 hfault
    by_cases hlong : Hardware.maxChannels < c.frequencies.length
    · simp only [if_pos hlong]
      exact ⟨nofun, fun h => absurd h.length_le (Nat.not_le.2 hlong)⟩
    · simp only [if_neg hlong, true_iff]
      exact ⟨hnil, hzero, hnodup, Nat.not_lt.1 hlong⟩

end Catalog

namespace Config

variable {config : Config} {c : Catalog}

theorem isFit_of_channelCatalog (h : config.channelCatalog = .ok c) : c.IsFit := by
  unfold channelCatalog at h
  split at h
  · cases h
    exact Catalog.fault?_eq_none_iff.1 (by decide)
  · split at h
    · next hf =>
      cases h
      exact Catalog.fault?_eq_none_iff.1 hf
    · cases h

theorem nodup_of_channelCatalog (h : config.channelCatalog = .ok c) : c.frequencies.Nodup :=
  (isFit_of_channelCatalog h).nodup

end Config

namespace ChannelSet

/-- A list loses its repeats when it is expanded, but the set does not count them either. -/
theorem insertScope_eq (s : ChannelSet) (c : Catalog) (scope : Scope) :
    s.insertScope c scope = s.insertAll (c.expand scope) := by
  cases scope with
  | band b => rfl
  | channels fs => exact (union_ofList s fs).symm

theorem ofScope_eq_ofList (c : Catalog) (scope : Scope) :
    ofScope c scope = ofList (c.expand scope) :=
  insertScope_eq empty c scope

theorem mem_ofScope {c : Catalog} {scope : Scope} {f : Frequency} :
    f ∈ ofScope c scope ↔ f ∈ c.expand scope := by
  rw [ofScope_eq_ofList, mem_ofList]

theorem mem_of_mem_coveredSubBands {s : ChannelSet} {c : Catalog} {b : SubBand}
    (h : b ∈ s.coveredSubBands c) {f : Frequency} (hf : f ∈ c.table b) : f ∈ s := by
  simp only [coveredSubBands, List.mem_filter, Bool.and_eq_true, List.all_eq_true,
    decide_eq_true_eq] at h
  exact h.2.2 f hf

/-- The covered band, when it is a band at all, stands for the tables of the covered sub-bands. -/
theorem expandBand_coveredBand {s : ChannelSet} {c : Catalog}
    (h : (s.coveredBand c).isUnspecified = false) :
    c.expandBand (s.coveredBand c) = (s.coveredSubBands c).flatMap c.table := by
  have hunknown : (s.coveredBand c).isUnknown = false := Band.isUnknown_ofSubBands _
  have hsub : (s.coveredBand c).subBands = s.coveredSubBands c := Band.subBands_ofSubBands _
  rw [Catalog.expandBand, hunknown, h, hsub]
  rfl

/-- A scope is the covered band, of the set's size, or the set's own list. -/
theorem toScope_cases (s : ChannelSet) (c : Catalog) :
    (s.toScope c = .band (s.coveredBand c) ∧ (s.coveredBand c).isUnspecified = false ∧
      (c.expandBand (s.coveredBand c)).length = s.size) ∨ s.toScope c = .channels s.toList := by
  unfold toScope
  simp only [Bool.and_eq_true, Bool.not_eq_true', beq_iff_eq]
  split_ifs with h
  · exact Or.inl ⟨rfl, h.1, h.2⟩
  · exact Or.inr rfl

theorem expand_channels_toList (s : ChannelSet) (c : Catalog) :
    c.expand (.channels s.toList) = s.toList :=
  toList_ofList_of_nodup s.nodup

/-- Rendering keeps the count, whatever the catalog repeats. -/
theorem length_expand_toScope (s : ChannelSet) (c : Catalog) :
    (c.expand (s.toScope c)).length = s.size := by
  rcases toScope_cases s c with ⟨h, -, hlen⟩ | h
  · rw [h]
    exact hlen
  · rw [h, expand_channels_toList]
    rfl

/-- Rendering keeps the frequencies if the catalog repeats none. -/
theorem mem_expand_toScope {c : Catalog} (hc : c.frequencies.Nodup) {s : ChannelSet}
    {f : Frequency} : f ∈ c.expand (s.toScope c) ↔ f ∈ s := by
  rcases toScope_cases s c with ⟨h, hspec, hlen⟩ | h
  · rw [h]
    change f ∈ c.expandBand (s.coveredBand c) ↔ f ∈ s.toList
    rw [expandBand_coveredBand hspec] at hlen ⊢
    have hsub : ((s.coveredSubBands c).flatMap c.table).Sublist c.frequencies :=
      List.filter_sublist.flatMap c.table
    have hle : (s.coveredSubBands c).flatMap c.table ⊆ s.toList := by
      intro g hg
      obtain ⟨b, hb, hg⟩ := List.mem_flatMap.1 hg
      exact mem_of_mem_coveredSubBands hb hg
    -- as many frequencies as the set has, so none of the set's is left out
    have hperm := ((hc.sublist hsub).subperm hle).perm_of_length_le (Nat.le_of_eq hlen.symm)
    exact hperm.mem_iff
  · rw [h, expand_channels_toList, mem_def]

end ChannelSet

end RadioScan
