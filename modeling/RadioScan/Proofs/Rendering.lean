import RadioScan.Proofs.Partition

/-!
# Sets written as scopes

A set whose frequencies are just those of some band is written as a band, by the sub-bands of that
band that have a table at all; any other set is written as its list (`ChannelSet.rendered_toScope`).
Either way the scope stands for the set. Writing only looks for tables that the set holds in full
and compares two lengths: as the tables have nothing in common, a set holds a table of a band's in
full exactly when the band asks for it.
-/

namespace RadioScan

namespace Band

theorem isUnspecified_ofSubBands {p : SubBand → Bool} :
    (ofSubBands (SubBand.all.filter p)).isUnspecified = true ↔ SubBand.all.filter p = [] := by
  simp only [SubBand.all, List.filter]
  cases p .ghz24 <;> cases p .ghz5 <;> cases p .ghz5Dfs <;> decide

end Band

namespace Catalog

/-- The sub-bands that a band asks for and that have a table. -/
def populated (c : Catalog) (b : Band) : List SubBand :=
  b.requested.filter fun s => !(c.table s).isEmpty

variable {c : Catalog} {b : Band}

theorem populated_eq (c : Catalog) (b : Band) : c.populated b =
    SubBand.all.filter fun s => !(c.table s).isEmpty && decide (s ∈ b.requested) := by
  rw [populated, Band.requested, List.filter_filter]
  refine List.filter_congr fun s _ => ?_
  simp [SubBand.mem_all]

theorem flatMap_populated (c : Catalog) (b : Band) :
    (c.populated b).flatMap c.table = c.expandBand b := by
  rw [expandBand_eq, populated]
  induction b.requested with
  | nil => rfl
  | cons s ss ih =>
    cases hs : (c.table s).isEmpty <;> simp_all

end Catalog

namespace ChannelSet

open Catalog

variable {c : Catalog} {s : ChannelSet} {b : Band}

/-- The set is what the band stands for, and that is something. -/
structure Fills (s : ChannelSet) (c : Catalog) (b : Band) : Prop where
  known : b.isUnknown = false
  ne_nil : c.expandBand b ≠ []
  mem_iff : ∀ f, f ∈ s ↔ f ∈ c.expandBand b

/-- The tables held in full are those that the band asks for. -/
theorem Fills.coveredSubBands (h : s.Fills c b) (hc : c.frequencies.Nodup) :
    s.coveredSubBands c = c.populated b := by
  rw [ChannelSet.coveredSubBands, populated_eq]
  refine List.filter_congr fun t _ => ?_
  cases htable : c.table t with
  | nil => rfl
  | cons g gs =>
    rw [Bool.eq_iff_iff]
    simp only [List.isEmpty_cons, Bool.not_false, Bool.true_and, List.all_eq_true,
      decide_eq_true_eq]
    constructor
    · intro hall
      obtain ⟨u, hu, hg⟩ := mem_expandBand.1 ((h.mem_iff g).1 (hall g List.mem_cons_self))
      rwa [eq_of_mem_table hc (s := t) (t := u) (by rw [htable]; exact List.mem_cons_self) hg]
    · intro ht f hf
      rw [← htable] at hf
      exact (h.mem_iff f).2 (mem_expandBand.2 ⟨t, ht, hf⟩)

theorem Fills.size_eq (h : s.Fills c b) (hc : c.frequencies.Nodup) :
    (c.expandBand b).length = s.size := by
  have hnodup : (c.expandBand b).Nodup := hc.sublist (c.expandBand_sublist b)
  exact ((List.perm_ext_iff_of_nodup hnodup s.nodup).2 fun f => (h.mem_iff f).symm).length_eq

theorem Fills.toScope_eq (h : s.Fills c b) (hc : c.frequencies.Nodup) :
    s.toScope c = .band (.ofSubBands (c.populated b)) ∧
      Band.ofSubBands (c.populated b) ≠ .unspecified := by
  have hcovered : s.coveredBand c = .ofSubBands (c.populated b) := by
    rw [coveredBand, h.coveredSubBands hc]
  have hspecified : (s.coveredBand c).isUnspecified = false := by
    rw [Bool.eq_false_iff, Ne, coveredBand, ChannelSet.coveredSubBands,
      Band.isUnspecified_ofSubBands, ← ChannelSet.coveredSubBands, h.coveredSubBands hc]
    intro hnil
    have hflat := c.flatMap_populated b
    rw [hnil] at hflat
    exact h.ne_nil hflat.symm
  have hlength : (c.expandBand (s.coveredBand c)).length = s.size := by
    rw [expandBand_coveredBand hspecified, h.coveredSubBands hc, flatMap_populated, h.size_eq hc]
  rw [hcovered] at hspecified hlength
  refine ⟨by simp [toScope, hcovered, hspecified, hlength], fun hnone => ?_⟩
  rw [hnone] at hspecified
  cases hspecified

/-- A set written as a band is what that band stands for. -/
theorem fills_coveredBand (hc : c.frequencies.Nodup) (h : (s.toScope c).isBand = true) :
    s.Fills c (s.coveredBand c) := by
  rcases toScope_cases s c with ⟨hscope, hspecified, -⟩ | hlist
  · have hmem : ∀ f, f ∈ s ↔ f ∈ c.expandBand (s.coveredBand c) := by
      intro f
      have hf := mem_expand_toScope hc (s := s) (f := f)
      rw [hscope] at hf
      exact hf.symm
    refine ⟨Band.isUnknown_ofSubBands _, fun hnil => ?_, hmem⟩
    have hexpand := expandBand_coveredBand hspecified
    rw [hnil] at hexpand
    have hcovered : s.coveredSubBands c = [] := by
      rw [List.eq_nil_iff_forall_not_mem]
      intro t ht
      have hempty := List.flatMap_eq_nil_iff.1 hexpand.symm t ht
      simp [ChannelSet.coveredSubBands, hempty] at ht
    rw [coveredBand, hcovered] at hspecified
    cases hspecified
  · rw [hlist] at h
    cases h

/-- The scope of a set stands for the set, and is a band of non-empty tables if any band stands for
the set. -/
structure Rendered (s : ChannelSet) (c : Catalog) : Prop where
  perm : (c.expand (s.toScope c)).Perm s.toList
  isBand_iff : (s.toScope c).isBand = true ↔ ∃ b, s.Fills c b
  toScope_of_fills : ∀ b, s.Fills c b →
    s.toScope c = .band (.ofSubBands (c.populated b)) ∧
      Band.ofSubBands (c.populated b) ≠ .unspecified
  toScope_of_not_fills : (¬ ∃ b, s.Fills c b) → s.toScope c = .channels s.toList

theorem rendered_of_nodup (hc : c.frequencies.Nodup) (s : ChannelSet) : s.Rendered c where
  perm := by
    refine (List.perm_ext_iff_of_nodup ?_ s.nodup).2 fun f => mem_expand_toScope hc
    rcases toScope_cases s c with ⟨hscope, -, -⟩ | hscope
    · rw [hscope]
      exact hc.sublist (c.expandBand_sublist _)
    · rw [hscope, expand_channels_toList]
      exact s.nodup
  isBand_iff := by
    refine ⟨fun h => ⟨_, fills_coveredBand hc h⟩, ?_⟩
    rintro ⟨b, hb⟩
    rw [(hb.toScope_eq hc).1]
    rfl
  toScope_of_fills b hb := hb.toScope_eq hc
  toScope_of_not_fills h := by
    rcases toScope_cases s c with ⟨hscope, -, -⟩ | hscope
    · exact absurd ⟨_, fills_coveredBand hc (by rw [hscope]; rfl)⟩ h
    · exact hscope

/-- However a set was put together, its scope is as described when the catalog may be configured. -/
theorem rendered_toScope {config : Config} (h : config.channelCatalog = .ok c) (s : ChannelSet) :
    s.Rendered c :=
  rendered_of_nodup (Config.nodup_of_channelCatalog h) s

/-- A set that has lost its oldest frequency and is still a band: one of fewer sub-bands. -/
theorem rendered_toScope_dropped :
    Config.channelCatalog ⟨.standard, .standard, none, some ⟨[2412], [5180, 5200], []⟩⟩
        = .ok ⟨[2412], [5180, 5200], []⟩ ∧
      (ofScope ⟨[2412], [5180, 5200], []⟩ (.band .unspecified)).dropOldest.Rendered
        ⟨[2412], [5180, 5200], []⟩ :=
  ⟨rfl, rendered_toScope (show Config.channelCatalog
    ⟨.standard, .standard, none, some ⟨[2412], [5180, 5200], []⟩⟩ = _ from rfl) _⟩

end ChannelSet

end RadioScan
