import RadioScan.Proofs.Partition
import Mathlib.Data.List.Forall2

/-!
# Schedules that do the same

Two schedules are alike when they have the same settings, as many buckets, and bucket by bucket the
same settings and the same frequencies, however the scopes are written. This is what the comparison
of schedules decides (`Schedule.isEquivalent_iff`), so it is an equivalence that does not see how a
scope is written. Whatever is asked about a schedule is a matter of what its buckets scan, hence
alike schedules answer alike (`Schedule.congruence_isEquivalent`). Only a channel count also asks
how often a scope names a frequency: there the catalog must not repeat any.
-/

namespace RadioScan

theorem Catalog.nodup_expand {c : Catalog} (hc : c.frequencies.Nodup) (scope : Scope) :
    (c.expand scope).Nodup := by
  cases scope with
  | band b => exact hc.sublist (c.expandBand_sublist b)
  | channels fs => exact (ChannelSet.ofList fs).nodup

variable {c : Catalog}

namespace Bucket

/-- The buckets have the same settings and scan the same frequencies. -/
structure Alike (c : Catalog) (a b : Bucket) : Prop where
  period_eq : a.period = b.period
  events_eq : a.events = b.events
  maxPeriod_eq : a.maxPeriod = b.maxPeriod
  stepCount_eq : a.stepCount = b.stepCount
  mem_iff : ∀ f, f ∈ a.frequencies c ↔ f ∈ b.frequencies c

variable {a b d : Bucket}

theorem isEquivalent_iff : a.isEquivalent b c = true ↔ a.Alike c b := by
  simp only [isEquivalent, Bool.and_eq_true, beq_iff_eq, List.all_eq_true, decide_eq_true_eq]
  constructor
  · rintro ⟨⟨⟨⟨⟨hperiod, hevents⟩, hmax⟩, hsteps⟩, hsub⟩, hsup⟩
    exact ⟨hperiod, hevents, hmax, hsteps, fun f => ⟨hsub f, hsup f⟩⟩
  · rintro ⟨hperiod, hevents, hmax, hsteps, hmem⟩
    exact ⟨⟨⟨⟨⟨hperiod, hevents⟩, hmax⟩, hsteps⟩, fun f => (hmem f).1⟩, fun f => (hmem f).2⟩

namespace Alike

theorem refl (b : Bucket) : b.Alike c b := ⟨rfl, rfl, rfl, rfl, fun _ => Iff.rfl⟩

theorem symm (h : a.Alike c b) : b.Alike c a :=
  ⟨h.period_eq.symm, h.events_eq.symm, h.maxPeriod_eq.symm, h.stepCount_eq.symm,
    fun f => (h.mem_iff f).symm⟩

theorem trans (h : a.Alike c b) (h' : b.Alike c d) : a.Alike c d :=
  ⟨h.period_eq.trans h'.period_eq, h.events_eq.trans h'.events_eq,
    h.maxPeriod_eq.trans h'.maxPeriod_eq, h.stepCount_eq.trans h'.stepCount_eq,
    fun f => (h.mem_iff f).trans (h'.mem_iff f)⟩

theorem channelCount_eq (hc : c.frequencies.Nodup) (h : a.Alike c b) :
    a.channelCount c = b.channelCount c :=
  ((List.perm_ext_iff_of_nodup (c.nodup_expand hc a.scope) (c.nodup_expand hc b.scope)).2
    h.mem_iff).length_eq

end Alike

end Bucket

namespace Schedule

/-- The schedules have the same settings, and their buckets are alike one by one. -/
structure Alike (c : Catalog) (s t : Schedule) : Prop where
  basePeriod_eq : s.basePeriod = t.basePeriod
  maxApPerScan_eq : s.maxApPerScan = t.maxApPerScan
  reportThreshold_eq : s.reportThreshold = t.reportThreshold
  buckets : List.Forall₂ (Bucket.Alike c) s.buckets.toList t.buckets.toList

variable {s t u : Schedule}

theorem isEquivalent_iff : s.isEquivalent t c = true ↔ s.Alike c t := by
  -- pairing the buckets up stops with the shorter list, so the counts are needed for a pair each
  have hbuckets : List.Forall₂ (Bucket.Alike c) s.buckets.toList t.buckets.toList ↔
      s.bucketCount = t.bucketCount ∧
        ∀ p ∈ s.buckets.toList.zip t.buckets.toList, p.1.isEquivalent p.2 c = true := by
    simp only [List.forall₂_iff_zip, Bucket.isEquivalent_iff, Prod.forall]
    rfl
  simp only [isEquivalent, Bool.and_eq_true, beq_iff_eq, List.all_eq_true]
  constructor
  · rintro ⟨⟨⟨⟨hbase, hap⟩, hthreshold⟩, hcount⟩, hall⟩
    exact ⟨hbase, hap, hthreshold, hbuckets.2 ⟨hcount, hall⟩⟩
  · rintro ⟨hbase, hap, hthreshold, h⟩
    obtain ⟨hcount, hall⟩ := hbuckets.1 h
    exact ⟨⟨⟨⟨hbase, hap⟩, hthreshold⟩, hcount⟩, hall⟩

namespace Alike

theorem refl (s : Schedule) : s.Alike c s :=
  ⟨rfl, rfl, rfl, List.forall₂_same.2 fun b _ => .refl b⟩

theorem symm (h : s.Alike c t) : t.Alike c s :=
  ⟨h.basePeriod_eq.symm, h.maxApPerScan_eq.symm, h.reportThreshold_eq.symm,
    (h.buckets.imp fun _ _ => Bucket.Alike.symm).flip⟩

theorem trans_buckets : ∀ {as bs ds : List Bucket}, List.Forall₂ (Bucket.Alike c) as bs →
    List.Forall₂ (Bucket.Alike c) bs ds → List.Forall₂ (Bucket.Alike c) as ds
  | _, _, _, .nil, .nil => .nil
  | _, _, _, .cons h hs, .cons h' hs' => .cons (h.trans h') (trans_buckets hs hs')

theorem trans (h : s.Alike c t) (h' : t.Alike c u) : s.Alike c u :=
  ⟨h.basePeriod_eq.trans h'.basePeriod_eq, h.maxApPerScan_eq.trans h'.maxApPerScan_eq,
    h.reportThreshold_eq.trans h'.reportThreshold_eq, trans_buckets h.buckets h'.buckets⟩

/-- What is alike of alike buckets is the same list for alike schedules. -/
theorem map_eq {α : Type} {f : Bucket → α} (h : s.Alike c t)
    (hf : ∀ a b, a.Alike c b → f a = f b) : s.buckets.toList.map f = t.buckets.toList.map f := by
  rw [← List.forall₂_eq_eq_eq, List.forall₂_map_left_iff, List.forall₂_map_right_iff]
  exact h.buckets.imp hf

theorem any_eq {p : Bucket → Bool} (h : s.Alike c t) (hp : ∀ a b, a.Alike c b → p a = p b) :
    s.buckets.toList.any p = t.buckets.toList.any p := by
  have hmap := congrArg (fun bs => bs.any id) (h.map_eq hp)
  simpa only [List.any_map, Function.id_comp] using hmap

theorem coversAt_eq (h : s.Alike c t) (f : Frequency) (period : Millis) :
    s.coversAt c f period = t.coversAt c f period :=
  h.any_eq fun a b hab => by simp only [hab.period_eq, hab.mem_iff]

theorem mem_flatMap_iff (h : s.Alike c t) (f : Frequency) :
    f ∈ s.buckets.toList.flatMap (·.frequencies c) ↔
      f ∈ t.buckets.toList.flatMap (·.frequencies c) := by
  have hany := h.any_eq (p := fun b => f ∈ b.frequencies c) fun a b hab => by
    simp only [hab.mem_iff]
  simpa only [List.mem_flatMap, List.any_eq_true, decide_eq_true_eq] using Bool.eq_iff_iff.1 hany

theorem coveredFrequencies_eq (h : s.Alike c t) :
    s.coveredFrequencies c = t.coveredFrequencies c := by
  have hperm : (ChannelSet.ofList (s.buckets.toList.flatMap (·.frequencies c))).toList.Perm
      (ChannelSet.ofList (t.buckets.toList.flatMap (·.frequencies c))).toList := by
    rw [List.perm_ext_iff_of_nodup (ChannelSet.nodup _) (ChannelSet.nodup _)]
    intro f
    rw [← ChannelSet.mem_def, ← ChannelSet.mem_def, ChannelSet.mem_ofList, ChannelSet.mem_ofList]
    exact h.mem_flatMap_iff f
  have hsorted (fs : List Frequency) :
      (fs.mergeSort fun f g => f ≤ g).Pairwise fun f g => decide (f ≤ g) = true :=
    List.pairwise_mergeSort (by simpa using fun _ _ _ => UInt32.le_trans)
      (by simpa using UInt32.le_total) fs
  -- sorted lists with the same elements are the same
  refine List.Perm.eq_of_pairwise ?_ (hsorted _) (hsorted _)
    (((List.mergeSort_perm _ _).trans hperm).trans (List.mergeSort_perm _ _).symm)
  intro f g _ _ hfg hgf
  exact UInt32.le_antisymm (by simpa using hfg) (by simpa using hgf)

theorem periodsAligned_eq (h : s.Alike c t) : s.periodsAligned = t.periodsAligned := by
  have hperiods := h.map_eq fun _ _ => Bucket.Alike.period_eq
  have hall := congrArg (fun ps => ps.all fun p => p % t.basePeriod == 0) hperiods
  simp only [List.all_map] at hall
  rw [periodsAligned, h.basePeriod_eq]
  exact congrArg _ hall

theorem totalChannels_eq (hc : c.frequencies.Nodup) (h : s.Alike c t) :
    s.totalChannels c = t.totalChannels c := by
  have hcounts := h.map_eq fun _ _ => Bucket.Alike.channelCount_eq hc
  have hsums := congrArg (fun ns => ns.foldr (fun m n => m + n) 0) hcounts
  simp only [List.foldr_map] at hsums
  exact hsums

theorem isEquivalent_left (h : s.Alike c t) (u : Schedule) :
    s.isEquivalent u c = t.isEquivalent u c := by
  rw [Bool.eq_iff_iff, isEquivalent_iff, isEquivalent_iff]
  exact ⟨h.symm.trans, h.trans⟩

theorem isEquivalent_right (h : s.Alike c t) (u : Schedule) :
    u.isEquivalent s c = u.isEquivalent t c := by
  rw [Bool.eq_iff_iff, isEquivalent_iff, isEquivalent_iff]
  exact ⟨fun hu => hu.trans h, fun hu => hu.trans h.symm⟩

end Alike

/-- The schedule with another scope for one of its buckets. -/
def withScope (s : Schedule) (k : Nat) (scope : Scope) : Schedule :=
  { s with
    buckets :=
      ⟨s.buckets.toList.modify k fun b => { b with scope }, by
        rw [List.length_modify]
        exact s.buckets.length_le⟩ }

theorem alike_modify {scope : Scope} : ∀ (bs : List Bucket) (k : Nat),
    (∀ b ∈ bs[k]?, ∀ f, f ∈ c.expand scope ↔ f ∈ b.frequencies c) →
      List.Forall₂ (Bucket.Alike c) bs (bs.modify k fun b => { b with scope })
  | [], k, _ => by
    rw [List.modify_nil]
    exact .nil
  | b :: bs, 0, h => .cons ⟨rfl, rfl, rfl, rfl, fun f => (h b rfl f).symm⟩
      (List.forall₂_same.2 fun b _ => .refl b)
  | b :: bs, k + 1, h => .cons (.refl b) (alike_modify bs k h)

theorem alike_withScope {k : Nat} {scope : Scope}
    (h : ∀ b ∈ s.buckets.toList[k]?, ∀ f, f ∈ c.expand scope ↔ f ∈ b.frequencies c) :
    s.Alike c (s.withScope k scope) :=
  ⟨rfl, rfl, rfl, alike_modify s.buckets.toList k h⟩

/-- Under a catalog, equivalent schedules are those that are alike; this is an equivalence, does not
see how scopes are written, and leaves all that is asked about a schedule the same. -/
structure Congruence (c : Catalog) : Prop where
  alike_iff : ∀ s t : Schedule, s.isEquivalent t c = true ↔ s.Alike c t
  refl : ∀ s : Schedule, s.isEquivalent s c = true
  symm : ∀ s t : Schedule, s.isEquivalent t c = true → t.isEquivalent s c = true
  trans : ∀ s t u : Schedule, s.isEquivalent t c = true → t.isEquivalent u c = true →
    s.isEquivalent u c = true
  of_beq : ∀ s t : Schedule, (s == t) = true → s.isEquivalent t c = true
  withScope : ∀ (s : Schedule) (k : Nat) (scope : Scope),
    (∀ b ∈ s.buckets.toList[k]?, ∀ f, f ∈ c.expand scope ↔ f ∈ c.expand b.scope) →
      ∀ t : Schedule, (s.withScope k scope).isEquivalent t c = s.isEquivalent t c ∧
        t.isEquivalent (s.withScope k scope) c = t.isEquivalent s c
  coveredFrequencies_eq : ∀ s t : Schedule, s.isEquivalent t c = true →
    s.coveredFrequencies c = t.coveredFrequencies c
  coversAt_eq : ∀ s t : Schedule, s.isEquivalent t c = true →
    ∀ f period, s.coversAt c f period = t.coversAt c f period
  periodsAligned_eq : ∀ s t : Schedule, s.isEquivalent t c = true →
    s.periodsAligned = t.periodsAligned
  totalChannels_eq : (∃ config : Config, config.channelCatalog = .ok c) →
    ∀ s t : Schedule, s.isEquivalent t c = true → s.totalChannels c = t.totalChannels c

theorem congruence_isEquivalent (c : Catalog) : Congruence c where
  alike_iff _ _ := isEquivalent_iff
  refl s := isEquivalent_iff.2 (.refl s)
  symm _ _ h := isEquivalent_iff.2 (isEquivalent_iff.1 h).symm
  trans _ _ _ h h' := isEquivalent_iff.2 ((isEquivalent_iff.1 h).trans (isEquivalent_iff.1 h'))
  of_beq s t h := by
    rw [← eq_of_beq h]
    exact isEquivalent_iff.2 (.refl s)
  withScope s k scope h t :=
    have halike := (alike_withScope h).symm
    ⟨halike.isEquivalent_left t, halike.isEquivalent_right t⟩
  coveredFrequencies_eq _ _ h := (isEquivalent_iff.1 h).coveredFrequencies_eq
  coversAt_eq _ _ h := (isEquivalent_iff.1 h).coversAt_eq
  periodsAligned_eq _ _ h := (isEquivalent_iff.1 h).periodsAligned_eq
  totalChannels_eq hconfig _ _ h := by
    obtain ⟨config, hc⟩ := hconfig
    exact (isEquivalent_iff.1 h).totalChannels_eq (Config.nodup_of_channelCatalog hc)

/-- A catalog that repeats a frequency counts it twice in a band and once in a list. -/
example :
    let c : Catalog := ⟨[2412, 2412], [], []⟩
    let s : Schedule := ⟨10000, .ofList [⟨10000, .band ⟨1⟩, ⟨1⟩, 0, 0⟩], 32, 10⟩
    let t := s.withScope 0 (.channels [2412])
    s.isEquivalent t c = true ∧ s.totalChannels c = 2 ∧ t.totalChannels c = 1 := by
  decide

end Schedule

end RadioScan
