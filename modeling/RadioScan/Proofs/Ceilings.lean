import RadioScan.Proofs.Placement
import Mathlib.Order.Bounds.Defs

/-!
# Schedules stay below the ceilings

After any calls on a scheduler, the schedule for any requests has no more buckets and no more
channels than the limits allow, and the limits no more than the hardware does, so that none of the
planned buckets is cut off. Every bucket scans something for somebody, the tighter ones come first,
and there are none only when no request can be scheduled (`withinCeilings_update`).
-/

namespace RadioScan

/-- A limit, and whatever the requests that can be scheduled prefer to it. -/
def preferred (catalog : Catalog) (requests : List Request) (preference : Request → UInt32)
    (limit : UInt32) : Set UInt32 :=
  {n | n = limit ∨ n ≠ 0 ∧ ∃ r ∈ requests, r.isSchedulable catalog = true ∧ preference r = n}

namespace Plan

theorem isLeast_leastPreference (preferences : List UInt32) (limit : UInt32) :
    IsLeast {n | n = limit ∨ n ≠ 0 ∧ n ∈ preferences} (leastPreference preferences limit) := by
  unfold leastPreference
  split
  · next v hv =>
    obtain ⟨hmem, hle⟩ := List.min?_eq_some_iff.1 hv
    rw [List.mem_filter, decide_eq_true_eq] at hmem
    have hle : ∀ n, n ≠ 0 ∧ n ∈ preferences → v ≤ n := fun n hn =>
      hle n (List.mem_filter.2 ⟨hn.2, by simpa using UInt32.pos_iff_ne_zero.2 hn.1⟩)
    change IsLeast _ (if v ≤ limit then v else limit)
    split_ifs with h
    · refine ⟨Or.inr ⟨UInt32.pos_iff_ne_zero.1 hmem.2, hmem.1⟩, ?_⟩
      rintro n (rfl | hn)
      · exact h
      · exact hle n hn
    · refine ⟨Or.inl rfl, ?_⟩
      rintro n (rfl | hn)
      · exact UInt32.le_refl _
      · exact UInt32.le_trans (UInt32.le_of_lt (UInt32.not_le.1 h)) (hle n hn)
  · next hnone =>
    rw [List.min?_eq_none_iff, List.filter_eq_nil_iff] at hnone
    refine ⟨Or.inl rfl, ?_⟩
    rintro n (rfl | hn)
    · exact UInt32.le_refl _
    · exact absurd (UInt32.pos_iff_ne_zero.2 hn.1) (by simpa using hnone n hn.2)

theorem isLeast_preferred (catalog : Catalog) (requests : List Request)
    (preference : Request → UInt32) (limit : UInt32) :
    IsLeast (preferred catalog requests preference limit) <|
      leastPreference ((requests.filter fun r => r.isSchedulable catalog).map preference)
        limit := by
  have h := isLeast_leastPreference
    ((requests.filter fun r => r.isSchedulable catalog).map preference) limit
  simpa only [preferred, List.mem_map, List.mem_filter, and_assoc] using h

theorem mem_range_of_isLeast {catalog : Catalog} {requests : List Request}
    {preference : Request → UInt32} {limit n : UInt32} (hlimit : 1 ≤ limit)
    (h : IsLeast (preferred catalog requests preference limit) n) : 1 ≤ n ∧ n ≤ limit := by
  refine ⟨?_, h.2 (Or.inl rfl)⟩
  rcases h.1 with rfl | ⟨hne, -⟩
  · exact hlimit
  · rw [UInt32.le_iff_toNat_le]
    exact UInt32.lt_iff_toNat_lt.1 (UInt32.pos_iff_ne_zero.2 hne)

end Plan

namespace Scheduler

open Plan

/-- What the limits of a scheduler that was just updated promise about its schedule. -/
structure WithinCeilings (s : Scheduler) (catalog : Catalog) (requests : List Request) : Prop where
  bucketCount_le : s.schedule.bucketCount ≤ s.limits.maxBuckets.toNat
  maxBuckets_le : s.limits.maxBuckets.toNat ≤ Hardware.maxBuckets
  /-- The hardware has room for every planned bucket. -/
  bucketCount_eq : s.schedule.bucketCount = (candidates s.settings requests).length
  totalChannels_le : s.schedule.totalChannels catalog ≤ s.limits.maxChannels.toNat
  maxChannels_le : s.limits.maxChannels.toNat ≤ Hardware.maxChannels
  maxApPerScan_isLeast : IsLeast
    (preferred catalog requests Request.bssidsPerScan s.limits.maxApPerScan)
    s.schedule.maxApPerScan
  maxApPerScan_mem : 1 ≤ s.schedule.maxApPerScan ∧ s.schedule.maxApPerScan ≤ s.limits.maxApPerScan
  reportThreshold_isLeast : IsLeast
    (preferred catalog requests Request.maxScansToCache s.limits.maxBatch)
    s.schedule.reportThreshold
  reportThreshold_mem :
    1 ≤ s.schedule.reportThreshold ∧ s.schedule.reportThreshold ≤ s.limits.maxBatch
  tighter_first : s.schedule.buckets.toList.Pairwise fun a b => a.period ≤ b.period
  frequencies_ne_nil : ∀ b ∈ s.schedule.buckets.toList, b.frequencies catalog ≠ []
  exists_request : ∀ k < s.schedule.bucketCount, ∃ i < requests.length, s.bucketIndex? i = some k
  bucketIndex_lt : ∀ i k, s.bucketIndex? i = some k → k < s.schedule.bucketCount
  bucketCount_eq_zero_iff :
    s.schedule.bucketCount = 0 ↔ ∀ r ∈ requests, r.isSchedulable catalog = false

variable {s : Scheduler} {rs : List Request}

theorem tighter_first_update (h : s.limits.InRange) :
    (s.update rs).schedule.buckets.toList.Pairwise fun a b => a.period ≤ b.period := by
  rw [buckets_update h, List.pairwise_map]
  exact arranged_sorted

theorem frequencies_ne_nil_update (h : s.limits.InRange) :
    ∀ b ∈ (s.update rs).schedule.buckets.toList, b.frequencies s.settings.catalog ≠ [] := by
  intro b hb
  obtain ⟨c, hc, rfl⟩ := exists_of_mem_buckets_update h hb
  have hcount := channelCount_toBucket s.settings.catalog c
  have hpos := (serves_of_mem_arranged hc).channels_pos
  intro hnil
  rw [Bucket.channelCount, hnil, List.length_nil] at hcount
  omega

theorem exists_request_update (h : s.limits.InRange) :
    ∀ k < (s.update rs).schedule.bucketCount,
      ∃ i < rs.length, (s.update rs).bucketIndex? i = some k := by
  intro k hk
  rw [bucketCount_update h] at hk
  have hget := List.getElem?_eq_getElem hk
  have hserves := serves_of_mem_arranged (List.getElem_mem hk)
  obtain ⟨i, hi⟩ := List.exists_mem_of_ne_nil _ hserves.members_ne_nil
  obtain ⟨r, hr, -⟩ := hserves.schedulable i hi
  exact ⟨i, (List.getElem?_eq_some_iff.1 hr).1, bucketIndex?_update.2 ⟨_, hget, hi⟩⟩

theorem bucketIndex_lt_update (h : s.limits.InRange) {i k : Nat}
    (hk : (s.update rs).bucketIndex? i = some k) : k < (s.update rs).schedule.bucketCount := by
  rw [bucketCount_update h]
  obtain ⟨c, hc, -⟩ := bucketIndex?_update.1 hk
  exact (List.getElem?_eq_some_iff.1 hc).1

theorem bucketCount_eq_zero_iff_update (h : s.limits.InRange) :
    (s.update rs).schedule.bucketCount = 0
      ↔ ∀ r ∈ rs, r.isSchedulable s.settings.catalog = false := by
  rw [bucketCount_update h, length_arranged, List.length_eq_zero_iff,
    candidates_eq_nil_iff h.one_le_maxChannels]

theorem withinCeilings_update (catalog : Catalog) (ops : List Operation)
    (requests : List Request) :
    (((ofCatalog catalog).run ops).update requests).WithinCeilings catalog requests := by
  have h := inRange_run catalog ops
  have hcatalog := catalog_run catalog ops
  generalize (ofCatalog catalog).run ops = s at h hcatalog
  subst hcatalog
  have hap := isLeast_preferred s.settings.catalog requests Request.bssidsPerScan
    s.limits.maxApPerScan
  have hcache := isLeast_preferred s.settings.catalog requests Request.maxScansToCache
    s.limits.maxBatch
  exact {
    bucketCount_le := Nat.le_trans (Nat.le_of_eq (bucketCount_update h)) (length_arranged_le h)
    maxBuckets_le := h.maxBuckets_le
    bucketCount_eq := (bucketCount_update h).trans length_arranged
    totalChannels_le :=
      Nat.le_trans (Nat.le_of_eq (totalChannels_update h)) (totalChannels_candidates_le _ _)
    maxChannels_le := h.maxChannels_le
    maxApPerScan_isLeast := hap
    maxApPerScan_mem := mem_range_of_isLeast h.one_le_maxApPerScan hap
    reportThreshold_isLeast := hcache
    reportThreshold_mem := mem_range_of_isLeast h.one_le_maxBatch hcache
    tighter_first := tighter_first_update h
    frequencies_ne_nil := frequencies_ne_nil_update h
    exists_request := exists_request_update h
    bucketIndex_lt := fun _ _ => bucketIndex_lt_update h
    bucketCount_eq_zero_iff := bucketCount_eq_zero_iff_update h }

end Scheduler

end RadioScan
