import RadioScan.Proofs.Alignment
import RadioScan.Proofs.Members
import RadioScan.Proofs.SchedulerRun

/-!
# From candidates to buckets

Alignment changes periods only and sorting the order only, so the arranged candidates serve their
members as the planned ones did (`serves_of_mem_arranged`). A request is placed in the one bucket
whose candidate has it as a member (`bucketIndex?_update`), and so the requests placed in a bucket
are those that its candidate serves, in some order (`served_perm`).
-/

namespace RadioScan

namespace Plan

variable {s : Settings} {rs : List Request} {c : Candidate} {cs : List Candidate} {base : Millis}

theorem alignTo_eq (base : Millis) (c : Candidate) :
    alignTo base c = { c with period := (alignTo base c).period } := by
  unfold alignTo
  split_ifs <;> rfl

theorem alignTo_members (base : Millis) (c : Candidate) : (alignTo base c).members = c.members := by
  rw [alignTo_eq]

theorem alignTo_channels (base : Millis) (c : Candidate) :
    (alignTo base c).channels = c.channels := by
  rw [alignTo_eq]

theorem Serves.align {catalog : Catalog} (h : Serves catalog rs c) (base : Millis) :
    Serves catalog rs (alignTo base c) := by
  rw [alignTo_eq]
  exact ⟨h.members_ne_nil, h.schedulable, h.events_eq, h.channels_pos, h.wanted, h.fixed, h.curve⟩

theorem arranged_perm :
    (arranged s rs).Perm ((candidates s rs).map (alignTo (baseFor s rs))) :=
  List.mergeSort_perm _ _

theorem arranged_sorted : (arranged s rs).Pairwise fun a b => a.period ≤ b.period := by
  have hsorted : (arranged s rs).Pairwise fun a b => decide (a.looseness ≤ b.looseness) = true := by
    refine List.pairwise_mergeSort (fun a b c hab hbc => ?_) (fun a b => ?_) _
    · rw [decide_eq_true_eq] at hab hbc ⊢
      exact Std.le_trans hab hbc
    · rw [Bool.or_eq_true, decide_eq_true_eq, decide_eq_true_eq]
      exact Std.le_total
  refine hsorted.imp fun h => ?_
  simp only [decide_eq_true_eq, Candidate.looseness, Key.le_def] at h
  rw [UInt32.le_iff_toNat_le]
  omega

theorem exists_of_mem_arranged (h : c ∈ arranged s rs) :
    ∃ d ∈ candidates s rs, alignTo (baseFor s rs) d = c :=
  List.mem_map.1 (arranged_perm.mem_iff.1 h)

theorem length_arranged : (arranged s rs).length = (candidates s rs).length := by
  rw [arranged_perm.length_eq, List.length_map]

theorem memberList_arranged : (memberList (arranged s rs)).Perm (memberList (candidates s rs)) := by
  refine (memberList_perm arranged_perm).trans (List.Perm.of_eq ?_)
  simp only [memberList, List.flatMap_map, alignTo_members]

theorem totalChannels_arranged :
    totalChannels (arranged s rs) = totalChannels (candidates s rs) := by
  rw [totalChannels_perm arranged_perm]
  simp only [totalChannels, List.foldr_map, alignTo_channels]

theorem serves_of_mem_arranged (h : c ∈ arranged s rs) : Serves s.catalog rs c := by
  obtain ⟨d, hd, rfl⟩ := exists_of_mem_arranged h
  exact (serves_of_mem_candidates hd).align _

theorem nodup_memberList_arranged : (memberList (arranged s rs)).Nodup :=
  memberList_arranged.nodup_iff.2 nodup_memberList_candidates

theorem findIdx?_arranged {i k : Nat} :
    ((arranged s rs).findIdx? fun c => i ∈ c.members) = some k ↔
      ∃ c, (arranged s rs)[k]? = some c ∧ i ∈ c.members := by
  rw [List.findIdx?_eq_some_iff_getElem]
  constructor
  · rintro ⟨hk, hmem, -⟩
    exact ⟨_, List.getElem?_eq_getElem hk, by simpa using hmem⟩
  · rintro ⟨c, hk, hmem⟩
    obtain ⟨hlt, rfl⟩ := List.getElem?_eq_some_iff.1 hk
    -- an earlier candidate with the member would be the same one
    refine ⟨hlt, by simpa using hmem, fun j hj hjmem => ?_⟩
    have hjmem : i ∈ (arranged s rs)[j].members := by simpa using hjmem
    exact Nat.ne_of_lt hj (eq_of_mem_members nodup_memberList_arranged
      (List.getElem?_eq_getElem (Nat.lt_trans hj hlt)) hk hjmem hmem)

end Plan

namespace Scheduler

open Plan

/-- The numbers of the requests of the last update that are placed in a bucket. -/
def placedIn (s : Scheduler) (k : Nat) : List Nat :=
  (List.range s.bucketOf.length).filter fun i => s.bucketIndex? i == some k

/-- The requests of the last update that are placed in a bucket. -/
def served (s : Scheduler) (requests : List Request) (k : Nat) : List Request :=
  (s.placedIn k).filterMap (requests[·]?)

variable {s : Scheduler} {rs : List Request} {c : Candidate} {i k : Nat}

theorem length_bucketOf_update : (s.update rs).bucketOf.length = rs.length := by
  simp [update, compute, assemble]

/-- A request is placed in the bucket of the candidate that it is a member of. -/
theorem bucketIndex?_update : (s.update rs).bucketIndex? i = some k ↔
    ∃ c, (arranged s.settings rs)[k]? = some c ∧ i ∈ c.members := by
  have hindex : (s.update rs).bucketIndex? i = if i < rs.length then
      (arranged s.settings rs).findIdx? fun c => i ∈ c.members else none := by
    simp only [bucketIndex?, update, compute, assemble, List.getElem?_map]
    split_ifs with h
    · rw [List.getElem?_range h]
      rfl
    · rw [List.getElem?_eq_none (by simpa using h)]
      rfl
  rw [hindex]
  split_ifs with h
  · exact findIdx?_arranged
  · simp only [false_iff]
    rintro ⟨c, hc, hmem⟩
    obtain ⟨r, hr, -⟩ := (serves_of_mem_arranged (List.mem_of_getElem? hc)).schedulable i hmem
    exact h (List.getElem?_eq_some_iff.1 hr).1

theorem unplaced_update {r : Request} (hr : rs[i]? = some r)
    (hs : r.isSchedulable s.settings.catalog = false) :
    (s.update rs).bucketIndex? i = none := by
  rw [Option.eq_none_iff_forall_ne_some]
  intro k hk
  obtain ⟨c, hc, hi⟩ := bucketIndex?_update.1 hk
  obtain ⟨q, hq, hsched⟩ := (serves_of_mem_arranged (List.mem_of_getElem? hc)).schedulable i hi
  rw [hr] at hq
  cases hq
  rw [hs] at hsched
  cases hsched

theorem placedIn_perm (hc : (arranged s.settings rs)[k]? = some c) :
    ((s.update rs).placedIn k).Perm c.members := by
  have hmem : c ∈ arranged s.settings rs := List.mem_of_getElem? hc
  have hnodup : c.members.Nodup := (List.nodup_flatMap.1 nodup_memberList_arranged).1 c hmem
  refine (List.perm_ext_iff_of_nodup (List.nodup_range.filter _) hnodup).2 fun i => ?_
  rw [List.mem_filter, List.mem_range, beq_iff_eq, bucketIndex?_update, length_bucketOf_update]
  constructor
  · rintro ⟨-, d, hd, hi⟩
    rw [hc] at hd
    cases hd
    exact hi
  · intro hi
    obtain ⟨r, hr, -⟩ := (serves_of_mem_arranged hmem).schedulable i hi
    exact ⟨(List.getElem?_eq_some_iff.1 hr).1, c, hc, hi⟩

theorem served_perm (hc : (arranged s.settings rs)[k]? = some c) :
    ((s.update rs).served rs k).Perm (c.requests rs) :=
  (placedIn_perm hc).filterMap _

/-! ## The buckets of an update -/

theorem length_arranged_le (h : s.limits.InRange) :
    (arranged s.settings rs).length ≤ s.limits.maxBuckets.toNat := by
  rw [length_arranged]
  exact length_candidates_le h.one_le_maxBuckets

/-- The buckets are the arranged candidates; none is cut off. -/
theorem buckets_update (h : s.limits.InRange) : (s.update rs).schedule.buckets.toList
    = (arranged s.settings rs).map (toBucket s.settings.catalog) := by
  refine List.take_of_length_le ?_
  rw [List.length_map]
  exact Nat.le_trans (length_arranged_le h) h.maxBuckets_le

theorem bucketCount_update (h : s.limits.InRange) :
    (s.update rs).schedule.bucketCount = (arranged s.settings rs).length := by
  rw [Schedule.bucketCount, buckets_update h, List.length_map]

theorem getElem?_buckets_update (h : s.limits.InRange) {b : Bucket} :
    (s.update rs).schedule.buckets.toList[k]? = some b ↔
      ∃ c, (arranged s.settings rs)[k]? = some c ∧ toBucket s.settings.catalog c = b := by
  rw [buckets_update h, List.getElem?_map, Option.map_eq_some_iff]

theorem exists_of_mem_buckets_update (h : s.limits.InRange) {b : Bucket}
    (hb : b ∈ (s.update rs).schedule.buckets.toList) :
    ∃ c ∈ arranged s.settings rs, toBucket s.settings.catalog c = b := by
  rw [buckets_update h] at hb
  exact List.mem_map.1 hb

/-- A bucket and the requests placed in it are those of one candidate. -/
theorem exists_candidate_of_bucket (h : s.limits.InRange) {b : Bucket}
    (hb : (s.update rs).schedule.buckets.toList[k]? = some b) :
    ∃ c, Serves s.settings.catalog rs c ∧ toBucket s.settings.catalog c = b ∧
      ((s.update rs).served rs k).Perm (c.requests rs) := by
  obtain ⟨c, hc, rfl⟩ := (getElem?_buckets_update h).1 hb
  exact ⟨c, serves_of_mem_arranged (List.mem_of_getElem? hc), rfl, served_perm hc⟩

theorem channelCount_toBucket (catalog : Catalog) (c : Candidate) :
    (toBucket catalog c).channelCount catalog = c.channels.size :=
  ChannelSet.length_expand_toScope c.channels catalog

theorem totalChannels_update (h : s.limits.InRange) :
    (s.update rs).schedule.totalChannels s.settings.catalog
      = totalChannels (candidates s.settings rs) := by
  rw [← totalChannels_arranged, Schedule.totalChannels, buckets_update h, List.foldr_map]
  simp only [channelCount_toBucket]
  rfl

end Scheduler

end RadioScan
