import RadioScan.Proofs.Placement

/-!
# Buckets keep time with the base

The controller counts in base periods, so the base of a schedule is above zero and every bucket's
period is a multiple of it; a period that backs off starts at or below its ceiling. The periods are
words of 32 bits, and aligning them with words alone comes to the same schedule: nothing is divided
by zero, and no sum or product is too large (`keepsTime_update`).
-/

namespace RadioScan

namespace Plan

variable {s : Settings} {rs : List Request} {c : Candidate} {base : Millis}

/-- Computes the schedule for a list of requests, with the periods aligned in words. There is none
if some step of that has no result. -/
def compute? (s : Settings) (requests : List Request) : Option Placement := do
  let base := baseFor s requests
  let aligned ← (candidates s requests).mapM (alignTo? base)
  return assemble s requests base (aligned.mergeSort fun a b => a.looseness ≤ b.looseness)

theorem mapM_alignTo? (hbase : 0 < base) (cs : List Candidate) :
    cs.mapM (alignTo? base) = some (cs.map (alignTo base)) := by
  have halign : alignTo? base = fun c => some (alignTo base c) :=
    funext fun c => alignTo?_eq_some c hbase
  rw [halign]
  exact List.mapM_pure

theorem baseFor_pos (h : s.limits.InRange) : 0 < baseFor s rs :=
  basePeriod_pos h.one_le_idlePeriod fun _ => timed_of_mem_candidates

/-- The words of 32 bits suffice. -/
theorem compute?_eq_some (h : s.limits.InRange) : compute? s rs = some (compute s rs) := by
  unfold compute?
  simp only [mapM_alignTo? (baseFor_pos h), Option.bind_eq_bind, Option.bind_some]
  rfl

theorem period_pos_of_mem_arranged (h : s.limits.InRange) (hc : c ∈ arranged s rs) :
    0 < c.period := by
  obtain ⟨d, hd, rfl⟩ := exists_of_mem_arranged hc
  exact alignTo_pos (baseFor_pos h) (timed_of_mem_candidates hd)

theorem baseFor_dvd (hc : c ∈ arranged s rs) : (baseFor s rs).toNat ∣ c.period.toNat := by
  obtain ⟨d, hd, rfl⟩ := exists_of_mem_arranged hc
  exact dvd_alignTo _ (fun _ => timed_of_mem_candidates) hd

theorem period_le_maxPeriod_toBucket (catalog : Catalog) (c : Candidate)
    (h : (toBucket catalog c).maxPeriod ≠ 0) : c.period ≤ (toBucket catalog c).maxPeriod := by
  unfold toBucket at h ⊢
  cases hb : c.backoff? with
  | none =>
    rw [hb] at h
    exact absurd rfl h
  | some curve => exact Millis.right_le_max _ _

end Plan

namespace Scheduler

open Plan

/-- How the periods of a scheduler that was just updated relate to each other. -/
structure KeepsTime (s : Scheduler) (requests : List Request) : Prop where
  basePeriod_pos : 0 < s.schedule.basePeriod
  period_pos : ∀ b ∈ s.schedule.buckets.toList, 0 < b.period
  basePeriod_dvd : ∀ b ∈ s.schedule.buckets.toList,
    s.schedule.basePeriod.toNat ∣ b.period.toNat
  basePeriod_le : ∀ b ∈ s.schedule.buckets.toList, s.schedule.basePeriod ≤ b.period
  period_le_maxPeriod : ∀ b ∈ s.schedule.buckets.toList,
    b.maxPeriod ≠ 0 → b.period ≤ b.maxPeriod
  periodsAligned : s.schedule.periodsAligned = true
  /-- No step of the alignment divides by zero or leaves the words. -/
  computes : compute? s.settings requests = some ⟨s.schedule, s.bucketOf⟩

variable {s : Scheduler} {rs : List Request} {b : Bucket}

theorem basePeriod_dvd_update (h : s.limits.InRange)
    (hb : b ∈ (s.update rs).schedule.buckets.toList) :
    (s.update rs).schedule.basePeriod.toNat ∣ b.period.toNat := by
  obtain ⟨c, hc, rfl⟩ := exists_of_mem_buckets_update h hb
  exact baseFor_dvd hc

theorem period_pos_update (h : s.limits.InRange)
    (hb : b ∈ (s.update rs).schedule.buckets.toList) : 0 < b.period := by
  obtain ⟨c, hc, rfl⟩ := exists_of_mem_buckets_update h hb
  exact period_pos_of_mem_arranged h hc

theorem basePeriod_le_update (h : s.limits.InRange)
    (hb : b ∈ (s.update rs).schedule.buckets.toList) :
    (s.update rs).schedule.basePeriod ≤ b.period := by
  have hpos := UInt32.lt_iff_toNat_lt.1 (period_pos_update h hb)
  rw [UInt32.le_iff_toNat_le]
  exact Nat.le_of_dvd hpos (basePeriod_dvd_update h hb)

theorem periodsAligned_update (h : s.limits.InRange) :
    (s.update rs).schedule.periodsAligned = true := by
  rw [Schedule.periodsAligned, Bool.and_eq_true, decide_eq_true_eq, List.all_eq_true]
  refine ⟨baseFor_pos h, fun b hb => ?_⟩
  rw [beq_iff_eq, ← UInt32.toNat_inj, UInt32.toNat_mod]
  exact Nat.mod_eq_zero_of_dvd (basePeriod_dvd_update h hb)

theorem keepsTime_update (catalog : Catalog) (ops : List Operation) (requests : List Request) :
    (((ofCatalog catalog).run ops).update requests).KeepsTime requests := by
  have h := inRange_run catalog ops
  generalize (ofCatalog catalog).run ops = s at h
  exact {
    basePeriod_pos := baseFor_pos h
    period_pos := fun _ => period_pos_update h
    basePeriod_dvd := fun _ => basePeriod_dvd_update h
    basePeriod_le := fun _ => basePeriod_le_update h
    period_le_maxPeriod := by
      intro b hb hmax
      obtain ⟨c, -, rfl⟩ := exists_of_mem_buckets_update h hb
      exact period_le_maxPeriod_toBucket s.settings.catalog c hmax
    periodsAligned := periodsAligned_update h
    computes := compute?_eq_some h }

end Scheduler

end RadioScan
