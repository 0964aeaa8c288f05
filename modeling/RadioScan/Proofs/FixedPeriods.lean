import RadioScan.Proofs.Placement

/-!
# Fixed periods stay fixed

A bucket backs off only if every request placed in it does, along the curve of one of them with the
ceiling moved up to the bucket's period if it has to be. A request with a fixed period never rides
a curve (`keepsFixed_update`).
-/

namespace RadioScan

namespace Plan

variable {catalog : Catalog} {rs : List Request} {c : Candidate}

theorem maxPeriod_ne_zero_of_isExponential {r : Request} (h : r.isExponential = true) :
    r.maxPeriod ≠ 0 := by
  simp only [Request.isExponential, Bool.and_eq_true, bne_iff_ne] at h
  exact h.1

theorem toBucket_of_fixed (catalog : Catalog) (h : c.backoff? = none) :
    (toBucket catalog c).maxPeriod = 0 ∧ (toBucket catalog c).stepCount = 0 := by
  simp [toBucket, h]

theorem toBucket_of_curve (catalog : Catalog) {curve : Backoff} (h : c.backoff? = some curve) :
    (toBucket catalog c).maxPeriod = max curve.maxPeriod c.period ∧
      (toBucket catalog c).stepCount = curve.stepCount := by
  simp [toBucket, h]

theorem max_ne_zero {p : Millis} (q : Millis) (h : p ≠ 0) : max p q ≠ 0 := by
  intro hmax
  have hle := Millis.left_le_max p q
  rw [hmax] at hle
  exact h (UInt32.le_zero_iff.1 hle)

/-- A bucket has no ceiling exactly when some request that it serves has a fixed period. -/
theorem maxPeriod_eq_zero_iff (h : Serves catalog rs c) :
    (toBucket catalog c).maxPeriod = 0 ↔ ∃ r ∈ c.requests rs, r.isExponential = false := by
  cases hb : c.backoff? with
  | none => exact ⟨fun _ => h.fixed hb, fun _ => (toBucket_of_fixed catalog hb).1⟩
  | some curve =>
    obtain ⟨hall, r, hr, rfl⟩ := h.curve curve hb
    have hmax := max_ne_zero c.period (maxPeriod_ne_zero_of_isExponential (hall r hr))
    rw [(toBucket_of_curve catalog hb).1]
    refine ⟨fun hzero => absurd hzero hmax, ?_⟩
    rintro ⟨q, hq, hfixed⟩
    rw [hall q hq] at hfixed
    cases hfixed

theorem stepCount_eq_zero_of_maxPeriod (h : Serves catalog rs c)
    (hzero : (toBucket catalog c).maxPeriod = 0) : (toBucket catalog c).stepCount = 0 := by
  cases hb : c.backoff? with
  | none => exact (toBucket_of_fixed catalog hb).2
  | some curve =>
    obtain ⟨r, hr, hfixed⟩ := (maxPeriod_eq_zero_iff h).1 hzero
    rw [(h.curve curve hb).1 r hr] at hfixed
    cases hfixed

theorem exists_curve_of_maxPeriod (h : Serves catalog rs c)
    (hne : (toBucket catalog c).maxPeriod ≠ 0) :
    (∀ r ∈ c.requests rs, r.isExponential = true) ∧
      ∃ r ∈ c.requests rs, (toBucket catalog c).stepCount = r.stepCount ∧
        (toBucket catalog c).maxPeriod = max r.maxPeriod (toBucket catalog c).period := by
  cases hb : c.backoff? with
  | none => exact absurd (toBucket_of_fixed catalog hb).1 hne
  | some curve =>
    obtain ⟨hall, r, hr, rfl⟩ := h.curve curve hb
    obtain ⟨hmax, hstep⟩ := toBucket_of_curve catalog hb
    exact ⟨hall, r, hr, hstep, hmax⟩

end Plan

namespace Scheduler

open Plan

/-- How the curves of a scheduler that was just updated follow from the requests. -/
structure KeepsFixed (s : Scheduler) (requests : List Request) : Prop where
  maxPeriod_eq_zero_iff : ∀ (k : Nat) (b : Bucket), s.schedule.buckets.toList[k]? = some b →
    (b.maxPeriod = 0 ↔ ∃ r ∈ s.served requests k, r.isExponential = false)
  stepCount_eq_zero : ∀ (k : Nat) (b : Bucket), s.schedule.buckets.toList[k]? = some b →
    b.maxPeriod = 0 → b.stepCount = 0
  exists_curve : ∀ (k : Nat) (b : Bucket), s.schedule.buckets.toList[k]? = some b →
    b.maxPeriod ≠ 0 → (∀ r ∈ s.served requests k, r.isExponential = true) ∧
      ∃ r ∈ s.served requests k,
        b.stepCount = r.stepCount ∧ b.maxPeriod = max r.maxPeriod b.period

theorem keepsFixed_update (catalog : Catalog) (ops : List Operation) (requests : List Request) :
    (((ofCatalog catalog).run ops).update requests).KeepsFixed requests := by
  have h := inRange_run catalog ops
  generalize (ofCatalog catalog).run ops = s at h
  constructor
  · intro k b hb
    obtain ⟨c, hserves, rfl, hperm⟩ := exists_candidate_of_bucket h hb
    simpa only [hperm.mem_iff] using maxPeriod_eq_zero_iff hserves
  · intro k b hb
    obtain ⟨c, hserves, rfl, -⟩ := exists_candidate_of_bucket h hb
    exact stepCount_eq_zero_of_maxPeriod hserves
  · intro k b hb hne
    obtain ⟨c, hserves, rfl, hperm⟩ := exists_candidate_of_bucket h hb
    simpa only [hperm.mem_iff] using exists_curve_of_maxPeriod hserves hne

end Scheduler

end RadioScan
