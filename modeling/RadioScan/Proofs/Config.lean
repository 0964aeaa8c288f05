import RadioScan.Proofs.Ceilings

/-!
# Configured schedulers

Limits without a fault are those in the hardware's range (`fault?_eq_none_iff`), and clamping leaves
them alone. A valid configuration is taken over as it is, and the scheduler made for it is idle
(`ofConfig?_eq_ok_iff`), as an update leaves it that has nothing to schedule.
-/

namespace RadioScan

namespace Limits

variable {l : Limits}

theorem fault?_eq_none_iff : l.fault? = none ↔ l.InRange := by
  have hword : l.idlePeriod.toNat ≤ UInt32.size - 1 := Nat.le_sub_one_of_lt l.idlePeriod.toNat_lt
  simp only [fault?, ranges, List.find?_eq_none, List.forall_mem_cons, List.not_mem_nil,
    false_implies, implies_true, Bool.or_eq_true, beq_iff_eq, decide_eq_true_eq, not_or, Nat.not_lt,
    and_true]
  constructor
  · rintro ⟨hbuckets, hchannels, hbatch, hap, hidle, -⟩
    exact ⟨by omega, hbuckets.2, by omega, hchannels.2, UInt32.le_iff_toNat_le.2 (by simp; omega),
      hbatch.2, UInt32.le_iff_toNat_le.2 (by simp; omega), hap.2,
      UInt32.le_iff_toNat_le.2 (by simp; omega)⟩
  · intro h
    have hbatch := UInt32.le_iff_toNat_le.1 h.one_le_maxBatch
    have hap := UInt32.le_iff_toNat_le.1 h.one_le_maxApPerScan
    have hidle := UInt32.le_iff_toNat_le.1 h.one_le_idlePeriod
    simp only [UInt32.toNat_one] at hbatch hap hidle
    have hbuckets := h.one_le_maxBuckets
    have hchannels := h.one_le_maxChannels
    exact ⟨⟨by omega, h.maxBuckets_le⟩, ⟨by omega, h.maxChannels_le⟩, ⟨by omega, h.maxBatch_le⟩,
      ⟨by omega, h.maxApPerScan_le⟩, ⟨by omega, hword⟩⟩

theorem clamp_eq_self {value greatest : Nat} (hpos : 1 ≤ value) (hle : value ≤ greatest) :
    clamp value greatest = value := by
  unfold clamp
  omega

theorem InRange.clamped_eq (h : l.InRange) : l.clamped = l := by
  have hbatch := UInt32.le_iff_toNat_le.1 h.one_le_maxBatch
  have hap := UInt32.le_iff_toNat_le.1 h.one_le_maxApPerScan
  have hidle : max 1 l.idlePeriod = l.idlePeriod := by
    change (if 1 ≤ l.idlePeriod then l.idlePeriod else 1) = l.idlePeriod
    rw [if_pos h.one_le_idlePeriod]
  simp only [clamped, clamp_eq_self h.one_le_maxBuckets h.maxBuckets_le,
    clamp_eq_self h.one_le_maxChannels h.maxChannels_le, clamp_eq_self hbatch h.maxBatch_le,
    clamp_eq_self hap h.maxApPerScan_le, UInt64.ofNat_toNat, UInt32.ofNat_toNat, hidle]

end Limits

namespace Scheduler

open Plan

variable {s t : Scheduler} {rs : List Request}

/-- The scheduler that has nothing to do yet. -/
def ofSettings (settings : Settings) : Scheduler := ⟨settings, settings.idleSchedule, []⟩

theorem update_congr (h : s.settings = t.settings) (rs : List Request) :
    s.update rs = t.update rs := by
  simp only [update, h]

/-- When nothing can be scheduled the schedule is the idle one. -/
theorem schedule_update_of_unschedulable (h : s.limits.InRange)
    (hrs : ∀ r ∈ rs, r.isSchedulable s.settings.catalog = false) :
    (s.update rs).schedule = s.settings.idleSchedule := by
  have hnil : candidates s.settings rs = [] := (candidates_eq_nil_iff h.one_le_maxChannels).2 hrs
  have hserved : (rs.filter fun r => r.isSchedulable s.settings.catalog) = [] := by
    rw [List.filter_eq_nil_iff]
    intro r hr
    rw [hrs r hr]
    exact Bool.false_ne_true
  simp only [update, compute, arranged, baseFor, hnil, assemble, hserved, arrange, List.map_nil,
    List.mergeSort_nil]
  rfl

theorem update_nil (h : s.limits.InRange) :
    s.update [] = .ofSettings s.settings := by
  have hidle : (s.update []).schedule = s.settings.idleSchedule :=
    schedule_update_of_unschedulable h (by simp)
  rw [ofSettings, ← hidle]
  rfl

theorem setLimits_ofCatalog (catalog : Catalog) (periods : PeriodTable) (policy : Policy)
    {limits : Limits} (h : limits.InRange) :
    (((ofCatalog catalog).withPeriodTable periods).withPolicy policy).setLimits limits
      = .ofSettings ⟨catalog, periods, limits, policy⟩ := by
  unfold setLimits
  rw [h.clamped_eq]
  rfl

/-- A scheduler is made for a configuration when every part of that is valid. -/
theorem ofConfig?_eq_ok_iff {config : Config} : ofConfig? config = .ok s ↔
    config.limits.InRange ∧ ∃ catalog periods, config.channelCatalog = .ok catalog ∧
      config.periodTable = .ok periods ∧
      s = .ofSettings ⟨catalog, periods, config.limits, config.policy⟩ := by
  unfold ofConfig? Config.validate
  rw [← Limits.fault?_eq_none_iff]
  cases hlimits : config.limits.fault? with
  | some e => simp [bind, Except.bind, throw, throwThe, MonadExceptOf.throw]
  | none =>
    have hrange := Limits.fault?_eq_none_iff.1 hlimits
    cases hperiods : config.periodTable with
    | error e => simp [bind, Except.bind]
    | ok periods =>
      cases hcatalog : config.channelCatalog with
      | error e => simp [bind, Except.bind]
      | ok catalog =>
        simp only [bind, Except.bind, pure, Except.pure,
          setLimits_ofCatalog catalog periods _ hrange]
        simp [eq_comm]

end Scheduler

end RadioScan
