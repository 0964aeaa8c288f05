import RadioScan.Proofs.Config
import Mathlib.Data.Nat.Dist

/-!
# Limits and the idle schedule over a run

A scheduler refers to its limits in its idle schedule, and to the buckets of its schedule in the
places of the requests. Setters change the first while the second stay, and an update makes all of
them anew. They agree after every call nonetheless: limits are moved into their ranges when they are
set, an idle schedule follows them at once, and a setter replaces a schedule only by one with as
many buckets, that is by none for none (`Scheduler.Sound`). What the single calls do to a sound
scheduler is read off from that (`Scheduler.steady_run`).
-/

namespace RadioScan

namespace Limits

/-- Of the numbers from one to `greatest` the nearest to `value`. -/
structure IsNearest (greatest value n : Nat) : Prop where
  one_le : 1 ≤ n
  le : n ≤ greatest
  dist_le : ∀ k, 1 ≤ k → k ≤ greatest → Nat.dist n value ≤ Nat.dist k value

theorem isNearest_clamp (value : Nat) {greatest : Nat} (h : 1 ≤ greatest) :
    IsNearest greatest value (clamp value greatest) := by
  obtain ⟨hone, hle⟩ := clamp_mem value greatest h
  refine ⟨hone, hle, fun k hk hk' => ?_⟩
  unfold clamp Nat.dist
  omega

theorem isNearest_clamp32 (value : Nat) {greatest : Nat} (h : 1 ≤ greatest)
    (hword : greatest < UInt32.size) :
    IsNearest greatest value (UInt32.ofNat (clamp value greatest)).toNat := by
  rw [toNat_clamp32 value h hword]
  exact isNearest_clamp value h

theorem isNearest_clamp64 (value : Nat) {greatest : Nat} (h : 1 ≤ greatest)
    (hword : greatest < UInt64.size) :
    IsNearest greatest value (UInt64.ofNat (clamp value greatest)).toNat := by
  rw [toNat_clamp64 value h hword]
  exact isNearest_clamp value h

theorem isNearest_max (p : Millis) : IsNearest (UInt32.size - 1) p.toNat (max 1 p).toNat := by
  -- no word is above the greatest period, so the lower bound is the only one
  have hmax : (max 1 p).toNat = clamp p.toNat (UInt32.size - 1) := by
    have hword : p.toNat < UInt32.size := p.toNat_lt
    change (if 1 ≤ p then p else 1).toNat = _
    unfold clamp
    split_ifs with h <;> rw [UInt32.le_iff_toNat_le, UInt32.toNat_one] at h
    · omega
    · rw [UInt32.toNat_one]
      omega
  rw [hmax]
  exact isNearest_clamp p.toNat (by decide)

end Limits

namespace Scheduler

variable {s : Scheduler}

/-- A scheduler that has just been made, for a catalog or for a configuration. -/
inductive IsNew : Scheduler → Prop
  | ofCatalog (catalog : Catalog) : IsNew (ofCatalog catalog)
  | ofConfig {config : Config} {s : Scheduler} (h : ofConfig? config = .ok s) : IsNew s

/-! ## What holds between the calls -/

/-- The limits, the schedule and the places of the requests fit together. -/
structure Sound (s : Scheduler) : Prop where
  inRange : s.limits.InRange
  idle : s.schedule.isEmpty = true → s.schedule = s.settings.idleSchedule
  index_lt : ∀ i k, s.bucketIndex? i = some k → k < s.schedule.bucketCount

theorem isEmpty_schedule_iff : s.schedule.isEmpty = true ↔ s.schedule.bucketCount = 0 := by
  rw [Schedule.isEmpty, Schedule.bucketCount, List.isEmpty_iff, List.length_eq_zero_iff]

theorem sound_ofSettings {settings : Settings} (h : settings.limits.InRange) :
    (ofSettings settings).Sound :=
  ⟨h, fun _ => rfl, fun i k hk => by simp [bucketIndex?, ofSettings] at hk⟩

theorem IsNew.sound (h : s.IsNew) : s.Sound := by
  rcases h with catalog | h
  · have hlimits : (Settings.ofCatalog catalog).limits.InRange := Limits.inRange_standard
    exact sound_ofSettings hlimits
  · obtain ⟨hlimits, catalog, periods, -, -, rfl⟩ := ofConfig?_eq_ok_iff.1 h
    exact sound_ofSettings hlimits

theorem schedule_setLimits (h : s.schedule.isEmpty = false) (limits : Limits) :
    (s.setLimits limits).schedule = s.schedule :=
  if_neg (by simp [h])

theorem Sound.setLimits (h : s.Sound) (limits : Limits) : (s.setLimits limits).Sound := by
  have hindex : (s.setLimits limits).bucketIndex? = s.bucketIndex? := rfl
  by_cases hempty : s.schedule.isEmpty = true
  · have hschedule : (s.setLimits limits).schedule = (s.setLimits limits).settings.idleSchedule :=
      if_pos hempty
    refine ⟨Limits.inRange_clamped limits, fun _ => hschedule, fun i k hk => ?_⟩
    -- the schedule is another one now, but no request is in a bucket of the old
    have hk := h.index_lt i k (hindex ▸ hk)
    rw [isEmpty_schedule_iff.1 hempty] at hk
    exact absurd hk (Nat.not_lt_zero k)
  · have hschedule := schedule_setLimits (Bool.eq_false_iff.2 hempty) limits
    refine ⟨Limits.inRange_clamped limits, fun h => absurd (hschedule ▸ h) hempty, ?_⟩
    rw [hindex, hschedule]
    exact h.index_lt

theorem sound_update (h : s.limits.InRange) (requests : List Request) :
    (s.update requests).Sound where
  inRange := h
  idle hempty := schedule_update_of_unschedulable h
    ((bucketCount_eq_zero_iff_update h).1 (isEmpty_schedule_iff.1 hempty))
  index_lt _ _ := bucketIndex_lt_update h

theorem Sound.perform (h : s.Sound) (op : Operation) : (s.perform op).Sound := by
  cases op with
  | setPeriodTable _ => exact ⟨h.inRange, h.idle, h.index_lt⟩
  | setPolicy _ => exact ⟨h.inRange, h.idle, h.index_lt⟩
  | update requests => exact sound_update h.inRange requests
  | _ => exact h.setLimits _

theorem IsNew.sound_run (h : s.IsNew) (ops : List Operation) : (s.run ops).Sound :=
  run_induction (P := Sound) (fun _ op hs => hs.perform op) ops h.sound

/-! ## What the setters do -/

/-- Every call but an update. -/
def Operation.isSetter : Operation → Bool
  | .update _ => false
  | _ => true

theorem schedule_perform {op : Operation} (hop : op.isSetter = true)
    (h : s.schedule.isEmpty = false) : (s.perform op).schedule = s.schedule := by
  cases op with
  | setPeriodTable _ => rfl
  | setPolicy _ => rfl
  | update _ => cases hop
  | _ => exact schedule_setLimits h _

theorem bucketIndex?_perform {op : Operation} (hop : op.isSetter = true) (i : Nat) :
    (s.perform op).bucketIndex? i = s.bucketIndex? i := by
  cases op with
  | update _ => cases hop
  | _ => rfl

/-- The setter of one limit leaves all other settings alone and moves the value that it is given to
the nearest that the limit may have. -/
def SetsNearest {α : Type} (s : Scheduler) (set : Scheduler → α → Scheduler)
    (put : Limits → α → Limits) (toNat : α → Nat) (greatest : Nat) : Prop :=
  ∀ a, ∃ b, (set s a).settings = { s.settings with limits := put s.limits b } ∧
    Limits.IsNearest greatest (toNat a) (toNat b)

/-- It does if clamping works on the limit by itself, the others being in their ranges already. -/
theorem Sound.setsNearest {α : Type} {set : Scheduler → α → Scheduler} {put : Limits → α → Limits}
    {toNat : α → Nat} {greatest : Nat} {move : α → α} (h : s.Sound)
    (hset : ∀ a, set s a = s.setLimits (put s.limits a))
    (hput : ∀ a, (put s.limits a).clamped = put s.limits.clamped (move a))
    (hmove : ∀ a, Limits.IsNearest greatest (toNat a) (toNat (move a))) :
    s.SetsNearest set put toNat greatest := by
  intro a
  refine ⟨move a, ?_, hmove a⟩
  rw [hset a, Scheduler.setLimits, hput a, h.inRange.clamped_eq]

/-- What can be said of a scheduler between any two calls. -/
structure Steady (s : Scheduler) : Prop where
  fault?_eq : s.limits.fault? = none
  clamped_eq : s.limits.clamped = s.limits
  setMaxBuckets : s.SetsNearest setMaxBuckets (fun l n => { l with maxBuckets := n })
    UInt64.toNat Hardware.maxBuckets
  setMaxChannels : s.SetsNearest setMaxChannels (fun l n => { l with maxChannels := n })
    UInt64.toNat Hardware.maxChannels
  setMaxBatch : s.SetsNearest setMaxBatch (fun l n => { l with maxBatch := n })
    UInt32.toNat Hardware.maxBatch
  setMaxApPerScan : s.SetsNearest setMaxApPerScan (fun l n => { l with maxApPerScan := n })
    UInt32.toNat Hardware.maxApPerScan
  setIdlePeriod : s.SetsNearest setIdlePeriod (fun l p => { l with idlePeriod := p })
    UInt32.toNat (UInt32.size - 1)
  idle : s.schedule.isEmpty = true →
    s.schedule = .idle s.limits.idlePeriod s.limits.maxApPerScan s.limits.maxBatch
  schedule_kept : ∀ op : Operation, op.isSetter = true → s.schedule.isEmpty = false →
    (s.perform op).schedule = s.schedule
  index_kept : ∀ op : Operation, op.isSetter = true →
    ∀ i, (s.perform op).bucketIndex? i = s.bucketIndex? i
  index_lt : ∀ i k, s.bucketIndex? i = some k → k < s.schedule.bucketCount

theorem Sound.steady (h : s.Sound) : s.Steady where
  fault?_eq := Limits.fault?_eq_none_iff.2 h.inRange
  clamped_eq := h.inRange.clamped_eq
  setMaxBuckets := h.setsNearest (fun _ => rfl) (fun _ => rfl)
    fun n => Limits.isNearest_clamp64 n.toNat (by decide) (by decide)
  setMaxChannels := h.setsNearest (fun _ => rfl) (fun _ => rfl)
    fun n => Limits.isNearest_clamp64 n.toNat (by decide) (by decide)
  setMaxBatch := h.setsNearest (fun _ => rfl) (fun _ => rfl)
    fun n => Limits.isNearest_clamp32 n.toNat (by decide) (by decide)
  setMaxApPerScan := h.setsNearest (fun _ => rfl) (fun _ => rfl)
    fun n => Limits.isNearest_clamp32 n.toNat (by decide) (by decide)
  setIdlePeriod := h.setsNearest (fun _ => rfl) (fun _ => rfl) Limits.isNearest_max
  idle := h.idle
  schedule_kept _ := schedule_perform
  index_kept _ := bucketIndex?_perform
  index_lt := h.index_lt

theorem steady_run {s₀ : Scheduler} (h : s₀.IsNew) (ops : List Operation) :
    (s₀.run ops).Steady :=
  (h.sound_run ops).steady

theorem steady_run_turns :
    let config : Config :=
      ⟨{ Limits.standard with maxBuckets := 2 }, .absolute, some [5000, 10000, 30000], none⟩
    ∃ s₀, ofConfig? config = .ok s₀ ∧ s₀.IsNew ∧
      (s₀.run [.setMaxBuckets 0, .setIdlePeriod 0, .update [.ofScope (.band ⟨3⟩) 30000],
        .setMaxChannels 100000, .setPolicy .logScale, .update [],
        .setLimits Limits.standard]).Steady := by
  intro config
  obtain ⟨s₀, h⟩ : ∃ s₀, ofConfig? config = .ok s₀ := ⟨_, rfl⟩
  exact ⟨s₀, h, .ofConfig h, steady_run (.ofConfig h) _⟩

end Scheduler

end RadioScan
