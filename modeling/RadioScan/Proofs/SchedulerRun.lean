import RadioScan.Scheduler
import Mathlib.Data.List.Basic

/-!
# Runs of a scheduler

Whatever is called on a scheduler, in any order and with any values, its catalog stays what it was
made for (`catalog_run`) and its limits stay in the hardware's range (`inRange_run`), because every
setter clamps.
-/

namespace RadioScan

namespace Millis

theorem left_le_max (p q : Millis) : p ≤ max p q := by
  change p ≤ if p ≤ q then q else p
  split_ifs with h
  · exact h
  · exact UInt32.le_refl p

theorem right_le_max (p q : Millis) : q ≤ max p q := by
  change q ≤ if p ≤ q then q else p
  split_ifs with h
  · exact UInt32.le_refl q
  · exact UInt32.le_of_lt (UInt32.not_le.1 h)

end Millis

namespace Limits

/-- Every limit is between one and what the hardware allows. -/
structure InRange (l : Limits) : Prop where
  one_le_maxBuckets : 1 ≤ l.maxBuckets.toNat
  maxBuckets_le : l.maxBuckets.toNat ≤ Hardware.maxBuckets
  one_le_maxChannels : 1 ≤ l.maxChannels.toNat
  maxChannels_le : l.maxChannels.toNat ≤ Hardware.maxChannels
  one_le_maxBatch : 1 ≤ l.maxBatch
  maxBatch_le : l.maxBatch.toNat ≤ Hardware.maxBatch
  one_le_maxApPerScan : 1 ≤ l.maxApPerScan
  maxApPerScan_le : l.maxApPerScan.toNat ≤ Hardware.maxApPerScan
  one_le_idlePeriod : 1 ≤ l.idlePeriod

theorem clamp_mem (value greatest : Nat) (h : 1 ≤ greatest) :
    1 ≤ clamp value greatest ∧ clamp value greatest ≤ greatest := by
  unfold clamp
  omega

theorem toNat_clamp32 (value : Nat) {greatest : Nat} (h : 1 ≤ greatest)
    (hword : greatest < UInt32.size) :
    (UInt32.ofNat (clamp value greatest)).toNat = clamp value greatest :=
  UInt32.toNat_ofNat_of_lt' (Nat.lt_of_le_of_lt (clamp_mem value _ h).2 hword)

theorem toNat_clamp64 (value : Nat) {greatest : Nat} (h : 1 ≤ greatest)
    (hword : greatest < UInt64.size) :
    (UInt64.ofNat (clamp value greatest)).toNat = clamp value greatest :=
  UInt64.toNat_ofNat_of_lt' (Nat.lt_of_le_of_lt (clamp_mem value _ h).2 hword)

theorem inRange_clamped (l : Limits) : l.clamped.InRange := by
  have hbuckets := clamp_mem l.maxBuckets.toNat Hardware.maxBuckets (by decide)
  have hchannels := clamp_mem l.maxChannels.toNat Hardware.maxChannels (by decide)
  have hbatch := clamp_mem l.maxBatch.toNat Hardware.maxBatch (by decide)
  have hap := clamp_mem l.maxApPerScan.toNat Hardware.maxApPerScan (by decide)
  rw [← toNat_clamp64 _ (by decide) (by decide)] at hbuckets hchannels
  rw [← toNat_clamp32 _ (by decide) (by decide)] at hbatch hap
  exact ⟨hbuckets.1, hbuckets.2, hchannels.1, hchannels.2, UInt32.le_iff_toNat_le.2 hbatch.1,
    hbatch.2, UInt32.le_iff_toNat_le.2 hap.1, hap.2,
    Millis.left_le_max 1 _⟩

theorem inRange_standard : standard.InRange := by
  constructor <;> decide

end Limits

namespace Scheduler

/-- A call that changes a scheduler. -/
inductive Operation
  | setPeriodTable (periods : PeriodTable)
  | setPolicy (policy : Policy)
  | setLimits (limits : Limits)
  | setMaxBuckets (n : UInt64)
  | setMaxChannels (n : UInt64)
  | setMaxBatch (n : UInt32)
  | setMaxApPerScan (n : UInt32)
  | setIdlePeriod (period : Millis)
  | update (requests : List Request)

def perform (s : Scheduler) : Operation → Scheduler
  | .setPeriodTable periods => s.withPeriodTable periods
  | .setPolicy policy => s.withPolicy policy
  | .setLimits limits => s.setLimits limits
  | .setMaxBuckets n => s.setMaxBuckets n
  | .setMaxChannels n => s.setMaxChannels n
  | .setMaxBatch n => s.setMaxBatch n
  | .setMaxApPerScan n => s.setMaxApPerScan n
  | .setIdlePeriod period => s.setIdlePeriod period
  | .update requests => s.update requests

/-- The scheduler after some calls. -/
def run (s : Scheduler) (ops : List Operation) : Scheduler := ops.foldl perform s

theorem run_induction {P : Scheduler → Prop} (hstep : ∀ s op, P s → P (s.perform op)) :
    ∀ (ops : List Operation) {s : Scheduler}, P s → P (s.run ops)
  | [], _, h => h
  | op :: ops, s, h => run_induction hstep ops (hstep s op h)

theorem catalog_perform (s : Scheduler) (op : Operation) :
    (s.perform op).settings.catalog = s.settings.catalog := by
  cases op <;> rfl

theorem catalog_run (catalog : Catalog) (ops : List Operation) :
    ((ofCatalog catalog).run ops).settings.catalog = catalog :=
  run_induction (P := fun s => s.settings.catalog = catalog)
    (fun s op h => (catalog_perform s op).trans h) ops rfl

theorem inRange_perform (s : Scheduler) (op : Operation) (h : s.limits.InRange) :
    (s.perform op).limits.InRange := by
  cases op with
  | setPeriodTable _ => exact h
  | setPolicy _ => exact h
  | update _ => exact h
  | _ => exact Limits.inRange_clamped _

theorem inRange_run (catalog : Catalog) (ops : List Operation) :
    ((ofCatalog catalog).run ops).limits.InRange :=
  run_induction (P := fun s => s.limits.InRange) inRange_perform ops Limits.inRange_standard

end Scheduler

end RadioScan
