import RadioScan.Limits
import RadioScan.Policy

/-!
# Settings

What a schedule is computed from besides the requests: the radio's channels, the legal periods, the
limits and the reassignment policy.
-/

namespace RadioScan

structure Settings where
  catalog : Catalog
  periods : PeriodTable
  limits : Limits
  policy : Policy

namespace Settings

/-- A catalog with everything else at its standard. -/
def ofCatalog (catalog : Catalog) : Settings := ⟨catalog, .standard, .standard, .standard⟩

def idleSchedule (s : Settings) : Schedule :=
  .idle s.limits.idlePeriod s.limits.maxApPerScan s.limits.maxBatch

end Settings

end RadioScan
