import RadioScan.Proofs.Config

/-!
# Valid configurations

Validating a configuration, building its table and catalog, and clamping its limits look at the same
data on three ways. They agree: a scheduler is made exactly for the configurations that pass
validation, which are those all of whose parts are fit, and it takes the configuration over as it is
(`Config.takenOver`). Of several unfit parts the first is reported (`Config.FirstFault`).
-/

namespace RadioScan

namespace PeriodTable

/-- Fit to be the periods of a table: there are some, no more than the hardware holds, the first is
above zero, and each is a proper divisor of the next. -/
structure IsFit (ps : List Millis) : Prop where
  ne_nil : ps ≠ []
  length_le : ps.length ≤ maxEntries
  head_pos : ∀ p ∈ ps.head?, 0 < p
  chain : ps.IsChain fun p q => p < q ∧ p.toNat ∣ q.toNat

variable {ps : List Millis}

theorem follows_iff {p q : Millis} : Follows p q ↔ p < q ∧ p.toNat ∣ q.toNat := by
  rw [Follows, Nat.dvd_iff_mod_eq_zero]

theorem firstFault_some_eq_none_iff {index : Nat} {q : Millis} :
    firstFault index (some q) ps = none ↔
      (q :: ps).IsChain fun p q => p < q ∧ p.toNat ∣ q.toNat := by
  induction ps generalizing index q with
  | nil => simp [firstFault]
  | cons p ps ih =>
    rw [firstFault, List.isChain_cons_cons, ← follows_iff]
    by_cases hzero : p = 0
    · have hnot : ¬ Follows q 0 := fun h => UInt32.not_lt_zero h.1
      simp [hzero, hnot]
    · by_cases hfollows : Follows q p
      · simp [hzero, hfollows, ih]
      · simp [hzero, hfollows]

theorem firstFault_eq_none_iff (hne : ps ≠ []) : firstFault 0 none ps = none ↔
    (∀ p ∈ ps.head?, 0 < p) ∧ ps.IsChain fun p q => p < q ∧ p.toNat ∣ q.toNat := by
  obtain ⟨p, ps, rfl⟩ := List.exists_cons_of_ne_nil hne
  rw [firstFault]
  by_cases hzero : p = 0
  · simp [hzero]
  · simp [hzero, firstFault_some_eq_none_iff, UInt32.pos_iff_ne_zero]

theorem ofEntries?_eq_ok_iff {t : PeriodTable} :
    ofEntries? ps = .ok t ↔ IsFit ps ∧ t.entries = ps := by
  unfold ofEntries?
  split_ifs with hnil hlength
  · exact ⟨nofun, fun h => absurd hnil h.1.ne_nil⟩
  · split
    · next e he =>
      refine ⟨nofun, fun h => ?_⟩
      rw [(firstFault_eq_none_iff hnil).2 ⟨h.1.head_pos, h.1.chain⟩] at he
      cases he
    · next hnone =>
      obtain ⟨hpos, hchain⟩ := (firstFault_eq_none_iff hnil).1 hnone
      constructor
      · rintro h
        cases h
        exact ⟨⟨hnil, hlength, hpos, hchain⟩, rfl⟩
      · rintro ⟨-, rfl⟩
        rfl
  · exact ⟨nofun, fun h => absurd h.1.length_le hlength⟩

theorem IsFit.exists_ofEntries? (h : IsFit ps) : ∃ t, ofEntries? ps = .ok t := by
  have hnone : firstFault 0 none ps = none :=
    (firstFault_eq_none_iff h.ne_nil).2 ⟨h.head_pos, h.chain⟩
  exact ⟨⟨ps, isGeometric_of_firstFault h.ne_nil hnone, h.length_le⟩,
    ofEntries?_eq_ok_iff.2 ⟨h, rfl⟩⟩

theorem eq_of_entries_eq {t u : PeriodTable} (h : t.entries = u.entries) : t = u := by
  cases t
  cases u
  cases h
  rfl

end PeriodTable

/-- The limit lies in its range. -/
def LimitError.IsWithin (r : LimitError) : Prop := 1 ≤ r.value ∧ r.value ≤ r.greatest

namespace Limits

theorem fault?_eq_some_iff {l : Limits} {e : LimitError} : l.fault? = some e ↔
    ¬ e.IsWithin ∧ ∃ before after, l.ranges = before ++ e :: after ∧ ∀ r ∈ before, r.IsWithin := by
  have hwithin (r : LimitError) :
      (r.value == 0 || decide (r.greatest < r.value)) = true ↔ ¬ r.IsWithin := by
    rw [LimitError.IsWithin, Bool.or_eq_true, beq_iff_eq, decide_eq_true_eq]
    omega
  simp only [fault?, List.find?_eq_some_iff_append, hwithin, Bool.not_eq_true', ← Bool.not_eq_true,
    not_not]

end Limits

namespace Config

variable {config : Config}

/-- Every part of the configuration that is given is fit. -/
structure IsValid (config : Config) : Prop where
  limits : config.limits.InRange
  periods : ∀ ps ∈ config.periods, PeriodTable.IsFit ps
  catalog : ∀ tables ∈ config.catalog, tables.IsFit

/-- The error is that of the first unfit part: of the first limit outside its range, or else of the
period table, or else of the catalog. -/
inductive FirstFault (config : Config) : ConfigError → Prop
  | limit {e : LimitError} {before after : List LimitError}
      (hranges : config.limits.ranges = before ++ e :: after)
      (hbefore : ∀ r ∈ before, r.IsWithin) (he : ¬ e.IsWithin) : FirstFault config (.limit e)
  | periods {ps : List Millis} {e : PeriodTableError} (hlimits : config.limits.InRange)
      (hperiods : config.periods = some ps) (he : PeriodTable.ofEntries? ps = .error e) :
      FirstFault config (.periods e)
  | catalog {tables : Catalog} {e : CatalogError} (hlimits : config.limits.InRange)
      (hperiods : ∀ ps ∈ config.periods, PeriodTable.IsFit ps)
      (hcatalog : config.catalog = some tables) (he : tables.fault? = some e) :
      FirstFault config (.catalog e)

/-! ## The parts -/

theorem periodTable_eq_ok_iff {t : PeriodTable} : config.periodTable = .ok t ↔
    (∀ ps ∈ config.periods, PeriodTable.IsFit ps) ∧
      t.entries = config.periods.getD PeriodTable.standard.entries := by
  unfold periodTable
  rcases config.periods with _ | ps
  · simp only [Except.ok.injEq, Option.not_mem_none, false_implies, implies_true, true_and,
      Option.getD_none]
    exact ⟨fun h => by rw [h], fun h => (PeriodTable.eq_of_entries_eq h).symm⟩
  · have hok : PeriodTable.ofEntries? ps = .ok t ↔ PeriodTable.IsFit ps ∧ t.entries = ps :=
      PeriodTable.ofEntries?_eq_ok_iff
    simp only [Option.mem_some_iff, forall_eq', Option.getD_some, ← hok]
    rcases PeriodTable.ofEntries? ps with e | u <;> simp

theorem periodTable_eq_error_iff {e : ConfigError} : config.periodTable = .error e ↔
    ∃ ps f, config.periods = some ps ∧ PeriodTable.ofEntries? ps = .error f ∧ e = .periods f := by
  unfold periodTable
  rcases config.periods with _ | ps
  · simp
  · rcases hps : PeriodTable.ofEntries? ps with f | t <;> simp [hps, eq_comm]

theorem channelCatalog_eq_ok_iff {c : Catalog} : config.channelCatalog = .ok c ↔
    (∀ tables ∈ config.catalog, tables.IsFit) ∧ c = config.catalog.getD .standard := by
  unfold channelCatalog
  rcases config.catalog with _ | tables
  · simp [eq_comm]
  · simp only [Option.mem_some_iff, forall_eq', Option.getD_some, ← Catalog.fault?_eq_none_iff]
    rcases htables : tables.fault? with _ | e <;> simp [eq_comm]

theorem channelCatalog_eq_error_iff {e : ConfigError} : config.channelCatalog = .error e ↔
    ∃ tables f, config.catalog = some tables ∧ tables.fault? = some f ∧ e = .catalog f := by
  unfold channelCatalog
  rcases config.catalog with _ | tables
  · simp
  · rcases htables : tables.fault? with _ | f <;> simp [htables, eq_comm]

/-! ## The whole -/

theorem exists_periodTable (h : ∀ ps ∈ config.periods, PeriodTable.IsFit ps) :
    ∃ t, config.periodTable = .ok t := by
  unfold periodTable
  rcases hps : config.periods with _ | ps
  · exact ⟨.standard, rfl⟩
  · obtain ⟨t, ht⟩ := (h ps hps).exists_ofEntries?
    exact ⟨t, by simp [ht]⟩

theorem validate_of_fault? {e : LimitError} (h : config.limits.fault? = some e) :
    config.validate = .error (.limit e) := by
  unfold validate
  rw [h]
  rfl

/-- Limits apart, validation is building both parts. -/
theorem validate_of_inRange (h : config.limits.InRange) : config.validate =
    config.periodTable.bind fun _ => config.channelCatalog.bind fun _ => .ok () := by
  unfold validate
  rw [Limits.fault?_eq_none_iff.2 h]
  rcases config.periodTable with e | t
  · rfl
  · rcases config.channelCatalog with e | c <;> rfl

theorem FirstFault.validate_eq {e : ConfigError} (h : config.FirstFault e) :
    config.validate = .error e := by
  cases h with
  | limit hranges hbefore he =>
    exact validate_of_fault? (Limits.fault?_eq_some_iff.2 ⟨he, _, _, hranges, hbefore⟩)
  | periods hlimits hperiods he =>
    rw [validate_of_inRange hlimits, periodTable_eq_error_iff.2 ⟨_, _, hperiods, he, rfl⟩,
      Except.bind]
  | catalog hlimits hperiods hcatalog he =>
    obtain ⟨t, ht⟩ := exists_periodTable hperiods
    rw [validate_of_inRange hlimits, ht, Except.bind,
      channelCatalog_eq_error_iff.2 ⟨_, _, hcatalog, he, rfl⟩, Except.bind]

/-- Validation passes a valid configuration, or reports the first fault of one that is not. -/
theorem validate_cases (config : Config) : (config.validate = .ok () ∧ config.IsValid) ∨
    ∃ e, config.validate = .error e ∧ config.FirstFault e ∧ ¬ config.IsValid := by
  rcases hfault : config.limits.fault? with _ | e
  · have hlimits := Limits.fault?_eq_none_iff.1 hfault
    rw [validate_of_inRange hlimits]
    rcases hperiods : config.periodTable with e | t
    · obtain ⟨ps, f, hps, hf, rfl⟩ := periodTable_eq_error_iff.1 hperiods
      refine .inr ⟨_, rfl, .periods hlimits hps hf, fun hvalid => ?_⟩
      obtain ⟨t, ht⟩ := (hvalid.periods ps hps).exists_ofEntries?
      rw [ht] at hf
      cases hf
    · have hfit := (periodTable_eq_ok_iff.1 hperiods).1
      rcases hcatalog : config.channelCatalog with e | c
      · obtain ⟨tables, f, htables, hf, rfl⟩ := channelCatalog_eq_error_iff.1 hcatalog
        refine .inr ⟨_, rfl, .catalog hlimits hfit htables hf, fun hvalid => ?_⟩
        rw [Catalog.fault?_eq_none_iff.2 (hvalid.catalog tables htables)] at hf
        cases hf
      · exact .inl ⟨rfl, hlimits, hfit, (channelCatalog_eq_ok_iff.1 hcatalog).1⟩
  · obtain ⟨he, before, after, hranges, hbefore⟩ := Limits.fault?_eq_some_iff.1 hfault
    refine .inr ⟨_, validate_of_fault? hfault, .limit hranges hbefore he, fun hvalid => ?_⟩
    rw [Limits.fault?_eq_none_iff.2 hvalid.limits] at hfault
    cases hfault

theorem validate_eq_ok_iff : config.validate = .ok () ↔ config.IsValid := by
  rcases config.validate_cases with ⟨hok, hvalid⟩ | ⟨e, herror, -, hinvalid⟩
  · simp [hok, hvalid]
  · simp [herror, hinvalid]

theorem validate_eq_error_iff {e : ConfigError} :
    config.validate = .error e ↔ config.FirstFault e := by
  refine ⟨fun h => ?_, FirstFault.validate_eq⟩
  rcases config.validate_cases with ⟨hok, -⟩ | ⟨f, herror, hfault, -⟩
  · rw [hok] at h
    cases h
  · rw [herror] at h
    cases h
    exact hfault

theorem ofConfig?_of_validate {e : ConfigError} (h : config.validate = .error e) :
    Scheduler.ofConfig? config = .error e := by
  unfold Scheduler.ofConfig?
  rw [h]
  rfl

end Config

/-- The scheduler is idle and works with what the configuration gives, or else the standard. -/
structure Scheduler.Carries (s : Scheduler) (config : Config) : Prop where
  limits_eq : s.limits = config.limits
  entries_eq : s.settings.periods.entries = config.periods.getD PeriodTable.standard.entries
  catalog_eq : s.settings.catalog = config.catalog.getD .standard
  policy_eq : s.settings.policy = config.policy
  schedule_eq : s.schedule =
    .idle config.limits.idlePeriod config.limits.maxApPerScan config.limits.maxBatch

theorem Scheduler.carries_of_ofConfig? {s : Scheduler} {config : Config}
    (h : ofConfig? config = .ok s) : s.Carries config := by
  obtain ⟨-, catalog, periods, hcatalog, hperiods, rfl⟩ := ofConfig?_eq_ok_iff.1 h
  exact ⟨rfl, (Config.periodTable_eq_ok_iff.1 hperiods).2,
    (Config.channelCatalog_eq_ok_iff.1 hcatalog).2, rfl, rfl⟩

namespace Config

variable {config : Config}

theorem exists_ofConfig?_iff : (∃ s, Scheduler.ofConfig? config = .ok s) ↔ config.IsValid := by
  simp only [Scheduler.ofConfig?_eq_ok_iff]
  constructor
  · rintro ⟨s, hlimits, catalog, periods, hcatalog, hperiods, -⟩
    exact ⟨hlimits, (periodTable_eq_ok_iff.1 hperiods).1, (channelCatalog_eq_ok_iff.1 hcatalog).1⟩
  · intro h
    obtain ⟨periods, hperiods⟩ := exists_periodTable h.periods
    exact ⟨_, h.limits, _, periods, channelCatalog_eq_ok_iff.2 ⟨h.catalog, rfl⟩, hperiods, rfl⟩

theorem ofConfig?_eq_error_iff {e : ConfigError} :
    Scheduler.ofConfig? config = .error e ↔ config.FirstFault e := by
  refine ⟨fun h => ?_, fun h => ofConfig?_of_validate h.validate_eq⟩
  rcases config.validate_cases with ⟨-, hvalid⟩ | ⟨f, herror, hfault, -⟩
  · obtain ⟨s, hs⟩ := exists_ofConfig?_iff.2 hvalid
    rw [hs] at h
    cases h
  · rw [ofConfig?_of_validate herror] at h
    cases h
    exact hfault

/-- What validation and the making of a scheduler do with a configuration. -/
structure TakenOver (config : Config) : Prop where
  validate_eq_ok_iff : config.validate = .ok () ↔ config.IsValid
  exists_ofConfig?_iff : (∃ s, Scheduler.ofConfig? config = .ok s) ↔ config.IsValid
  carries : ∀ s, Scheduler.ofConfig? config = .ok s → s.Carries config
  clamped_eq : config.IsValid → config.limits.clamped = config.limits
  validate_eq_error_iff : ∀ e, config.validate = .error e ↔ config.FirstFault e
  ofConfig?_eq_error_iff : ∀ e, Scheduler.ofConfig? config = .error e ↔ config.FirstFault e

theorem takenOver (config : Config) : config.TakenOver where
  validate_eq_ok_iff := config.validate_eq_ok_iff
  exists_ofConfig?_iff := config.exists_ofConfig?_iff
  carries _ := Scheduler.carries_of_ofConfig?
  clamped_eq h := h.limits.clamped_eq
  validate_eq_error_iff _ := config.validate_eq_error_iff
  ofConfig?_eq_error_iff _ := config.ofConfig?_eq_error_iff

end Config

end RadioScan
