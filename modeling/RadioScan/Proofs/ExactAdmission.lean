import RadioScan.Proofs.RegistryLedger
import Mathlib.Data.Finset.Card
import Mathlib.Data.Finset.Dedup

/-!
# Who is admitted

A registration has to meet a list of requirements, each with the error that names it. The checks are
those requirements in their order (`checked_admission`): a request is registered when it meets them
all, and otherwise the first that it does not meet is the reason for the refusal, which is counted
and changes nothing else. What is admitted can be scheduled, so a registry has buckets as soon as it
has requests (`admitsExactly_run`).
-/

namespace RadioScan

/-- Something to be met, and the error for whoever does not meet it. -/
structure Requirement where
  holds : Prop
  fault : AdmissionError

/-- What checking some requirements in their order comes to: the first that is not met. -/
inductive Checked : List Requirement → Option AdmissionError → Prop
  | done : Checked [] none
  | unmet {q : Requirement} {qs : List Requirement} (h : ¬ q.holds) :
      Checked (q :: qs) (some q.fault)
  | met {q : Requirement} {qs : List Requirement} {outcome : Option AdmissionError} (h : q.holds)
      (hrest : Checked qs outcome) : Checked (q :: qs) outcome

namespace Checked

variable {ps qs : List Requirement}
  {first second outcome : Option AdmissionError}

theorem append (hp : Checked ps first) (hq : Checked qs second) :
    Checked (ps ++ qs) (first.or second) := by
  induction hp with
  | done => exact hq
  | unmet h => exact .unmet h
  | met h _ ih => exact .met h ih

theorem eq_none_iff (h : Checked qs outcome) : outcome = none ↔ ∀ q ∈ qs, q.holds := by
  induction h with
  | done => simp
  | unmet h => simp [h]
  | met h _ ih => simp [h, ih]

end Checked

/-! ## The requirements -/

namespace Settings

/-- What a scope has to be: a list of channels is counted without its repeats. -/
def scopeRequirements (s : Settings) : Scope → List Requirement
  | .band b => [⟨∃ f, f ∈ s.catalog.expandBand b, .unknownBand b⟩]
  | .channels fs => [⟨fs ≠ [], .emptyScope⟩,
      ⟨fs.toFinset.card ≤ Hardware.maxChannels, .tooManyChannels fs.toFinset.card⟩]

/-- What a request has to be. -/
def requirements (s : Settings) (r : Request) : List Requirement :=
  [⟨0 < r.period.toNat, .invalidPeriod r.period⟩,
    ⟨r.period.toNat ≤ min (4 * s.periods.greatest.toNat) (UInt32.size - 1),
      .periodTooLong r.period s.longestPeriod⟩] ++
  (s.scopeRequirements r.scope ++
  [⟨r.isExponential = true → r.period ≤ r.maxPeriod ∧ 0 < r.stepCount,
    .invalidBackoff r.period r.maxPeriod r.stepCount⟩])

variable {s : Settings} {r : Request}

theorem toNat_longestPeriod (s : Settings) :
    s.longestPeriod.toNat = min (4 * s.periods.greatest.toNat) (UInt32.size - 1) :=
  UInt32.toNat_ofNat_of_lt' (by
    have : 0 < UInt32.size := by decide
    omega)

theorem checked_period (s : Settings) (r : Request) :
    Checked [⟨0 < r.period.toNat, .invalidPeriod r.period⟩,
      ⟨r.period.toNat ≤ min (4 * s.periods.greatest.toNat) (UInt32.size - 1),
        .periodTooLong r.period s.longestPeriod⟩] (s.periodFault? r) := by
  rw [← toNat_longestPeriod]
  unfold periodFault?
  split_ifs with hzero hlong
  · refine .unmet ?_
    simp [hzero]
  · refine .met ?_ (.unmet ?_)
    · exact UInt32.lt_iff_toNat_lt.1 (UInt32.pos_iff_ne_zero.2 hzero)
    · exact Nat.not_le.2 (UInt32.lt_iff_toNat_lt.1 hlong)
  · refine .met ?_ (.met ?_ .done)
    · exact UInt32.lt_iff_toNat_lt.1 (UInt32.pos_iff_ne_zero.2 hzero)
    · exact Nat.not_lt.1 fun h => hlong (UInt32.lt_iff_toNat_lt.2 h)

theorem length_expand_channels (c : Catalog) (fs : List Frequency) :
    (c.expand (.channels fs)).length = fs.toFinset.card := by
  have hset : (ChannelSet.ofList fs).toList.toFinset = fs.toFinset := by
    ext f
    rw [List.mem_toFinset, List.mem_toFinset, ← ChannelSet.mem_def, ChannelSet.mem_ofList]
  rw [← hset, List.toFinset_card_of_nodup (ChannelSet.ofList fs).nodup]
  rfl

theorem checked_scope (s : Settings) (r : Request) :
    Checked (s.scopeRequirements r.scope) (s.scopeFault? r) := by
  unfold scopeFault? scopeRequirements
  cases hscope : r.scope with
  | band b =>
    dsimp only
    split_ifs with hnil
    · refine .unmet ?_
      simp [hnil]
    · exact .met (List.exists_mem_of_ne_nil _ hnil) .done
  | channels fs =>
    dsimp only
    rw [length_expand_channels]
    split_ifs with hnil hmany
    · exact .unmet (not_not.2 hnil)
    · exact .met hnil (.unmet (Nat.not_le.2 hmany))
    · exact .met hnil (.met (Nat.not_lt.1 hmany) .done)

theorem checked_backoff (r : Request) :
    Checked [⟨r.isExponential = true → r.period ≤ r.maxPeriod ∧ 0 < r.stepCount,
      .invalidBackoff r.period r.maxPeriod r.stepCount⟩] r.backoffFault? := by
  unfold Request.backoffFault?
  split_ifs with h
  · refine .unmet fun hgrows => ?_
    obtain ⟨hceiling, hsteps⟩ := hgrows h.1
    rcases h.2 with hlt | hzero
    · exact UInt32.not_le.2 hlt hceiling
    · exact UInt32.pos_iff_ne_zero.1 hsteps hzero
  · refine .met (fun hexp => ⟨?_, ?_⟩) .done
    · exact UInt32.not_lt.1 fun hlt => h ⟨hexp, .inl hlt⟩
    · exact UInt32.pos_iff_ne_zero.2 fun hzero => h ⟨hexp, .inr hzero⟩

theorem checked_requestFault? (s : Settings) (r : Request) :
    Checked (s.requirements r) (s.requestFault? r) := by
  have h := (checked_period s r).append ((checked_scope s r).append (checked_backoff r))
  rwa [requestFault?, Option.orElse_eq_orElse, Option.orElse_eq_or, Option.orElse_eq_or]

end Settings

namespace Registry

/-- What a registration has to meet, in the order of the checks. -/
def requirements (r : Registry) (client : String) (request : Request) : List Requirement :=
  ⟨1 ≤ client.utf8ByteSize ∧ client.utf8ByteSize ≤ ClientTag.maxSize, .invalidClientTag⟩ ::
    (r.scheduler.settings.requirements request ++ [⟨r.entries.length < capacity, .registryFull⟩])

variable {r r' : Registry} {client : String} {request : Request} {id : RequestId}

/-- The error of an admission, if it is refused. -/
def refusal? (r : Registry) (client : String) (request : Request) : Option AdmissionError :=
  match r.admission client request with
  | .error e => some e
  | .ok _ => none

theorem checked_room (r : Registry) : Checked [⟨r.entries.length < capacity, .registryFull⟩]
    (if r.entries.length < capacity then none else some .registryFull) := by
  split_ifs with h
  · exact .met h .done
  · exact .unmet h

theorem checked_admission (r : Registry) (client : String) (request : Request) :
    Checked (r.requirements client request) (r.refusal? client request) := by
  unfold refusal? admission ClientTag.ofString?
  by_cases hsize : client.utf8ByteSize ≠ 0 ∧ client.utf8ByteSize ≤ 32
  · rw [dif_pos hsize]
    refine .met ⟨Nat.pos_of_ne_zero hsize.1, hsize.2⟩ ?_
    have hchecked := (Settings.checked_requestFault? r.scheduler.settings request).append
      (checked_room r)
    cases hfault : r.scheduler.settings.requestFault? request with
    | some e => rwa [hfault] at hchecked
    | none =>
      rw [hfault, Option.none_or] at hchecked
      dsimp only
      split_ifs at hchecked ⊢ <;> exact hchecked
  · rw [dif_neg hsize]
    refine .unmet fun h => hsize ⟨?_, h.2⟩
    exact Nat.ne_of_gt h.1

theorem refusal?_eq_some {e : AdmissionError} (h : r.admission client request = .error e) :
    r.refusal? client request = some e := by
  rw [refusal?, h]

theorem refusal?_eq_none {tag : ClientTag} (h : r.admission client request = .ok tag) :
    r.refusal? client request = none := by
  rw [refusal?, h]

/-! ## Registrations -/

theorem accepted_iff {result : Except AdmissionError RequestId}
    (h : r.register client request = some (result, r')) :
    (∃ id, result = .ok id) ↔ ∀ q ∈ r.requirements client request, q.holds := by
  rw [← (checked_admission r client request).eq_none_iff]
  obtain ⟨e, n, he, rfl, -⟩ | ⟨tag, n, htag, rfl, -⟩ := register_eq_some h
  · simp [refusal?_eq_some he]
  · simp [refusal?_eq_none htag]

theorem checked_of_refused {e : AdmissionError}
    (h : r.register client request = some (.error e, r')) :
    Checked (r.requirements client request) (some e) := by
  have hchecked := checked_admission r client request
  obtain ⟨e', n, he, hresult, -⟩ | ⟨tag, n, -, hresult, -⟩ := register_eq_some h
  · cases hresult
    rwa [refusal?_eq_some he] at hchecked
  · cases hresult

theorem eq_refused {e : AdmissionError} (h : r.register client request = some (.error e, r')) :
    r'.stats.totalRejected.toNat = r.stats.totalRejected.toNat + 1 ∧
      r' = r.refused r'.stats.totalRejected := by
  obtain ⟨e', n, -, -, hn, rfl⟩ | ⟨tag, n, -, hresult, -⟩ := register_eq_some h
  · exact ⟨hn, rfl⟩
  · cases hresult

theorem isSchedulable_of_accepted (h : r.register client request = some (.ok id, r')) :
    request.isSchedulable r.scheduler.settings.catalog = true := by
  obtain ⟨e, n, -, hresult, -⟩ | ⟨tag, n, htag, -⟩ := register_eq_some h
  · cases hresult
  · exact Settings.isSchedulable_of_requestFault? (admission_eq_ok htag).2.1

/-- No counter that a registration may raise is at its end. -/
structure HasRoom (r : Registry) : Prop where
  totalRegistered_lt : r.stats.totalRegistered.toNat + 1 < UInt32.size
  totalRejected_lt : r.stats.totalRejected.toNat + 1 < UInt32.size
  recomputes_lt : r.stats.recomputes.toNat + 1 < UInt32.size
  scheduleChanges_lt : r.stats.scheduleChanges.toNat + 1 < UInt32.size

/-- What a registry that was made around a scheduler registers, and what it refuses. -/
structure AdmitsExactly (s : Scheduler) (r : Registry) : Prop where
  answered : r.HasRoom →
    ∀ client request, ∃ result r', r.register client request = some (result, r')
  accepted_iff : ∀ client request result r', r.register client request = some (result, r') →
    ((∃ id, result = .ok id) ↔ ∀ q ∈ r.requirements client request, q.holds)
  checked_of_refused : ∀ client request e r', r.register client request = some (.error e, r') →
    Checked (r.requirements client request) (some e)
  /-- A refusal is counted. -/
  totalRejected_of_refused : ∀ client request e r',
    r.register client request = some (.error e, r') →
    r'.stats.totalRejected.toNat = r.stats.totalRejected.toNat + 1
  /-- Nothing but that count changes. -/
  eq_of_refused : ∀ client request e r', r.register client request = some (.error e, r') →
    r' = { r with stats := { r.stats with totalRejected := r'.stats.totalRejected } }
  schedulable : ∀ client request id r', r.register client request = some (.ok id, r') →
    request.isSchedulable r.scheduler.settings.catalog = true
  /-- A scheduler has no buckets until it is updated, so neither has one for a configuration. -/
  isEmpty_iff : s.schedule.isEmpty = true → (r.schedule.isEmpty = true ↔ r.entries = [])

theorem isEmpty_schedule_iff_of_untouched {s : Scheduler} (hidle : s.schedule.isEmpty = true)
    (hscheduler : r.scheduler = s) (hentries : r.entries = []) :
    r.schedule.isEmpty = true ↔ r.entries = [] := by
  rw [schedule, hscheduler]
  exact iff_of_true hidle hentries

/-- A new registry around any scheduler, after any calls. -/
theorem admitsExactly_run (catalog : Catalog) (settings : List Scheduler.Operation)
    (ops : List Operation)
    (h : (ofScheduler ((Scheduler.ofCatalog catalog).run settings)).run ops = some r) :
    r.AdmitsExactly ((Scheduler.ofCatalog catalog).run settings) := by
  have hnew := wellKept_ofScheduler (Scheduler.inRange_run catalog settings)
  generalize (Scheduler.ofCatalog catalog).run settings = s at h hnew
  have hr : r.WellKept := run_induction (fun _ _ _ hr => hr.perform) ops hnew h
  constructor
  · intro hroom client request
    exact exists_register hroom.totalRegistered_lt hroom.totalRejected_lt hroom.recomputes_lt
      hroom.scheduleChanges_lt client request
  · exact fun _ _ _ _ => accepted_iff
  · exact fun _ _ _ _ => checked_of_refused
  · exact fun _ _ _ _ hcall => (eq_refused hcall).1
  · exact fun _ _ _ _ hcall => (eq_refused hcall).2
  · exact fun _ _ _ _ => isSchedulable_of_accepted
  · intro hidle
    rcases inStep_or_untouched_run h with hstep | ⟨hscheduler, hentries⟩
    · exact hr.isEmpty_schedule_iff hstep
    · exact isEmpty_schedule_iff_of_untouched hidle hscheduler hentries

theorem admitsExactly_run_turns : ∃ r,
    (ofScheduler ((Scheduler.ofCatalog .standard).run [.setMaxBuckets 2])).run
      [.register "a" (.ofScope (.band ⟨1⟩) 20000), .register "" (.ofScope (.band ⟨1⟩) 20000),
        .register "b" (.ofScope (.band ⟨16⟩) 20000), .unregister 1,
        .register "b" ((Request.ofScope (.channels [5180, 5180]) 40960000).withBackoff 1 1)]
      = some r ∧ r.AdmitsExactly ((Scheduler.ofCatalog .standard).run [.setMaxBuckets 2]) := by
  refine Exists.imp (fun r hr => ⟨hr, admitsExactly_run _ _ _ hr⟩) (exists_run_ofScheduler _ ?_)
  decide

end Registry

end RadioScan
