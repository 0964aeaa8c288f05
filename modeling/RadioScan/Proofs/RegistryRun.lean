import RadioScan.Proofs.Config
import RadioScan.Registry.Basic

/-!
# Runs of a registry

A call on a registry is refused, and then at most the count of refusals changes, or it alters the
requests or the limits, and the schedule is brought up to date (`Recomputed`). So after any calls
the scheduler is one that was just updated with the live requests, each of which it can schedule;
and the numbers of the live requests ascend, up to how many were ever registered
(`consistent_run`).
-/

namespace RadioScan

theorem raise_eq_some_iff {counter c : UInt32} {n : Nat} :
    raise counter n = some c ↔ c.toNat = counter.toNat + n := by
  have hc : c.toNat < UInt32.size := c.toNat_lt
  unfold raise
  split_ifs with h
  · rw [Option.some.injEq, ← UInt32.toNat_inj, UInt32.toNat_ofNat_of_lt' h, eq_comm]
  · simp only [false_iff]
    omega

theorem exists_raise {c : UInt32} {n : Nat} (h : c.toNat + n < UInt32.size) :
    ∃ d, raise c n = some d :=
  ⟨_, if_pos h⟩

namespace Settings

variable {s : Settings} {r : Request}

theorem pos_of_periodFault? (h : s.periodFault? r = none) : 0 < r.period := by
  unfold periodFault? at h
  split_ifs at h with h0
  exact UInt32.pos_iff_ne_zero.2 h0

theorem expand_ne_nil_of_scopeFault? (h : s.scopeFault? r = none) :
    s.catalog.expand r.scope ≠ [] := by
  unfold scopeFault? at h
  split at h
  · next b hb =>
    rw [hb]
    split_ifs at h with hnil
    exact hnil
  · next fs hfs =>
    rw [hfs]
    dsimp only at h
    split_ifs at h with hnil
    obtain ⟨f, hf⟩ := List.exists_mem_of_ne_nil _ hnil
    exact List.ne_nil_of_mem (ChannelSet.mem_ofList.2 hf)

/-- A request that may be registered can be scheduled. -/
theorem isSchedulable_of_requestFault? (h : s.requestFault? r = none) :
    r.isSchedulable s.catalog = true := by
  simp only [requestFault?, Option.orElse_eq_orElse, Option.orElse_eq_or,
    Option.or_eq_none_iff] at h
  obtain ⟨hperiod, hscope, -⟩ := h
  have hne := expand_ne_nil_of_scopeFault? hscope
  simp [Request.isSchedulable, pos_of_periodFault? hperiod, hne]

end Settings

namespace Registry

/-- What bringing the schedule up to date makes of a registry. -/
structure Recomputed (r r' : Registry) : Prop where
  scheduler_eq : r'.scheduler = r.scheduler.update r.requests
  entries_eq : r'.entries = r.entries
  nextId_eq : r'.nextId = r.nextId
  totalRegistered_eq : r'.stats.totalRegistered = r.stats.totalRegistered
  totalRejected_eq : r'.stats.totalRejected = r.stats.totalRejected
  totalUnregistered_eq : r'.stats.totalUnregistered = r.stats.totalUnregistered
  toNat_recomputes : r'.stats.recomputes.toNat = r.stats.recomputes.toNat + 1
  toNat_scheduleChanges : r'.stats.scheduleChanges.toNat
    = r.stats.scheduleChanges.toNat + if r'.schedule = r.schedule then 0 else 1
  currentlyRegistered_eq : r'.stats.currentlyRegistered = .ofNat r.entries.length

variable {r r' : Registry} {client : String} {request : Request} {id : RequestId} {limits : Limits}

theorem recomputed_of_recompute (h : r.recompute = some r') : Recomputed r r' := by
  simp only [recompute, Option.bind_eq_bind, Option.bind_eq_some_iff, Option.pure_def,
    Option.some.injEq, raise_eq_some_iff] at h
  obtain ⟨recomputes, hrecomputes, changes, hchanges, rfl⟩ := h
  refine ⟨rfl, rfl, rfl, rfl, rfl, rfl, hrecomputes, ?_, rfl⟩
  rw [hchanges]
  simp only [Scheduler.wouldChange, bne_iff_ne, schedule]
  split_ifs <;> simp_all

theorem admission_eq_ok {tag : ClientTag} (h : r.admission client request = .ok tag) :
    ClientTag.ofString? client = some tag ∧ r.scheduler.settings.requestFault? request = none ∧
      r.entries.length < capacity := by
  unfold admission at h
  split at h
  · cases h
  · next hclient =>
    split at h
    · cases h
    · next hrequest =>
      split_ifs at h with hlt
      cases h
      exact ⟨hclient, hrequest, hlt⟩

/-! ## What each call can do -/

/-- The registry after a refusal. -/
def refused (r : Registry) (totalRejected : UInt32) : Registry :=
  { r with stats := { r.stats with totalRejected } }

/-- The registry with one more request. -/
def enrolled (r : Registry) (tag : ClientTag) (request : Request) (totalRegistered : UInt32) :
    Registry :=
  { r with
    entries := r.entries ++ [⟨r.nextId, tag, request⟩]
    nextId := max 1 (r.nextId + 1)
    stats := { r.stats with totalRegistered } }

/-- The registry with only some of its requests left. -/
def keeping (r : Registry) (entries : List Entry) (totalUnregistered : UInt32) : Registry :=
  { r with entries, stats := { r.stats with totalUnregistered } }

/-- The registry under other limits. -/
def limited (r : Registry) (limits : Limits) : Registry :=
  { r with scheduler := r.scheduler.setLimits limits }

@[simp]
theorem schedule_refused (r : Registry) (n : UInt32) : (r.refused n).schedule = r.schedule := rfl

@[simp]
theorem scheduleChanges_refused (r : Registry) (n : UInt32) :
    (r.refused n).stats.scheduleChanges = r.stats.scheduleChanges := rfl

theorem register_eq_some {result : Except AdmissionError RequestId}
    (h : r.register client request = some (result, r')) :
    (∃ e n, r.admission client request = .error e ∧ result = .error e ∧
        n.toNat = r.stats.totalRejected.toNat + 1 ∧ r' = r.refused n) ∨
      ∃ tag n, r.admission client request = .ok tag ∧ result = .ok r.nextId ∧
        n.toNat = r.stats.totalRegistered.toNat + 1 ∧
        Recomputed (r.enrolled tag request n) r' := by
  unfold register at h
  split at h
  · next e he =>
    simp only [Option.bind_eq_bind, Option.bind_eq_some_iff, Option.pure_def, Option.some.injEq,
      Prod.mk.injEq, raise_eq_some_iff] at h
    obtain ⟨n, hn, rfl, rfl⟩ := h
    exact .inl ⟨e, n, he, rfl, hn, rfl⟩
  · next tag htag =>
    simp only [Option.bind_eq_bind, Option.bind_eq_some_iff, Option.pure_def, Option.some.injEq,
      Prod.mk.injEq, raise_eq_some_iff] at h
    obtain ⟨n, hn, r', hr, rfl, rfl⟩ := h
    exact .inr ⟨tag, n, htag, rfl, hn, recomputed_of_recompute hr⟩

theorem unregister_eq_some {result : Except AdmissionError Unit}
    (h : r.unregister id = some (result, r')) :
    (r.position? id = none ∧ result = .error (.unknownRequest id) ∧ r' = r) ∨
      ∃ i n, r.position? id = some i ∧ result = .ok () ∧
        n.toNat = r.stats.totalUnregistered.toNat + 1 ∧
        Recomputed (r.keeping (r.entries.eraseIdx i) n) r' := by
  unfold unregister at h
  split at h
  · next hnone =>
    cases h
    exact .inl ⟨hnone, rfl, rfl⟩
  · next i hi =>
    simp only [Option.bind_eq_bind, Option.bind_eq_some_iff, Option.pure_def, Option.some.injEq,
      Prod.mk.injEq, raise_eq_some_iff] at h
    obtain ⟨n, hn, r', hr, rfl, rfl⟩ := h
    exact .inr ⟨i, n, hi, rfl, hn, recomputed_of_recompute hr⟩

theorem unregisterClient_eq_some {removed : Nat}
    (h : r.unregisterClient client = some (removed, r')) :
    removed = (r.entries.countP fun e => e.client.text == client) ∧
      ((removed = 0 ∧ r' = r) ∨
        ∃ n, 0 < removed ∧ n.toNat = r.stats.totalUnregistered.toNat + removed ∧
          Recomputed (r.keeping (r.entries.filter fun e => e.client.text != client) n) r') := by
  unfold unregisterClient at h
  dsimp only at h
  split_ifs at h with hzero
  · cases h
    exact ⟨hzero.symm, .inl ⟨rfl, rfl⟩⟩
  · simp only [Option.bind_eq_bind, Option.bind_eq_some_iff, Option.pure_def, Option.some.injEq,
      Prod.mk.injEq, raise_eq_some_iff] at h
    obtain ⟨n, hn, r', hr, rfl, rfl⟩ := h
    exact ⟨rfl, .inr ⟨n, Nat.pos_of_ne_zero hzero, hn, recomputed_of_recompute hr⟩⟩

theorem setLimits_eq_some {result : Except ConfigError Unit}
    (h : r.setLimits limits = some (result, r')) :
    (∃ e, limits.fault? = some e ∧ result = .error (.limit e) ∧ r' = r) ∨
      limits.InRange ∧ result = .ok () ∧
        Recomputed (r.limited limits) r' := by
  unfold setLimits at h
  split at h
  · next e he =>
    cases h
    exact .inl ⟨e, he, rfl, rfl⟩
  · next hnone =>
    simp only [Option.bind_eq_bind, Option.bind_eq_some_iff, Option.pure_def, Option.some.injEq,
      Prod.mk.injEq] at h
    obtain ⟨r', hr, rfl, rfl⟩ := h
    exact .inr ⟨Limits.fault?_eq_none_iff.1 hnone, rfl, recomputed_of_recompute hr⟩

/-! ## Runs -/

/-- A call that changes a registry. -/
inductive Operation
  | register (client : String) (request : Request)
  | unregister (id : RequestId)
  | unregisterClient (client : String)
  | setLimits (limits : Limits)

/-- The registry after a call, whatever that answers. -/
def perform (r : Registry) : Operation → Option Registry
  | .register client request => (r.register client request).map Prod.snd
  | .unregister id => (r.unregister id).map Prod.snd
  | .unregisterClient client => (r.unregisterClient client).map Prod.snd
  | .setLimits limits => (r.setLimits limits).map Prod.snd

/-- What a call that is not refused changes before the schedule is brought up to date. -/
inductive Alters (r : Registry) : Operation → Registry → Prop
  | enroll {client : String} {request : Request} {tag : ClientTag} {n : UInt32}
      (hadmitted : r.admission client request = .ok tag)
      (hn : n.toNat = r.stats.totalRegistered.toNat + 1) :
      Alters r (.register client request) (r.enrolled tag request n)
  | withdraw {id : RequestId} {i : Nat} {n : UInt32} (hi : r.position? id = some i) :
      Alters r (.unregister id) (r.keeping (r.entries.eraseIdx i) n)
  | depart {client : String} {n : UInt32} :
      Alters r (.unregisterClient client)
        (r.keeping (r.entries.filter fun e => e.client.text != client) n)
  | limit {limits : Limits} (h : limits.InRange) : Alters r (.setLimits limits) (r.limited limits)

theorem perform_cases {op : Operation} (h : r.perform op = some r') :
    (∃ n, r' = r.refused n) ∨
      ∃ q, Alters r op q ∧ Recomputed q r' := by
  cases op with
  | register client request =>
    obtain ⟨⟨result, q⟩, hcall, rfl⟩ := Option.map_eq_some_iff.1 h
    obtain ⟨-, n, -, -, -, rfl⟩ | ⟨tag, n, hadmitted, -, hn, hq⟩ := register_eq_some hcall
    · exact .inl ⟨n, rfl⟩
    · exact .inr ⟨_, .enroll hadmitted hn, hq⟩
  | unregister id =>
    obtain ⟨⟨result, q⟩, hcall, rfl⟩ := Option.map_eq_some_iff.1 h
    obtain ⟨-, -, rfl⟩ | ⟨i, n, hi, -, -, hq⟩ := unregister_eq_some hcall
    · exact .inl ⟨_, rfl⟩
    · exact .inr ⟨_, .withdraw hi, hq⟩
  | unregisterClient client =>
    obtain ⟨⟨removed, q⟩, hcall, rfl⟩ := Option.map_eq_some_iff.1 h
    obtain ⟨-, ⟨-, rfl⟩ | ⟨n, -, -, hq⟩⟩ := unregisterClient_eq_some hcall
    · exact .inl ⟨_, rfl⟩
    · exact .inr ⟨_, .depart, hq⟩
  | setLimits limits =>
    obtain ⟨⟨result, q⟩, hcall, rfl⟩ := Option.map_eq_some_iff.1 h
    obtain ⟨-, -, -, rfl⟩ | ⟨hrange, -, hq⟩ := setLimits_eq_some hcall
    · exact .inl ⟨_, rfl⟩
    · exact .inr ⟨_, .limit hrange, hq⟩

/-- The registry after some calls. -/
def run (r : Registry) : List Operation → Option Registry
  | [] => some r
  | op :: ops => (r.perform op).bind fun r => r.run ops

theorem run_induction {P : Registry → Prop}
    (hstep : ∀ r op r', P r → r.perform op = some r' → P r') :
    ∀ (ops : List Operation) {r r' : Registry}, P r → r.run ops = some r' → P r'
  | [], r, r', hr, h => by
    simp only [run, Option.some.injEq] at h
    exact h ▸ hr
  | op :: ops, r, r', hr, h => by
    simp only [run, Option.bind_eq_some_iff] at h
    obtain ⟨q, hq, h⟩ := h
    exact run_induction hstep ops (hstep r op q hr hq) h

/-- What holds of a registry's requests and limits apart from the schedule for them. -/
structure WellKept (r : Registry) : Prop where
  inRange : r.limits.InRange
  schedulable : ∀ e ∈ r.entries, e.request.isSchedulable r.scheduler.settings.catalog = true
  ids_ascend : r.entries.Pairwise fun a b => a.id < b.id
  id_le : ∀ e ∈ r.entries, e.id ≤ r.stats.totalRegistered
  toNat_nextId : r.stats.totalRegistered.toNat + 1 < UInt32.size →
    r.nextId.toNat = r.stats.totalRegistered.toNat + 1

/-- The scheduler was just updated with the live requests. -/
def InStep (r : Registry) : Prop := r.scheduler.update r.requests = r.scheduler

theorem Recomputed.inStep (h : Recomputed r r') : r'.InStep := by
  rw [InStep, requests, h.entries_eq, h.scheduler_eq]
  rfl

theorem Recomputed.settings_eq (h : Recomputed r r') :
    r'.scheduler.settings = r.scheduler.settings := by
  rw [h.scheduler_eq]
  rfl

theorem Recomputed.wellKept (h : Recomputed r r') (hr : r.WellKept) : r'.WellKept := by
  constructor
  · rw [limits, Scheduler.limits, h.settings_eq]
    exact hr.inRange
  · rw [h.entries_eq, h.settings_eq]
    exact hr.schedulable
  · rw [h.entries_eq]
    exact hr.ids_ascend
  · rw [h.entries_eq, h.totalRegistered_eq]
    exact hr.id_le
  · rw [h.nextId_eq, h.totalRegistered_eq]
    exact hr.toNat_nextId

/-- The number of a new request is above those of all before. -/
theorem WellKept.enroll (hr : r.WellKept) {tag : ClientTag} {n : UInt32}
    (hadmitted : r.admission client request = .ok tag)
    (hn : n.toNat = r.stats.totalRegistered.toNat + 1) :
    (r.enrolled tag request n).WellKept := by
  have hid : r.nextId = n := by
    rw [← UInt32.toNat_inj, hn]
    exact hr.toNat_nextId (hn ▸ n.toNat_lt)
  have hlt : ∀ e ∈ r.entries, e.id < r.nextId := by
    intro e he
    have hle := UInt32.le_iff_toNat_le.1 (hr.id_le e he)
    rw [UInt32.lt_iff_toNat_lt, hid]
    omega
  constructor
  · exact hr.inRange
  · intro e he
    rcases List.mem_append.1 he with he | he
    · exact hr.schedulable e he
    · rw [List.mem_singleton.1 he]
      exact Settings.isSchedulable_of_requestFault? (admission_eq_ok hadmitted).2.1
  · refine List.pairwise_append.2 ⟨hr.ids_ascend, List.pairwise_singleton _ _, ?_⟩
    intro e he e' he'
    rw [List.mem_singleton.1 he']
    exact hlt e he
  · intro e he
    rcases List.mem_append.1 he with he | he
    · exact hid ▸ UInt32.le_of_lt (hlt e he)
    · rw [List.mem_singleton.1 he]
      exact hid ▸ UInt32.le_refl _
  · intro hlast
    change (max 1 (r.nextId + 1)).toNat = n.toNat + 1
    have hnext : (n + 1).toNat = n.toNat + 1 := by
      rw [UInt32.toNat_add]
      exact Nat.mod_eq_of_lt hlast
    have hpos : 1 ≤ n + 1 := UInt32.le_iff_toNat_le.2 (hnext ▸ Nat.le_add_left 1 _)
    rw [hid, ← hnext]
    change (if 1 ≤ n + 1 then n + 1 else 1).toNat = (n + 1).toNat
    rw [if_pos hpos]

/-- Fewer requests are kept as well. -/
theorem WellKept.keeping (hr : r.WellKept) {entries : List Entry} (h : entries.Sublist r.entries)
    (n : UInt32) : (r.keeping entries n).WellKept :=
  ⟨hr.inRange, fun e he => hr.schedulable e (h.subset he), hr.ids_ascend.sublist h,
    fun e he => hr.id_le e (h.subset he), hr.toNat_nextId⟩

theorem WellKept.limited (hr : r.WellKept) (limits : Limits) : (r.limited limits).WellKept :=
  ⟨Limits.inRange_clamped limits, hr.schedulable, hr.ids_ascend, hr.id_le, hr.toNat_nextId⟩

theorem Alters.wellKept {op : Operation} {q : Registry} (h : Alters r op q) (hr : r.WellKept) :
    q.WellKept := by
  cases h with
  | enroll hadmitted hn => exact hr.enroll hadmitted hn
  | withdraw hi => exact hr.keeping (List.eraseIdx_sublist _ _) _
  | depart => exact hr.keeping List.filter_sublist _
  | limit _ => exact hr.limited _

theorem WellKept.perform (hr : r.WellKept) {op : Operation} (h : r.perform op = some r') :
    r'.WellKept := by
  obtain ⟨n, rfl⟩ | ⟨q, hq, hr'⟩ := perform_cases h
  · exact ⟨hr.inRange, hr.schedulable, hr.ids_ascend, hr.id_le, hr.toNat_nextId⟩
  · exact hr'.wellKept (hq.wellKept hr)

theorem wellKept_ofScheduler {s : Scheduler} (h : s.limits.InRange) : (ofScheduler s).WellKept :=
  ⟨h, by simp [ofScheduler], .nil, by simp [ofScheduler], fun _ => rfl⟩

theorem Alters.settings_eq {op : Operation} {q : Registry} (h : Alters r op q) :
    q.scheduler.settings = { r.scheduler.settings with limits := q.limits } := by
  cases h <;> rfl

/-- What holds of a registry after any calls, if it was made for the given configuration. -/
structure Consistent (config : Config) (r : Registry) : Prop extends r.WellKept where
  inStep : r.InStep
  exists_settings : ∃ catalog periods, config.channelCatalog = .ok catalog ∧
    config.periodTable = .ok periods ∧
    r.scheduler.settings = ⟨catalog, periods, r.limits, config.policy⟩

variable {config : Config}

theorem consistent_ofConfig? (h : ofConfig? config = .ok r) : r.Consistent config := by
  unfold ofConfig? at h
  cases hs : Scheduler.ofConfig? config with
  | error e =>
    rw [hs] at h
    cases h
  | ok s =>
    rw [hs] at h
    cases h
    obtain ⟨hrange, catalog, periods, hcatalog, hperiods, rfl⟩ := Scheduler.ofConfig?_eq_ok_iff.1 hs
    exact ⟨wellKept_ofScheduler hrange, Scheduler.update_nil hrange, catalog, periods, hcatalog,
      hperiods, rfl⟩

theorem Consistent.perform (hr : r.Consistent config) {op : Operation}
    (h : r.perform op = some r') : r'.Consistent config := by
  have hkept := hr.toWellKept.perform h
  obtain ⟨n, rfl⟩ | ⟨q, hq, hr'⟩ := perform_cases h
  · exact ⟨hkept, hr.inStep, hr.exists_settings⟩
  · obtain ⟨catalog, periods, hcatalog, hperiods, hsettings⟩ := hr.exists_settings
    refine ⟨hkept, hr'.inStep, catalog, periods, hcatalog, hperiods, ?_⟩
    rw [limits, Scheduler.limits, hr'.settings_eq, hq.settings_eq, hsettings]

theorem consistent_run {ops : List Operation} {r₀ : Registry} (h₀ : ofConfig? config = .ok r₀)
    (h : r₀.run ops = some r) : r.Consistent config :=
  run_induction (fun _ _ _ hr => hr.perform) ops (consistent_ofConfig? h₀) h

/-- Before the first call that is not refused, a registry has the scheduler that it was made
around and no requests. -/
theorem inStep_or_untouched_run {s : Scheduler} {ops : List Operation}
    (h : (ofScheduler s).run ops = some r) : r.InStep ∨ r.scheduler = s ∧ r.entries = [] := by
  refine run_induction (P := fun r => r.InStep ∨ r.scheduler = s ∧ r.entries = []) ?_ ops
    (.inr ⟨rfl, rfl⟩) h
  intro r op r' hr hcall
  obtain ⟨n, rfl⟩ | ⟨q, -, hq⟩ := perform_cases hcall
  · exact hr
  · exact .inl hq.inStep

/-- A registry is idle exactly when it has no requests: it can schedule each of them. -/
theorem WellKept.isEmpty_schedule_iff (hr : r.WellKept) (hstep : r.InStep) :
    r.schedule.isEmpty = true ↔ r.entries = [] := by
  have hcount : r.schedule.bucketCount = 0
      ↔ ∀ q ∈ r.requests, q.isSchedulable r.scheduler.settings.catalog = false := by
    rw [schedule, ← hstep]
    exact Scheduler.bucketCount_eq_zero_iff_update hr.inRange
  rw [Schedule.isEmpty, List.isEmpty_iff, ← List.length_eq_zero_iff]
  refine hcount.trans ⟨fun hall => ?_, fun hnil => by simp [requests, hnil]⟩
  rw [List.eq_nil_iff_forall_not_mem]
  intro e he
  have hs := hr.schedulable e he
  rw [hall e.request (List.mem_map_of_mem he)] at hs
  cases hs

end Registry

end RadioScan
