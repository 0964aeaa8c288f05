import RadioScan.Proofs.RegistryRun

/-!
# A registry does not remember

Whatever was called on a registry before, its schedule and the buckets of its live requests are
those that a fresh scheduler for its configuration and its limits computes from the live requests,
in the order in which they were registered. So a request that is registered and taken back leaves
everything as it was (`forgetful_run`).
-/

namespace RadioScan.Registry

variable {config : Config} {r r₁ r₂ : Registry} {client : String} {request : Request}
  {id : RequestId}

/-- A live request is found at its place, as no other has its number. -/
theorem WellKept.position?_eq_some (hr : r.WellKept) {i : Nat} {e : Entry}
    (h : r.entries[i]? = some e) : r.position? e.id = some i := by
  obtain ⟨hi, rfl⟩ := List.getElem?_eq_some_iff.1 h
  refine List.findIdx?_eq_some_iff_getElem.2 ⟨hi, beq_self_eq_true _, fun j hj => ?_⟩
  have hlt := List.pairwise_iff_getElem.1 hr.ids_ascend j i (Nat.lt_trans hj hi) hi hj
  simpa using UInt32.ne_of_lt hlt

/-- Taking back the request that was just registered. -/
theorem unregister_register (hr : r.Consistent config)
    (hregister : r.register client request = some (.ok id, r₁))
    {result : Except AdmissionError Unit} (hunregister : r₁.unregister id = some (result, r₂)) :
    result = .ok () ∧ r₂.entries = r.entries ∧ r₂.scheduler = r.scheduler := by
  obtain ⟨e, -, -, hresult, -⟩ | ⟨tag, n, hadmitted, hresult, hn, h₁⟩ := register_eq_some hregister
  · cases hresult
  cases hresult
  have hlast : r₁.entries[r.entries.length]? = some ⟨r.nextId, tag, request⟩ := by
    simp [h₁.entries_eq, enrolled]
  have hposition := (h₁.wellKept (hr.enroll hadmitted hn)).position?_eq_some hlast
  obtain ⟨hnone, -⟩ | ⟨i, m, hi, rfl, -, h₂⟩ := unregister_eq_some hunregister
  · rw [hposition] at hnone
    cases hnone
  rw [hposition] at hi
  cases hi
  have hentries : r₂.entries = r.entries := by
    simp [h₂.entries_eq, keeping, h₁.entries_eq, enrolled, List.eraseIdx_append_of_length_le]
  have hsettings : r₂.scheduler.settings = r.scheduler.settings := by
    rw [h₂.settings_eq, keeping, h₁.settings_eq, enrolled]
  refine ⟨rfl, hentries, ?_⟩
  -- the schedule of either is the update of its settings with its requests
  rw [← hr.inStep, ← h₂.inStep, requests, requests, hentries]
  exact Scheduler.update_congr hsettings _

theorem Consistent.exists_fresh (hr : r.Consistent config) :
    ∃ s, Scheduler.ofConfig? { config with limits := r.limits } = .ok s ∧
      s.update r.requests = r.scheduler := by
  obtain ⟨catalog, periods, hcatalog, hperiods, hsettings⟩ := hr.exists_settings
  refine ⟨_, Scheduler.ofConfig?_eq_ok_iff.2
    ⟨hr.inRange, catalog, periods, hcatalog, hperiods, rfl⟩, ?_⟩
  rw [← hr.inStep]
  exact Scheduler.update_congr hsettings.symm _

/-- The schedule and the buckets follow from the configuration, the limits and the live requests. -/
structure Forgetful (config : Config) (r : Registry) : Prop where
  /-- As a fresh scheduler has them after one update. -/
  fresh : ∃ s, Scheduler.ofConfig? { config with limits := r.limits } = .ok s ∧
    r.schedule = (s.update r.requests).schedule ∧
    ∀ (i : Nat) (e : Entry), r.entries[i]? = some e →
      r.bucketFor? e.id = (s.update r.requests).bucket? i
  /-- A request that is registered and taken back leaves no trace in them. -/
  restored : ∀ (client : String) (request : Request) (id : RequestId) (r₁ : Registry)
    (result : Except AdmissionError Unit) (r₂ : Registry),
    r.register client request = some (.ok id, r₁) → r₁.unregister id = some (result, r₂) →
      result = .ok () ∧ r₂.entries = r.entries ∧ r₂.schedule = r.schedule ∧
        ∀ other, r₂.bucketFor? other = r.bucketFor? other

theorem Consistent.forgetful (hr : r.Consistent config) : r.Forgetful config := by
  constructor
  · obtain ⟨s, hs, hupdate⟩ := hr.exists_fresh
    refine ⟨s, hs, by rw [hupdate]; rfl, fun i e he => ?_⟩
    rw [hupdate, bucketFor?, hr.position?_eq_some he, Option.bind_some]
  · intro client request id r₁ result r₂ hregister hunregister
    obtain ⟨hresult, hentries, hscheduler⟩ := unregister_register hr hregister hunregister
    refine ⟨hresult, hentries, by rw [schedule, hscheduler]; rfl, fun other => ?_⟩
    rw [bucketFor?, position?, hentries, hscheduler]
    rfl

theorem forgetful_run {r₀ : Registry} (h₀ : ofConfig? config = .ok r₀) {ops : List Operation}
    (h : r₀.run ops = some r) : r.Forgetful config :=
  (consistent_run h₀ h).forgetful

theorem forgetful_run_turns :
    ofConfig? .standard = .ok (ofScheduler (.ofCatalog .standard)) ∧
      ∃ r, (ofScheduler (.ofCatalog .standard)).run
        [.register "a" (.ofScope (.band ⟨1⟩) 20000),
          .setLimits { Limits.standard with maxChannels := 4 }, .unregister 2, .unregister 1,
          .register "b" ((Request.ofScope (.channels [5180, 2412]) 15000).withBackoff 60000 2)]
          = some r ∧ r.Forgetful .standard := by
  refine ⟨rfl, Exists.imp (fun r hr => ⟨hr, ?_⟩) (Option.isSome_iff_exists.1 ?_)⟩
  · exact forgetful_run
      (show ofConfig? .standard = .ok (ofScheduler (.ofCatalog .standard)) from rfl) hr
  · decide +kernel

end RadioScan.Registry
