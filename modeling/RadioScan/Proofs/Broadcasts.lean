import RadioScan.Proofs.MessageText
import RadioScan.Proofs.Replies

/-!
# Which changes are announced

Serving a line announces the schedule that came of it to every connection exactly when it is another
than before, but for the one change that is not counted: limits given to an idle registry change the
schedule and nobody is told (`countsChanges_run`). This takes the answer to be written. When the
connection fails first, the change has been made and counted all the same, and is never announced.
-/

namespace RadioScan.Service

open Control (Message Response operationOf?)

variable {config : Config} {s t : Service} {name raw : String}

/-- A line is served to its end: what has been noted is announced. -/
theorem exists_serve {registry : Registry} {response : Response} {update : Option Schedule}
    (hr : s.registry.Consistent config) (hready : s.stage? name = some .ready)
    (hne : (Text.trim raw).isEmpty = false)
    (hanswer : answerLine s.notices s.registry (Text.trim raw) =
      some (response, registry, update)) :
    ∃ t, s.serve name raw = some t ∧ t.registry = registry ∧
      t.announced = s.announced ++ update.toList := by
  rcases isShort_answerLine hr hanswer with ⟨-, rfl⟩ | ⟨hshort, hpush⟩
  · rcases hserialize : response.serialize with e | text
    · exact ⟨_, serve_of_unwritten hready hne hanswer hserialize, rfl,
        (List.append_nil s.announced).symm⟩
    · exact ⟨_, serve_of_written hready hne hanswer hserialize nofun, rfl, rfl⟩
  · obtain ⟨text, htext⟩ := hshort.exists_serialize
    exact ⟨_, serve_of_written hready hne hanswer htext
      fun schedule h => (hpush schedule h).exists_serialize, rfl, rfl⟩

theorem announced_serve (hr : s.registry.Consistent config) (hready : s.stage? name = some .ready)
    (h : s.serve name raw = some t) : t.announced = s.announced ++
      if t.registry.schedule = s.registry.schedule ∨
          (operationOf? (Text.trim raw)).any s.registry.overlooks then []
        else [t.registry.schedule] := by
  rcases hne : (Text.trim raw).isEmpty with _ | _
  · obtain ⟨response, registry, update, hanswer⟩ := exists_answerLine_of_serve hready hne h
    obtain ⟨u, hu, rfl, hannounced⟩ := exists_serve hr hready hne hanswer
    rw [h] at hu
    cases hu
    rw [hannounced, update_answerLine hr hanswer]
    split_ifs <;> rfl
  · have hsame : t = s := by
      simp only [serve, hne, if_true, Option.some_inj] at h
      exact h.symm
    rw [hsame, if_pos (.inl rfl), List.append_nil]

theorem pushes_of_announced {c : Connection} {schedules : List Schedule}
    (h : t.announced = s.announced ++ schedules) (hc : c.joined ≤ s.announced.length) :
    t.pushes c = s.pushes c ++ schedules.map announcement := by
  rw [pushes, h, List.drop_append_of_le_length hc, List.map_append, pushes]

/-- A task that fails with its answer announces nothing, whatever the line has changed. -/
theorem fail_of_handle {line : String} (hready : s.stage? name = some .ready)
    (h : s.handle name line = some t) : (t.fail name).announced = s.announced ∧
      (t.fail name).registry = t.registry ∧
        ((t.fail name).reply name).announce name = t.fail name := by
  rw [handle_of_ready hready, Option.map_eq_some_iff] at h
  obtain ⟨⟨response, registry, update⟩, -, rfl⟩ := h
  have hfail : fail ({ s with registry }.modify name
      (.enter (.replying response update))) name = { s with registry }.modify name
        fun c => (c.enter (.replying response update)).enter .ended := by
    simp only [fail, stage?_holding hready registry response update]
    exact modify_modify (Connection.name_enter _)
  have hstage := stage?_modify_enter (s := { s with registry }) hready
    (Connection.name_enter (.replying response update)) .ended
  rw [hfail]
  refine ⟨rfl, rfl, ?_⟩
  simp only [reply, hstage, announce]

/-- Which changes are counted, and which schedules are announced by a service with this registry. -/
structure CountsChanges (r : Registry) : Prop where
  counted : ∀ op r', r.perform op = some r' →
    r'.stats.scheduleChanges.toNat = r.stats.scheduleChanges.toNat
      + if r'.schedule = r.schedule ∨ r.overlooks op then 0 else 1
  announced : ∀ (s t : Service) name raw, s.registry = r → s.stage? name = some .ready →
    s.serve name raw = some t → t.announced = s.announced ++
      if t.registry.schedule = r.schedule ∨ (operationOf? (Text.trim raw)).any r.overlooks then []
        else [t.registry.schedule]
  /-- Every connection gets the announcement. -/
  pushed : ∀ (s t : Service) name raw, s.registry = r → s.stage? name = some .ready →
    s.serve name raw = some t → ∀ c ∈ s.connections, c.joined ≤ s.announced.length →
      t.pushes c = s.pushes c ++
        if t.registry.schedule = r.schedule ∨ (operationOf? (Text.trim raw)).any r.overlooks then []
          else [(Response.scheduleUpdate t.registry.schedule).text]
  /-- When the answer cannot be written, nothing is announced, whatever has changed. -/
  lost : ∀ (s t : Service) name line, s.registry = r → s.stage? name = some .ready →
    s.handle name line = some t → (t.fail name).announced = s.announced ∧
      (t.fail name).registry = t.registry ∧ ((t.fail name).reply name).announce name = t.fail name

theorem countsChanges_run {r₀ r : Registry} (h₀ : Registry.ofConfig? config = .ok r₀)
    {ops : List Registry.Operation} (h : r₀.run ops = some r) : CountsChanges r := by
  have hr := Registry.consistent_run h₀ h
  refine ⟨fun _ _ => hr.toNat_scheduleChanges, ?_, ?_, ?_⟩
  · rintro s t name raw rfl hready hserve
    exact announced_serve hr hready hserve
  · rintro s t name raw rfl hready hserve c - hc
    rw [pushes_of_announced (announced_serve hr hready hserve) hc]
    split_ifs <;> rfl
  · rintro s t name line rfl hready hhandle
    exact fail_of_handle hready hhandle

theorem countsChanges_run_turns :
    Registry.ofConfig? .standard = .ok (.ofScheduler (.ofCatalog .standard)) ∧
      ∃ r, (Registry.ofScheduler (.ofCatalog .standard)).run
        [.setLimits { Limits.standard with idlePeriod := 7 },
          .register "a" (.ofScope (.band ⟨3⟩) 30000), .unregisterClient "b", .unregister 1]
          = some r ∧ CountsChanges r := by
  refine ⟨rfl, Exists.imp (fun r hr => ⟨hr, ?_⟩) (Option.isSome_iff_exists.1 ?_)⟩
  · exact countsChanges_run
      (show Registry.ofConfig? .standard = .ok (.ofScheduler (.ofCatalog .standard)) from rfl) hr
  · decide +kernel

/-- Another idle period for an idle registry: its schedule changes, no change is counted, and the
client that asked for it is told of none. -/
theorem idle_limits_uncounted :
    Registry.ofConfig? .standard = .ok (.ofScheduler (.ofCatalog .standard)) ∧
      ∃ r', (Registry.ofScheduler (.ofCatalog .standard)).perform
          (.setLimits { Limits.standard with idlePeriod := 7 }) = some r' ∧
        r'.schedule ≠ (Registry.ofScheduler (.ofCatalog .standard)).schedule ∧
        r'.stats.scheduleChanges
          = (Registry.ofScheduler (.ofCatalog .standard)).stats.scheduleChanges ∧
        ∃ t, ((ofRegistry (fun _ => ⟨.noValue, 1, 0⟩) (.ofScheduler (.ofCatalog .standard))).connect
            "a").serve "a" (Message.setLimits { Limits.standard with idlePeriod := 7 }).text
              = some t ∧
          t.registry = r' ∧ t.announced = [] := by
  have hstart : Registry.ofConfig? .standard = .ok (.ofScheduler (.ofCatalog .standard)) := rfl
  have hrun : (Control.answer (.ofScheduler (.ofCatalog .standard))
      (.setLimits { Limits.standard with idlePeriod := 7 })).any (fun p =>
        decide (p.2.schedule ≠ (Registry.ofScheduler (.ofCatalog .standard)).schedule ∧
          p.2.stats.scheduleChanges
            = (Registry.ofScheduler (.ofCatalog .standard)).stats.scheduleChanges)) = true := by
    decide +kernel
  obtain ⟨⟨response, r'⟩, hanswer, hrun⟩ := Option.any_eq_true _ _ |>.1 hrun
  obtain ⟨hdiffer, hcount⟩ := of_decide_eq_true hrun
  have hline := Message.roundTrips (.setLimits { Limits.standard with idlePeriod := 7 })
  have hparsed := hline.parsed
  rw [if_pos (by decide +kernel)] at hparsed
  have hnoted := answerLine_of_parse (fun _ => ⟨.noValue, 1, 0⟩) hparsed hanswer
  rw [if_pos hcount, ← hline.trimmed] at hnoted
  have hready : ((ofRegistry (fun _ => ⟨.noValue, 1, 0⟩)
      (.ofScheduler (.ofCatalog .standard))).connect "a").stage? "a" = some .ready := rfl
  obtain ⟨t, hserve, hregistry, hannounced⟩ := exists_serve
    (Registry.consistent_ofConfig? hstart) hready (by rw [hline.trimmed]; decide +kernel) hnoted
  exact ⟨hstart, r', Control.perform_of_answer hanswer, hdiffer, hcount, t, hserve, hregistry,
    hannounced⟩

end RadioScan.Service
