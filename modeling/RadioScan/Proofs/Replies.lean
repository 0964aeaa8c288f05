import RadioScan.Proofs.Answers
import RadioScan.Proofs.Connections

/-!
# Messages are always answered

As every answer and every announcement fits, the second and third step of a task are safe: whatever
the tasks do, and wherever reading and writing fail, a task that answers a message writes the answer
and announces what it has noted. Only the reply to a line that was no message may be too long, and
such a line has changed nothing (`alwaysAnswers_ofConfig?`).
-/

namespace RadioScan

open Control (Message Response Session)

namespace Service

variable {config : Config} {notices : Json.Notices} {s t : Service} {name : String}

theorem consistent_answerLine {r r' : Registry} {line : String} {response : Response}
    {update : Option Schedule} (hr : r.Consistent config)
    (h : answerLine notices r line = some (response, r', update)) : r'.Consistent config := by
  have hperform := (answerLine_eq_some h).1
  cases hop : Control.operationOf? line with
  | none =>
    rw [hop] at hperform
    cases hperform
    exact hr
  | some op =>
    rw [hop] at hperform
    exact hr.perform hperform

/-- What a task still has to write can be written, unless that answers a line that was no message,
which has changed nothing. -/
def Stage.Fits : Stage → Prop
  | .ready => True
  | .replying response update =>
    response.status = .invalidMessage ∧ update = none ∨
      response.IsShort ∧ ∀ schedule ∈ update, (Response.scheduleUpdate schedule).IsShort
  | .announcing schedule => (Response.scheduleUpdate schedule).IsShort
  | .ended => True

theorem Stage.fits_following {response : Response} {update : Option Schedule}
    (h : (Stage.replying response update).Fits) : (Stage.following update).Fits := by
  cases update with
  | none => trivial
  | some schedule =>
    rcases h with ⟨-, hnone⟩ | ⟨-, hshort⟩
    · cases hnone
    · exact hshort schedule rfl

/-- What holds of a service whatever its tasks do, as to writing. -/
structure Writable (config : Config) (s : Service) : Prop where
  consistent : s.registry.Consistent config
  fits : ∀ c ∈ s.connections, c.stage.Fits

theorem Writable.stage (h : Writable config s) {stage : Stage}
    (hstage : s.stage? name = some stage) : stage.Fits := by
  obtain ⟨c, hc, -, rfl⟩ := exists_connection hstage
  exact h.fits c hc

theorem fits_modify {change : Connection → Connection} (h : ∀ c ∈ s.connections, c.stage.Fits)
    (hchange : ∀ c, (change c).stage.Fits) :
    ∀ c ∈ (s.modify name change).connections, c.stage.Fits := by
  intro c hc
  obtain ⟨d, hd, rfl⟩ := List.mem_map.1 hc
  split_ifs
  · exact hchange d
  · exact h d hd

/-! ## Steps -/

/-- A step of a client or of a task, or a failure to read or write. -/
inductive Step
  | connect (name : String)
  | disconnect (name : String)
  | handle (name line : String)
  | reply (name : String)
  | announce (name : String)
  | fail (name : String)

def perform (s : Service) : Step → Option Service
  | .connect name => some (s.connect name)
  | .disconnect name => some (s.disconnect name)
  | .handle name line => s.handle name line
  | .reply name => some (s.reply name)
  | .announce name => some (s.announce name)
  | .fail name => some (s.fail name)

/-- Any interleaving of the tasks. -/
def run (s : Service) : List Step → Option Service
  | [] => some s
  | step :: steps => (s.perform step).bind fun s => s.run steps

theorem isShort_answerLine {r r' : Registry} {line : String} {response : Response}
    {update : Option Schedule} (hr : r.Consistent config)
    (h : answerLine notices r line = some (response, r', update)) :
    response.status = .invalidMessage ∧ update = none ∨
      response.IsShort ∧ ∀ schedule ∈ update, (Response.scheduleUpdate schedule).IsShort := by
  unfold answerLine at h
  split at h
  · cases h
    exact .inl ⟨rfl, rfl⟩
  · obtain ⟨⟨response, q⟩, hanswer, h⟩ := Option.bind_eq_some_iff.1 h
    cases h
    refine .inr ⟨Control.isShort_answer hr hanswer, fun schedule hschedule => ?_⟩
    split_ifs at hschedule
    · cases hschedule
      exact (Control.consistent_answer hr hanswer).isShort_scheduleUpdate
    · cases hschedule

/-- What changes the schedule is answered, and the change can be announced. -/
theorem exists_serialize_of_noted {r r' : Registry} {line : String} {response : Response}
    {schedule : Schedule} (hr : r.Consistent config)
    (h : answerLine notices r line = some (response, r', some schedule)) :
    (∃ text, response.serialize = .ok text) ∧
      ∃ push, (Response.scheduleUpdate schedule).serialize = .ok push := by
  rcases isShort_answerLine hr h with ⟨-, hnone⟩ | ⟨hshort, hpush⟩
  · cases hnone
  · exact ⟨hshort.exists_serialize, (hpush schedule rfl).exists_serialize⟩

theorem Writable.connect (h : Writable config s) (name : String) :
    Writable config (s.connect name) := by
  refine ⟨h.consistent, fun c hc => ?_⟩
  rcases List.mem_append.1 hc with hc | hc
  · exact h.fits c hc
  · rw [List.mem_singleton.1 hc]
    trivial

theorem Writable.handle {line : String} (h : Writable config s)
    (hnext : s.handle name line = some t) : Writable config t := by
  rcases handle_cases hnext with rfl | ⟨response, registry, update, -, hanswer, rfl⟩
  · exact h
  · refine ⟨consistent_answerLine h.consistent hanswer, fits_modify h.fits fun c => ?_⟩
    exact isShort_answerLine h.consistent hanswer

theorem Writable.ended (h : Writable config s) (name : String) :
    Writable config (s.modify name (Connection.enter .ended)) :=
  ⟨h.consistent, fits_modify h.fits fun _ => trivial⟩

theorem Writable.reply (h : Writable config s) (name : String) :
    Writable config (s.reply name) := by
  rcases reply_cases s name with heq | ⟨response, update, hstage, ⟨text, -, heq⟩ | ⟨-, heq⟩⟩
  · rwa [heq]
  · rw [heq]
    exact ⟨h.consistent, fits_modify h.fits fun _ => Stage.fits_following (h.stage hstage)⟩
  · exact heq ▸ h.ended name

theorem Writable.announce (h : Writable config s) (name : String) :
    Writable config (s.announce name) := by
  rcases announce_cases s name with heq | ⟨schedule, -, ⟨-, heq⟩ | ⟨-, heq⟩⟩
  · rwa [heq]
  · rw [heq]
    exact ⟨h.consistent, fits_modify h.fits fun _ => trivial⟩
  · exact heq ▸ h.ended name

theorem Writable.fail (h : Writable config s) (name : String) : Writable config (s.fail name) := by
  rcases fail_cases s name with heq | ⟨_, -, heq⟩
  · rwa [heq]
  · exact heq ▸ h.ended name

theorem Writable.disconnect (h : Writable config s) (name : String) :
    Writable config (s.disconnect name) := by
  rcases disconnect_cases s name with heq | ⟨-, heq⟩
  · rwa [heq]
  · rw [heq]
    exact ⟨h.consistent, fun c hc => h.fits c (List.mem_of_mem_filter hc)⟩

theorem Writable.perform (h : Writable config s) {step : Step} (hnext : s.perform step = some t) :
    Writable config t := by
  cases step with
  | handle name line => exact h.handle hnext
  | connect name =>
    cases hnext
    exact h.connect name
  | disconnect name =>
    cases hnext
    exact h.disconnect name
  | reply name =>
    cases hnext
    exact h.reply name
  | announce name =>
    cases hnext
    exact h.announce name
  | fail name =>
    cases hnext
    exact h.fail name

theorem Writable.run : ∀ (steps : List Step) {s t : Service}, Writable config s →
    s.run steps = some t → Writable config t
  | [], s, t, h, hrun => by
    cases hrun
    exact h
  | step :: steps, s, t, h, hrun => by
    obtain ⟨u, hu, hrun⟩ := Option.bind_eq_some_iff.1 hrun
    exact (h.perform hu).run steps hrun

/-! ## No step gets stuck -/

open Control (Counted)

theorem exists_answerLine {r : Registry} {n : Nat} (h : Counted n r) (hn : n + 1 < UInt32.size)
    (notices : Json.Notices) (line : String) :
    ∃ response r' update, answerLine notices r line = some (response, r', update) ∧
      Counted (n + 1) r' := by
  unfold answerLine
  split
  · obtain ⟨log, hlog, hlength⟩ := h
    exact ⟨_, _, _, rfl, log, hlog, Nat.le_succ_of_le hlength⟩
  · next m _ =>
    obtain ⟨response, r', hanswer, hcounted⟩ := Control.exists_answer h hn m
    exact ⟨response, r', _, by rw [hanswer]; rfl, hcounted⟩

theorem exists_perform {n : Nat} (h : Counted n s.registry) (hn : n + 1 < UInt32.size)
    (step : Step) : ∃ t, s.perform step = some t ∧ Counted (n + 1) t.registry := by
  have hsame : Counted (n + 1) s.registry := by
    obtain ⟨log, hlog, hlength⟩ := h
    exact ⟨log, hlog, Nat.le_succ_of_le hlength⟩
  cases step with
  | connect name => exact ⟨_, rfl, hsame⟩
  | disconnect name => exact ⟨_, rfl, by rwa [registry_disconnect]⟩
  | reply name => exact ⟨_, rfl, by rwa [registry_reply]⟩
  | announce name => exact ⟨_, rfl, by rwa [registry_announce]⟩
  | fail name => exact ⟨_, rfl, by rwa [registry_fail]⟩
  | handle name line =>
    rw [perform, handle]
    split
    · obtain ⟨response, r', update, hanswer, hcounted⟩ := exists_answerLine h hn s.notices line
      exact ⟨_, by rw [hanswer]; rfl, hcounted⟩
    · exact ⟨s, rfl, hsame⟩

theorem exists_run : ∀ (steps : List Step) {n : Nat} {s : Service}, Counted n s.registry →
    n + steps.length < UInt32.size → ∃ t, s.run steps = some t
  | [], n, s, _, _ => ⟨s, rfl⟩
  | step :: steps, n, s, h, hn => by
    rw [List.length_cons] at hn
    obtain ⟨u, hu, hcounted⟩ := exists_perform h (by omega) step
    obtain ⟨t, ht⟩ := exists_run steps hcounted (by omega)
    exact ⟨t, by rw [run, hu, Option.bind_some, ht]⟩

/-! ## What is written -/

/-- A task that has handled a message answers it. -/
theorem Writable.replied (h : Writable config s) {response : Response} {update : Option Schedule}
    (hstage : s.stage? name = some (.replying response update)) :
    (∃ text, response.serialize = .ok text ∧
        s.reply name = s.modify name fun c => (c.write text).enter (.following update)) ∨
      response.status = .invalidMessage ∧ update = none := by
  rcases h.stage hstage with hinvalid | ⟨hshort, -⟩
  · exact .inr hinvalid
  · obtain ⟨text, htext⟩ := hshort.exists_serialize
    exact .inl ⟨text, htext, reply_of_ok hstage htext⟩

theorem Writable.announced (h : Writable config s) {schedule : Schedule}
    (hstage : s.stage? name = some (.announcing schedule)) : s.announce name =
      { s with announced := s.announced ++ [schedule] }.modify name (Connection.enter .ready) := by
  obtain ⟨text, htext⟩ := (h.stage hstage).exists_serialize
  exact announce_of_ok hstage htext

theorem unchanged_of_status {r r' : Registry} {line : String} {response : Response}
    {update : Option Schedule} (h : answerLine notices r line = some (response, r', update))
    (hstatus : response.status = .invalidMessage) : r' = r ∧ update = none := by
  unfold answerLine at h
  split at h
  · cases h
    exact ⟨rfl, rfl⟩
  · obtain ⟨⟨response, q⟩, hanswer, h⟩ := Option.bind_eq_some_iff.1 h
    cases h
    exact absurd hstatus (Control.status_answer hanswer)

end Service

/-- From this registry on every message is answered, and no task ends over its answer or its
announcement once a line has changed the registry. -/
structure AlwaysAnswers (start : Registry) : Prop where
  /-- No counter of the registry ends before its 32 bits do. -/
  handled : ∀ ms m, ms.length + 1 < UInt32.size → ∃ s response t,
    (Session.ofRegistry start).handleAll ms = some s ∧ s.handle m = some (response, t)
  answered : ∀ ms m s response t, (Session.ofRegistry start).handleAll ms = some s →
    s.handle m = some (response, t) → ∃ text, response.serialize = .ok text
  pushed : ∀ ms s, (Session.ofRegistry start).handleAll ms = some s →
    ∃ text, (Response.scheduleUpdate s.registry.schedule).serialize = .ok text
  /-- The same for any interleaving of the tasks of a service. -/
  ran : ∀ notices steps, steps.length < UInt32.size →
    ∃ s, (Service.ofRegistry notices start).run steps = some s
  replied : ∀ notices steps s name response update,
    (Service.ofRegistry notices start).run steps = some s →
    s.stage? name = some (.replying response update) →
    (∃ text, response.serialize = .ok text ∧
        s.reply name = s.modify name fun c => (c.write text).enter (.following update)) ∨
      response.status = .invalidMessage ∧ update = none
  announced : ∀ notices steps s name schedule,
    (Service.ofRegistry notices start).run steps = some s →
    s.stage? name = some (.announcing schedule) → s.announce name =
      { s with announced := s.announced ++ [schedule] }.modify name (.enter .ready)
  /-- A line that is no message changes nothing. -/
  unchanged : ∀ notices r line response r' update,
    Service.answerLine notices r line = some (response, r', update) →
    response.status = .invalidMessage → r' = r ∧ update = none

theorem alwaysAnswers_ofConfig? {config : Config} {start : Registry}
    (h : Registry.ofConfig? config = .ok start) : AlwaysAnswers start := by
  have hstart := Registry.consistent_ofConfig? h
  have hcounted : Control.Counted 0 start := by
    unfold Registry.ofConfig? at h
    cases hs : Scheduler.ofConfig? config with
    | error e =>
      rw [hs] at h
      cases h
    | ok scheduler =>
      rw [hs] at h
      cases h
      exact Control.counted_ofScheduler scheduler
  have hrun (notices steps s) (hs : (Service.ofRegistry notices start).run steps = some s) :
      Service.Writable config s :=
    Service.Writable.run steps ⟨hstart, by simp [Service.ofRegistry]⟩ hs
  exact {
    handled := fun ms m hlength => by
      obtain ⟨s, hs, hcounted⟩ := Session.exists_handleAll ms (s := .ofRegistry start) hcounted
        (by omega)
      obtain ⟨response, r', hanswer, -⟩ := Control.exists_answer hcounted (by omega) m
      exact ⟨s, response, ⟨r', s.handled + 1⟩, hs, by simp [Session.handle, hanswer]⟩
    answered := fun ms m s response t hs hm => by
      have hconsistent := Session.consistent_handleAll ms hstart hs
      exact (Control.isShort_answer hconsistent (Session.handle_eq_some hm)).exists_serialize
    pushed := fun ms s hs =>
      (Session.consistent_handleAll ms hstart hs).isShort_scheduleUpdate.exists_serialize
    ran := fun notices steps hlength =>
      Service.exists_run steps (s := .ofRegistry notices start) hcounted (by omega)
    replied := fun notices steps s _ _ _ hs => (hrun notices steps s hs).replied
    announced := fun notices steps s _ _ hs => (hrun notices steps s hs).announced
    unchanged := fun _ _ _ _ _ _ => Service.unchanged_of_status }

theorem alwaysAnswers_standard :
    Registry.ofConfig? .standard = .ok (.ofScheduler (.ofCatalog .standard)) ∧
      AlwaysAnswers (.ofScheduler (.ofCatalog .standard)) :=
  have h : Registry.ofConfig? .standard = .ok (.ofScheduler (.ofCatalog .standard)) := rfl
  ⟨h, alwaysAnswers_ofConfig? h⟩

end RadioScan
