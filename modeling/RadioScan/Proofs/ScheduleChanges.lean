import RadioScan.Proofs.RegistryRun
import RadioScan.Service.Basic

/-!
# Which changes of the schedule are counted

A registry counts a change when the schedule that it has just computed differs from the one before.
There is one change that it does not see: limits given to an idle registry are in its schedule
before the two are compared. All others are counted, once each
(`Registry.Consistent.toNat_scheduleChanges`), and what is counted is what a task notes for
announcing (`Service.update_answerLine`).
-/

namespace RadioScan

namespace Registry

variable {config : Config} {r r' : Registry} {op : Operation}

/-- The call gives limits to an idle registry. -/
def overlooks (r : Registry) : Operation → Bool
  | .setLimits _ => r.entries.isEmpty
  | _ => false

/-- The idle schedule follows the limits at once, so that updating it changes nothing more. -/
theorem Recomputed.schedule_eq_of_limited {limits : Limits}
    (h : Recomputed (r.limited limits) r') (hentries : r.entries = [])
    (hempty : r.schedule.isEmpty = true) : r'.schedule = (r.limited limits).schedule := by
  have hrequests : (r.limited limits).requests = [] := by
    rw [requests, limited, hentries]
    rfl
  have hidle : (r.limited limits).schedule = (r.limited limits).scheduler.settings.idleSchedule :=
    if_pos hempty
  have hupdate := Scheduler.update_nil (s := (r.limited limits).scheduler)
    (Limits.inRange_clamped limits)
  rw [schedule, h.scheduler_eq, hrequests, hupdate, hidle]
  rfl

theorem schedule_limited_of_not_isEmpty {limits : Limits} (h : r.schedule.isEmpty = false) :
    (r.limited limits).schedule = r.schedule :=
  if_neg (by rw [schedule] at h; simp [h])

theorem Consistent.toNat_scheduleChanges (hr : r.Consistent config)
    (h : r.perform op = some r') : r'.stats.scheduleChanges.toNat = r.stats.scheduleChanges.toNat
      + if r'.schedule = r.schedule ∨ r.overlooks op then 0 else 1 := by
  obtain ⟨n, rfl⟩ | ⟨q, hq, hr'⟩ := perform_cases h
  · simp
  have hchanges := hr'.toNat_scheduleChanges
  -- apart from limits on an idle registry, no alteration touches the schedule itself
  have hseen (hschedule : q.schedule = r.schedule)
      (hcount : q.stats.scheduleChanges = r.stats.scheduleChanges) (hop : r.overlooks op = false) :
      r'.stats.scheduleChanges.toNat = r.stats.scheduleChanges.toNat
        + if r'.schedule = r.schedule ∨ r.overlooks op then 0 else 1 := by
    rw [hschedule, hcount] at hchanges
    rw [hop, if_congr (or_iff_left Bool.false_ne_true) rfl rfl]
    exact hchanges
  cases hq with
  | enroll _ _ => exact hseen rfl rfl rfl
  | withdraw _ => exact hseen rfl rfl rfl
  | depart => exact hseen rfl rfl rfl
  | @limit limits _ =>
    by_cases hentries : r.entries = []
    · have hempty := (hr.isEmpty_schedule_iff hr.inStep).2 hentries
      rw [if_pos (hr'.schedule_eq_of_limited hentries hempty)] at hchanges
      rw [if_pos (Or.inr (by rw [overlooks, hentries]; rfl))]
      exact hchanges
    · have hempty : r.schedule.isEmpty = false := by
        rw [Bool.eq_false_iff]
        exact fun h => hentries ((hr.isEmpty_schedule_iff hr.inStep).1 h)
      refine hseen (schedule_limited_of_not_isEmpty hempty) rfl ?_
      rwa [overlooks, List.isEmpty_eq_false_iff]

end Registry

namespace Control

open Registry (Operation)

/-- The call on the registry that a message stands for, unless it only asks for something. -/
def Message.operation? : Message → Option Operation
  | .register client request => some (.register client request)
  | .unregister id => some (.unregister id)
  | .unregisterClient client => some (.unregisterClient client)
  | .setLimits limits => some (.setLimits limits)
  | .getSchedule | .getLimits | .getStats => none

/-- The call on the registry that a line stands for. -/
def operationOf? (line : String) : Option Operation :=
  match Message.parse line with
  | .ok m => m.operation?
  | .error _ => none

theorem perform_of_answer {r r' : Registry} {m : Message} {response : Response}
    (h : answer r m = some (response, r')) : m.operation?.elim (some r) r.perform = some r' := by
  cases m with
  | register client request =>
    obtain ⟨⟨result, q⟩, hcall, h⟩ := Option.bind_eq_some_iff.1 h
    have hq : q = r' := by cases result <;> cases h <;> rfl
    exact hq ▸ congrArg (Option.map Prod.snd) hcall
  | unregister id =>
    obtain ⟨⟨result, q⟩, hcall, h⟩ := Option.bind_eq_some_iff.1 h
    have hq : q = r' := by cases result <;> cases h <;> rfl
    exact hq ▸ congrArg (Option.map Prod.snd) hcall
  | unregisterClient client =>
    obtain ⟨⟨removed, q⟩, hcall, h⟩ := Option.bind_eq_some_iff.1 h
    cases h
    exact congrArg (Option.map Prod.snd) hcall
  | setLimits limits =>
    obtain ⟨⟨result, q⟩, hcall, h⟩ := Option.bind_eq_some_iff.1 h
    have hq : q = r' := by cases result <;> cases h <;> rfl
    exact hq ▸ congrArg (Option.map Prod.snd) hcall
  | getSchedule => cases h; rfl
  | getLimits => cases h; rfl
  | getStats => cases h; rfl

end Control

namespace Service

open Control

variable {config : Config} {notices : Json.Notices} {r r' : Registry} {line : String}
  {response : Response} {update : Option Schedule}

theorem answerLine_eq_some (h : answerLine notices r line = some (response, r', update)) :
    (operationOf? line).elim (some r) r.perform = some r' ∧
      update = if r'.stats.scheduleChanges = r.stats.scheduleChanges then none
        else some r'.schedule := by
  unfold answerLine at h
  unfold operationOf?
  cases hm : Message.parse line with
  | error e =>
    rw [hm] at h
    cases h
    exact ⟨rfl, (if_pos rfl).symm⟩
  | ok m =>
    rw [hm] at h
    obtain ⟨⟨answer, q⟩, hanswer, h⟩ := Option.bind_eq_some_iff.1 h
    cases h
    refine ⟨perform_of_answer hanswer, ?_⟩
    by_cases hsame : r'.stats.scheduleChanges = r.stats.scheduleChanges <;> simp [hsame]

theorem answerLine_of_parse {m : Message} (notices : Json.Notices)
    (hparse : Message.parse line = .ok m) (h : Control.answer r m = some (response, r')) :
    answerLine notices r line = some (response, r',
      if r'.stats.scheduleChanges = r.stats.scheduleChanges then none else some r'.schedule) := by
  by_cases hsame : r'.stats.scheduleChanges = r.stats.scheduleChanges <;>
    simp [answerLine, hparse, h, hsame]

theorem update_answerLine (hr : r.Consistent config)
    (h : answerLine notices r line = some (response, r', update)) :
    update = if r'.schedule = r.schedule ∨ (operationOf? line).any r.overlooks then none
      else some r'.schedule := by
  obtain ⟨hperform, rfl⟩ := answerLine_eq_some h
  cases hop : operationOf? line with
  | none =>
    rw [hop] at hperform
    cases hperform
    simp
  | some op =>
    rw [hop] at hperform
    have hcount := hr.toNat_scheduleChanges hperform
    refine if_congr ?_ rfl rfl
    rw [← UInt32.toNat_inj, hcount, Option.any_some]
    split_ifs with hsame
    · exact iff_of_true rfl hsame
    · exact iff_of_false (Nat.succ_ne_self _) hsame

end Service

end RadioScan
