import RadioScan.Proofs.RegistryLedger
import RadioScan.Proofs.ResponseSize
import RadioScan.Proofs.ScheduleChanges

/-!
# Answers are short

A registry that was made for a configuration and has only been changed by messages is one that the
scheduler keeps below the ceilings, so its schedule lists few frequencies, and every refusal has a
short reason. Hence the response to any further message fits, and so does the announcement of the
schedule (`isShort_answer`, `Consistent.isShort_scheduleUpdate`). There is a response as long as no
counter of the registry ends (`exists_answer`).
-/

namespace RadioScan

open Control (Message Response Session)

theorem ChannelSet.size_le_word (s : ChannelSet) : s.size ≤ UInt32.size := by
  have hsub : s.toList.map UInt32.toNat ⊆ List.range UInt32.size := by
    intro n hn
    obtain ⟨f, -, rfl⟩ := List.mem_map.1 hn
    exact List.mem_range.2 f.toNat_lt
  have hnodup : (s.toList.map UInt32.toNat).Nodup :=
    s.nodup.map fun _ _ h => UInt32.toNat_inj.1 h
  have hle := (hnodup.subperm hsub).length_le
  rwa [List.length_map, List.length_range] at hle

/-! ## Schedules -/

theorem ChannelSet.listed_toScope (s : ChannelSet) (c : Catalog) :
    (s.toScope c).listed ≤ s.size := by
  rcases s.toScope_cases c with ⟨h, -, -⟩ | h
  · rw [h]
    exact Nat.zero_le _
  · rw [h]
    exact Nat.le_refl _

namespace Plan

theorem listed_toBucket (catalog : Catalog) : ∀ cs : List Candidate,
    ((cs.map (toBucket catalog)).map fun b => b.scope.listed).sum ≤ totalChannels cs
  | [] => Nat.le_refl 0
  | c :: cs => by
    have hc := c.channels.listed_toScope catalog
    exact Nat.add_le_add hc (listed_toBucket catalog cs)

end Plan

/-- The buckets of an update list no more frequencies than the limits allow channels. -/
theorem Scheduler.listed_update {s : Scheduler} (h : s.limits.InRange) (rs : List Request) :
    (s.update rs).schedule.listed ≤ s.limits.maxChannels.toNat := by
  have hbuckets := Plan.listed_toBucket s.settings.catalog (Plan.arranged s.settings rs)
  rw [← buckets_update h, Plan.totalChannels_arranged] at hbuckets
  exact hbuckets.trans (Plan.totalChannels_candidates_le _ _)

namespace Registry

variable {config : Config} {r : Registry}

theorem Consistent.listed_le (hr : r.Consistent config) :
    r.schedule.listed ≤ Hardware.maxChannels := by
  have hlisted := Scheduler.listed_update hr.inRange r.requests
  rw [hr.inStep] at hlisted
  exact hlisted.trans hr.inRange.maxChannels_le

theorem Consistent.isShort_scheduleUpdate (hr : r.Consistent config) :
    (Response.scheduleUpdate r.schedule).IsShort where
  listed_le _ hs := by
    cases hs
    exact hr.listed_le
  message_le _ hm := by cases hm

end Registry

/-! ## Responses -/

theorem Catalog.length_expand_channels_le (c : Catalog) (fs : List Frequency) :
    (c.expand (.channels fs)).length ≤ UInt32.size :=
  (ChannelSet.ofList fs).size_le_word

theorem Settings.count_le_of_requestFault? {s : Settings} {r : Request} {n : Nat}
    (h : s.requestFault? r = some (.tooManyChannels n)) : n ≤ UInt32.size := by
  simp only [requestFault?, Option.orElse_eq_orElse, Option.orElse_eq_or,
    Option.or_eq_some_iff] at h
  rcases h with h | ⟨-, h | ⟨-, h⟩⟩
  · unfold periodFault? at h
    split_ifs at h <;> cases h
  · unfold scopeFault? at h
    split at h
    · split_ifs at h
      cases h
    · next fs hfs =>
      dsimp only at h
      split_ifs at h with hnil
      · cases h
      · cases h
        rw [hfs]
        exact s.catalog.length_expand_channels_le fs
  · unfold Request.backoffFault? at h
    split_ifs at h
    cases h

/-- A registration is refused for a reason that is soon told. -/
theorem Registry.size_admission {r : Registry} {client : String} {request : Request}
    {e : AdmissionError} (h : r.admission client request = .error e) :
    e.message.utf8ByteSize ≤ 100 := by
  refine AdmissionError.size_message ?_
  rintro n rfl
  refine Nat.lt_of_le_of_lt ?_ (show UInt32.size < 10 ^ 10 by decide)
  unfold admission at h
  split at h
  · cases h
  · split at h
    · next hfault =>
      cases h
      exact Settings.count_le_of_requestFault? hfault
    · split_ifs at h
      cases h

namespace Control

open Registry (Agrees)

variable {config : Config} {r r' : Registry} {m : Message} {response : Response}

theorem Response.isShort_of_eq_none {r : Response} (hschedule : r.schedule = none)
    (hmessage : r.message = none) : r.IsShort where
  listed_le s hs := by
    rw [hschedule] at hs
    cases hs
  message_le m hm := by
    rw [hmessage] at hm
    cases hm

theorem Response.isShort_withMessage (status : Status) {text : String}
    (h : text.utf8ByteSize ≤ 100) : (Response.withMessage status text).IsShort where
  listed_le s hs := by cases hs
  message_le m hm := by
    cases hm
    exact h

theorem size_removed {n : Nat} (h : n < UInt32.size) :
    s!"{n} request(s) removed".utf8ByteSize ≤ 100 := by
  have hpart : (toString " request(s) removed").utf8ByteSize = 19 := by decide
  have hn := Json.utf8ByteSize_toString (k := 10) (by decide) (Nat.lt_trans h (by decide))
  simp only [String.utf8ByteSize_append]
  omega

theorem isShort_answer (hr : r.Consistent config) (h : answer r m = some (response, r')) :
    response.IsShort := by
  cases m with
  | register client request =>
    obtain ⟨⟨result, q⟩, hcall, h⟩ := Option.bind_eq_some_iff.1 h
    obtain ⟨e, -, hadmission, rfl, -⟩ | ⟨-, -, -, rfl, -⟩ := Registry.register_eq_some hcall
    · cases h
      exact Response.isShort_withMessage _ (Registry.size_admission hadmission)
    · cases h
      exact Response.isShort_of_eq_none rfl rfl
  | unregister id =>
    obtain ⟨⟨result, q⟩, hcall, h⟩ := Option.bind_eq_some_iff.1 h
    obtain ⟨-, rfl, -⟩ | ⟨-, -, -, rfl, -⟩ := Registry.unregister_eq_some hcall
    · cases h
      exact Response.isShort_withMessage _ (AdmissionError.size_message fun n hn => by cases hn)
    · cases h
      exact Response.isShort_of_eq_none rfl rfl
  | unregisterClient client =>
    obtain ⟨⟨removed, q⟩, hcall, h⟩ := Option.bind_eq_some_iff.1 h
    cases h
    refine Response.isShort_withMessage _ (size_removed ?_)
    obtain ⟨-, ⟨rfl, -⟩ | ⟨n, -, hn, -⟩⟩ := Registry.unregisterClient_eq_some hcall
    · decide
    · exact Nat.lt_of_le_of_lt (by omega) n.toNat_lt
  | setLimits limits =>
    obtain ⟨⟨result, q⟩, hcall, h⟩ := Option.bind_eq_some_iff.1 h
    obtain ⟨e, hfault, rfl, -⟩ | ⟨-, rfl, -⟩ := Registry.setLimits_eq_some hcall
    · cases h
      exact Response.isShort_withMessage _ (Limits.size_fault hfault)
    · cases h
      exact Response.isShort_of_eq_none rfl rfl
  | getSchedule =>
    cases h
    have hpush := hr.isShort_scheduleUpdate
    exact ⟨hpush.listed_le, hpush.message_le⟩
  | getLimits =>
    cases h
    exact Response.isShort_of_eq_none rfl rfl
  | getStats =>
    cases h
    exact Response.isShort_of_eq_none rfl rfl

theorem status_answer (h : answer r m = some (response, r')) :
    response.status ≠ .invalidMessage := by
  cases m with
  | register client request =>
    obtain ⟨⟨_ | _, q⟩, -, h⟩ := Option.bind_eq_some_iff.1 h <;> cases h <;> nofun
  | unregister id =>
    obtain ⟨⟨_ | _, q⟩, -, h⟩ := Option.bind_eq_some_iff.1 h <;> cases h <;> nofun
  | unregisterClient client =>
    obtain ⟨⟨n, q⟩, -, h⟩ := Option.bind_eq_some_iff.1 h
    cases h
    nofun
  | setLimits limits =>
    obtain ⟨⟨_ | _, q⟩, -, h⟩ := Option.bind_eq_some_iff.1 h <;> cases h <;> nofun
  | getSchedule | getLimits | getStats =>
    cases h
    nofun

theorem consistent_answer (hr : r.Consistent config) (h : answer r m = some (response, r')) :
    r'.Consistent config := by
  have hperform := perform_of_answer h
  cases hop : m.operation? with
  | none =>
    rw [hop] at hperform
    cases hperform
    exact hr
  | some op =>
    rw [hop] at hperform
    exact hr.perform hperform

/-- The registry is what at most `n` answers have made of it. -/
def Counted (n : Nat) (r : Registry) : Prop := ∃ log, Agrees log r ∧ log.length ≤ n

theorem counted_ofScheduler (s : Scheduler) : Counted 0 (.ofScheduler s) :=
  ⟨[], Registry.agrees_ofScheduler s, Nat.le_refl 0⟩

theorem isSome_answer (r : Registry) (m : Message) :
    (answer r m).isSome = (m.operation?.elim (some r) r.perform).isSome := by
  cases m with
  | register client request =>
    simp only [answer, Message.operation?, Option.elim_some, Registry.perform, Option.isSome_map]
    rcases r.register client request with _ | ⟨_ | _, q⟩ <;> rfl
  | unregister id =>
    simp only [answer, Message.operation?, Option.elim_some, Registry.perform, Option.isSome_map]
    rcases r.unregister id with _ | ⟨_ | _, q⟩ <;> rfl
  | unregisterClient client =>
    simp only [answer, Message.operation?, Option.elim_some, Registry.perform, Option.isSome_map]
    rcases r.unregisterClient client with _ | ⟨n, q⟩ <;> rfl
  | setLimits limits =>
    simp only [answer, Message.operation?, Option.elim_some, Registry.perform, Option.isSome_map]
    rcases r.setLimits limits with _ | ⟨_ | _, q⟩ <;> rfl
  | getSchedule => rfl
  | getLimits => rfl
  | getStats => rfl

/-- A counter ends only after as many messages as it can count. -/
theorem exists_answer {n : Nat} (h : Counted n r) (hn : n + 1 < UInt32.size) (m : Message) :
    ∃ response r', answer r m = some (response, r') ∧ Counted (n + 1) r' := by
  obtain ⟨log, hlog, hlength⟩ := h
  have hperform : ∃ q, m.operation?.elim (some r) r.perform = some q ∧ Counted (n + 1) q := by
    cases m.operation? with
    | none => exact ⟨r, rfl, log, hlog, Nat.le_succ_of_le hlength⟩
    | some op =>
      obtain ⟨event, q, hcall⟩ := Registry.exists_observe hlog (by omega) op
      refine ⟨q, ?_, log ++ [event], Registry.agrees_observe hlog hcall, ?_⟩
      · rw [Option.elim_some, Registry.perform_eq_observe, hcall, Option.map_some]
      · rw [List.length_append, List.length_singleton]
        omega
  obtain ⟨q, hq, hcounted⟩ := hperform
  have hsome := isSome_answer r m
  rw [hq, Option.isSome_some, Option.isSome_iff_exists] at hsome
  obtain ⟨⟨response, r'⟩, hanswer⟩ := hsome
  have hq' := perform_of_answer hanswer
  rw [hq, Option.some.injEq] at hq'
  exact ⟨response, r', hanswer, hq' ▸ hcounted⟩

/-! ## Sessions -/

namespace Session

/-- Handles messages one after the other. -/
def handleAll (s : Session) : List Message → Option Session
  | [] => some s
  | m :: ms => (s.handle m).bind fun p => p.2.handleAll ms

theorem handle_eq_some {s t : Session} (h : s.handle m = some (response, t)) :
    answer s.registry m = some (response, t.registry) := by
  obtain ⟨⟨response', q⟩, hanswer, h⟩ := Option.bind_eq_some_iff.1 h
  cases h
  exact hanswer

theorem consistent_handleAll : ∀ (ms : List Message) {s t : Session},
    s.registry.Consistent config → s.handleAll ms = some t → t.registry.Consistent config
  | [], s, t, hs, h => by
    cases h
    exact hs
  | m :: ms, s, t, hs, h => by
    obtain ⟨⟨response, u⟩, hm, h⟩ := Option.bind_eq_some_iff.1 h
    exact consistent_handleAll ms (consistent_answer hs (handle_eq_some hm)) h

theorem exists_handleAll : ∀ (ms : List Message) {n : Nat} {s : Session},
    Counted n s.registry → n + ms.length < UInt32.size →
      ∃ t, s.handleAll ms = some t ∧ Counted (n + ms.length) t.registry
  | [], n, s, hs, h => ⟨s, rfl, hs⟩
  | m :: ms, n, s, hs, h => by
    rw [List.length_cons] at h
    obtain ⟨response, r', hanswer, hcounted⟩ := exists_answer hs (by omega) m
    obtain ⟨t, ht, hlast⟩ :=
      exists_handleAll ms (s := ⟨r', s.handled + 1⟩) hcounted (by omega)
    rw [Nat.add_right_comm] at hlast
    exact ⟨t, by simp [handleAll, handle, hanswer, ht], hlast⟩

end Session

end Control

end RadioScan
