import RadioScan.Proofs.RegistryRun
import Mathlib.Algebra.GroupWithZero.Nat

/-!
# A registry as a list

Seen from outside, a registry is a list of rows: a registration that is accepted appends one, and
what is taken back is deleted from it. What a call does to the list, and which counters it raises,
can be told from its answer alone. So the answers given since the start determine the rows and the
counters (`keepsLedger_history`), and a counter can only end after as many calls as it can count
(`exists_history`).
-/

namespace RadioScan

/-- A live request as it was registered. -/
structure Row where
  id : RequestId
  client : String
  request : Request
deriving DecidableEq

def Entry.row (e : Entry) : Row := ⟨e.id, e.client.text, e.request⟩

namespace Registry

def rows (r : Registry) : List Row := r.entries.map Entry.row

/-- A call together with its answer. -/
inductive Event
  | register (client : String) (request : Request) (result : Except AdmissionError RequestId)
  | unregister (id : RequestId) (result : Except AdmissionError Unit)
  | unregisterClient (client : String) (removed : Nat)
  | setLimits (limits : Limits) (result : Except ConfigError Unit)

namespace Event

/-- What an event makes of a list of rows. -/
def apply (rows : List Row) : Event → List Row
  | register client request (.ok id) => rows ++ [⟨id, client, request⟩]
  | unregister id (.ok ()) => rows.eraseP fun row => row.id == id
  | unregisterClient client _ => rows.filter fun row => row.client != client
  | _ => rows

def isRegistration : Event → Bool
  | register _ _ (.ok _) => true
  | _ => false

def isRejection : Event → Bool
  | register _ _ (.error _) => true
  | _ => false

/-- How many rows are deleted. -/
def removed : Event → Nat
  | unregister _ (.ok ()) => 1
  | unregisterClient _ n => n
  | _ => 0

/-- Requests or limits were altered, so that the schedule is computed anew. -/
def reschedules : Event → Bool
  | register _ _ (.ok _) => true
  | unregister _ (.ok ()) => true
  | unregisterClient _ n => n != 0
  | setLimits _ (.ok ()) => true
  | _ => false

end Event

/-- The answer to a call, and the registry after it. -/
def observe (r : Registry) : Operation → Option (Event × Registry)
  | .register client request =>
    (r.register client request).map fun p => (.register client request p.1, p.2)
  | .unregister id => (r.unregister id).map fun p => (.unregister id p.1, p.2)
  | .unregisterClient client =>
    (r.unregisterClient client).map fun p => (.unregisterClient client p.1, p.2)
  | .setLimits limits => (r.setLimits limits).map fun p => (.setLimits limits p.1, p.2)

/-- The answers to some calls, and the registry after them. -/
def history (r : Registry) : List Operation → Option (List Event × Registry)
  | [] => some ([], r)
  | op :: ops => (r.observe op).bind fun p => (p.2.history ops).map fun q => (p.1 :: q.1, q.2)

variable {r r' q : Registry} {op : Operation} {event : Event} {log : List Event}

theorem perform_eq_observe (r : Registry) (op : Operation) :
    r.perform op = (r.observe op).map Prod.snd := by
  cases op <;> simp only [perform, observe, Option.map_map] <;> rfl

theorem run_eq_history : ∀ (ops : List Operation) (r : Registry),
    r.run ops = (r.history ops).map Prod.snd
  | [], r => rfl
  | op :: ops, r => by
    rw [run, history, perform_eq_observe]
    cases r.observe op with
    | none => rfl
    | some p =>
      simp only [Option.map_some, Option.bind_some, run_eq_history ops p.2, Option.map_map]
      rfl

/-! ## What the answers tell -/

theorem rows_enrolled (r : Registry) {client : String} {tag : ClientTag} (request : Request)
    (n : UInt32) (htag : ClientTag.ofString? client = some tag) :
    (r.enrolled tag request n).rows = r.rows ++ [⟨r.nextId, client, request⟩] := by
  unfold ClientTag.ofString? at htag
  split_ifs at htag
  cases htag
  simp [rows, enrolled, Entry.row]

theorem rows_keeping_eraseIdx {id : RequestId} {i : Nat} (n : UInt32)
    (h : r.position? id = some i) :
    (r.keeping (r.entries.eraseIdx i) n).rows = r.rows.eraseP fun row => row.id == id := by
  have herase : r.entries.eraseP (fun e => e.id == id) = r.entries.eraseIdx i := by
    rw [List.eraseP_eq_eraseIdx]
    unfold position? at h
    rw [h]
  rw [rows, rows, List.eraseP_map, keeping, ← herase]
  rfl

theorem rows_keeping_filter (client : String) (n : UInt32) :
    (r.keeping (r.entries.filter fun e => e.client.text != client) n).rows
      = r.rows.filter fun row => row.client != client := by
  rw [rows, rows, List.filter_map, keeping]
  rfl

theorem Recomputed.rows_eq (h : Recomputed r r') : r'.rows = r.rows := by
  rw [rows, rows, h.entries_eq]

theorem position?_isSome_iff {id : RequestId} :
    (r.position? id).isSome ↔ ∃ row ∈ r.rows, row.id = id := by
  simp [position?, rows, Entry.row]

/-- The list of rows and the counters that the answers so far amount to. -/
structure Agrees (log : List Event) (r : Registry) : Prop where
  rows_eq : r.rows = log.foldl Event.apply []
  length_le : r.rows.length ≤ capacity
  totalRegistered_eq : r.stats.totalRegistered.toNat = log.countP Event.isRegistration
  totalRejected_eq : r.stats.totalRejected.toNat = log.countP Event.isRejection
  totalUnregistered_eq : r.stats.totalUnregistered.toNat = (log.map Event.removed).sum
  /-- What was registered is live or was taken back. -/
  live_eq : r.stats.totalRegistered.toNat = r.stats.totalUnregistered.toNat + r.rows.length
  currentlyRegistered_eq : r.stats.currentlyRegistered.toNat = r.rows.length
  recomputes_eq : r.stats.recomputes.toNat = log.countP Event.reschedules
  scheduleChanges_le : r.stats.scheduleChanges.toNat ≤ r.stats.recomputes.toNat

theorem agrees_ofScheduler (s : Scheduler) : Agrees [] (ofScheduler s) := by
  constructor <;> simp [ofScheduler, rows, Stats.zero]

/-- A refusal shows in the count of refusals, if at all. -/
theorem Agrees.refused (h : Agrees log r) (hrows : event.apply r.rows = r.rows)
    (hregistration : event.isRegistration = false) (hremoved : event.removed = 0)
    (hreschedules : event.reschedules = false) {n : UInt32}
    (hn : n.toNat = r.stats.totalRejected.toNat + if event.isRejection then 1 else 0) :
    Agrees (log ++ [event]) (r.refused n) where
  rows_eq := by
    rw [List.foldl_append, ← h.rows_eq]
    exact hrows.symm
  length_le := h.length_le
  totalRegistered_eq := by
    rw [List.countP_append, List.countP_singleton, hregistration]
    exact h.totalRegistered_eq
  totalRejected_eq := by
    rw [List.countP_append, List.countP_singleton, ← h.totalRejected_eq]
    exact hn
  totalUnregistered_eq := by
    rw [List.map_append, List.sum_append, List.map_singleton, List.sum_singleton, hremoved]
    exact h.totalUnregistered_eq
  live_eq := h.live_eq
  currentlyRegistered_eq := h.currentlyRegistered_eq
  recomputes_eq := by
    rw [List.countP_append, List.countP_singleton, hreschedules]
    exact h.recomputes_eq
  scheduleChanges_le := h.scheduleChanges_le

/-- What is altered before the schedule is computed anew are rows and their totals. -/
theorem Agrees.recomputed (h : Agrees log r) (hr : Recomputed q r')
    (hrows : q.rows = event.apply r.rows) (hlength : q.rows.length ≤ capacity)
    (hregistered : q.stats.totalRegistered.toNat
      = r.stats.totalRegistered.toNat + if event.isRegistration then 1 else 0)
    (hrejected : q.stats.totalRejected = r.stats.totalRejected)
    (hrejection : event.isRejection = false)
    (hunregistered : q.stats.totalUnregistered.toNat
      = r.stats.totalUnregistered.toNat + event.removed)
    (hlive : q.rows.length + event.removed
      = r.rows.length + if event.isRegistration then 1 else 0)
    (hreschedules : event.reschedules = true)
    (hrecomputes : q.stats.recomputes = r.stats.recomputes)
    (hchanges : q.stats.scheduleChanges = r.stats.scheduleChanges) :
    Agrees (log ++ [event]) r' where
  rows_eq := by
    rw [hr.rows_eq, hrows, List.foldl_append, ← h.rows_eq]
    rfl
  length_le := by rwa [hr.rows_eq]
  totalRegistered_eq := by
    rw [hr.totalRegistered_eq, hregistered, List.countP_append, List.countP_singleton,
      h.totalRegistered_eq]
  totalRejected_eq := by
    rw [hr.totalRejected_eq, hrejected, List.countP_append, List.countP_singleton, hrejection]
    exact h.totalRejected_eq
  totalUnregistered_eq := by
    rw [hr.totalUnregistered_eq, hunregistered, List.map_append, List.sum_append,
      List.map_singleton, List.sum_singleton, h.totalUnregistered_eq]
  live_eq := by
    have := h.live_eq
    rw [hr.totalRegistered_eq, hr.totalUnregistered_eq, hr.rows_eq, hregistered, hunregistered]
    omega
  currentlyRegistered_eq := by
    have hlt : q.entries.length < UInt8.size := by
      rw [rows, List.length_map] at hlength
      exact Nat.lt_of_le_of_lt hlength (by decide)
    rw [hr.currentlyRegistered_eq, UInt8.toNat_ofNat_of_lt' hlt, hr.rows_eq, rows, List.length_map]
  recomputes_eq := by
    rw [hr.toNat_recomputes, hrecomputes, List.countP_append, List.countP_singleton, hreschedules,
      h.recomputes_eq]
    rfl
  scheduleChanges_le := by
    have := h.scheduleChanges_le
    rw [hr.toNat_scheduleChanges, hr.toNat_recomputes, hchanges, hrecomputes]
    split_ifs <;> omega

theorem length_rows_keeping_eraseIdx {id : RequestId} {i : Nat} (n : UInt32)
    (h : r.position? id = some i) :
    (r.keeping (r.entries.eraseIdx i) n).rows.length + 1 = r.rows.length := by
  obtain ⟨hi, -⟩ := List.findIdx?_eq_some_iff_getElem.1 h
  simp only [rows, keeping, List.length_map, List.length_eraseIdx, if_pos hi]
  omega

theorem countP_rows (r : Registry) (client : String) :
    r.rows.countP (fun row => row.client == client)
      = r.entries.countP fun e => e.client.text == client := by
  rw [rows, List.countP_map]
  rfl

theorem length_rows_filter (rows : List Row) (client : String) :
    (rows.filter fun row => row.client != client).length
      + rows.countP (fun row => row.client == client) = rows.length := by
  have := List.length_eq_countP_add_countP (fun row : Row => row.client == client) (l := rows)
  simp only [Bool.not_eq_true, Bool.decide_eq_false] at this
  rw [← List.countP_eq_length_filter]
  simp only [bne]
  omega

/-- One call: its answer tells what has become of the rows and of the counters. -/
theorem agrees_observe (h : Agrees log r) (hobserve : r.observe op = some (event, r')) :
    Agrees (log ++ [event]) r' := by
  cases op with
  | register client request =>
    obtain ⟨⟨result, q⟩, hcall, heq⟩ := Option.map_eq_some_iff.1 hobserve
    cases heq
    obtain ⟨e, n, -, rfl, hn, rfl⟩ | ⟨tag, n, hadmitted, rfl, hn, hr⟩ := register_eq_some hcall
    · exact h.refused rfl rfl rfl rfl hn
    · obtain ⟨htag, -, hroom⟩ := admission_eq_ok hadmitted
      have hrows := rows_enrolled r request n htag
      have hlength : (r.enrolled tag request n).rows.length = r.rows.length + 1 := by
        rw [hrows, List.length_append, List.length_singleton]
      refine h.recomputed hr hrows ?_ hn rfl rfl rfl hlength rfl rfl rfl
      rw [hlength, rows, List.length_map]
      exact hroom
  | unregister id =>
    obtain ⟨⟨result, q⟩, hcall, heq⟩ := Option.map_eq_some_iff.1 hobserve
    cases heq
    obtain ⟨-, rfl, rfl⟩ | ⟨i, n, hi, rfl, hn, hr⟩ := unregister_eq_some hcall
    · exact h.refused rfl rfl rfl rfl rfl
    · have hlength := length_rows_keeping_eraseIdx n hi
      refine h.recomputed hr (rows_keeping_eraseIdx n hi) ?_ rfl rfl rfl hn hlength rfl rfl rfl
      have := h.length_le
      omega
  | unregisterClient client =>
    obtain ⟨⟨removed, q⟩, hcall, heq⟩ := Option.map_eq_some_iff.1 hobserve
    cases heq
    obtain ⟨hremoved, ⟨rfl, rfl⟩ | ⟨n, hpos, hn, hr⟩⟩ := unregisterClient_eq_some hcall
    · refine h.refused ?_ rfl rfl rfl rfl
      rw [← countP_rows, eq_comm, List.countP_eq_zero] at hremoved
      exact List.filter_eq_self.2 fun row hrow => by simpa using hremoved row hrow
    · have hlength := length_rows_filter r.rows client
      rw [← rows_keeping_filter client n, countP_rows, ← hremoved] at hlength
      refine h.recomputed hr (rows_keeping_filter client n) ?_ rfl rfl rfl hn hlength ?_ rfl rfl
      · have := h.length_le
        omega
      · exact bne_iff_ne.2 (Nat.ne_of_gt hpos)
  | setLimits limits =>
    obtain ⟨⟨result, q⟩, hcall, heq⟩ := Option.map_eq_some_iff.1 hobserve
    cases heq
    obtain ⟨e, -, rfl, rfl⟩ | ⟨-, rfl, hr⟩ := setLimits_eq_some hcall
    · exact h.refused rfl rfl rfl rfl rfl
    · exact h.recomputed hr rfl h.length_le rfl rfl rfl rfl rfl rfl rfl rfl

/-- What one more call and its answer keep holds after any history. -/
theorem history_induction {P : List Event → Registry → Prop}
    (hstep : ∀ log r op event r', P log r → r.observe op = some (event, r') →
      P (log ++ [event]) r') :
    ∀ (ops : List Operation) {before log : List Event} {r r' : Registry},
      P before r → r.history ops = some (log, r') → P (before ++ log) r'
  | [], before, log, r, r', h, hrun => by
    cases hrun
    rwa [List.append_nil]
  | op :: ops, before, log, r, r', h, hrun => by
    obtain ⟨⟨event, q⟩, hcall, hrun⟩ := Option.bind_eq_some_iff.1 hrun
    obtain ⟨⟨rest, q'⟩, hrest, heq⟩ := Option.map_eq_some_iff.1 hrun
    cases heq
    have hlast := history_induction hstep ops (hstep _ _ _ _ _ h hcall) hrest
    rwa [List.append_assoc, List.singleton_append] at hlast

theorem agrees_history {before : List Event} (ops : List Operation) (h : Agrees before r)
    (hrun : r.history ops = some (log, r')) : Agrees (before ++ log) r' :=
  history_induction (fun _ _ _ _ _ => agrees_observe) ops h hrun

/-! ## No counter ends early -/

theorem exists_recompute (hrecomputes : r.stats.recomputes.toNat + 1 < UInt32.size)
    (hchanges : r.stats.scheduleChanges.toNat + 1 < UInt32.size) : ∃ r', r.recompute = some r' := by
  obtain ⟨m, hm⟩ := exists_raise hrecomputes
  have hchange (b : Bool) : r.stats.scheduleChanges.toNat + (if b then 1 else 0) < UInt32.size := by
    split_ifs <;> omega
  obtain ⟨n, hn⟩ := exists_raise (hchange (r.scheduler.wouldChange r.requests))
  refine Option.isSome_iff_exists.1 ?_
  simp only [recompute, hm, hn]
  rfl

theorem exists_register (hregistered : r.stats.totalRegistered.toNat + 1 < UInt32.size)
    (hrejected : r.stats.totalRejected.toNat + 1 < UInt32.size)
    (hrecomputes : r.stats.recomputes.toNat + 1 < UInt32.size)
    (hchanges : r.stats.scheduleChanges.toNat + 1 < UInt32.size) (client : String)
    (request : Request) : ∃ result r', r.register client request = some (result, r') := by
  cases hadmission : r.admission client request with
  | error e =>
    obtain ⟨n, hn⟩ := exists_raise hrejected
    simp [register, hadmission, hn]
  | ok tag =>
    obtain ⟨n, hn⟩ := exists_raise hregistered
    obtain ⟨r', hr⟩ := exists_recompute (r := r.enrolled tag request n) hrecomputes hchanges
    unfold enrolled at hr
    simp [register, hadmission, hn, hr]

/-- Each counter has counted some of the calls so far, and none is counted twice. -/
theorem exists_observe (h : Agrees log r) (hlog : log.length + 1 < UInt32.size)
    (op : Operation) : ∃ event r', r.observe op = some (event, r') := by
  have hregistered := List.countP_le_length (p := Event.isRegistration) (l := log)
  have hrejected := List.countP_le_length (p := Event.isRejection) (l := log)
  have hrecomputes := List.countP_le_length (p := Event.reschedules) (l := log)
  rw [← h.totalRegistered_eq] at hregistered
  rw [← h.totalRejected_eq] at hrejected
  rw [← h.recomputes_eq] at hrecomputes
  have hchanges := h.scheduleChanges_le
  have hlive := h.live_eq
  have hrecompute (q : Registry) (hr : q.stats.recomputes = r.stats.recomputes)
      (hc : q.stats.scheduleChanges = r.stats.scheduleChanges) : ∃ r', q.recompute = some r' :=
    exists_recompute (by rw [hr]; omega) (by rw [hc]; omega)
  cases op with
  | register client request =>
    obtain ⟨result, r', hcall⟩ := exists_register (r := r) (by omega) (by omega) (by omega)
      (by omega) client request
    exact ⟨_, _, by rw [observe, hcall]; rfl⟩
  | unregister id =>
    cases hposition : r.position? id with
    | none => simp [observe, unregister, hposition]
    | some i =>
      have hlength := length_rows_keeping_eraseIdx 0 hposition
      obtain ⟨n, hn⟩ := exists_raise (c := r.stats.totalUnregistered) (n := 1) (by omega)
      obtain ⟨r', hr⟩ := hrecompute (r.keeping (r.entries.eraseIdx i) n) rfl rfl
      unfold keeping at hr
      simp [observe, unregister, hposition, hn, hr]
  | unregisterClient client =>
    have hcount := List.countP_le_length (p := fun row : Row => row.client == client) (l := r.rows)
    rw [countP_rows] at hcount
    by_cases hzero : (r.entries.countP fun e => e.client.text == client) = 0
    · simp [observe, unregisterClient, hzero]
    · obtain ⟨n, hn⟩ := exists_raise (c := r.stats.totalUnregistered)
        (n := r.entries.countP fun e => e.client.text == client) (by omega)
      obtain ⟨r', hr⟩ :=
        hrecompute (r.keeping (r.entries.filter fun e => e.client.text != client) n) rfl rfl
      unfold keeping at hr
      simp [observe, unregisterClient, hzero, hn, hr]
  | setLimits limits =>
    cases hfault : limits.fault? with
    | some e => simp [observe, setLimits, hfault]
    | none =>
      obtain ⟨r', hr⟩ := hrecompute (r.limited limits) rfl rfl
      unfold limited at hr
      simp [observe, setLimits, hfault, hr]

theorem exists_history : ∀ (ops : List Operation) {before : List Event} {r : Registry},
    Agrees before r → before.length + ops.length < UInt32.size →
      ∃ log r', r.history ops = some (log, r')
  | [], before, r, h, hlength => ⟨[], r, rfl⟩
  | op :: ops, before, r, h, hlength => by
    rw [List.length_cons] at hlength
    obtain ⟨event, q, hcall⟩ := exists_observe h (by omega) op
    obtain ⟨log, r', hrest⟩ := exists_history ops (agrees_observe h hcall)
      (by rw [List.length_append, List.length_singleton]; omega)
    exact ⟨event :: log, r', by rw [history, hcall, Option.bind_some, hrest]; rfl⟩

/-- A new registry answers as many calls as a counter can count. -/
theorem exists_run_ofScheduler (s : Scheduler) {ops : List Operation}
    (h : ops.length < UInt32.size) : ∃ r, (ofScheduler s).run ops = some r := by
  obtain ⟨log, r, hlog⟩ := exists_history ops (agrees_ofScheduler s) (by simpa using h)
  exact ⟨r, by rw [run_eq_history, hlog, Option.map_some]⟩

/-! ## Runs -/

theorem WellKept.ids_nodup (hr : r.WellKept) : (r.rows.map Row.id).Nodup := by
  rw [rows, List.map_map]
  exact List.pairwise_map.2 (hr.ids_ascend.imp fun h => UInt32.ne_of_lt h)

theorem WellKept.countP_id (hr : r.WellKept) {id : RequestId} (h : ∃ row ∈ r.rows, row.id = id) :
    r.rows.countP (fun row => row.id == id) = 1 := by
  have hcount := List.count_eq_one_of_mem hr.ids_nodup (List.mem_map.2 h)
  rwa [List.count, List.countP_map] at hcount

theorem unregister_eq_ok_iff {id : RequestId} {result : Except AdmissionError Unit}
    (h : r.unregister id = some (result, r')) :
    result = .ok () ↔ ∃ row ∈ r.rows, row.id = id := by
  rw [← position?_isSome_iff]
  obtain ⟨hnone, rfl, -⟩ | ⟨i, n, hi, rfl, -⟩ := unregister_eq_some h
  · simp [hnone]
  · simp [hi]

/-- The registry is a list of rows with counters, as the answers so far tell it, and every further
call treats it as such. -/
structure KeepsLedger (log : List Event) (r : Registry) : Prop extends Agrees log r where
  unregister_ok_iff : ∀ id result r', r.unregister id = some (result, r') →
    (result = .ok () ↔ ∃ row ∈ r.rows, row.id = id)
  /-- There is never more than one row to delete. -/
  unregister_single : ∀ id r', r.unregister id = some (.ok (), r') →
    r.rows.countP (fun row => row.id == id) = 1
  unregister_failed : ∀ id e r', r.unregister id = some (.error e, r') →
    e = .unknownRequest id ∧ r' = r
  removed_eq : ∀ client n r', r.unregisterClient client = some (n, r') →
    n = r.rows.countP fun row => row.client == client
  nothing_removed : ∀ client r', r.unregisterClient client = some (0, r') → r' = r
  limits_refused : ∀ limits e r', r.setLimits limits = some (.error e, r') → r' = r

theorem Agrees.keepsLedger (h : Agrees log r) (hr : r.WellKept) : r.KeepsLedger log where
  toAgrees := h
  unregister_ok_iff _ _ _ := unregister_eq_ok_iff
  unregister_single _ _ hcall := hr.countP_id ((unregister_eq_ok_iff hcall).1 rfl)
  unregister_failed _ _ _ hcall := by
    obtain ⟨-, heq, rfl⟩ | ⟨i, n, -, heq, -⟩ := unregister_eq_some hcall
    · cases heq
      exact ⟨rfl, rfl⟩
    · cases heq
  removed_eq client _ _ hcall :=
    (unregisterClient_eq_some hcall).1.trans (countP_rows r client).symm
  nothing_removed _ _ hcall := by
    obtain ⟨-, ⟨-, rfl⟩ | ⟨n, hpos, -⟩⟩ := unregisterClient_eq_some hcall
    · rfl
    · exact absurd hpos (Nat.lt_irrefl 0)
  limits_refused _ _ _ hcall := by
    obtain ⟨-, -, -, rfl⟩ | ⟨-, heq, -⟩ := setLimits_eq_some hcall
    · rfl
    · cases heq

theorem wellKept_history {ops : List Operation} (hr : r.WellKept)
    (h : r.history ops = some (log, r')) : r'.WellKept := by
  refine run_induction (fun _ _ _ hr => hr.perform) ops hr ?_
  rw [run_eq_history, h, Option.map_some]

/-- A new registry around any scheduler, after any calls. -/
theorem keepsLedger_history (catalog : Catalog) (settings : List Scheduler.Operation)
    (ops : List Operation)
    (h : (ofScheduler ((Scheduler.ofCatalog catalog).run settings)).history ops = some (log, r)) :
    r.KeepsLedger log := by
  have hkept := wellKept_ofScheduler (Scheduler.inRange_run catalog settings)
  exact (agrees_history ops (agrees_ofScheduler _) h).keepsLedger (wellKept_history hkept h)

theorem keepsLedger_history_turns : ∃ log r,
    (ofScheduler ((Scheduler.ofCatalog .standard).run [.setMaxBuckets 2])).history
      [.register "a" (.ofScope (.band ⟨1⟩) 20000), .register "" (.ofScope (.band ⟨1⟩) 20000),
        .register "b" (.ofScope (.channels [5180]) 40000), .unregister 7, .unregisterClient "c",
        .setLimits { Limits.standard with maxBuckets := 0 }, .setLimits .standard, .unregister 1,
        .unregisterClient "b"] = some (log, r) ∧ r.KeepsLedger log := by
  refine Exists.imp (fun _ => Exists.imp fun _ h => ⟨h, keepsLedger_history _ _ _ h⟩) ?_
  exact exists_history _ (agrees_ofScheduler _) (by decide)

end Registry

end RadioScan
