import RadioScan.Proofs.RegistryHistory
import RadioScan.Proofs.RegistryLedger
import Mathlib.Data.List.Pairwise

/-!
# The numbers of requests

Requests are numbered from one on, in the order in which they are registered (`numbered_history`):
the count of registrations ends before the words for numbers are used up, so that no number is given
twice. Whoever names a number means the one request that it was given for, and taking back a number
or asking for its bucket concerns that request alone (`unambiguous_history`).
-/

namespace RadioScan.Registry

/-- The number that an answer gives to a request. -/
def Event.issued? : Event → Option RequestId
  | register _ _ (.ok id) => some id
  | _ => none

/-- The numbers given so far, in the order in which they were given. -/
def issued (log : List Event) : List RequestId := log.filterMap Event.issued?

/-- The numbers given so far are one, two, three and so on. -/
def Numbered (log : List Event) : Prop :=
  (issued log).map UInt32.toNat = List.range' 1 (issued log).length

variable {r r' : Registry} {op : Operation} {event : Event} {log : List Event}
  {client : String} {request : Request} {id : RequestId}

/-! ## Numbers given -/

theorem isRegistration_eq (event : Event) : event.isRegistration = event.issued?.isSome := by
  cases event with
  | register client request result => cases result <;> rfl
  | unregister id result => rfl
  | unregisterClient client removed => rfl
  | setLimits limits result => rfl

theorem Agrees.length_issued (h : Agrees log r) :
    (issued log).length = r.stats.totalRegistered.toNat := by
  rw [h.totalRegistered_eq, issued, List.length_filterMap_eq_countP]
  exact List.countP_congr fun event _ => by rw [isRegistration_eq]

/-- A number is given as long as the registration can be counted. -/
theorem issued?_observe (h : r.observe op = some (event, r')) (hid : event.issued? = some id) :
    id = r.nextId ∧ r.stats.totalRegistered.toNat + 1 < UInt32.size := by
  cases op with
  | register client request =>
    obtain ⟨⟨result, q⟩, hcall, heq⟩ := Option.map_eq_some_iff.1 h
    cases heq
    obtain ⟨e, n, -, rfl, -⟩ | ⟨tag, n, -, rfl, hn, -⟩ := register_eq_some hcall
    · cases hid
    · cases hid
      exact ⟨rfl, hn ▸ n.toNat_lt⟩
  | _ =>
    obtain ⟨p, -, heq⟩ := Option.map_eq_some_iff.1 h
    cases heq
    cases hid

theorem numbered_observe (hr : r.WellKept) (h : Agrees log r) (hlog : Numbered log)
    (hobserve : r.observe op = some (event, r')) : Numbered (log ++ [event]) := by
  unfold Numbered issued at *
  rw [List.filterMap_append]
  cases hid : event.issued? with
  | none => simpa [hid] using hlog
  | some id =>
    obtain ⟨rfl, hroom⟩ := issued?_observe hobserve hid
    have hnext : r.nextId.toNat = 1 + (log.filterMap Event.issued?).length := by
      rw [hr.toNat_nextId hroom, ← h.length_issued, Nat.add_comm]
      rfl
    simp only [List.filterMap_cons, hid, List.filterMap_nil, List.map_append, hlog, List.map_cons,
      List.map_nil, hnext, List.length_append, List.length_singleton, List.range'_1_concat]

/-- What is carried along a run: the numbers, and what the next one depends on. -/
theorem numbered_history (ops : List Operation) (hr : r.WellKept) (h : Agrees [] r)
    (hrun : r.history ops = some (log, r')) : Numbered log := by
  refine (history_induction (P := fun log r => r.WellKept ∧ Agrees log r ∧ Numbered log) ?_ ops
    ⟨hr, h, rfl⟩ hrun).2.2
  rintro log r op event r' ⟨hr, h, hlog⟩ hcall
  have hperform : r.perform op = some r' := by
    rw [perform_eq_observe, hcall, Option.map_some]
  exact ⟨hr.perform hperform, agrees_observe h hcall, numbered_observe hr h hlog hcall⟩

theorem Numbered.nodup (h : Numbered log) : (issued log).Nodup :=
  List.Nodup.of_map UInt32.toNat (h ▸ List.nodup_range' 1)

theorem Numbered.ne_zero (h : Numbered log) (hid : id ∈ issued log) : id ≠ 0 := by
  rintro rfl
  have hmem : (0 : RequestId).toNat ∈ List.range' 1 (issued log).length :=
    h ▸ List.mem_map_of_mem hid
  rw [List.mem_range'_1, UInt32.toNat_zero] at hmem
  omega

/-- Two answers that give the same number are the same answer. -/
theorem Numbered.eq_of_issued? (h : Numbered log) {e e' : Event} (he : e ∈ log) (he' : e' ∈ log)
    (hid : e.issued? = some id) (hid' : e'.issued? = some id) : e = e' := by
  by_contra hne
  have hpw := List.pairwise_filterMap.1 h.nodup
  have hsymm : Std.Symm fun e e' : Event =>
      ∀ id, e.issued? = some id → ∀ id', e'.issued? = some id' → id ≠ id' :=
    ⟨fun _ _ hdiff id hid id' hid' heq => hdiff id' hid' id hid heq.symm⟩
  exact hpw.forall he he' hne id hid id hid' rfl

/-! ## What a number means -/

theorem mem_apply {row : Row} {rows : List Row} (h : row ∈ event.apply rows) :
    row ∈ rows ∨ event = .register row.client row.request (.ok row.id) := by
  cases event with
  | register client request result =>
    cases result with
    | error e => exact .inl h
    | ok id =>
      rcases List.mem_append.1 h with h | h
      · exact .inl h
      · rw [List.mem_singleton.1 h]
        exact .inr rfl
  | unregister id result =>
    cases result with
    | error e => exact .inl h
    | ok _ => exact .inl (List.mem_of_mem_eraseP h)
  | unregisterClient client removed => exact .inl (List.mem_filter.1 h).1
  | setLimits limits result => exact .inl h

theorem mem_foldl_apply {row : Row} : ∀ (log : List Event) {rows : List Row},
    row ∈ log.foldl Event.apply rows →
      row ∈ rows ∨ .register row.client row.request (.ok row.id) ∈ log
  | [], rows, h => .inl h
  | event :: log, rows, h => by
    rcases mem_foldl_apply log h with h | h
    · rcases mem_apply h with h | rfl
      · exact .inl h
      · exact .inr List.mem_cons_self
    · exact .inr (List.mem_cons_of_mem _ h)

/-- Every live request was registered under its number. -/
theorem Agrees.issued_of_mem (h : Agrees log r) {row : Row} (hrow : row ∈ r.rows) :
    .register row.client row.request (.ok row.id) ∈ log := by
  rw [h.rows_eq] at hrow
  exact (mem_foldl_apply log hrow).resolve_left List.not_mem_nil

/-- The live request with a number is the one that the number was given for. -/
theorem Agrees.row_eq (h : Agrees log r) (hlog : Numbered log)
    (hissued : .register client request (.ok id) ∈ log) {row : Row} (hrow : row ∈ r.rows)
    (hid : row.id = id) : row = ⟨id, client, request⟩ := by
  subst hid
  have heq := hlog.eq_of_issued? (h.issued_of_mem hrow) hissued rfl rfl
  simp only [Event.register.injEq] at heq
  obtain ⟨hclient, hrequest, -⟩ := heq
  cases row
  simp_all

theorem eraseP_congr {α : Type} {p q : α → Bool} : ∀ {l : List α}, (∀ a ∈ l, p a = q a) →
    l.eraseP p = l.eraseP q
  | [], _ => rfl
  | a :: l, h => by
    obtain ⟨ha, hl⟩ := List.forall_mem_cons.1 h
    rw [List.eraseP_cons, List.eraseP_cons, ha, eraseP_congr hl]

/-- Deleting by number is deleting the one request that the number was given for. -/
theorem Agrees.eraseP_rows (h : Agrees log r) (hlog : Numbered log)
    (hissued : .register client request (.ok id) ∈ log) :
    r.rows.eraseP (fun row => row.id == id) = r.rows.erase ⟨id, client, request⟩ := by
  rw [List.erase_eq_eraseP']
  refine eraseP_congr fun row hrow => ?_
  rw [Bool.eq_iff_iff, beq_iff_eq, beq_iff_eq]
  refine ⟨h.row_eq hlog hissued hrow, ?_⟩
  rintro rfl
  rfl

theorem Agrees.exists_id_iff (h : Agrees log r) (hlog : Numbered log)
    (hissued : .register client request (.ok id) ∈ log) :
    (∃ row ∈ r.rows, row.id = id) ↔ ⟨id, client, request⟩ ∈ r.rows := by
  constructor
  · rintro ⟨row, hrow, hid⟩
    rwa [← h.row_eq hlog hissued hrow hid]
  · exact fun hmem => ⟨_, hmem, rfl⟩

/-- Taking back a number takes back its request if that is still live, and is refused if not. -/
theorem Agrees.unregister_issued (h : Agrees log r) (hlog : Numbered log)
    (hissued : .register client request (.ok id) ∈ log) {result : Except AdmissionError Unit}
    (hcall : r.unregister id = some (result, r')) :
    (result = .ok () ↔ ⟨id, client, request⟩ ∈ r.rows) ∧
      r'.rows = r.rows.erase ⟨id, client, request⟩ := by
  refine ⟨(unregister_eq_ok_iff hcall).trans (h.exists_id_iff hlog hissued), ?_⟩
  rw [← h.eraseP_rows hlog hissued]
  obtain ⟨hnone, -, rfl⟩ | ⟨i, n, hi, -, -, hr⟩ := unregister_eq_some hcall
  · have hgone : ¬ ∃ row ∈ r'.rows, row.id = id := by
      rw [← position?_isSome_iff, hnone]
      exact Bool.false_ne_true
    refine (List.eraseP_of_forall_not fun row hrow hid => hgone ⟨row, hrow, ?_⟩).symm
    simpa using hid
  · rw [hr.rows_eq, rows_keeping_eraseIdx n hi]

/-- The bucket of a live request is the one that an update with the live requests gives it. -/
theorem WellKept.bucketFor?_eq (hr : r.WellKept) (hstep : r.InStep) {i : Nat} {row : Row}
    (hrow : r.rows[i]? = some row) :
    r.bucketFor? row.id = (r.scheduler.update r.requests).bucket? i := by
  rw [rows, List.getElem?_map, Option.map_eq_some_iff] at hrow
  obtain ⟨e, he, rfl⟩ := hrow
  rw [bucketFor?, show e.row.id = e.id from rfl, hr.position?_eq_some he, hstep, Option.bind_some]

/-! ## Runs -/

/-- Numbers are never mistaken for each other. -/
structure Unambiguous (log : List Event) (r : Registry) : Prop where
  issued_ne_zero : ∀ id ∈ issued log, id ≠ 0
  issued_nodup : (issued log).Nodup
  live_nodup : (r.rows.map Row.id).Nodup
  live_ascend : (r.rows.map Row.id).Pairwise (· < ·)
  /-- A live request is one that was registered, under the number given for it. -/
  live_issued : ∀ row ∈ r.rows, .register row.client row.request (.ok row.id) ∈ log
  unregister_issued : ∀ client request id, .register client request (.ok id) ∈ log →
    ∀ result r', r.unregister id = some (result, r') →
      (result = .ok () ↔ ⟨id, client, request⟩ ∈ r.rows) ∧
        r'.rows = r.rows.erase ⟨id, client, request⟩
  bucketFor_issued : ∀ client request id, .register client request (.ok id) ∈ log →
    ∀ i, r.rows[i]? = some ⟨id, client, request⟩ →
      r.bucketFor? id = (r.scheduler.update r.requests).bucket? i
  bucketFor_gone : ∀ client request id, .register client request (.ok id) ∈ log →
    ⟨id, client, request⟩ ∉ r.rows → r.bucketFor? id = none

theorem Agrees.bucketFor_gone (h : Agrees log r) (hlog : Numbered log)
    (hissued : .register client request (.ok id) ∈ log) (hgone : ⟨id, client, request⟩ ∉ r.rows) :
    r.bucketFor? id = none := by
  rw [← h.exists_id_iff hlog hissued, ← position?_isSome_iff,
    Option.not_isSome_iff_eq_none] at hgone
  rw [bucketFor?, hgone, Option.bind_none]

/-- A new registry around any scheduler, after any calls. -/
theorem unambiguous_history (catalog : Catalog) (settings : List Scheduler.Operation)
    (ops : List Operation)
    (h : (ofScheduler ((Scheduler.ofCatalog catalog).run settings)).history ops = some (log, r)) :
    r.Unambiguous log := by
  have hnew := wellKept_ofScheduler (Scheduler.inRange_run catalog settings)
  generalize (Scheduler.ofCatalog catalog).run settings = s at h hnew
  have hagrees : Agrees log r := agrees_history ops (agrees_ofScheduler s) h
  have hlog := numbered_history ops hnew (agrees_ofScheduler s) h
  have hr := wellKept_history hnew h
  have hrun : (ofScheduler s).run ops = some r := by rw [run_eq_history, h, Option.map_some]
  constructor
  · exact fun id hid => hlog.ne_zero hid
  · exact hlog.nodup
  · exact hr.ids_nodup
  · rw [rows, List.map_map]
    exact List.pairwise_map.2 hr.ids_ascend
  · exact fun row hrow => hagrees.issued_of_mem hrow
  · exact fun client request id hissued result r' => hagrees.unregister_issued hlog hissued
  · intro client request id _ i hi
    rcases inStep_or_untouched_run hrun with hstep | ⟨-, hnil⟩
    · exact hr.bucketFor?_eq hstep hi
    · simp [rows, hnil] at hi
  · exact fun client request id hissued => hagrees.bucketFor_gone hlog hissued

theorem unambiguous_history_turns : ∃ log r,
    (ofScheduler ((Scheduler.ofCatalog .standard).run [.setMaxChannels 3])).history
      [.register "a" (.ofScope (.band ⟨1⟩) 20000), .register "b" (.ofScope (.channels []) 20000),
        .register "b" (.ofScope (.channels [5180]) 40000), .unregister 1, .unregister 1,
        .setLimits .standard, .register "a" (.ofScope (.band ⟨1⟩) 20000),
        .unregisterClient "b"] = some (log, r) ∧ r.Unambiguous log := by
  refine Exists.imp (fun _ => Exists.imp fun _ h => ⟨h, unambiguous_history _ _ _ h⟩) ?_
  exact exists_history _ (agrees_ofScheduler _) (by decide)

end RadioScan.Registry
