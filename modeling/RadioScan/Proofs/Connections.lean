import RadioScan.Service.Basic
import Mathlib.Data.List.Basic

/-!
# The steps of a task

A step changes the connection that it is about and leaves the others alone. What a step does is
decided by the stage of the task, so there are few ways for it to go (`handle_cases`,
`reply_cases`, `announce_cases`). Serving a line comes down to one change of the connection, whether
the answer can be written (`serve_of_written`) or not (`serve_of_unwritten`).
-/

namespace RadioScan.Service

open Control (Response ProtocolError)

variable {s t : Service} {name line raw : String} {change next : Connection → Connection}
  {stage : Stage} {response : Response} {update : Option Schedule} {schedule : Schedule}

/-! ## Changing a connection -/

def names (s : Service) : List String := s.connections.map Connection.name

@[simp]
theorem Connection.name_enter (stage : Stage) (c : Connection) : (c.enter stage).name = c.name :=
  rfl

@[simp]
theorem Connection.stage_enter (stage : Stage) (c : Connection) : (c.enter stage).stage = stage :=
  rfl

@[simp]
theorem Connection.name_write (text : String) (c : Connection) : (c.write text).name = c.name :=
  rfl

theorem name_changed (h : ∀ c, (change c).name = c.name) (c : Connection) :
    (if c.name == name then change c else c).name = c.name := by
  split_ifs
  · exact h c
  · rfl

theorem names_modify (h : ∀ c, (change c).name = c.name) :
    (s.modify name change).names = s.names := by
  rw [names, names, modify, List.map_map]
  exact List.map_congr_left fun c _ => name_changed h c

theorem connection?_modify (h : ∀ c, (change c).name = c.name) :
    (s.modify name change).connection? name = (s.connection? name).map change := by
  have hname : (fun c : Connection => c.name == name) ∘
      (fun c => if c.name == name then change c else c) = fun c => c.name == name := by
    funext c
    rw [Function.comp_apply, name_changed h]
  rw [connection?, connection?, modify, List.find?_map, hname]
  cases hfind : s.connections.find? fun c => c.name == name with
  | none => rfl
  | some c => rw [Option.map_some, Option.map_some, if_pos (by simpa using List.find?_some hfind)]

theorem modify_modify (h : ∀ c, (change c).name = c.name) :
    (s.modify name change).modify name next = s.modify name fun c => next (change c) := by
  simp only [modify, List.map_map]
  congr 1
  refine List.map_congr_left fun c _ => ?_
  rw [Function.comp_apply]
  by_cases hc : c.name = name <;> simp [hc, h]

theorem exists_connection (h : s.stage? name = some stage) :
    ∃ c ∈ s.connections, s.connection? name = some c ∧ c.stage = stage := by
  obtain ⟨c, hc, hstage⟩ := Option.map_eq_some_iff.1 h
  exact ⟨c, List.mem_of_find?_eq_some hc, hc, hstage⟩

theorem stage?_modify_enter (h : s.stage? name = some stage)
    (hname : ∀ c, (change c).name = c.name) (stage' : Stage) :
    (s.modify name fun c => (change c).enter stage').stage? name = some stage' := by
  obtain ⟨c, -, hc, -⟩ := exists_connection h
  have henter (c : Connection) : ((change c).enter stage').name = c.name := hname c
  rw [stage?, connection?_modify henter, hc, Option.map_some, Option.map_some,
    Connection.stage_enter]

/-! ## How a step can go -/

theorem handle_of_ready (h : s.stage? name = some .ready) : s.handle name line =
    (answerLine s.notices s.registry line).map fun p =>
      { s with registry := p.2.1 }.modify name (Connection.enter (.replying p.1 p.2.2)) := by
  simp only [handle, h]
  cases answerLine s.notices s.registry line <;> rfl

theorem handle_cases (h : s.handle name line = some t) : t = s ∨ ∃ response registry update,
    s.stage? name = some .ready ∧
      answerLine s.notices s.registry line = some (response, registry, update) ∧
      t = { s with registry }.modify name (Connection.enter (.replying response update)) := by
  by_cases hready : s.stage? name = some .ready
  · rw [handle_of_ready hready] at h
    obtain ⟨⟨response, registry, update⟩, hanswer, rfl⟩ := Option.map_eq_some_iff.1 h
    exact .inr ⟨response, registry, update, hready, hanswer, rfl⟩
  · unfold handle at h
    split at h
    · next heq => exact absurd heq hready
    · cases h
      exact .inl rfl

theorem reply_of_ok {text : String} (h : s.stage? name = some (.replying response update))
    (htext : response.serialize = .ok text) :
    s.reply name = s.modify name fun c => (c.write text).enter (.following update) := by
  simp only [reply, h, htext]

theorem reply_of_error {e : ProtocolError} (h : s.stage? name = some (.replying response update))
    (he : response.serialize = .error e) :
    s.reply name = s.modify name (Connection.enter .ended) := by
  simp only [reply, h, he]

theorem reply_cases (s : Service) (name : String) : s.reply name = s ∨ ∃ response update,
    s.stage? name = some (.replying response update) ∧
      ((∃ text, response.serialize = .ok text ∧
          s.reply name = s.modify name fun c => (c.write text).enter (.following update)) ∨
        (∃ e, response.serialize = .error e) ∧
          s.reply name = s.modify name (Connection.enter .ended)) := by
  rcases hstage : s.stage? name with _ | stage
  · exact .inl (by simp only [reply, hstage])
  cases stage with
  | replying response update =>
    rcases hserialize : response.serialize with e | text
    · exact .inr ⟨response, update, rfl, .inr ⟨⟨e, hserialize⟩, reply_of_error hstage hserialize⟩⟩
    · exact .inr ⟨response, update, rfl, .inl ⟨text, hserialize, reply_of_ok hstage hserialize⟩⟩
  | _ => exact .inl (by simp only [reply, hstage])

theorem announce_of_ok {text : String} (h : s.stage? name = some (.announcing schedule))
    (htext : (Response.scheduleUpdate schedule).serialize = .ok text) :
    s.announce name =
      { s with announced := s.announced ++ [schedule] }.modify name (Connection.enter .ready) := by
  simp only [announce, h, htext]

theorem announce_of_idle (h : ∀ schedule, s.stage? name ≠ some (.announcing schedule)) :
    s.announce name = s := by
  unfold announce
  split
  · next heq => exact absurd heq (h _)
  · rfl

theorem announce_cases (s : Service) (name : String) : s.announce name = s ∨ ∃ schedule,
    s.stage? name = some (.announcing schedule) ∧
      ((∃ text, (Response.scheduleUpdate schedule).serialize = .ok text) ∧
          s.announce name = { s with announced := s.announced ++ [schedule] }.modify name
            (Connection.enter .ready) ∨
        (∃ e, (Response.scheduleUpdate schedule).serialize = .error e) ∧
          s.announce name = s.modify name (Connection.enter .ended)) := by
  by_cases hidle : ∀ schedule, s.stage? name ≠ some (.announcing schedule)
  · exact .inl (announce_of_idle hidle)
  · simp only [not_forall, not_not] at hidle
    obtain ⟨schedule, hstage⟩ := hidle
    refine .inr ⟨schedule, hstage, ?_⟩
    rcases hserialize : (Response.scheduleUpdate schedule).serialize with e | text
    · exact .inr ⟨⟨e, rfl⟩, by simp only [announce, hstage, hserialize]⟩
    · exact .inl ⟨⟨text, rfl⟩, announce_of_ok hstage hserialize⟩

theorem fail_cases (s : Service) (name : String) : s.fail name = s ∨ ∃ stage,
    s.stage? name = some stage ∧ s.fail name = s.modify name (Connection.enter .ended) := by
  unfold fail
  split
  · next h => exact .inr ⟨_, h, rfl⟩
  · next h => exact .inr ⟨_, h, rfl⟩
  · exact .inl rfl

theorem disconnect_cases (s : Service) (name : String) : s.disconnect name = s ∨
    (s.stage? name = some .ready ∨ s.stage? name = some .ended) ∧ s.disconnect name =
      { s with connections := s.connections.filter fun c => c.name != name } := by
  unfold disconnect
  split
  · next h => exact .inr ⟨.inl h, rfl⟩
  · next h => exact .inr ⟨.inr h, rfl⟩
  · exact .inl rfl

@[simp]
theorem registry_reply : (s.reply name).registry = s.registry := by
  rcases reply_cases s name with h | ⟨_, _, -, ⟨_, -, h⟩ | ⟨-, h⟩⟩ <;> simp only [h, modify]

@[simp]
theorem registry_announce : (s.announce name).registry = s.registry := by
  rcases announce_cases s name with h | ⟨_, -, ⟨-, h⟩ | ⟨-, h⟩⟩ <;> simp only [h, modify]

@[simp]
theorem registry_fail : (s.fail name).registry = s.registry := by
  rcases fail_cases s name with h | ⟨_, -, h⟩ <;> simp only [h, modify]

@[simp]
theorem registry_disconnect : (s.disconnect name).registry = s.registry := by
  rcases disconnect_cases s name with h | ⟨-, h⟩ <;> simp only [h]

theorem names_reply : (s.reply name).names = s.names := by
  rcases reply_cases s name with h | ⟨_, _, -, ⟨_, -, h⟩ | ⟨-, h⟩⟩ <;> rw [h]
  all_goals exact names_modify fun _ => rfl

theorem names_announce : (s.announce name).names = s.names := by
  rcases announce_cases s name with h | ⟨schedule, -, ⟨-, h⟩ | ⟨-, h⟩⟩ <;> rw [h]
  · exact names_modify (s := { s with announced := s.announced ++ [schedule] }) fun _ => rfl
  · exact names_modify fun _ => rfl

theorem names_fail : (s.fail name).names = s.names := by
  rcases fail_cases s name with h | ⟨_, -, h⟩ <;> rw [h]
  exact names_modify fun _ => rfl

theorem names_disconnect : List.Sublist (s.disconnect name).names s.names := by
  rcases disconnect_cases s name with h | ⟨-, h⟩ <;> rw [h]
  exact List.filter_sublist.map _

/-! ## Serving a line -/

section Serve

variable {registry : Registry} (hready : s.stage? name = some .ready)
  (hne : (Text.trim raw).isEmpty = false)
  (hanswer : answerLine s.notices s.registry (Text.trim raw) = some (response, registry, update))

include hready

theorem stage?_holding (registry : Registry) (response : Response) (update : Option Schedule) :
    ({ s with registry }.modify name
    (Connection.enter (.replying response update))).stage? name =
      some (.replying response update) :=
  stage?_modify_enter (s := { s with registry }) hready (fun _ => rfl) _

include hne in
theorem exists_answerLine_of_serve (h : s.serve name raw = some t) :
    ∃ response registry update,
      answerLine s.notices s.registry (Text.trim raw) = some (response, registry, update) := by
  simp only [serve, hne, handle_of_ready hready, Bool.false_eq_true, if_false,
    Option.map_map, Option.map_eq_some_iff] at h
  obtain ⟨⟨response, registry, update⟩, hanswer, -⟩ := h
  exact ⟨response, registry, update, hanswer⟩

include hne hanswer

theorem serve_eq : s.serve name raw = some ((({ s with registry }.modify name
    (Connection.enter (.replying response update))).reply name).announce name) := by
  unfold serve
  simp only [hne, handle_of_ready hready, hanswer]
  rfl

/-- The answer is written, and a noted schedule announced. -/
theorem serve_of_written {text : String} (htext : response.serialize = .ok text)
    (hpush : ∀ schedule ∈ update, ∃ push, (Response.scheduleUpdate schedule).serialize = .ok push) :
    s.serve name raw = some ({ s with registry, announced := s.announced ++ update.toList }.modify
      name fun c => (c.write text).enter .ready) := by
  have hreply := reply_of_ok (stage?_holding hready registry response update) htext
  rw [modify_modify (Connection.name_enter _)] at hreply
  have hstage : ({ s with registry }.modify name fun c => ((c.enter
      (.replying response update)).write text).enter (.following update)).stage? name =
        some (.following update) :=
    stage?_modify_enter (s := { s with registry }) hready (by simp) _
  rw [serve_eq hready hne hanswer, hreply]
  cases update with
  | none =>
    rw [announce_of_idle (by rw [hstage]; exact nofun), Option.toList_none, List.append_nil]
    rfl
  | some schedule =>
    obtain ⟨push, hpush⟩ := hpush schedule rfl
    rw [announce_of_ok hstage hpush]
    exact congrArg some (modify_modify (s := { s with
      registry, announced := s.announced ++ [schedule] }) fun _ => rfl)

/-- An answer that cannot be written ends the task, and a noted schedule is lost. -/
theorem serve_of_unwritten {e : ProtocolError} (he : response.serialize = .error e) :
    s.serve name raw = some ({ s with registry }.modify name (Connection.enter .ended)) := by
  have hreply := reply_of_error (stage?_holding hready registry response update) he
  rw [modify_modify (Connection.name_enter _)] at hreply
  have hstage : ({ s with registry }.modify name fun c => (c.enter
      (.replying response update)).enter .ended).stage? name = some .ended :=
    stage?_modify_enter (s := { s with registry }) hready (by simp) _
  rw [serve_eq hready hne hanswer, hreply, announce_of_idle (by rw [hstage]; exact nofun)]
  rfl

end Serve

/-- No line is served any more once the task has ended. -/
theorem serve_of_ended (h : s.stage? name = some .ended) (raw : String) :
    s.serve name raw = some s := by
  have hhandle : s.handle name (Text.trim raw) = some s := by simp only [handle, h]
  have hreply : s.reply name = s := by simp only [reply, h]
  have hannounce : s.announce name = s := by simp only [announce, h]
  simp only [serve, hhandle, Option.map_some, hreply, hannounce, ite_self]

end RadioScan.Service
