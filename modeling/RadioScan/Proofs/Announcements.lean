import RadioScan.Proofs.MessageText
import RadioScan.Proofs.Replies

/-!
# The order of announcements

Between handling a line and announcing the schedule that came of it a task does other things, and
other tasks may overtake it. Whatever the interleaving, each schedule that the registry takes is
noted once and announced at most once (`Accounts.perm`), as long as no answer to a message is lost
in writing. While a line is handled only when nothing is left to announce, announcements come in the
order of the changes, and the last one is the schedule that the registry has (`announced_in_order`).
Without that they can come the other way round, at every state of the registry in which two lines
change the schedule (`overtaken`).
-/

namespace RadioScan.Service

open Control (Message Response operationOf?)

/-- The schedule that a task has noted and not announced yet. -/
def Stage.noted? : Stage → Option Schedule
  | .ready => none
  | .replying _ update => update
  | .announcing update => some update
  | .ended => none

/-- The schedules noted and not announced yet. -/
def held (s : Service) : List Schedule := s.connections.filterMap fun c => c.stage.noted?

/-- What a step does with the schedules noted: it keeps them, notes one more, or announces one. -/
inductive Shift (s t : Service) : List Schedule → Prop
  | keep (hheld : t.held = s.held) (hannounced : t.announced = s.announced) : Shift s t []
  | note {before after : List Schedule} {schedule : Schedule} (hs : s.held = before ++ after)
      (ht : t.held = before ++ schedule :: after) (hannounced : t.announced = s.announced) :
      Shift s t [schedule]
  | announce {before after : List Schedule} {schedule : Schedule}
      (hs : s.held = before ++ schedule :: after) (ht : t.held = before ++ after)
      (hannounced : t.announced = s.announced ++ [schedule]) : Shift s t []

section Connection

variable {config : Config} {s t : Service} {name : String} {c : Connection}

theorem exists_split (hnames : s.names.Nodup) (h : s.connection? name = some c) :
    ∃ before after, s.connections = before ++ c :: after ∧ c.name = name ∧
      ∀ d ∈ before ++ after, d.name ≠ name := by
  obtain ⟨hname, before, after, hsplit, hbefore⟩ := List.find?_eq_some_iff_append.1 h
  rw [beq_iff_eq] at hname
  rw [names, hsplit, List.map_append, List.map_cons, List.nodup_middle, List.nodup_cons,
    ← List.map_append] at hnames
  refine ⟨before, after, hsplit, hname, fun d hd heq => hnames.1 ?_⟩
  rw [hname, ← heq]
  exact List.mem_map_of_mem hd

theorem connections_modify {before after : List Connection} (change : Connection → Connection)
    (hsplit : s.connections = before ++ c :: after) (hname : c.name = name)
    (hother : ∀ d ∈ before ++ after, d.name ≠ name) :
    (s.modify name change).connections = before ++ change c :: after := by
  have hkept (cs : List Connection) (h : ∀ d ∈ cs, d.name ≠ name) :
      (cs.map fun d => if d.name == name then change d else d) = cs := by
    conv_rhs => rw [← List.map_id cs]
    refine List.map_congr_left fun d hd => ?_
    rw [if_neg (by simpa using h d hd), id]
  rw [List.forall_mem_append] at hother
  rw [modify, hsplit, List.map_append, List.map_cons, hkept _ hother.1, hkept _ hother.2,
    if_pos (by simpa using hname)]

theorem held_modify (hnames : s.names.Nodup) (h : s.connection? name = some c)
    (change : Connection → Connection) : ∃ before after,
      s.held = before ++ (c.stage.noted?.toList ++ after) ∧
      (s.modify name change).held = before ++ ((change c).stage.noted?.toList ++ after) := by
  obtain ⟨before, after, hsplit, hname, hother⟩ := exists_split hnames h
  refine ⟨before.filterMap fun d => d.stage.noted?, after.filterMap fun d => d.stage.noted?, ?_, ?_⟩
  · rw [held, hsplit, List.filterMap_append, List.filterMap_cons]
    cases c.stage.noted? <;> rfl
  · rw [held, connections_modify change hsplit hname hother, List.filterMap_append,
      List.filterMap_cons]
    cases (change c).stage.noted? <;> rfl

theorem shift_modify {change : Connection → Connection} (hnames : s.names.Nodup)
    (h : s.connection? name = some c) (hsame : (change c).stage.noted? = c.stage.noted?) :
    Shift s (s.modify name change) [] := by
  obtain ⟨before, after, hheld, hheld'⟩ := held_modify hnames h change
  rw [hsame] at hheld'
  exact .keep (hheld'.trans hheld.symm) rfl

/-! ## The steps -/

theorem shift_connect : Shift s (s.connect name) [] := by
  refine .keep ?_ rfl
  rw [held, connect, List.filterMap_append]
  exact List.append_nil _

theorem shift_disconnect (hnames : s.names.Nodup) : Shift s (s.disconnect name) [] := by
  rcases disconnect_cases s name with h | ⟨hstage, h⟩
  · rw [h]
    exact .keep rfl rfl
  rw [h]
  refine .keep ?_ rfl
  obtain ⟨c, hc, hidle⟩ : ∃ c, s.connection? name = some c ∧ c.stage.noted? = none := by
    rcases hstage with hstage | hstage
    all_goals
      obtain ⟨c, -, hc, hstage⟩ := exists_connection hstage
      exact ⟨c, hc, by rw [hstage]; rfl⟩
  obtain ⟨before, after, hsplit, hname, hother⟩ := exists_split hnames hc
  rw [held, held, List.filterMap_filter]
  refine List.filterMap_congr fun d hd => ?_
  rw [hsplit, List.mem_append, List.mem_cons] at hd
  by_cases hdc : d = c
  · simp [hdc, hname, hidle]
  · have hd : d ∈ before ++ after := by
      rw [List.mem_append]
      tauto
    simp [hother d hd]

theorem shift_fail (hnames : s.names.Nodup)
    (hidle : ∀ stage ∈ s.stage? name, stage.noted? = none) : Shift s (s.fail name) [] := by
  rcases fail_cases s name with h | ⟨stage, hstage, h⟩
  · rw [h]
    exact .keep rfl rfl
  · obtain ⟨c, -, hc, rfl⟩ := exists_connection hstage
    rw [h]
    refine shift_modify hnames hc ?_
    rw [hidle c.stage hstage]
    rfl

theorem shift_handle {line : String} (hnames : s.names.Nodup) (h : s.handle name line = some t) :
    t = s ∨ ∃ response update,
      answerLine s.notices s.registry line = some (response, t.registry, update) ∧
        t.names = s.names ∧ Shift s t update.toList := by
  rcases handle_cases h with rfl | ⟨response, registry, update, hready, hanswer, rfl⟩
  · exact .inl rfl
  obtain ⟨c, -, hc, hstage⟩ := exists_connection hready
  refine .inr ⟨response, update, hanswer, names_modify fun _ => rfl, ?_⟩
  obtain ⟨before, after, hheld, hheld'⟩ := held_modify (s := { s with registry }) hnames hc
    (Connection.enter (.replying response update))
  rw [hstage] at hheld
  cases update with
  | none => exact .keep (hheld'.trans hheld.symm) rfl
  | some schedule => exact .note hheld hheld' rfl

theorem shift_reply (hnames : s.names.Nodup) (hs : Writable config s) :
    Shift s (s.reply name) [] := by
  rcases reply_cases s name with h | ⟨response, update, hstage, ⟨text, -, h⟩ | ⟨⟨e, he⟩, h⟩⟩
  · rw [h]
    exact .keep rfl rfl
  · obtain ⟨c, -, hc, hstage⟩ := exists_connection hstage
    rw [h]
    refine shift_modify hnames hc ?_
    rw [hstage]
    cases update <;> rfl
  · -- what cannot be written answers a line that was no message
    have hnone : update = none := by
      rcases hs.replied hstage with ⟨text, htext, -⟩ | ⟨-, hnone⟩
      · rw [he] at htext
        cases htext
      · exact hnone
    obtain ⟨c, -, hc, hstage⟩ := exists_connection hstage
    rw [h]
    refine shift_modify hnames hc ?_
    rw [hstage, hnone]
    rfl

theorem shift_announce (hnames : s.names.Nodup) (hs : Writable config s) :
    Shift s (s.announce name) [] := by
  by_cases hidle : ∀ schedule, s.stage? name ≠ some (.announcing schedule)
  · rw [announce_of_idle hidle]
    exact .keep rfl rfl
  simp only [not_forall, not_not] at hidle
  obtain ⟨schedule, hstage⟩ := hidle
  rw [hs.announced hstage]
  obtain ⟨c, -, hc, hstage⟩ := exists_connection hstage
  obtain ⟨before, after, hheld, hheld'⟩ :=
    held_modify (s := { s with announced := s.announced ++ [schedule] }) hnames hc
      (Connection.enter .ready)
  rw [hstage] at hheld
  exact .announce hheld hheld' rfl

end Connection

theorem Shift.perm {s t : Service} {noted : List Schedule} (h : Shift s t noted) :
    (t.announced ++ t.held).Perm (s.announced ++ s.held ++ noted) := by
  cases h with
  | keep hheld hannounced => rw [hheld, hannounced, List.append_nil]
  | note hs ht hannounced =>
    rw [hs, ht, hannounced, List.append_assoc]
    refine List.Perm.append_left _ ?_
    rw [List.append_assoc]
    refine List.Perm.append_left _ ?_
    exact (List.perm_append_singleton _ _).symm
  | @announce before after schedule hs ht hannounced =>
    rw [hs, ht, hannounced, List.append_nil, List.append_assoc]
    refine List.Perm.append_left _ ?_
    rw [List.singleton_append]
    exact List.perm_middle.symm

/-! ## Runs -/

/-- What any interleaving of the tasks has led to, with the schedules that the registry has taken
since the start, oldest first. A task handles a line when `admits` allows it; limits for an idle
registry are left out, and no task fails that still has to announce a schedule. -/
inductive Reached (admits : Service → Prop) (start : Registry) : List Schedule → Service → Prop
  | start (notices : Json.Notices) : Reached admits start [] (.ofRegistry notices start)
  | connect {taken s} (h : Reached admits start taken s) (name : String) (hnew : name ∉ s.names) :
      Reached admits start taken (s.connect name)
  | disconnect {taken s} (h : Reached admits start taken s) (name : String) :
      Reached admits start taken (s.disconnect name)
  | fail {taken s} (h : Reached admits start taken s) (name : String)
      (hidle : ∀ stage ∈ s.stage? name, stage.noted? = none) :
      Reached admits start taken (s.fail name)
  | handle {taken s t} (h : Reached admits start taken s) (name line : String) (hadmits : admits s)
      (hline : (operationOf? line).any s.registry.overlooks = false)
      (hnext : s.handle name line = some t) :
      Reached admits start (taken ++
        if t.registry.schedule = s.registry.schedule then [] else [t.registry.schedule]) t
  | reply {taken s} (h : Reached admits start taken s) (name : String) :
      Reached admits start taken (s.reply name)
  | announce {taken s} (h : Reached admits start taken s) (name : String) :
      Reached admits start taken (s.announce name)

section Run

variable {config : Config} {admits : Service → Prop} {r : Registry} {taken : List Schedule}
  {s t : Service}

/-- The schedules taken are those announced and those noted. -/
structure Accounts (admits : Service → Prop) (taken : List Schedule) (s : Service) : Prop where
  perm : (s.announced ++ s.held).Perm taken
  ordered : (∀ t, admits t → t.held = []) → s.announced ++ s.held = taken ∧ s.held.length ≤ 1

theorem Accounts.shift {noted : List Schedule} (h : Accounts admits taken s)
    (hadmits : noted ≠ [] → admits s) (hshift : Shift s t noted) :
    Accounts admits (taken ++ noted) t := by
  refine ⟨hshift.perm.trans (h.perm.append_right noted), fun hserial => ?_⟩
  obtain ⟨htaken, hlength⟩ := h.ordered hserial
  cases hshift with
  | keep hheld hannounced =>
    rw [hheld, hannounced, List.append_nil]
    exact ⟨htaken, hlength⟩
  | note hs ht hannounced =>
    have hnone := hserial s (hadmits (List.cons_ne_nil _ _))
    rw [hs, List.append_eq_nil_iff] at hnone
    obtain ⟨rfl, rfl⟩ := hnone
    rw [hs, List.append_nil, List.append_nil] at htaken
    rw [ht, hannounced, htaken]
    exact ⟨rfl, Nat.le_refl 1⟩
  | @announce before after schedule hs ht hannounced =>
    rw [hs, List.length_append, List.length_cons] at hlength
    obtain rfl : before = [] := List.length_eq_zero_iff.1 (by omega)
    obtain rfl : after = [] := List.length_eq_zero_iff.1 (by omega)
    rw [ht, hannounced, ← htaken, hs]
    simp

/-- What holds of a service whatever its tasks do. -/
structure Sound (config : Config) (admits : Service → Prop) (taken : List Schedule)
    (s : Service) : Prop where
  nodup : s.names.Nodup
  writable : Writable config s
  accounts : Accounts admits taken s
  current : ∀ last ∈ taken.getLast?, last = s.registry.schedule

theorem Sound.shift (h : Sound config admits taken s) (hnames : t.names.Nodup)
    (hwritable : Writable config t) (hregistry : t.registry = s.registry)
    (hshift : Shift s t []) : Sound config admits taken t := by
  have haccounts := h.accounts.shift (fun hne => absurd rfl hne) hshift
  rw [List.append_nil] at haccounts
  refine ⟨hnames, hwritable, haccounts, ?_⟩
  rw [hregistry]
  exact h.current

theorem Sound.handle {name line : String} (h : Sound config admits taken s) (hadmits : admits s)
    (hline : (operationOf? line).any s.registry.overlooks = false)
    (hnext : s.handle name line = some t) :
    Sound config admits (taken ++
      if t.registry.schedule = s.registry.schedule then [] else [t.registry.schedule]) t := by
  rcases shift_handle h.nodup hnext with rfl | ⟨response, update, hanswer, hnames, hshift⟩
  · rw [if_pos rfl, List.append_nil]
    exact h
  have hupdate := update_answerLine h.writable.consistent hanswer
  rw [hline, if_congr (or_iff_left Bool.false_ne_true) rfl rfl] at hupdate
  have htaken : update.toList =
      if t.registry.schedule = s.registry.schedule then [] else [t.registry.schedule] := by
    rw [hupdate]
    split_ifs <;> rfl
  refine ⟨hnames ▸ h.nodup, h.writable.handle hnext, ?_, ?_⟩
  · rw [← htaken]
    exact h.accounts.shift (fun _ => hadmits) hshift
  · split_ifs with hsame
    · rw [List.append_nil, hsame]
      exact h.current
    · simp

theorem Reached.sound (h₀ : Registry.ofConfig? config = .ok r) (h : Reached admits r taken s) :
    Sound config admits taken s := by
  induction h with
  | start =>
    exact ⟨List.nodup_nil, ⟨Registry.consistent_ofConfig? h₀, by simp [ofRegistry]⟩,
      ⟨List.Perm.refl _, fun _ => ⟨rfl, Nat.zero_le 1⟩⟩, by simp⟩
  | @connect taken s _ name hnew ih =>
    refine ih.shift ?_ (ih.writable.connect name) rfl shift_connect
    rw [names, Service.connect, List.map_append]
    exact List.nodup_append.2 ⟨ih.nodup, List.nodup_singleton _, by simpa [names] using hnew⟩
  | @disconnect taken s _ name ih =>
    exact ih.shift (ih.nodup.sublist names_disconnect) (ih.writable.disconnect name)
      registry_disconnect (shift_disconnect ih.nodup)
  | fail _ name hidle ih =>
    exact ih.shift (by rw [names_fail]; exact ih.nodup) (ih.writable.fail name) registry_fail
      (shift_fail ih.nodup hidle)
  | handle _ _ _ hadmits hline hnext ih => exact ih.handle hadmits hline hnext
  | reply _ name ih =>
    exact ih.shift (by rw [names_reply]; exact ih.nodup) (ih.writable.reply name) registry_reply
      (shift_reply ih.nodup ih.writable)
  | announce _ name ih =>
    exact ih.shift (by rw [names_announce]; exact ih.nodup) (ih.writable.announce name)
      registry_announce (shift_announce ih.nodup ih.writable)

/-- With one update under way at a time, announcements come in the order of the changes; once
nothing is left to announce, the last one is the schedule that the registry has. -/
theorem announced_in_order (h₀ : Registry.ofConfig? config = .ok r)
    (h : Reached (fun t => t.held = []) r taken s) (hquiet : s.held = []) :
    s.announced = taken ∧ ∀ last ∈ s.announced.getLast?, last = s.registry.schedule := by
  have hsound := h.sound h₀
  obtain ⟨htaken, -⟩ := hsound.accounts.ordered fun _ ht => ht
  rw [hquiet, List.append_nil] at htaken
  exact ⟨htaken, htaken ▸ hsound.current⟩

end Run

/-! ## Overtaking -/

/-- A service with two connections, each given by the stage of its task and the answers written. -/
def twoTasks (notices : Json.Notices) (r : Registry) (a b : Stage × List String)
    (announced : List Schedule) : Service :=
  ⟨notices, r, [⟨"a", a.1, a.2, 0⟩, ⟨"b", b.1, b.2, 0⟩], announced⟩

section Overtaking

variable {r r₁ r₂ : Registry} {line₁ line₂ : String} {response₁ response₂ : Response}
  {update₁ update₂ : Schedule}

/-- Two tasks that change the schedule one after the other can announce the changes the other way
round. -/
theorem overtaken {config : Config} (hr : r.Consistent config) (notices : Json.Notices)
    (h₁ : answerLine notices r line₁ = some (response₁, r₁, some update₁))
    (h₂ : answerLine notices r₁ line₂ = some (response₂, r₂, some update₂))
    (hline₁ : (operationOf? line₁).any r.overlooks = false)
    (hline₂ : (operationOf? line₂).any r₁.overlooks = false) :
    ∃ taken s, Reached (fun _ => True) r taken s ∧ s.held = [] ∧ s.registry = r₂ ∧
      s.announced = [update₂, update₁] := by
  obtain ⟨⟨text₁, ht₁⟩, push₁, hp₁⟩ := exists_serialize_of_noted hr h₁
  obtain ⟨⟨text₂, ht₂⟩, push₂, hp₂⟩ :=
    exists_serialize_of_noted (consistent_answerLine hr h₁) h₂
  have hopen : Reached (fun _ => True) r [] (twoTasks notices r (.ready, []) (.ready, []) []) :=
    ((Reached.start notices).connect "a" (by simp [names, ofRegistry])).connect "b"
      (by simp [names, ofRegistry, Service.connect])
  have hfirst := hopen.handle
    (t := twoTasks notices r₁ (.replying response₁ update₁, []) (.ready, []) [])
    "a" line₁ trivial hline₁
    (by simp [twoTasks, handle, stage?, connection?, h₁, modify, Connection.enter])
  have hsecond := hfirst.handle (t := twoTasks notices r₂ (.replying response₁ update₁, [])
    (.replying response₂ update₂, []) []) "b" line₂ trivial hline₂
    (by simp [twoTasks, handle, stage?, connection?, h₂, modify, Connection.enter])
  have hannounce' := (((hsecond.reply "b").announce "b").reply "a").announce "a"
  refine ⟨_, _, hannounce', ?_, ?_, ?_⟩
  all_goals
    simp [twoTasks, reply, announce, stage?, connection?, ht₁, ht₂, hp₁, hp₂, modify,
      Connection.enter, Connection.write, Stage.following, held, Stage.noted?]

end Overtaking

/-- A client asks for one channel, and for a report after so many scans. -/
def registration (client : String) (maxScansToCache : UInt32) : Message :=
  .register client
    ((Request.ofScope (.channels [2412]) 20000).withMaxScansToCache maxScansToCache)

theorem parse_registration (client : String) (n : UInt32) (h : client.utf8ByteSize ≤ 32) :
    Message.parse (registration client n).text = .ok (registration client n) := by
  have hmodest : (registration client n).IsModest := ⟨h, show 1 ≤ Hardware.maxChannels by decide⟩
  rw [Message.parse_text, if_pos (Message.size_modest hmodest)]

/-- Two registrations overtaken on a fresh registry: the last announcement is not the schedule that
the registry has. -/
theorem overtaken_registrations : ∃ taken s,
    Reached (fun _ => True) (.ofScheduler (.ofCatalog .standard)) taken s ∧ s.held = [] ∧
      ∃ last ∈ s.announced.getLast?, last ≠ s.registry.schedule := by
  have hfirst := parse_registration "a" 0 (by decide)
  have hsecond := parse_registration "b" 1 (by decide)
  have hstart : Registry.ofConfig? .standard = .ok (.ofScheduler (.ofCatalog .standard)) := rfl
  have hrun : (Control.answer (.ofScheduler (.ofCatalog .standard)) (registration "a" 0)).any
      (fun p => (Control.answer p.2 (registration "b" 1)).any fun q =>
        decide (p.2.stats.scheduleChanges
            ≠ (Registry.ofScheduler (.ofCatalog .standard)).stats.scheduleChanges ∧
          q.2.stats.scheduleChanges ≠ p.2.stats.scheduleChanges ∧
          p.2.schedule ≠ q.2.schedule)) = true := by
    decide +kernel
  obtain ⟨⟨response₁, r₁⟩, h₁, hrun⟩ := Option.any_eq_true _ _ |>.1 hrun
  obtain ⟨⟨response₂, r₂⟩, h₂, hrun⟩ := Option.any_eq_true _ _ |>.1 hrun
  obtain ⟨hchanged₁, hchanged₂, hdiffer⟩ := of_decide_eq_true hrun
  have hnoted₁ := answerLine_of_parse (fun _ => ⟨.noValue, 1, 0⟩) hfirst h₁
  have hnoted₂ := answerLine_of_parse (fun _ => ⟨.noValue, 1, 0⟩) hsecond h₂
  rw [if_neg hchanged₁] at hnoted₁
  rw [if_neg hchanged₂] at hnoted₂
  obtain ⟨taken, s, hreached, hheld, hregistry, hannounced⟩ :=
    overtaken (Registry.consistent_ofConfig? hstart) _ hnoted₁ hnoted₂
      (by rw [operationOf?, hfirst]; rfl) (by rw [operationOf?, hsecond]; rfl)
  refine ⟨taken, s, hreached, hheld, r₁.schedule, ?_, ?_⟩
  · rw [hannounced]
    rfl
  · rw [hregistry]
    exact hdiffer

end RadioScan.Service
