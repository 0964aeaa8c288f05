import RadioScan.Proofs.ResponseText
import RadioScan.Terminal.Run

/-!
# Waiting for an answer

What arrives on a connection is cut into lines at its line feeds (`Text.consistsOf_lines`), and a
client reads on until a line is not a push. So it hears one of three things from the service: the
first response that is no push, the fault of a line before it that does not decode, or, when there
are only pushes, that the connection was closed (`Terminal.awaitAnswer_eq_iff`). Texts of pushes put
in between the lines change nothing about that (`Terminal.awaitAnswer_of_interrupted`), and a run
takes nothing else from the connection (`Terminal.passesOverPushes_send`).
-/

namespace RadioScan

/-! ## Lines of a text -/

namespace Text

/-- The text is that of the lines: each ends with a line feed, which only the last one may lack and
in front of which a carriage return may stand. -/
inductive ConsistsOf : String → List String → Prop
  | nil : ConsistsOf "" []
  | unended {l : String} (hplain : '\n' ∉ l.toList) (hne : l ≠ "") : ConsistsOf l [l]
  | line {l s : String} {ls : List String} (hplain : '\n' ∉ l.toList)
      (hend : l.toList.getLast? ≠ some '\r') (h : ConsistsOf s ls) :
      ConsistsOf (l ++ "\n" ++ s) (l :: ls)
  | returned {l s : String} {ls : List String} (hplain : '\n' ∉ l.toList) (h : ConsistsOf s ls) :
      ConsistsOf (l ++ "\r\n" ++ s) (l :: ls)

theorem foldr_consLine_unended : ∀ {cs : List Char}, '\n' ∉ cs → cs ≠ [] →
    cs.foldr consLine [] = [cs]
  | [_], _, _ => rfl
  | c :: d :: cs, h, _ => by
    rw [List.mem_cons, not_or] at h
    rw [List.foldr_cons, foldr_consLine_unended h.2 (List.cons_ne_nil d cs), consLine,
      if_neg (Ne.symm h.1)]

theorem foldr_consLine_line (ls : List (List Char)) : ∀ {cs : List Char}, '\n' ∉ cs →
    cs.foldr consLine (consLine '\n' ls) = (cs ++ ['\n']) :: ls
  | [], _ => by cases ls <;> rfl
  | c :: cs, h => by
    rw [List.mem_cons, not_or] at h
    rw [List.foldr_cons, foldr_consLine_line ls h.2, consLine, if_neg (Ne.symm h.1),
      List.cons_append]

theorem withoutEnd_of_not_mem {l : List Char} (h : '\n' ∉ l) : withoutEnd l = l := by
  rw [← List.mem_reverse] at h
  unfold withoutEnd
  split
  · next hl => simp [hl] at h
  · next hl => simp [hl] at h
  · rfl

theorem withoutEnd_feed {l : List Char} (h : l.getLast? ≠ some '\r') :
    withoutEnd (l ++ ['\n']) = l := by
  have hreverse : (l ++ ['\n']).reverse = '\n' :: l.reverse := List.reverse_concat
  unfold withoutEnd
  rw [hreverse]
  split
  · next hl =>
    rw [List.cons.injEq] at hl
    rw [← List.head?_reverse, hl.2] at h
    exact absurd rfl h
  · next hl =>
    rw [List.cons.injEq] at hl
    rw [← hl.2, List.reverse_reverse]
  · next hfeed => exact absurd rfl (hfeed _)

theorem withoutEnd_return (l : List Char) : withoutEnd (l ++ ['\r', '\n']) = l := by
  unfold withoutEnd
  rw [List.reverse_append]
  exact List.reverse_reverse l

theorem lines_append {l : String} (h : '\n' ∉ l.toList) (s : String) :
    lines (l ++ "\n" ++ s) = String.ofList (withoutEnd (l.toList ++ ['\n'])) :: lines s := by
  have htext : (l ++ "\n" ++ s).toList = l.toList ++ '\n' :: s.toList := by simp
  rw [lines, htext, List.foldr_append, List.foldr_cons, foldr_consLine_line _ h, List.map_cons]
  rfl

theorem ConsistsOf.lines_eq {s : String} {ls : List String} (h : ConsistsOf s ls) :
    lines s = ls := by
  induction h with
  | nil => rfl
  | unended hplain hne =>
    rw [lines, foldr_consLine_unended hplain (by simpa using hne), List.map_singleton,
      withoutEnd_of_not_mem hplain, String.ofList_toList]
  | line hplain hend _ ih =>
    rw [lines_append hplain, withoutEnd_feed hend, String.ofList_toList, ih]
  | @returned l s ls hplain _ ih =>
    have htext : l ++ "\r\n" ++ s = l ++ "\r" ++ "\n" ++ s := by
      rw [← String.toList_inj]
      simp
    have hend : (l ++ "\r").toList ++ ['\n'] = l.toList ++ ['\r', '\n'] := by simp
    rw [htext, lines_append (by simpa using hplain), hend, withoutEnd_return,
      String.ofList_toList, ih]

/-- Another character in front becomes part of the first line, or is one when there is none. -/
theorem ConsistsOf.cons_char {c : Char} (hc : c ≠ '\n') {s : String} {ls : List String}
    (h : ConsistsOf s ls) : ∃ ls', ConsistsOf (String.ofList (c :: s.toList)) ls' := by
  have hplain {l : String} (hl : '\n' ∉ l.toList) :
      '\n' ∉ (String.ofList (c :: l.toList)).toList := by
    simpa [hc.symm] using hl
  have htext (l s : String) : String.ofList (c :: (l ++ s).toList) =
      String.ofList (c :: l.toList) ++ s := by
    rw [← String.toList_inj]
    simp
  cases h with
  | nil => exact ⟨_, .unended (hplain (l := "") (by simp)) (by simp)⟩
  | unended hl _ => exact ⟨_, .unended (hplain hl) (by simp)⟩
  | @line l s ls hl hend h =>
    by_cases hreturn : (c :: l.toList).getLast? = some '\r'
    · -- a carriage return came in front of an empty line and belongs to its end
      have hl : l = "" := by
        rw [List.getLast?_cons, Option.some_inj] at hreturn
        rcases hlast : l.toList.getLast? with _ | d
        · simpa using hlast
        · rw [hlast] at hreturn hend
          exact absurd (congrArg some hreturn) hend
      subst hl
      obtain rfl : c = '\r' := by simpa using hreturn
      have hend : String.ofList ('\r' :: ("" ++ "\n" ++ s).toList) = "" ++ "\r\n" ++ s := by
        rw [← String.toList_inj]
        simp
      rw [hend]
      exact ⟨_, .returned (by simp) h⟩
    · rw [htext, htext]
      exact ⟨_, .line (hplain hl) (by rwa [String.toList_ofList]) h⟩
  | returned hl h =>
    rw [htext, htext]
    exact ⟨_, .returned (hplain hl) h⟩

theorem consistsOf_lines (s : String) : ConsistsOf s (lines s) := by
  -- some lines are enough, for they can only be those that the text is cut into
  have hexists : ∀ cs : List Char, ∃ ls, ConsistsOf (String.ofList cs) ls := by
    intro cs
    induction cs with
    | nil => exact ⟨[], .nil⟩
    | cons c cs ih =>
      obtain ⟨ls, ih⟩ := ih
      by_cases hc : c = '\n'
      · have htext : String.ofList (c :: cs) = "" ++ "\n" ++ String.ofList cs := by
          rw [← String.toList_inj, hc]
          simp
        rw [htext]
        exact ⟨_, .line (by simp) (by simp) ih⟩
      · simpa using ih.cons_char hc
  obtain ⟨ls, h⟩ := hexists s.toList
  rw [String.ofList_toList] at h
  rwa [h.lines_eq]

end Text

namespace Control.Response

theorem isPush_iff {r : Response} : r.isPush = true ↔ r.status = .scheduleUpdate := beq_iff_eq

/-- The text of a response makes a line when a line feed is put behind it. -/
theorem consistsOf_text (r : Response) {s : String} {ls : List String} (h : Text.ConsistsOf s ls) :
    Text.ConsistsOf (r.text ++ "\n" ++ s) (r.text :: ls) := by
  have hcontrol := Json.control_compact (faithful_response.written r)
  refine .line (fun hmem => absurd (hcontrol _ hmem) (by decide)) (fun hend => ?_) h
  exact absurd (hcontrol _ (List.mem_of_mem_getLast? hend)) (by decide)

end Control.Response

namespace Terminal

open Control (Message Response)

variable {notices : Json.Notices} {ls ls' : List String} {result : Except Failure Response}

/-! ## What a client hears -/

/-- The line decodes, and to a push. -/
def ReadsAsPush (line : String) : Prop :=
  ∃ r, Response.ofText line = .ok r ∧ r.status = .scheduleUpdate

/-- What comes of waiting for an answer, by the lines that arrive until the connection is closed. -/
inductive Hears (notices : Json.Notices) : List String → Except Failure Response → Prop
  | answer {before after : List String} {line : String} {r : Response}
      (hpushes : ∀ l ∈ before, ReadsAsPush l) (hline : Response.ofText line = .ok r)
      (hanswer : r.status ≠ .scheduleUpdate) : Hears notices (before ++ line :: after) (.ok r)
  | fault {before after : List String} {line : String} {fault : Json.Fault}
      (hpushes : ∀ l ∈ before, ReadsAsPush l) (hline : Response.ofText line = .error fault) :
      Hears notices (before ++ line :: after) (.error (.json fault (notices line)))
  | closed {ls : List String} (hpushes : ∀ l ∈ ls, ReadsAsPush l) :
      Hears notices ls (.error .closed)

theorem awaitAnswer_push {line : String} (h : ReadsAsPush line) (ls : List String) :
    awaitAnswer notices (line :: ls) = awaitAnswer notices ls := by
  obtain ⟨r, hr, hpush⟩ := h
  simp only [awaitAnswer, hr, if_pos (Response.isPush_iff.2 hpush)]

theorem awaitAnswer_pushes : ∀ {before : List String}, (∀ l ∈ before, ReadsAsPush l) →
    ∀ ls, awaitAnswer notices (before ++ ls) = awaitAnswer notices ls
  | [], _, _ => rfl
  | l :: before, h, ls => by
    rw [List.forall_mem_cons] at h
    exact (awaitAnswer_push h.1 (before ++ ls)).trans (awaitAnswer_pushes h.2 ls)

theorem Hears.awaitAnswer_eq (h : Hears notices ls result) :
    awaitAnswer notices ls = result := by
  cases h with
  | answer hpushes hline hanswer =>
    rw [awaitAnswer_pushes hpushes]
    simp only [awaitAnswer, hline, if_neg (mt Response.isPush_iff.1 hanswer)]
  | fault hpushes hline =>
    rw [awaitAnswer_pushes hpushes]
    simp only [awaitAnswer, hline]
  | closed hpushes =>
    have h : awaitAnswer notices (ls ++ []) = awaitAnswer notices [] :=
      awaitAnswer_pushes hpushes []
    rw [List.append_nil] at h
    exact h

theorem Hears.push {line : String} (hline : ReadsAsPush line) (h : Hears notices ls result) :
    Hears notices (line :: ls) result := by
  cases h with
  | answer hpushes hread hanswer =>
    exact .answer (List.forall_mem_cons.2 ⟨hline, hpushes⟩) hread hanswer
  | fault hpushes hread => exact .fault (List.forall_mem_cons.2 ⟨hline, hpushes⟩) hread
  | closed hpushes => exact .closed (List.forall_mem_cons.2 ⟨hline, hpushes⟩)

theorem hears_awaitAnswer (notices : Json.Notices) :
    ∀ ls : List String, Hears notices ls (awaitAnswer notices ls)
  | [] => .closed (by simp)
  | line :: ls => by
    rcases hline : Response.ofText line with fault | r
    · have h : Hears notices ([] ++ line :: ls) (.error (.json fault (notices line))) :=
        .fault (by simp) hline
      rw [← List.nil_append (line :: ls), h.awaitAnswer_eq]
      exact h
    · by_cases hpush : r.status = .scheduleUpdate
      · rw [awaitAnswer_push ⟨r, hline, hpush⟩]
        exact (hears_awaitAnswer notices ls).push ⟨r, hline, hpush⟩
      · have h : Hears notices ([] ++ line :: ls) (.ok r) := .answer (by simp) hline hpush
        rw [← List.nil_append (line :: ls), h.awaitAnswer_eq]
        exact h

theorem awaitAnswer_eq_iff : awaitAnswer notices ls = result ↔ Hears notices ls result :=
  ⟨fun h => h ▸ hears_awaitAnswer notices ls, Hears.awaitAnswer_eq⟩

/-! ## Pushes in between -/

/-- The second lines are the first with the texts of pushes put in between, anywhere. -/
inductive Interrupted : List String → List String → Prop
  | nil : Interrupted [] []
  | line (line : String) {ls ls' : List String} (h : Interrupted ls ls') :
      Interrupted (line :: ls) (line :: ls')
  | push {r : Response} {ls ls' : List String} (hpush : r.status = .scheduleUpdate)
      (h : Interrupted ls ls') : Interrupted ls (r.text :: ls')

theorem awaitAnswer_of_interrupted (h : Interrupted ls ls') :
    awaitAnswer notices ls' = awaitAnswer notices ls := by
  induction h with
  | nil => rfl
  | line line _ ih => simp only [awaitAnswer, ih]
  | push hpush _ ih => rw [awaitAnswer_push ⟨_, Response.ofText_text _, hpush⟩, ih]

/-! ## Runs -/

/-- The command line names the invocation. -/
def Names (args : List String) (i : Invocation) : Prop :=
  ∃ p, parseArguments args = .ok p ∧ p.invocation = .ok i

variable {args : List String} {i : Invocation} {m : Message} {w : World} {s : String}

theorem run_of_names (h : Names args i) (w : World) :
    run w args = .of (i.output w) (i.sent? w) := by
  obtain ⟨p, hp, hi⟩ := h
  simp only [run, hp, hi]

/-- Sending is all a run does with the connection, and what it hears decides how it ends. -/
theorem run_send (hargs : Names args i) (hcommand : i.command = .send m)
    (hdial : w.dial i.host i.port = .connected s) :
    run w args = .of ((awaitAnswer w.notices (Text.lines s)).map (showResponse w i.json))
      (some (messageLine m)) := by
  rw [run_of_names hargs, Invocation.output, Invocation.sent?, hcommand, hdial]
  rfl

/-- What a client that sent a message makes of the lines that the service then sends. -/
structure PassesOverPushes (args : List String) (i : Invocation) (m : Message) (w : World)
    (ls : List String) : Prop where
  exchange_eq_iff : ∀ result,
    exchange w.notices (w.dial i.host i.port) = result ↔ Hears w.notices ls result
  answered : ∀ r, Hears w.notices ls (.ok r) →
    run w args = ⟨0, showResponse w i.json r, "", some (messageLine m)⟩
  failed : ∀ e, Hears w.notices ls (.error e) → run w args = ⟨1, "", e.text, some (messageLine m)⟩
  undisturbed : ∀ (w' : World) (s' : String) (ls' : List String), w'.color = w.color →
    w'.notices = w.notices → w'.dial i.host i.port = .connected s' → Text.ConsistsOf s' ls' →
      Interrupted ls ls' →
        exchange w'.notices (w'.dial i.host i.port) = exchange w.notices (w.dial i.host i.port) ∧
          run w' args = run w args

theorem passesOverPushes_send (hargs : Names args i) (hcommand : i.command = .send m)
    (hdial : w.dial i.host i.port = .connected s) (hlines : Text.ConsistsOf s ls) :
    PassesOverPushes args i m w ls := by
  have hexchange : exchange w.notices (w.dial i.host i.port) = awaitAnswer w.notices ls := by
    rw [hdial, exchange, hlines.lines_eq]
  have hrun := run_send hargs hcommand hdial
  rw [hlines.lines_eq] at hrun
  constructor
  case exchange_eq_iff =>
    intro result
    rw [hexchange]
    exact awaitAnswer_eq_iff
  case answered =>
    intro r h
    rw [hrun, h.awaitAnswer_eq]
    rfl
  case failed =>
    intro e h
    rw [hrun, h.awaitAnswer_eq]
    rfl
  case undisturbed =>
    intro w' s' ls' hcolor hnotices hdial' hlines' h
    have hsame : awaitAnswer w.notices ls' = awaitAnswer w.notices ls :=
      awaitAnswer_of_interrupted h
    have hshow : showResponse w' i.json = showResponse w i.json := by
      unfold showResponse
      rw [hcolor]
    refine ⟨?_, ?_⟩
    · rw [hexchange, hdial', exchange, hlines'.lines_eq, hnotices, hsame]
    · rw [hrun, run_send hargs hcommand hdial', hlines'.lines_eq, hnotices, hsame, hshow]

/-- The push carries a number and a schedule, as the answer to a registration or to a question for
the schedule does. -/
theorem passesOverPushes_send_schedule :
    let push : Response := { Response.scheduleUpdate (.idle 40000 32 10) with requestId := some 7 }
    let answer : Response := { Response.ofStatus .success with schedule := some (.idle 9 1 1) }
    let i : Invocation := ⟨"127.0.0.1", 7070, false, .send .getSchedule⟩
    let s := push.text ++ "\n" ++ (answer.text ++ "\n" ++ "")
    let w : World :=
      ⟨false, fun _ => .error .notFound, fun _ _ => .connected s, fun _ => ⟨.noValue, 1, 0⟩⟩
    Names ["schedule"] i ∧ i.command = .send .getSchedule ∧
      w.dial i.host i.port = .connected s ∧ Text.ConsistsOf s [push.text, answer.text] ∧
        PassesOverPushes ["schedule"] i .getSchedule w [push.text, answer.text] := by
  intro push answer i s w
  have hargs : Names ["schedule"] i := ⟨⟨"schedule", .empty, .empty⟩, rfl, rfl⟩
  have hlines : Text.ConsistsOf s [push.text, answer.text] :=
    push.consistsOf_text (answer.consistsOf_text .nil)
  exact ⟨hargs, rfl, rfl, hlines, passesOverPushes_send hargs rfl rfl hlines⟩

end Terminal

end RadioScan
