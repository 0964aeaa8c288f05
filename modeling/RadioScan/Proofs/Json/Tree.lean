import RadioScan.Proofs.Json.Token
import RadioScan.Json.Tree
import Mathlib.Data.List.Chain

/-!
# Trees read back

A tree is read back from every text of its tokens, with blanks between them or not and nothing
behind them (`parse_of_isText`). Only a number can run on into what follows it, and in a tree what
follows a value is a comma or a closing bracket (`apart_tokens`); so scanning gives back the tokens.
Reading those completes the tree inside any open frames (`reads_of_tokens`). The compact text of a
tree that can be written is one of its texts (`IsWritten.isText_compact`).
-/

namespace RadioScan.Json

/-- Induction over a tree, with the hypothesis for every item and every member's value. -/
@[elab_as_elim, induction_eliminator]
theorem induct {motive : Json → Prop} (null : motive .null) (bool : ∀ b, motive (.bool b))
    (number : ∀ n, motive (.number n)) (text : ∀ content, motive (.text content))
    (array : ∀ items, (∀ j ∈ items, motive j) → motive (.array items))
    (object : ∀ members, (∀ m ∈ members, motive m.2) → motive (.object members))
    (broken : motive .broken) : ∀ j, motive j
  | .null => null
  | .bool b => bool b
  | .number n => number n
  | .text content => text content
  | .array items => array items fun j _ => induct null bool number text array object broken j
  | .object members =>
    object members fun m _ => induct null bool number text array object broken m.2
  | .broken => broken
termination_by j => sizeOf j
decreasing_by
  · next hj => exact Nat.lt_trans (List.sizeOf_lt_of_mem hj) (by simp)
  · next hm =>
    have hvalue : sizeOf m.2 < sizeOf m := by
      rcases m with ⟨k, v⟩
      simp only [Prod.mk.sizeOf_spec]
      omega
    have hmember := List.sizeOf_lt_of_mem hm
    rw [Json.object.sizeOf_spec]
    omega

/-! ## Texts of a row of tokens -/

/-- The texts of a row of tokens: any blanks and any text of the token, one behind the other. -/
inductive RowText : List Token → List Char → Prop
  | nil : RowText [] []
  | cons {t : Token} {ts : List Token} {bs cs ds : List Char} (hblank : ∀ c ∈ bs, isBlank c)
      (ht : t.SpelledBy cs) (hts : RowText ts ds) : RowText (t :: ts) (bs ++ (cs ++ ds))

/-- The token ends whatever stands in front of it. -/
def Token.EndsValue (t : Token) : Prop := t = .comma ∨ t = .closeBracket ∨ t = .closeBrace

/-- The second token may stand right behind the first: a number does not run on into it. -/
def Token.Apart (t u : Token) : Prop := ∀ n, t = .number n → u.EndsValue

theorem endsNumber_of_isBlank {c : Char} (h : isBlank c) (rest : List Char) :
    EndsNumber (c :: rest) := by
  simp only [isBlank, Bool.or_eq_true, beq_iff_eq] at h
  rcases h with ((rfl | rfl) | rfl) | rfl <;> simp [EndsNumber]

theorem RowText.endsNumber {t : Token} {ts : List Token} {cs : List Char}
    (h : RowText (t :: ts) cs) (hends : t.EndsValue) (rest : List Char) :
    EndsNumber (cs ++ rest) := by
  cases h with
  | @cons _ _ bs cs ds hblank ht _ =>
    rcases bs with _ | ⟨c, bs⟩
    · rcases hends with rfl | rfl | rfl <;> cases ht <;> simp [Token.spell, EndsNumber]
    · exact endsNumber_of_isBlank (hblank c List.mem_cons_self) _

theorem RowText.scan_append {ts : List Token} {cs rest : List Char} (h : RowText ts cs)
    (hapart : ts.IsChain Token.Apart) (hrest : EndsNumber rest) :
    scan (cs ++ rest) = ts ++ scan rest := by
  induction h with
  | nil => rfl
  | @cons t ts bs cs ds hblank ht hts ih =>
    rw [List.isChain_cons] at hapart
    have hends : ∀ n, t = .number n → EndsNumber (ds ++ rest) := by
      intro n hn
      cases hts with
      | nil => exact hrest
      | cons hblank hu hus =>
        exact (RowText.cons hblank hu hus).endsNumber (hapart.1 _ rfl n hn) rest
    rw [List.append_assoc, List.append_assoc, scan_blanks hblank, scan_of_spelledBy ht hends,
      ih hapart.2, List.cons_append]

theorem RowText.ne_bad {ts : List Token} {cs : List Char} (h : RowText ts cs) :
    ∀ t ∈ ts, t ≠ .bad := by
  induction h with
  | nil => simp
  | cons _ ht _ ih =>
    rw [List.forall_mem_cons]
    refine ⟨?_, ih⟩
    rintro rfl
    exact ht

/-- Every token may stand behind the same blanks. -/
theorem rowText_spell {bs : List Char} (hblank : ∀ c ∈ bs, isBlank c) {ts : List Token}
    (h : ∀ t ∈ ts, t.IsWritten) : RowText ts (ts.flatMap fun t => bs ++ t.spell) := by
  induction ts with
  | nil => exact .nil
  | cons t ts ih =>
    rw [List.forall_mem_cons] at h
    rw [List.flatMap_cons, List.append_assoc]
    exact .cons hblank (Token.spelledBy_spell h.1) (ih h.2)

/-! ## The tokens of a tree -/

/-- A row of tokens in which no number runs on, and which may stand behind a number. -/
def Follows (ts : List Token) : Prop := ts.IsChain Token.Apart ∧ ∀ t ∈ ts.head?, t.EndsValue

theorem apart_cons {t : Token} {ts : List Token} (ht : ∀ n, t ≠ .number n)
    (hts : ts.IsChain Token.Apart) : (t :: ts).IsChain Token.Apart :=
  List.isChain_cons.2 ⟨fun _ _ n hn => absurd hn (ht n), hts⟩

theorem apart_append {ts us : List Token} (hts : ts.IsChain Token.Apart) (hus : Follows us) :
    (ts ++ us).IsChain Token.Apart :=
  List.isChain_append.2 ⟨hts, hus.1, fun _ _ u hu _ _ => hus.2 u hu⟩

theorem follows_items {js : List Json} (h : ∀ j ∈ js, j.tokens.IsChain Token.Apart) :
    Follows (itemTokens js ++ [.closeBracket]) := by
  induction js with
  | nil => simp [Follows, itemTokens, Token.EndsValue]
  | cons j js ih =>
    rw [List.forall_mem_cons] at h
    rw [itemTokens, List.cons_append, List.append_assoc]
    exact ⟨apart_cons nofun (apart_append h.1 (ih h.2)), by simp [Token.EndsValue]⟩

theorem apart_pair {m : Option String × Json} (h : m.2.tokens.IsChain Token.Apart)
    {ts : List Token} (hts : Follows ts) : (pairTokens m ++ ts).IsChain Token.Apart := by
  obtain ⟨k, v⟩ := m
  exact apart_cons (t := .text k) nofun (apart_cons (t := .colon) nofun (apart_append h hts))

theorem follows_members {ms : List (Option String × Json)}
    (h : ∀ m ∈ ms, m.2.tokens.IsChain Token.Apart) :
    Follows (memberTokens ms ++ [.closeBrace]) := by
  induction ms with
  | nil => simp [Follows, memberTokens, Token.EndsValue]
  | cons m ms ih =>
    rw [List.forall_mem_cons] at h
    rw [memberTokens, List.cons_append, List.append_assoc]
    exact ⟨apart_cons nofun (apart_pair h.1 (ih h.2)), by simp [Token.EndsValue]⟩

theorem apart_tokens (j : Json) : j.tokens.IsChain Token.Apart := by
  induction j with
  | array items ih =>
    cases items with
    | nil => exact apart_cons nofun (.singleton _)
    | cons j js =>
      rw [List.forall_mem_cons] at ih
      exact apart_cons nofun (apart_append ih.1 (follows_items ih.2))
  | object members ih =>
    cases members with
    | nil => exact apart_cons nofun (.singleton _)
    | cons m ms =>
      rw [List.forall_mem_cons] at ih
      exact apart_cons nofun (apart_pair ih.1 (follows_members ih.2))
  | _ => exact .singleton _

/-- A bracket, a brace, a comma or a colon. -/
def Token.IsMark : Token → Prop
  | openBracket | closeBracket | openBrace | closeBrace | comma | colon => True
  | _ => False

section Forall

variable {P : Token → Prop} (hmark : ∀ t, t.IsMark → P t)

include hmark

theorem forall_itemTokens {js : List Json} :
    (∀ t ∈ itemTokens js, P t) ↔ ∀ j ∈ js, ∀ t ∈ j.tokens, P t := by
  induction js with
  | nil => simp [itemTokens]
  | cons j js ih =>
    rw [itemTokens, List.forall_mem_cons, List.forall_mem_append, ih, List.forall_mem_cons]
    exact and_iff_right (hmark .comma trivial)

theorem forall_pairTokens (m : Option String × Json) :
    (∀ t ∈ pairTokens m, P t) ↔ P (.text m.1) ∧ ∀ t ∈ m.2.tokens, P t := by
  obtain ⟨k, v⟩ := m
  rw [pairTokens, List.forall_mem_cons, List.forall_mem_cons, and_iff_right (hmark .colon trivial)]

theorem forall_memberTokens {ms : List (Option String × Json)} :
    (∀ t ∈ memberTokens ms, P t) ↔ ∀ m ∈ ms, P (.text m.1) ∧ ∀ t ∈ m.2.tokens, P t := by
  induction ms with
  | nil => simp [memberTokens]
  | cons m ms ih =>
    rw [memberTokens, List.forall_mem_cons, List.forall_mem_append, ih, forall_pairTokens hmark,
      List.forall_mem_cons]
    exact and_iff_right (hmark .comma trivial)

theorem forall_tokens_array {items : List Json} :
    (∀ t ∈ (array items).tokens, P t) ↔ ∀ j ∈ items, ∀ t ∈ j.tokens, P t := by
  have hopen := hmark .openBracket trivial
  have hclose := hmark .closeBracket trivial
  cases items with
  | nil => simp [tokens, hopen, hclose]
  | cons j js =>
    simp only [tokens, List.forall_mem_cons, List.forall_mem_append, forall_itemTokens hmark]
    simp [hopen, hclose]

theorem forall_tokens_object {members : List (Option String × Json)} :
    (∀ t ∈ (object members).tokens, P t) ↔
      ∀ m ∈ members, P (.text m.1) ∧ ∀ t ∈ m.2.tokens, P t := by
  have hopen := hmark .openBrace trivial
  have hclose := hmark .closeBrace trivial
  cases members with
  | nil => simp [tokens, hopen, hclose]
  | cons m ms =>
    simp only [tokens, List.forall_mem_cons, List.forall_mem_append, forall_pairTokens hmark,
      forall_memberTokens hmark]
    simp [hopen, hclose]

end Forall

/-! ## Reading the tokens of a tree -/

/-- What is read behind a complete value. -/
def resume (stack : List Frame) (v : Json) (ts : List Token) : Json × List Token :=
  match stack with
  | [] => (v, ts)
  | _ :: _ => read stack (.next v) ts

/-- Reading the tokens of the tree completes the tree, inside any frames. -/
def Reads (j : Json) : Prop :=
  ∀ stack ts, read stack .value (j.tokens ++ ts) = resume stack j ts

theorem read_item {j : Json} (h : ∀ t ∈ j.tokens, t ≠ .bad) (stack ts) :
    read stack .item (j.tokens ++ ts) = read (.items [] :: stack) .value (j.tokens ++ ts) := by
  cases j with
  | array items => cases items <;> rfl
  | object ms => cases ms <;> rfl
  | broken => simp [tokens] at h
  | _ => rfl

theorem read_items {js : List Json} (h : ∀ j ∈ js, Reads j) (before : List Json) (v : Json)
    (stack ts) :
    read (.items before :: stack) (.next v) (itemTokens js ++ .closeBracket :: ts) =
      resume stack (array (before.reverse ++ v :: js)) ts := by
  induction js generalizing before v with
  | nil => cases stack <;> simp [itemTokens, read, step, proceed, complete, resume]
  | cons j js ih =>
    rw [List.forall_mem_cons] at h
    have hnext := h.1 (.items (v :: before) :: stack) (itemTokens js ++ .closeBracket :: ts)
    rw [resume, ih h.2] at hnext
    rw [itemTokens, List.cons_append, List.append_assoc]
    simpa [read, step, proceed] using hnext

theorem read_pair {m : Option String × Json} (h : Reads m.2) (before stack ts) :
    read stack (.key before) (pairTokens m ++ ts) =
      resume (.members before m.1 :: stack) m.2 ts := by
  obtain ⟨k, v⟩ := m
  rw [← h]
  cases before <;> rfl

theorem read_members {ms : List (Option String × Json)} (h : ∀ m ∈ ms, Reads m.2)
    (before : List (Option String × Json)) (k : Option String) (v : Json) (stack ts) :
    read (.members before k :: stack) (.next v) (memberTokens ms ++ .closeBrace :: ts) =
      resume stack (object (before.reverse ++ (k, v) :: ms)) ts := by
  induction ms generalizing before k v with
  | nil => cases stack <;> simp [memberTokens, read, step, proceed, complete, resume]
  | cons m ms ih =>
    rw [List.forall_mem_cons] at h
    have hnext := read_pair h.1 ((k, v) :: before) stack (memberTokens ms ++ .closeBrace :: ts)
    rw [resume, ih h.2] at hnext
    rw [memberTokens, List.cons_append, List.append_assoc]
    simpa [read, step, proceed] using hnext

theorem ne_bad_of_isMark (t : Token) (h : t.IsMark) : t ≠ .bad := by
  rintro rfl
  exact h

theorem reads_of_tokens (j : Json) (h : ∀ t ∈ j.tokens, t ≠ .bad) : Reads j := by
  induction j with
  | array items ih =>
    rw [forall_tokens_array ne_bad_of_isMark] at h
    intro stack ts
    cases items with
    | nil => cases stack <;> rfl
    | cons j js =>
      rw [List.forall_mem_cons] at ih h
      have hitems := read_items (fun i hi => ih.2 i hi (h.2 i hi)) [] j stack ts
      have hrow := ih.1 h.1 (.items [] :: stack) (itemTokens js ++ .closeBracket :: ts)
      rw [← read_item h.1, resume, hitems] at hrow
      simpa [tokens, read, step, begin] using hrow
  | object members ih =>
    rw [forall_tokens_object ne_bad_of_isMark] at h
    intro stack ts
    cases members with
    | nil => cases stack <;> rfl
    | cons m ms =>
      rw [List.forall_mem_cons] at ih h
      have hmembers := read_members (fun l hl => ih.2 l hl (h.2 l hl).2) [] m.1 m.2 stack ts
      have hrow := read_pair (ih.1 h.1.2) [] stack (memberTokens ms ++ .closeBrace :: ts)
      rw [resume, hmembers] at hrow
      simpa [tokens, read, step, begin] using hrow
  | broken => simp [tokens] at h
  | _ =>
    intro stack ts
    cases stack <;> rfl

/-! ## Texts of a tree -/

/-- The text is one of the tree's: its tokens, spelled anyhow, with blanks anywhere between them. -/
def IsText (s : String) (j : Json) : Prop :=
  ∃ cs bs, s.toList = cs ++ bs ∧ RowText j.tokens cs ∧ ∀ c ∈ bs, isBlank c

theorem parse_of_isText {s : String} {j : Json} (h : IsText s j) : parse s = (j, []) := by
  obtain ⟨cs, bs, hs, hrow, hblank⟩ := h
  have hends : EndsNumber bs := by
    rcases bs with _ | ⟨c, bs⟩
    · simp [EndsNumber]
    · exact endsNumber_of_isBlank (hblank c List.mem_cons_self) bs
  have hscan := hrow.scan_append (apart_tokens j) hends
  have hrest := scan_blanks hblank []
  rw [List.append_nil, scan_nil] at hrest
  rw [hrest] at hscan
  rw [parse, hs, hscan, reads_of_tokens j hrow.ne_bad, resume]

/-- The tree can be written: it has no broken place and no broken string, and its numbers are
proper. -/
inductive IsWritten : Json → Prop
  | null : IsWritten .null
  | bool (b : Bool) : IsWritten (.bool b)
  | number {n : Number} (h : n.IsWritten) : IsWritten (.number n)
  | text (s : String) : IsWritten (.text (some s))
  | array {items : List Json} (h : ∀ j ∈ items, IsWritten j) : IsWritten (.array items)
  | object {members : List (Option String × Json)} (hkeys : ∀ m ∈ members, m.1.isSome)
      (h : ∀ m ∈ members, IsWritten m.2) : IsWritten (.object members)

theorem isWritten_of_isMark (t : Token) (h : t.IsMark) : t.IsWritten := by
  cases t <;> first | exact trivial | exact h.elim

theorem IsWritten.tokens {j : Json} (h : j.IsWritten) : ∀ t ∈ j.tokens, t.IsWritten := by
  induction h with
  | array _ ih => exact (forall_tokens_array isWritten_of_isMark).2 ih
  | object hkeys _ ih =>
    exact (forall_tokens_object isWritten_of_isMark).2 fun m hm => ⟨hkeys m hm, ih m hm⟩
  | number h => simpa [Json.tokens, Token.IsWritten] using h
  | _ => simp [Json.tokens, Token.IsWritten]

theorem IsWritten.isText {j : Json} (h : j.IsWritten) {bs : List Char}
    (hblank : ∀ c ∈ bs, isBlank c) {s : String}
    (hs : s.toList = j.tokens.flatMap fun t => bs ++ t.spell) : IsText s j :=
  ⟨_, [], by rw [hs, List.append_nil], rowText_spell hblank h.tokens, by simp⟩

theorem IsWritten.isText_compact {j : Json} (h : j.IsWritten) : IsText j.compact j :=
  h.isText (List.forall_mem_nil _) (String.toList_ofList)

theorem parse_compact {j : Json} (h : j.IsWritten) : parse j.compact = (j, []) :=
  parse_of_isText h.isText_compact

end RadioScan.Json
