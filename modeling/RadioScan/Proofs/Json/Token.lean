import RadioScan.Json.Scan
import Mathlib.Data.List.Forall2

/-!
# Tokens read back

A token may be spelled in more than one way: a character of a string plainly or by an escape, a
power of ten with a small or a large letter. It is read back from every spelling, whatever follows,
unless that goes on like a number (`readToken_of_spelledBy`). The spelling that tokens are written
with is one of them (`Token.spelledBy_spell`): its escapes stand for the characters they were made
from, and the whole part of a number has no leading zero. Blanks in front of a token are dropped in
scanning.
-/

namespace RadioScan.Json

/-! ## Strings -/

/-- A piece of a string's text is a character itself, a letter behind a backslash, or four
hexadecimal digits. -/
inductive Piece.SpelledBy : Piece → List Char → Prop
  | plain {c : Char} (hcontrol : 0x20 ≤ c.toNat) (hquote : c ≠ '"') (hback : c ≠ '\\') :
      SpelledBy (.char c) [c]
  | letter {e c : Char} (h : unescape? e = some c) : SpelledBy (.char c) ['\\', e]
  | unit {a b c d : Char} {u : Nat} (h : hexValues? a b c d = some u) :
      SpelledBy (.unit u) ['\\', 'u', a, b, c, d]

/-- The pieces are spelled one behind the other. -/
inductive SpellsPieces : List Char → List Piece → Prop
  | nil : SpellsPieces [] []
  | cons {cs ds : List Char} {p : Piece} {ps : List Piece} (hp : p.SpelledBy cs)
      (hps : SpellsPieces ds ps) : SpellsPieces (cs ++ ds) (p :: ps)

theorem readPieces_append {p : Piece} {cs : List Char} (h : p.SpelledBy cs) (rest : List Char) :
    readPieces (cs ++ rest) = (readPieces rest).map fun r => (p :: r.1, r.2) := by
  cases h with
  | @plain c hcontrol hquote hback =>
    rw [List.singleton_append, readPieces]
    · rw [if_neg (by simp [hback]; omega)]
      cases readPieces rest <;> rfl
    · simpa using hquote
    all_goals simp [hback]
  | @letter e c h =>
    change readPieces ('\\' :: e :: rest) = _
    rw [readPieces]
    · rw [h]
      cases readPieces rest <;> rfl
    · rintro _ _ _ _ _ rfl -
      simp [unescape?] at h
  | unit h =>
    simp only [List.cons_append, List.nil_append, readPieces, h]
    cases readPieces rest <;> rfl

theorem readPieces_of_spells {cs : List Char} {ps : List Piece} (h : SpellsPieces cs ps)
    (rest : List Char) : readPieces (cs ++ '"' :: rest) = some (ps, rest) := by
  induction h with
  | nil => simp [readPieces]
  | cons hp _ ih => rw [List.append_assoc, readPieces_append hp, ih, Option.map_some]

/-- A piece of a string's text that stands for a character alone. -/
def Spells (c : Char) (p : Piece) : Prop := p = .char c ∨ p = .unit c.toNat ∧ c.toNat < 0x20

theorem hexValues?_control : ∀ n < 0x20,
    hexValues? '0' '0' (Nat.digitChar (n / 16)) (Nat.digitChar (n % 16)) = some n := by
  decide

theorem exists_spelledBy_escape (c : Char) : ∃ p, Spells c p ∧ p.SpelledBy (escape c) := by
  unfold escape
  split
  case h_8 hquote hback _ _ _ _ _ =>
    split_ifs with hcontrol
    · exact ⟨.unit c.toNat, .inr ⟨rfl, hcontrol⟩, .unit (hexValues?_control _ hcontrol)⟩
    · exact ⟨.char c, .inl rfl, .plain (Nat.not_lt.1 hcontrol) hquote hback⟩
  all_goals exact ⟨.char _, .inl rfl, .letter rfl⟩

theorem exists_spellsPieces_escape (cs : List Char) :
    ∃ ps, List.Forall₂ Spells cs ps ∧ SpellsPieces (cs.flatMap escape) ps := by
  induction cs with
  | nil => exact ⟨[], .nil, .nil⟩
  | cons c cs ih =>
    obtain ⟨ps, hps, hspells⟩ := ih
    obtain ⟨p, hp, hc⟩ := exists_spelledBy_escape c
    exact ⟨p :: ps, .cons hp hps, .cons hc hspells⟩

theorem joinPieces_control {u : Nat} (hu : u < 0x20) (ps : List Piece) :
    joinPieces (.unit u :: ps) = (joinPieces ps).map (Char.ofNat u :: ·) := by
  have hhigh : isHighSurrogate u = false := by simp [isHighSurrogate]; omega
  have hlow : isLowSurrogate u = false := by simp [isLowSurrogate]; omega
  rcases ps with _ | ⟨c | v, ps⟩ <;> simp [joinPieces, hhigh, hlow]

theorem joinPieces_of_spells {cs : List Char} {ps : List Piece} (h : List.Forall₂ Spells cs ps) :
    joinPieces ps = some cs := by
  induction h with
  | nil => rfl
  | cons hp _ ih =>
    rcases hp with rfl | ⟨rfl, hcontrol⟩
    · rw [joinPieces, ih, Option.map_some]
    · rw [joinPieces_control hcontrol, ih, Option.map_some, Char.ofNat_toNat]

/-! ## Numbers -/

theorem head?_toDigits {n : Nat} (h : 0 < n) : (Nat.toDigits 10 n).head? ≠ some '0' := by
  induction n using Nat.strongRecOn with
  | ind n ih =>
    rcases Nat.lt_or_ge n 10 with hn | hn
    · have hdigits : ∀ d < 10, 0 < d → (Nat.toDigits 10 d).head? ≠ some '0' := by decide
      exact hdigits n hn h
    · rw [Nat.toDigits_of_base_le (by decide) hn,
        List.head?_append_of_ne_nil _ Nat.toDigits_ne_nil]
      exact ih (n / 10) (by omega) (by omega)

theorem isDigit_toDigits (n : Nat) : ∀ c ∈ Nat.toDigits 10 n, c.isDigit :=
  fun _ => Nat.isDigit_of_mem_toDigits (by decide) (by decide)

/-- The text does not go on with a digit. -/
def EndsDigits (rest : List Char) : Prop := ∀ c ∈ rest.head?, c.isDigit = false

/-- The text does not go on like a number. -/
def EndsNumber (rest : List Char) : Prop :=
  ∀ c ∈ rest.head?, c.isDigit = false ∧ c ≠ '.' ∧ c ≠ 'e' ∧ c ≠ 'E'

section Number

variable {rest : List Char}

theorem EndsNumber.endsDigits (h : EndsNumber rest) : EndsDigits rest := fun c hc => (h c hc).1

theorem span_digits {ds : List Char} (hds : ∀ c ∈ ds, c.isDigit) (hrest : EndsDigits rest) :
    (ds ++ rest).takeWhile Char.isDigit = ds ∧ (ds ++ rest).dropWhile Char.isDigit = rest := by
  rw [List.takeWhile_append_of_pos hds, List.dropWhile_append_of_pos hds]
  cases rest with
  | nil => simp
  | cons c rest => simp [hrest c rfl]

theorem span_toDigits (n : Nat) (hrest : EndsDigits rest) :
    (Nat.toDigits 10 n ++ rest).takeWhile Char.isDigit = Nat.toDigits 10 n ∧
      (Nat.toDigits 10 n ++ rest).dropWhile Char.isDigit = rest :=
  span_digits (isDigit_toDigits n) hrest

theorem readWhole_toDigits (n : Nat) (hrest : EndsDigits rest) :
    readWhole (Nat.toDigits 10 n ++ rest) = some (n, rest) := by
  obtain ⟨htake, hdrop⟩ := span_toDigits n hrest
  unfold readWhole
  rw [htake, hdrop]
  split
  · next hnil => exact absurd hnil Nat.toDigits_ne_nil
  · next hzero =>
    rcases Nat.eq_zero_or_pos n with rfl | hpos
    · simp at hzero
    · exact absurd (by rw [hzero]; rfl) (head?_toDigits hpos)
  · rw [Nat.ofDigitChars_ten_toDigits]

theorem readFraction_append {ds : List Char} (hds : ∀ c ∈ ds, c.isDigit)
    (hrest : EndsDigits rest) (hpoint : ∀ c ∈ rest.head?, c ≠ '.') :
    readFraction ((if ds = [] then [] else '.' :: ds) ++ rest) = some (ds, rest) := by
  split_ifs with hnil
  · subst hnil
    unfold readFraction
    split
    · next hrest => exact absurd rfl (hpoint '.' (by rw [← List.nil_append rest, hrest]; rfl))
    · rfl
  · obtain ⟨htake, hdrop⟩ := span_digits hds hrest
    rw [List.cons_append, readFraction, htake, hdrop]
    split
    · exact absurd rfl hnil
    · rfl

theorem readPower_append (negative : Bool) {ds : List Char} (hds : ∀ c ∈ ds, c.isDigit)
    (hne : ds ≠ []) (hrest : EndsDigits rest) :
    readPower negative (ds ++ rest) =
      some (some (if negative then -(Nat.ofDigitChars 10 ds 0 : Int) else Nat.ofDigitChars 10 ds 0),
        rest) := by
  obtain ⟨htake, hdrop⟩ := span_digits hds hrest
  rw [readPower, htake, hdrop]
  split
  · exact absurd rfl hne
  · rfl

/-- The texts of a power of ten: a letter, a sign or none, and digits, which may begin with zero. -/
inductive SpellsPower : Option Int → List Char → Prop
  | none : SpellsPower none []
  | plain {c : Char} (hc : c = 'e' ∨ c = 'E') {ds : List Char} (hds : ∀ c ∈ ds, c.isDigit)
      (hne : ds ≠ []) : SpellsPower (some (Nat.ofDigitChars 10 ds 0)) (c :: ds)
  | plus {c : Char} (hc : c = 'e' ∨ c = 'E') {ds : List Char} (hds : ∀ c ∈ ds, c.isDigit)
      (hne : ds ≠ []) : SpellsPower (some (Nat.ofDigitChars 10 ds 0)) (c :: '+' :: ds)
  | minus {c : Char} (hc : c = 'e' ∨ c = 'E') {ds : List Char} (hds : ∀ c ∈ ds, c.isDigit)
      (hne : ds ≠ []) : SpellsPower (some (-Nat.ofDigitChars 10 ds 0)) (c :: '-' :: ds)

theorem digits_append_ne {c : Char} (hc : c.isDigit = false) {ds : List Char}
    (hds : ∀ c ∈ ds, c.isDigit) (hne : ds ≠ []) (rest cs : List Char) : ds ++ rest ≠ c :: cs := by
  rcases ds with _ | ⟨d, ds⟩
  · exact absurd rfl hne
  · rintro ⟨⟩
    simp [hc] at hds

theorem readExponent_append {e : Option Int} {cs : List Char} (h : SpellsPower e cs)
    (hrest : EndsNumber rest) : readExponent (cs ++ rest) = some (e, rest) := by
  cases h with
  | none =>
    cases rest with
    | nil => rfl
    | cons c rest =>
      obtain ⟨-, -, he, hE⟩ := hrest c rfl
      simp [readExponent, he, hE]
  | plain hc hds hne =>
    rw [List.cons_append, readExponent, if_pos hc]
    · exact readPower_append false hds hne hrest.endsDigits
    · exact digits_append_ne (by decide) hds hne rest
    · exact digits_append_ne (by decide) hds hne rest
  | plus hc hds hne =>
    rw [List.cons_append, List.cons_append, readExponent, if_pos hc]
    exact readPower_append false hds hne hrest.endsDigits
  | minus hc hds hne =>
    rw [List.cons_append, List.cons_append, readExponent, if_pos hc]
    exact readPower_append true hds hne hrest.endsDigits

theorem head?_power {e : Option Int} {cs : List Char} (h : SpellsPower e cs)
    (hrest : EndsNumber rest) : ∀ c ∈ (cs ++ rest).head?, c.isDigit = false ∧ c ≠ '.' := by
  cases h with
  | none => exact fun c hc => ⟨(hrest c hc).1, (hrest c hc).2.1⟩
  | plain hc | plus hc | minus hc => rcases hc with rfl | rfl <;> simp

end Number

/-- A power of ten as it is written. -/
def power (e : Option Int) : List Char :=
  match e with
  | none => []
  | some e => 'e' :: ((if e < 0 then ['-'] else []) ++ Nat.toDigits 10 e.natAbs)

theorem spellsPower_power (e : Option Int) : SpellsPower e (power e) := by
  rcases e with _ | n | n
  · exact .none
  · have h := SpellsPower.plain (.inl rfl) (isDigit_toDigits n) Nat.toDigits_ne_nil
    have hsign : ¬(n : Int) < 0 := by omega
    rw [Nat.ofDigitChars_ten_toDigits] at h
    simpa [power, hsign] using h
  · have h := SpellsPower.minus (.inl rfl) (isDigit_toDigits (n + 1)) Nat.toDigits_ne_nil
    have hvalue : Int.negSucc n = -((n + 1 : Nat) : Int) := rfl
    rw [Nat.ofDigitChars_ten_toDigits, ← hvalue] at h
    simpa [power] using h

/-- The digits behind the point are digits. -/
def Number.IsWritten (n : Number) : Prop := ∀ c ∈ n.fraction, c.isDigit

/-- The number's text behind its sign, with the power of ten in the given text. -/
def Number.magnitudeText (n : Number) (power : List Char) : List Char :=
  Nat.toDigits 10 n.whole ++ ((if n.fraction = [] then [] else '.' :: n.fraction) ++ power)

theorem Number.spell_eq (n : Number) :
    n.spell = (if n.negative then ['-'] else []) ++ n.magnitudeText (power n.exponent) := by
  simp only [spell, magnitudeText, List.append_assoc]
  rfl

/-- What stands behind the sign is read back. -/
theorem readNumber_append {n : Number} (hn : n.IsWritten) {cs rest : List Char}
    (hpower : SpellsPower n.exponent cs) (hrest : EndsNumber rest) :
    readNumber n.negative (n.magnitudeText cs ++ rest) = some (.number n, rest) := by
  have hhead := head?_power hpower hrest
  have hfraction := readFraction_append hn (fun c hc => (hhead c hc).1) fun c hc => (hhead c hc).2
  have hends : EndsDigits
      ((if n.fraction = [] then [] else '.' :: n.fraction) ++ (cs ++ rest)) := by
    split_ifs
    · exact fun c hc => (hhead c hc).1
    · simp [EndsDigits]
  rw [Number.magnitudeText, List.append_assoc, List.append_assoc, readNumber,
    readWhole_toDigits n.whole hends]
  simp [hfraction, readExponent_append hpower hrest]

/-! ## Tokens -/

/-- The token can be written. -/
def Token.IsWritten : Token → Prop
  | number n => n.IsWritten
  | text content => content.isSome
  | bad => False
  | _ => True

/-- The text is one of the token's. -/
def Token.SpelledBy (t : Token) (cs : List Char) : Prop :=
  match t with
  | number n => n.IsWritten ∧ ∃ power, SpellsPower n.exponent power ∧
      cs = (if n.negative then ['-'] else []) ++ n.magnitudeText power
  | text content => ∃ body ps, SpellsPieces body ps ∧
      content = (joinPieces ps).map String.ofList ∧ cs = '"' :: (body ++ ['"'])
  | bad => False
  | t => cs = t.spell

theorem Token.spelledBy_spell {t : Token} (h : t.IsWritten) : t.SpelledBy t.spell := by
  cases t with
  | bad => cases h
  | number n => exact ⟨h, _, spellsPower_power n.exponent, n.spell_eq⟩
  | text content =>
    obtain ⟨s, rfl⟩ := Option.isSome_iff_exists.1 h
    obtain ⟨ps, hps, hspells⟩ := exists_spellsPieces_escape s.toList
    exact ⟨_, ps, hspells, by simp [joinPieces_of_spells hps], rfl⟩
  | _ => rfl

theorem readToken_magnitudeText (n : Number) (power rest : List Char) :
    readToken (n.magnitudeText power ++ rest) =
      readNumber false (n.magnitudeText power ++ rest) := by
  rw [Number.magnitudeText, List.append_assoc, readToken]
  all_goals exact fun _ => digits_append_ne (by decide) (isDigit_toDigits _) Nat.toDigits_ne_nil _ _

theorem readToken_of_spelledBy {t : Token} {cs rest : List Char} (h : t.SpelledBy cs)
    (hrest : ∀ n, t = .number n → EndsNumber rest) :
    readToken (cs ++ rest) = some (t, rest) := by
  cases t with
  | bad => cases h
  | bool b =>
    subst h
    cases b <;> rfl
  | number n =>
    obtain ⟨hn, power, hpower, rfl⟩ := h
    have hread := readNumber_append hn hpower (hrest n rfl)
    cases hneg : n.negative with
    | true => simpa [readToken, hneg] using hread
    | false => simpa [readToken_magnitudeText, hneg] using hread
  | text content =>
    obtain ⟨body, ps, hspells, rfl, rfl⟩ := h
    simp [readToken, readText, readPieces_of_spells hspells]
  | _ =>
    subst h
    rfl

/-! ## Scanning -/

/-- Scanning drops blanks and takes a token. -/
theorem scan_eq (cs : List Char) :
    scan cs = match cs.dropWhile isBlank with
      | [] => []
      | c :: rest =>
        match readToken (c :: rest) with
        | some (t, rest) => t :: scan rest
        | none => [.bad] := by
  rw [scan]
  split <;> rename_i heq <;> rw [heq]
  dsimp only
  split <;> rename_i hread <;> rw [hread]

@[simp]
theorem scan_nil : scan [] = [] := scan_eq []

theorem scan_blanks {bs : List Char} (h : ∀ c ∈ bs, isBlank c) (cs : List Char) :
    scan (bs ++ cs) = scan cs := by
  rw [scan_eq, List.dropWhile_append_of_pos h, ← scan_eq]

theorem isBlank_of_readToken {c : Char} {cs : List Char} {r : Token × List Char}
    (h : readToken (c :: cs) = some r) : isBlank c = false := by
  by_contra hblank
  simp only [isBlank, Bool.not_eq_false, Bool.or_eq_true, beq_iff_eq] at hblank
  rcases hblank with ((rfl | rfl) | rfl) | rfl <;> simp [readToken, readNumber, readWhole] at h

theorem scan_of_readToken {cs rest : List Char} {t : Token} (h : readToken cs = some (t, rest)) :
    scan cs = t :: scan rest := by
  cases cs with
  | nil => simp [readToken, readNumber, readWhole] at h
  | cons c cs =>
    have hblank : (c :: cs).dropWhile isBlank = c :: cs := by simp [isBlank_of_readToken h]
    rw [scan_eq, hblank]
    simp only [h]

theorem scan_of_spelledBy {t : Token} {cs rest : List Char} (h : t.SpelledBy cs)
    (hrest : ∀ n, t = .number n → EndsNumber rest) : scan (cs ++ rest) = t :: scan rest :=
  scan_of_readToken (readToken_of_spelledBy h hrest)

end RadioScan.Json
