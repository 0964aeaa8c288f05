import RadioScan.Json.Token

/-!
# Scanning

Scanning cuts a text into tokens. Every token takes at least one character, so scanning ends; it
ends early, with the token that says so, where the text goes on with no token.
-/

namespace RadioScan.Json

theorem length_dropWhile_le (p : Char → Bool) (cs : List Char) :
    (cs.dropWhile p).length ≤ cs.length :=
  (List.dropWhile_sublist p).length_le

theorem length_readPieces {cs rest : List Char} {ps : List Piece}
    (h : readPieces cs = some (ps, rest)) : rest.length < cs.length := by
  induction cs using readPieces.induct generalizing ps rest with
  | case1 => simp [readPieces] at h
  | case2 => simp_all [readPieces]
  | case3 a b c d cs ih =>
    simp only [readPieces, Option.bind_eq_bind, Option.bind_eq_some_iff] at h
    obtain ⟨u, -, ⟨qs, r⟩, hr, h⟩ := h
    have := ih hr
    simp_all
    omega
  | case4 e cs hne ih =>
    rw [readPieces] at h
    · simp only [Option.bind_eq_bind, Option.bind_eq_some_iff] at h
      obtain ⟨u, -, ⟨qs, r⟩, hr, h⟩ := h
      have := ih hr
      simp_all
      omega
    · exact hne
  | case5 c cs h1 h2 hc hc' =>
    rw [readPieces] at h <;> simp_all
  | case6 c cs h1 h2 hc hc' ih =>
    rw [readPieces] at h
    · simp only [hc', if_false, Option.bind_eq_bind, Option.bind_eq_some_iff] at h
      obtain ⟨⟨qs, r⟩, hr, h⟩ := h
      have := ih hr
      simp_all
      omega
    all_goals assumption

theorem length_readText {cs rest : List Char} {t : Token} (h : readText cs = some (t, rest)) :
    rest.length < cs.length := by
  obtain ⟨⟨ps, r⟩, hr, h⟩ := Option.map_eq_some_iff.1 h
  have := length_readPieces hr
  simp_all

theorem length_readWhole {cs rest : List Char} {n : Nat} (h : readWhole cs = some (n, rest)) :
    rest.length < cs.length := by
  have hsum := congrArg List.length (List.takeWhile_append_dropWhile (p := Char.isDigit) (l := cs))
  rw [List.length_append] at hsum
  unfold readWhole at h
  split at h
  · simp at h
  · simp at h
  · next hne _ =>
    obtain ⟨-, rfl⟩ := Prod.mk.inj (Option.some.inj h)
    have := List.length_pos_iff.2 hne
    omega

theorem length_readFraction {cs ds rest : List Char} (h : readFraction cs = some (ds, rest)) :
    rest.length ≤ cs.length := by
  unfold readFraction at h
  split at h
  · next cs =>
    have := length_dropWhile_le Char.isDigit cs
    split at h
    · simp at h
    · obtain ⟨-, rfl⟩ := Prod.mk.inj (Option.some.inj h)
      simp only [List.length_cons]
      omega
  · simp_all

theorem length_readPower {negative : Bool} {cs rest : List Char} {e : Option Int}
    (h : readPower negative cs = some (e, rest)) : rest.length ≤ cs.length := by
  have := length_dropWhile_le Char.isDigit cs
  unfold readPower at h
  split at h
  · simp at h
  · obtain ⟨-, rfl⟩ := Prod.mk.inj (Option.some.inj h)
    exact this

theorem length_readExponent {cs rest : List Char} {e : Option Int}
    (h : readExponent cs = some (e, rest)) : rest.length ≤ cs.length := by
  unfold readExponent at h
  split at h
  · split at h
    · split at h
      · have := length_readPower h
        simp only [List.length_cons]
        omega
      · have := length_readPower h
        simp only [List.length_cons]
        omega
      · have := length_readPower h
        simp only [List.length_cons]
        omega
    · simp_all
  · simp_all

theorem length_readNumber {negative : Bool} {cs rest : List Char} {t : Token}
    (h : readNumber negative cs = some (t, rest)) : rest.length < cs.length := by
  simp only [readNumber, Option.bind_eq_bind, Option.bind_eq_some_iff] at h
  obtain ⟨⟨w, r1⟩, h1, ⟨f, r2⟩, h2, ⟨e, r3⟩, h3, h⟩ := h
  have := length_readWhole h1
  have := length_readFraction h2
  have := length_readExponent h3
  simp_all
  omega

theorem length_readToken {cs rest : List Char} {t : Token} (h : readToken cs = some (t, rest)) :
    rest.length < cs.length := by
  unfold readToken at h
  split at h
  case h_10 =>
    have := length_readText h
    simp only [List.length_cons]
    omega
  case h_11 =>
    have := length_readNumber h
    simp only [List.length_cons]
    omega
  case h_12 => exact length_readNumber h
  all_goals
    obtain ⟨-, rfl⟩ := Prod.mk.inj (Option.some.inj h)
    simp only [List.length_cons]
    omega

/-- The tokens of a text. -/
def scan (cs : List Char) : List Token :=
  match _hb : cs.dropWhile isBlank with
  | [] => []
  | c :: rest =>
    match _h : readToken (c :: rest) with
    | some (t, rest') => t :: scan rest'
    | none => [.bad]
termination_by cs.length
decreasing_by
  have h1 := length_readToken _h
  have h2 := length_dropWhile_le isBlank cs
  rw [_hb] at h2
  omega

end RadioScan.Json
