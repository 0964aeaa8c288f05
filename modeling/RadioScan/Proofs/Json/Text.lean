import RadioScan.Proofs.Json.Record
import RadioScan.Text.Blank
import Mathlib.Algebra.GroupWithZero.Nat
import Mathlib.Data.String.Basic

/-!
# The text of a tree

The compact text of a tree has no control character in it, so it stays on one line, and no blank at
its ends (`not_mem_compact`, `trim_compact`). Escaping makes at most six bytes out of one, which
bounds the size of a text by the sizes of the strings and numbers in it (`Record.size_encode`).
-/

namespace RadioScan.Json

open String (utf8Len)

/-! ## Characters -/

/-- A character of ASCII that is neither a blank nor a control character. -/
def IsVisible (c : Char) : Prop := 0x20 < c.toNat ∧ c.toNat < 0x7f

theorem IsVisible.not_isBlank {c : Char} (h : IsVisible c) : Text.isBlank c = false := by
  obtain ⟨h, h'⟩ := h
  simp only [Text.isBlank, Bool.or_eq_false_iff, Bool.and_eq_false_iff, decide_eq_false_iff_not,
    beq_eq_false_iff_ne]
  omega

theorem isVisible_of_isDigit {c : Char} (h : c.isDigit) : IsVisible c := by
  simp only [Char.isDigit, Bool.and_eq_true, decide_eq_true_eq, UInt32.le_iff_toNat_le] at h
  have h1 : 48 ≤ c.toNat := h.1
  have h2 : c.toNat ≤ 57 := h.2
  exact ⟨by omega, by omega⟩

theorem isVisible_toDigits (n : Nat) : ∀ c ∈ Nat.toDigits 10 n, IsVisible c :=
  fun c hc => isVisible_of_isDigit (isDigit_toDigits n c hc)

theorem isVisible_number {n : Number} (hn : n.IsWritten) : ∀ c ∈ n.spell, IsVisible c := by
  have hsign (p : Prop) [Decidable p] : ∀ c ∈ (if p then ['-'] else []), IsVisible c := by
    split_ifs <;> simp [IsVisible]
  have hfraction : ∀ c ∈ (if n.fraction = [] then [] else '.' :: n.fraction), IsVisible c := by
    split_ifs
    · simp
    · rw [List.forall_mem_cons]
      exact ⟨by simp [IsVisible], fun c hc => isVisible_of_isDigit (hn c hc)⟩
  have hpower : ∀ c ∈ power n.exponent, IsVisible c := by
    cases n.exponent with
    | none => simp [power]
    | some e =>
      rw [power, List.forall_mem_cons, List.forall_mem_append]
      exact ⟨by simp [IsVisible], hsign _, isVisible_toDigits _⟩
  rw [Number.spell_eq, Number.magnitudeText]
  simp only [List.forall_mem_append]
  exact ⟨hsign _, isVisible_toDigits _, hfraction, hpower⟩

theorem control_escape (c : Char) : ∀ d ∈ escape c, 0x20 ≤ d.toNat := by
  have hdigit : ∀ n < 0x10, 0x20 ≤ (Nat.digitChar n).toNat := by decide
  unfold escape
  split
  case h_8 =>
    split_ifs with hcontrol
    · have h1 := hdigit (c.toNat / 16) (by omega)
      have h2 := hdigit (c.toNat % 16) (by omega)
      simp [h1, h2]
    · simpa using hcontrol
  all_goals simp

theorem isVisible_spell {t : Token} (ht : t.IsWritten) (h : ∀ s, t ≠ .text s) :
    ∀ c ∈ t.spell, IsVisible c := by
  cases t with
  | number n => exact isVisible_number ht
  | bool b => cases b <;> simp [Token.spell, IsVisible]
  | text s => exact absurd rfl (h s)
  | _ => simp [Token.spell, IsVisible]

theorem edges_spell {t : Token} (ht : t.IsWritten) :
    (∀ c ∈ t.spell.head?, IsVisible c) ∧ ∀ c ∈ t.spell.getLast?, IsVisible c := by
  cases t with
  | text content =>
    obtain ⟨s, rfl⟩ := Option.isSome_iff_exists.1 ht
    rw [Token.spell, quote, ← List.cons_append, List.getLast?_concat]
    simp [IsVisible]
  | _ =>
    have hall := isVisible_spell ht (by simp)
    exact ⟨fun c hc => hall c (List.mem_of_mem_head? hc),
      fun c hc => hall c (List.mem_of_mem_getLast? hc)⟩

theorem control_spell {t : Token} (ht : t.IsWritten) : ∀ c ∈ t.spell, 0x20 ≤ c.toNat := by
  cases t with
  | text content =>
    obtain ⟨s, rfl⟩ := Option.isSome_iff_exists.1 ht
    intro c hc
    simp only [Token.spell, quote, List.mem_cons, List.mem_append, List.mem_flatMap,
      List.not_mem_nil, or_false] at hc
    rcases hc with rfl | ⟨d, -, hc⟩ | rfl
    · decide
    · exact control_escape d c hc
    · decide
  | _ => exact fun c hc => Nat.le_of_lt (isVisible_spell ht (by simp) c hc).1

theorem edges_flatMap {ts : List Token} (h : ∀ t ∈ ts, t.IsWritten) :
    (∀ c ∈ (ts.flatMap Token.spell).head?, IsVisible c) ∧
      ∀ c ∈ (ts.flatMap Token.spell).getLast?, IsVisible c := by
  induction ts with
  | nil => simp
  | cons t ts ih =>
    rw [List.forall_mem_cons] at h
    obtain ⟨hhead, hlast⟩ := edges_spell h.1
    obtain ⟨hheads, hlasts⟩ := ih h.2
    rw [List.flatMap_cons, List.head?_append, List.getLast?_append]
    constructor
    · intro c hc
      rcases Option.or_eq_some_iff.1 hc with hc | ⟨-, hc⟩
      · exact hhead c hc
      · exact hheads c hc
    · intro c hc
      rcases Option.or_eq_some_iff.1 hc with hc | ⟨-, hc⟩
      · exact hlasts c hc
      · exact hlast c hc

theorem trim_compact {j : Json} (h : j.IsWritten) : Text.trim j.compact = j.compact := by
  obtain ⟨hhead, hlast⟩ := edges_flatMap h.tokens
  have hdrop {cs : List Char} (hcs : ∀ c ∈ cs.head?, IsVisible c) :
      cs.dropWhile Text.isBlank = cs := by
    cases cs with
    | nil => rfl
    | cons c cs => simp [(hcs c rfl).not_isBlank]
  rw [Text.trim, compact, String.toList_ofList, hdrop hhead, hdrop (by rwa [List.head?_reverse]),
    List.reverse_reverse]

theorem control_compact {j : Json} (h : j.IsWritten) : ∀ c ∈ j.compact.toList, 0x20 ≤ c.toNat := by
  intro c hc
  rw [compact, String.toList_ofList] at hc
  obtain ⟨t, ht, hc⟩ := List.mem_flatMap.1 hc
  exact control_spell (h.tokens t ht) c hc

theorem not_mem_compact {j : Json} (h : j.IsWritten) : '\n' ∉ j.compact.toList :=
  fun hmem => absurd (control_compact h _ hmem) (by decide)

/-! ## Sizes -/

theorem utf8Len_ascii {cs : List Char} (h : ∀ c ∈ cs, c.toNat < 0x80) : utf8Len cs = cs.length := by
  induction cs with
  | nil => rfl
  | cons c cs ih =>
    rw [List.forall_mem_cons] at h
    have hc : c.utf8Size = 1 := Char.utf8Size_eq_one_iff.2 (Nat.le_of_lt_succ h.1)
    rw [String.utf8Len_cons, ih h.2, hc, List.length_cons]

theorem escape_eq_or_le_six (c : Char) : escape c = [c] ∨ utf8Len (escape c) ≤ 6 := by
  unfold escape
  split
  case h_8 =>
    split_ifs with hcontrol
    · have hdigit : ∀ n < 0x10, (Nat.digitChar n).toNat < 0x80 := by decide
      have h1 := hdigit (c.toNat / 16) (by omega)
      have h2 := hdigit (c.toNat % 16) (by omega)
      right
      rw [utf8Len_ascii (by simp [h1, h2])]
      exact Nat.le_refl 6
    · exact .inl rfl
  all_goals exact .inr (by decide)

theorem utf8Len_escape (c : Char) : utf8Len (escape c) ≤ 6 * c.utf8Size := by
  have hpos := c.utf8Size_pos
  rcases escape_eq_or_le_six c with hplain | hsix
  · rw [hplain, String.utf8Len_cons, String.utf8Len_nil]
    omega
  · omega

theorem utf8Len_flatMap_escape (cs : List Char) : utf8Len (cs.flatMap escape) ≤ 6 * utf8Len cs := by
  induction cs with
  | nil => simp
  | cons c cs ih =>
    have hc := utf8Len_escape c
    rw [List.flatMap_cons, String.utf8Len_append, String.utf8Len_cons]
    omega

theorem utf8Len_quote (s : String) : utf8Len (quote s) ≤ 6 * s.utf8ByteSize + 2 := by
  have hs := utf8Len_flatMap_escape s.toList
  have hq : '"'.utf8Size = 1 := rfl
  have hlen : utf8Len s.toList = s.utf8ByteSize := by
    rw [← String.utf8ByteSize_ofList, String.ofList_toList]
  rw [quote, String.utf8Len_cons, String.utf8Len_append, String.utf8Len_cons, String.utf8Len_nil]
  omega

theorem utf8Len_toDigits {n k : Nat} (hk : 0 < k) (hn : n < 10 ^ k) :
    utf8Len (Nat.toDigits 10 n) ≤ k := by
  rw [utf8Len_ascii fun c hc => by have := (isVisible_toDigits n c hc).2; omega]
  exact (Nat.length_toDigits_le_iff (by decide) hk).2 hn

theorem utf8ByteSize_toString {n k : Nat} (hk : 0 < k) (hn : n < 10 ^ k) :
    (toString n).utf8ByteSize ≤ k := by
  have h := utf8Len_toDigits hk hn
  rwa [← String.utf8ByteSize_ofList] at h

theorem utf8ByteSize_toString_eq {n k : Nat} (hlow : 10 ^ k ≤ n) (hhigh : n < 10 ^ (k + 1)) :
    (toString n).utf8ByteSize = k + 1 := by
  refine Nat.le_antisymm (utf8ByteSize_toString k.succ_pos hhigh) ?_
  have hlength : (toString n).utf8ByteSize = (Nat.toDigits 10 n).length := by
    rw [← utf8Len_ascii fun c hc => Nat.lt_succ_of_lt (isVisible_toDigits n c hc).2,
      ← String.utf8ByteSize_ofList]
    rfl
  have hpow : 10 ^ k < 10 ^ (Nat.toDigits 10 n).length := hlow.trans_lt
    ((Nat.length_toDigits_le_iff (by decide) Nat.length_toDigits_pos).1 (Nat.le_refl _))
  rw [hlength]
  exact (Nat.pow_lt_pow_iff_right (by decide)).1 hpow

/-- How many bytes the text of a tree takes. -/
def size (j : Json) : Nat := utf8Len (j.tokens.flatMap Token.spell)

theorem utf8ByteSize_compact (j : Json) : j.compact.utf8ByteSize = j.size :=
  String.utf8ByteSize_ofList _

theorem size_text (s : String) : (text (some s)).size ≤ 6 * s.utf8ByteSize + 2 := by
  simpa [size, tokens, Token.spell] using utf8Len_quote s

theorem size_ofNat {n k : Nat} (hk : 0 < k) (hn : n < 10 ^ k) : (number (.ofNat n)).size ≤ k := by
  simpa [size, tokens, Token.spell, Number.spell, Number.ofNat] using utf8Len_toDigits hk hn

theorem size_items (js : List Json) :
    utf8Len ((itemTokens js).flatMap Token.spell) = (js.map fun j => j.size + 1).sum := by
  have hcomma : utf8Len Token.comma.spell = 1 := rfl
  induction js with
  | nil => rfl
  | cons j js ih =>
    rw [itemTokens, List.flatMap_cons, List.flatMap_append, String.utf8Len_append,
      String.utf8Len_append, ih, hcomma, ← size, List.map_cons, List.sum_cons]
    omega

theorem size_array (js : List Json) : (array js).size ≤ 2 + (js.map fun j => j.size + 1).sum := by
  have hmarks : utf8Len Token.openBracket.spell = 1 ∧ utf8Len Token.closeBracket.spell = 1 := by
    decide
  rw [← size_items]
  cases js with
  | nil => decide
  | cons j js =>
    simp only [size, tokens, itemTokens, List.flatMap_cons, List.flatMap_append, List.flatMap_nil,
      String.utf8Len_append, String.utf8Len_nil]
    omega

theorem size_members (ms : List (Option String × Json)) :
    utf8Len ((memberTokens ms).flatMap Token.spell) =
      (ms.map fun m => utf8Len ((pairTokens m).flatMap Token.spell) + 1).sum := by
  have hcomma : utf8Len Token.comma.spell = 1 := rfl
  induction ms with
  | nil => rfl
  | cons m ms ih =>
    rw [memberTokens, List.flatMap_cons, List.flatMap_append, String.utf8Len_append,
      String.utf8Len_append, ih, hcomma, List.map_cons, List.sum_cons]
    omega

theorem size_pair (k : String) (v : Json) :
    utf8Len ((pairTokens (some k, v)).flatMap Token.spell) ≤ 6 * k.utf8ByteSize + v.size + 3 := by
  have hcolon : utf8Len Token.colon.spell = 1 := rfl
  have hkey : utf8Len (Token.text (some k)).spell ≤ 6 * k.utf8ByteSize + 2 := utf8Len_quote k
  rw [pairTokens, List.flatMap_cons, List.flatMap_cons, String.utf8Len_append,
    String.utf8Len_append, hcolon, ← size]
  omega

theorem size_object (ms : List (Option String × Json)) :
    (object ms).size ≤
      2 + (ms.map fun m => utf8Len ((pairTokens m).flatMap Token.spell) + 1).sum := by
  have hmarks : utf8Len Token.openBrace.spell = 1 ∧ utf8Len Token.closeBrace.spell = 1 := by
    decide
  rw [← size_members]
  cases ms with
  | nil => decide
  | cons m ms =>
    simp only [size, tokens, memberTokens, List.flatMap_cons, List.flatMap_append, List.flatMap_nil,
      String.utf8Len_append, String.utf8Len_nil]
    omega

/-- A bound on the size of the member that a field writes, with its comma. -/
def Field.room {α : Type} (f : Field α) (a : α) : Nat :=
  (f.write a).elim 0 fun j => 6 * f.name.utf8ByteSize + j.size + 4

theorem Field.room_plain {α β : Type} (name : String) (required : Bool) (encode : β → Json)
    (decode : Decoder β) (get : α → β) (set : β → α → α) (a : α) :
    (Field.plain name required encode decode get set).room a =
      6 * name.utf8ByteSize + (encode (get a)).size + 4 := rfl

section Room

variable {α β : Type} {name : String} {required : Bool} {encode : β → Json} {decode : Decoder β}
  {a : α} {k : Nat}

/-- The member that the field writes, if any, takes at most so much room. -/
def Field.Fits (a : α) (f : Field α) (k : Nat) : Prop := f.room a ≤ k

theorem Field.fits_plain {get : α → β} {set : β → α → α} (h : (encode (get a)).size ≤ k) :
    (Field.plain name required encode decode get set).Fits a (6 * name.utf8ByteSize + k + 4) := by
  rw [Fits, room_plain]
  omega

theorem Field.fits_skipped {get : α → Option β} {set : Option β → α → α}
    (h : ∀ b ∈ get a, (encode b).size ≤ k) :
    (Field.skipped name encode decode get set).Fits a (6 * name.utf8ByteSize + k + 4) := by
  unfold Fits
  cases hget : get a with
  | none => simp [room, skipped, hget]
  | some b =>
    have hb := h b hget
    simp only [room, skipped, hget, Option.map_some, Option.elim_some]
    omega

end Room

theorem Record.size_encode {α : Type} (r : Record α) (a : α) :
    (r.encode a).size ≤ 2 + (r.fields.map fun f => f.room a).sum := by
  have hfields (fields : List (Field α)) :
      ((members fields a).map fun m => utf8Len ((pairTokens m).flatMap Token.spell) + 1).sum ≤
        (fields.map fun f => f.room a).sum := by
    induction fields with
    | nil => exact Nat.le_refl 0
    | cons f fields ih =>
      rw [members, List.filterMap_cons, ← members, List.map_cons, List.sum_cons, Field.room]
      cases f.write a with
      | none => simpa using ih
      | some j =>
        have hpair := size_pair f.name j
        simp only [Option.map_some, Option.elim_some, List.map_cons, List.sum_cons]
        omega
  exact Nat.le_trans (size_object _) (Nat.add_le_add_left (hfields r.fields) 2)

/-- A bound on each field is a bound on the record. -/
theorem Record.size_le {α : Type} {r : Record α} {a : α} {bounds : List Nat}
    (h : List.Forall₂ (Field.Fits a) r.fields bounds) :
    (r.encode a).size ≤ 2 + bounds.sum := by
  have hsum : (r.fields.map fun f => f.room a).sum ≤ bounds.sum := by
    generalize r.fields = fields at h
    induction h with
    | nil => exact Nat.le_refl 0
    | cons hroom _ ih =>
      unfold Field.Fits at hroom
      simp only [List.map_cons, List.sum_cons]
      omega
  exact (r.size_encode a).trans (Nat.add_le_add_left hsum 2)

end RadioScan.Json
