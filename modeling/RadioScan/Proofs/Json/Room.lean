import RadioScan.Proofs.Json.Text
import RadioScan.Text.Quoted

/-!
# The room that a string takes

Inside the quotes of a JSON text a string takes the bytes of its escapes. A string that is quoted
for a reader first, and written after that, takes at most seven times as many and two more for each
quote (`room_quoted`). A string of delete characters takes that much (`room_quoted_deletes`).
-/

namespace RadioScan.Json

open String (utf8Len)

/-- How many bytes a string takes inside the quotes of a JSON text. -/
def room (s : String) : Nat := utf8Len (s.toList.flatMap escape)

theorem room_append (s t : String) : room (s ++ t) = room s + room t := by
  rw [room, String.toList_append, List.flatMap_append, String.utf8Len_append]
  rfl

theorem room_ofList_cons (c : Char) (cs : List Char) :
    room (String.ofList (c :: cs)) = utf8Len (escape c) + room (String.ofList cs) := by
  simp only [room, String.toList_ofList, List.flatMap_cons, String.utf8Len_append]

theorem room_le (s : String) : room s ≤ 6 * s.utf8ByteSize := by
  have h := utf8Len_flatMap_escape s.toList
  rwa [← String.utf8ByteSize_ofList s.toList, String.ofList_toList] at h

theorem utf8Len_quote_eq (s : String) : utf8Len (quote s) = room s + 2 := by
  have hq : '"'.utf8Size = 1 := rfl
  simp only [quote, String.utf8Len_cons, String.utf8Len_append, String.utf8Len_nil, room]
  omega

/-! ## Digits -/

theorem flatMap_escape_plain {cs : List Char} (h : ∀ c ∈ cs, escape c = [c]) :
    cs.flatMap escape = cs := by
  induction cs with
  | nil => rfl
  | cons c cs ih =>
    rw [List.forall_mem_cons] at h
    rw [List.flatMap_cons, h.1, ih h.2, List.singleton_append]

/-- The digits of a number are written as they are. -/
theorem escape_toDigits {b : Nat} (hlow : 1 < b) (hhigh : b ≤ 16) (n : Nat) :
    ∀ c ∈ Nat.toDigits b n, escape c = [c] ∧ c.toNat < 0x80 := by
  have hdigit : ∀ d < 16, escape (Nat.digitChar d) = [Nat.digitChar d] ∧
      (Nat.digitChar d).toNat < 0x80 := by decide
  induction n using Nat.strongRecOn with
  | ind n ih =>
    rw [Nat.toDigits_eq_if hlow]
    split_ifs with h
    · simpa using hdigit n (h.trans_le hhigh)
    · have hmod := (Nat.mod_lt n (by omega : 0 < b)).trans_le hhigh
      rw [List.forall_mem_append, List.forall_mem_singleton]
      exact ⟨ih _ (Nat.div_lt_self (by omega) hlow), hdigit _ hmod⟩

theorem room_toString (n : Nat) : room (toString n) = (toString n).utf8ByteSize := by
  have hplain : (toString n).toList.flatMap escape = (toString n).toList :=
    flatMap_escape_plain fun c hc =>
      (escape_toDigits (b := 10) (by decide) (by decide) n c (by simpa using hc)).1
  rw [room, hplain, ← String.utf8ByteSize_ofList, String.ofList_toList]

/-! ## Quoting twice -/

theorem escape_plain {c : Char} (hcontrol : 0x20 ≤ c.toNat) (hquote : c ≠ '"') (hback : c ≠ '\\') :
    escape c = [c] := by
  unfold escape
  split
  case h_8 => rw [if_neg (Nat.not_lt.2 hcontrol)]
  case h_1 => exact absurd rfl hquote
  case h_2 => exact absurd rfl hback
  all_goals exact absurd hcontrol (by decide)

theorem toNat_lt (c : Char) : c.toNat < 0x110000 := by
  rcases c.valid with h | ⟨-, h⟩
  · exact Nat.lt_trans h (by decide)
  · exact h

theorem utf8Len_escape_hexadecimal {n k : Nat} (hk : 0 < k) (hn : n < 16 ^ k) :
    utf8Len ((Text.hexadecimal n).flatMap escape) ≤ k := by
  have hdigits := escape_toDigits (b := 16) (by decide) (by decide) n
  rw [Text.hexadecimal, flatMap_escape_plain fun c hc => (hdigits c hc).1,
    utf8Len_ascii fun c hc => (hdigits c hc).2]
  exact (Nat.length_toDigits_le_iff (by decide) hk).2 hn

theorem utf8Len_escape_pos (c : Char) : 0 < utf8Len (escape c) := by
  have hne : escape c ≠ [] := by
    unfold escape
    split
    case h_8 => split_ifs <;> simp
    all_goals simp
  obtain ⟨d, ds, heq⟩ := List.exists_cons_of_ne_nil hne
  have hd := d.utf8Size_pos
  rw [heq, String.utf8Len_cons]
  omega

/-- The delete character is the worst case: one byte becomes seven. -/
theorem utf8Len_escape_shown (c : Char) :
    utf8Len ((Text.shown c).flatMap escape) ≤ 7 * utf8Len (escape c) := by
  unfold Text.shown
  split
  case h_7 =>
    split_ifs with hhidden
    · have hmarks : utf8Len (['\\', 'u', '\x7b'].flatMap escape) = 4 ∧
          utf8Len (['\x7d'].flatMap escape) = 1 := by decide
      simp only [List.flatMap_append, String.utf8Len_append, hmarks]
      rcases Nat.lt_or_ge c.toNat 0x80 with hshort | hlong
      · have hdigits := utf8Len_escape_hexadecimal (k := 2) (by decide)
          (by omega : c.toNat < 16 ^ 2)
        have hpos := utf8Len_escape_pos c
        omega
      · have hdigits := utf8Len_escape_hexadecimal (k := 6) (by decide)
          (Nat.lt_trans (toNat_lt c) (by decide))
        have hsize : c.utf8Size ≠ 1 := fun h =>
          absurd (Char.utf8Size_eq_one_iff.1 h) (Nat.not_le.2 hlong)
        have hpos := c.utf8Size_pos
        have hplain : escape c = [c] := by
          refine escape_plain (by omega) ?_ ?_
          · rintro rfl
            exact absurd hlong (by decide)
          · rintro rfl
            exact absurd hlong (by decide)
        rw [hplain, String.utf8Len_cons, String.utf8Len_nil]
        omega
    · rw [List.flatMap_singleton]
      omega
  all_goals decide

theorem room_quoted (s : String) : room (Text.quoted s) ≤ 7 * room s + 4 := by
  have hquote : utf8Len (escape '"') = 2 := rfl
  have hshown (cs : List Char) : utf8Len ((cs.flatMap Text.shown).flatMap escape) ≤
      7 * utf8Len (cs.flatMap escape) := by
    induction cs with
    | nil => exact Nat.le_refl 0
    | cons c cs ih =>
      have hc := utf8Len_escape_shown c
      simp only [List.flatMap_cons, List.flatMap_append, String.utf8Len_append]
      omega
  have hs := hshown s.toList
  rw [Text.quoted, room_ofList_cons, room, String.toList_ofList, List.flatMap_append,
    String.utf8Len_append, List.flatMap_singleton, hquote, room]
  omega

/-- As many delete characters as given. -/
def deletes (n : Nat) : String := String.ofList (List.replicate n '\x7f')

theorem utf8Len_flatMap_replicate (f : Char → List Char) (c : Char) (n : Nat) :
    utf8Len ((List.replicate n c).flatMap f) = n * utf8Len (f c) := by
  induction n with
  | zero => simp
  | succ n ih =>
    rw [List.replicate_succ, List.flatMap_cons, String.utf8Len_append, ih, Nat.succ_mul,
      Nat.add_comm]

theorem room_quoted_deletes (n : Nat) : room (Text.quoted (deletes n)) = 7 * n + 4 := by
  have hquote : utf8Len (escape '"') = 2 := rfl
  have hdelete : utf8Len ((Text.shown '\x7f').flatMap escape) = 7 := by decide +kernel
  rw [Text.quoted, room_ofList_cons, room, String.toList_ofList, List.flatMap_append,
    String.utf8Len_append, List.flatMap_singleton, hquote, deletes, String.toList_ofList,
    List.flatMap_assoc, utf8Len_flatMap_replicate, hdelete]
  omega

end RadioScan.Json
