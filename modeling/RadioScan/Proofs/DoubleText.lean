import RadioScan.Proofs.Json.Text
import Mathlib.Algebra.Order.Field.Basic
import Mathlib.Algebra.Order.Ring.Int
import Mathlib.Data.Rat.Cast.Order
import Mathlib.Tactic.FieldSimp
import Mathlib.Tactic.Positivity
import Mathlib.Tactic.Ring

/-!
# How long the text of a double is

A double is below the power of ten that its magnitude says, so on the grid of so many digits its
neighbours have no more digits than that, but for one that is the next power of ten itself
(`pointOn_le`). As only the grids of up to seventeen digits are searched, the text of a double is
short (`utf8ByteSize_text`).
-/

namespace RadioScan.Double

variable {m n : Nat} {q e : Int}

theorem lt_pow_length_toDigits (n : Nat) : n < 10 ^ (Nat.toDigits 10 n).length :=
  (Nat.length_toDigits_le_iff (by decide) Nat.length_toDigits_pos).1 (Nat.le_refl _)

/-- The two numerators stand in the ratio of the amounts. -/
theorem overCommon_ratio (x : Nat) (q e : Int) :
    ((overCommon x q e).1 : ℚ) = x * 2 ^ q / 10 ^ e * (overCommon x q e).2 := by
  have hpow (b : ℚ) (hb : b ≠ 0) (k : Int) : b ^ k = b ^ k.toNat / b ^ (-k).toNat := by
    rw [← zpow_natCast, ← zpow_natCast, ← zpow_sub₀ hb]
    congr 1
    omega
  simp only [overCommon, Nat.pow_eq]
  push_cast
  rw [hpow 2 (by decide) q, hpow 10 (by decide) e]
  field_simp

theorem lt_magnitude (m : Nat) (q : Int) : (m : ℚ) * 2 ^ q < 10 ^ magnitude m q := by
  unfold magnitude
  split_ifs with hq
  · obtain ⟨k, rfl⟩ := Int.eq_ofNat_of_zero_le hq
    have h := lt_pow_length_toDigits (m * Nat.pow 2 (k : Int).toNat)
    simp only [Int.toNat_natCast, Nat.pow_eq] at h ⊢
    rw [zpow_natCast, zpow_natCast]
    exact_mod_cast h
  · obtain ⟨k, hk⟩ := Int.eq_ofNat_of_zero_le (show 0 ≤ -q by omega)
    obtain rfl : q = -k := by omega
    have h := lt_pow_length_toDigits (m * Nat.pow 10 k / Nat.pow 2 k)
    simp only [Nat.pow_eq] at h
    rw [Nat.div_lt_iff_lt_mul (by positivity)] at h
    simp only [neg_neg, Int.toNat_natCast, Nat.pow_eq]
    rw [zpow_neg, zpow_natCast, zpow_sub₀ (by decide), zpow_natCast, zpow_natCast,
      ← div_eq_mul_inv, div_lt_div_iff₀ (by positivity) (by positivity)]
    exact_mod_cast h

theorem overCommon_snd_pos (x : Nat) (q e : Int) : 0 < (overCommon x q e).2 := by
  simp only [overCommon, Nat.pow_eq]
  positivity

/-- The multiple of `10 ^ e` that is the double's neighbour below. -/
def Span.floorOn (s : Span) (e : Int) : Nat :=
  (overCommon (4 * s.mantissa) (s.exponent - 2) e).1 /
    (overCommon (4 * s.mantissa) (s.exponent - 2) e).2

theorem floorOn_lt (s : Span) (count : Nat) :
    s.floorOn (magnitude s.mantissa s.exponent - count) < 10 ^ count := by
  have hlt := lt_magnitude s.mantissa s.exponent
  have hratio := overCommon_ratio (4 * s.mantissa) (s.exponent - 2)
    (magnitude s.mantissa s.exponent - count)
  have hpos := overCommon_snd_pos (4 * s.mantissa) (s.exponent - 2)
    (magnitude s.mantissa s.exponent - count)
  unfold Span.floorOn
  generalize overCommon (4 * s.mantissa) (s.exponent - 2)
    (magnitude s.mantissa s.exponent - count) = p at hratio hpos
  have hbelow : ((4 * s.mantissa : Nat) : ℚ) * 2 ^ (s.exponent - 2) /
      10 ^ (magnitude s.mantissa s.exponent - count) < 10 ^ count := by
    have hfour : ((4 * s.mantissa : Nat) : ℚ) * 2 ^ (s.exponent - 2) =
        s.mantissa * 2 ^ s.exponent := by
      rw [zpow_sub₀ (by decide)]
      push_cast
      ring
    rw [hfour, div_lt_iff₀ (zpow_pos (by decide) _), ← zpow_natCast, ← zpow_add₀ (by decide),
      add_sub_cancel]
    exact hlt
  rw [Nat.div_lt_iff_lt_mul hpos, ← Nat.cast_lt (α := ℚ), hratio]
  have hpos : (0 : ℚ) < p.2 := by exact_mod_cast hpos
  push_cast at hbelow ⊢
  exact mul_lt_mul_of_pos_right hbelow hpos

theorem le_floorOn {s : Span} (h : s.pointOn e = some n) : n ≤ s.floorOn e + 1 := by
  unfold Span.pointOn at h
  unfold Span.floorOn
  dsimp only at h
  split at h
  · cases h
  · cases h
    omega
  · cases h
    omega
  · split_ifs at h <;> cases h <;> omega

/-- A point on the grid of so many digits. -/
theorem pointOn_le {s : Span} {count n : Nat}
    (h : s.pointOn (magnitude s.mantissa s.exponent - count) = some n) : n ≤ 10 ^ count :=
  (le_floorOn h).trans (floorOn_lt s count)

/-! ## Digits and powers of ten -/

theorem search_le {s : Span} (hm : s.mantissa ≤ 10 ^ 17) : ∀ (grids count : Nat),
    grids + count ≤ 18 →
      (s.search (magnitude s.mantissa s.exponent) grids count).digits ≤ 10 ^ 17 ∧
        magnitude s.mantissa s.exponent - 18 ≤
          (s.search (magnitude s.mantissa s.exponent) grids count).exponent ∧
        (s.search (magnitude s.mantissa s.exponent) grids count).exponent ≤
          magnitude s.mantissa s.exponent
  | 0, count, h => ⟨hm, by dsimp only [Span.search]; omega, by dsimp only [Span.search]; omega⟩
  | grids + 1, count, h => by
    have ih := search_le hm grids (count + 1) (by omega)
    rw [Span.search]
    split
    · next n hn =>
      split_ifs
      · exact ih
      · have hle := pointOn_le hn
        have hpow : 10 ^ count ≤ 10 ^ 17 := Nat.pow_le_pow_right (by decide) (by omega)
        exact ⟨hle.trans hpow, by dsimp only; omega, by dsimp only; omega⟩
    · exact ih

theorem strip_le : ∀ (k : Nat) (d : Decimal), (d.strip k).digits ≤ d.digits ∧
    d.exponent ≤ (d.strip k).exponent ∧ (d.strip k).exponent ≤ d.exponent + k
  | 0, d => ⟨Nat.le_refl _, Int.le_refl _, by rw [Decimal.strip]; omega⟩
  | k + 1, d => by
    rw [Decimal.strip]
    split_ifs
    · have ih := strip_le k ⟨d.digits / 10, d.exponent + 1⟩
      dsimp only at ih
      omega
    · omega

theorem magnitude_mem (hm : m < 2 ^ 53) (hq : -1074 ≤ q) (hq' : q ≤ 972) :
    -1074 ≤ magnitude m q ∧ magnitude m q ≤ 988 := by
  have hscaled (k : Nat) : m * 10 ^ k < 10 ^ (16 + k) := by
    rw [Nat.pow_add]
    exact Nat.mul_lt_mul_of_lt_of_le (hm.trans (by decide)) (Nat.le_refl _) (by positivity)
  unfold magnitude
  split_ifs with h
  · obtain ⟨k, rfl⟩ := Int.eq_ofNat_of_zero_le h
    have hlt : m * Nat.pow 2 (k : Int).toNat < 10 ^ (16 + k) :=
      (Nat.mul_le_mul_left m (Nat.pow_le_pow_left (by decide) k)).trans_lt (hscaled k)
    have hlength := (Nat.length_toDigits_le_iff (by decide) (by omega)).2 hlt
    omega
  · obtain ⟨k, hk⟩ := Int.eq_ofNat_of_zero_le (show 0 ≤ -q by omega)
    obtain rfl : q = -k := by omega
    have hlt : m * Nat.pow 10 k / Nat.pow 2 k < 10 ^ (16 + k) :=
      (Nat.div_le_self _ _).trans_lt (hscaled k)
    have hlength := (Nat.length_toDigits_le_iff (by decide) (by omega)).2 hlt
    have hpos := Nat.length_toDigits_pos (b := 10) (n := m * Nat.pow 10 k / Nat.pow 2 k)
    simp only [neg_neg, Int.toNat_natCast]
    omega

theorem ofBits_mem (bits : UInt64) : (Span.ofBits bits).mantissa < 2 ^ 53 ∧
    -1074 ≤ (Span.ofBits bits).exponent ∧ (Span.ofBits bits).exponent ≤ 972 := by
  have hbit : leadingBit = 2 ^ 52 := by decide
  have hfraction : bits.toNat % leadingBit < leadingBit := Nat.mod_lt _ (by decide)
  have hbiased : bits.toNat / leadingBit % 2048 < 2048 := Nat.mod_lt _ (by decide)
  unfold Span.ofBits
  dsimp only
  split_ifs with hzero
  · exact ⟨by dsimp only; omega, Int.le_refl _, by dsimp only; omega⟩
  · refine ⟨by dsimp only; omega, ?_, ?_⟩
    · simp only [Int.ofNat_eq_natCast]
      omega
    · simp only [Int.ofNat_eq_natCast]
      omega

theorem shortest_mem (bits : UInt64) : (shortest bits).digits ≤ 10 ^ 17 ∧
    -1092 ≤ (shortest bits).exponent ∧ (shortest bits).exponent ≤ 1008 := by
  obtain ⟨hm, hq, hq'⟩ := ofBits_mem bits
  obtain ⟨hlow, hhigh⟩ := magnitude_mem hm hq hq'
  have hsearch := search_le (s := Span.ofBits bits) (by omega) 17 1 (by decide)
  have hstrip := strip_le 20 ((Span.ofBits bits).search
    (magnitude (Span.ofBits bits).mantissa (Span.ofBits bits).exponent) 17 1)
  unfold shortest
  dsimp only
  omega

/-! ## Characters -/

theorem length_write {d : Decimal} (hdigits : d.digits ≤ 10 ^ 17) (hlow : -1092 ≤ d.exponent)
    (hhigh : d.exponent ≤ 1008) : (Layout.standard.write d).length ≤ 26 := by
  have hlength : (Nat.toDigits 10 d.digits).length ≤ 18 :=
    (Nat.length_toDigits_le_iff (by decide) (by decide)).2 (by omega)
  have hpos := Nat.length_toDigits_pos (b := 10) (n := d.digits)
  dsimp only [Layout.write, Layout.standard]
  generalize Nat.toDigits 10 d.digits = ds at hlength hpos
  split
  · split
    · simp only [List.length_append, List.length_replicate, List.length_cons, List.length_nil]
      omega
    · split
      · simp only [List.length_append, List.length_take, List.length_cons, List.length_drop]
        omega
      · simp only [List.length_append, List.length_replicate, List.length_cons]
        omega
  · have hpower : (Nat.toDigits 10 (d.exponent + ds.length - 1).natAbs).length ≤ 4 :=
      (Nat.length_toDigits_le_iff (by decide) (by decide)).2 (by omega)
    have hdrop : (ds.drop 1).length ≤ 17 := by
      rw [List.length_drop]
      omega
    cases hfraction : ds.drop 1 with
    | nil =>
      simp only [List.length_append, List.length_take, List.length_cons, List.length_nil]
      omega
    | cons c cs =>
      rw [hfraction, List.length_cons] at hdrop
      simp only [List.length_append, List.length_take, List.length_cons]
      omega

theorem ascii_write (d : Decimal) : ∀ c ∈ Layout.standard.write d, c.toNat < 0x80 := by
  have hdigits (n : Nat) : ∀ c ∈ Nat.toDigits 10 n, c.toNat < 0x80 := fun c hc =>
    Nat.lt_succ_of_lt (Json.isVisible_toDigits n c hc).2
  have hds := hdigits d.digits
  dsimp only [Layout.write, Layout.standard]
  generalize Nat.toDigits 10 d.digits = ds at hds ⊢
  have htake (k : Nat) : ∀ c ∈ ds.take k, c.toNat < 0x80 :=
    fun c hc => hds c (List.mem_of_mem_take hc)
  have hdrop (k : Nat) : ∀ c ∈ ds.drop k, c.toNat < 0x80 :=
    fun c hc => hds c (List.mem_of_mem_drop hc)
  have hzeros (k : Nat) : ∀ c ∈ List.replicate k '0', c.toNat < 0x80 := by
    intro c hc
    rw [List.eq_of_mem_replicate hc]
    decide
  split
  · split
    · simpa only [List.forall_mem_append, List.forall_mem_cons] using
        ⟨⟨hds, hzeros _⟩, by decide, by decide, by simp⟩
    · split
      · simpa only [List.forall_mem_append, List.forall_mem_cons] using
          ⟨htake _, by decide, hdrop _⟩
      · simpa only [List.forall_mem_append, List.forall_mem_cons] using
          ⟨by decide, by decide, hzeros _, hds⟩
  · have hsign (p : Prop) [Decidable p] : (if p then '-' else '+').toNat < 0x80 := by
      split <;> decide
    have hfraction := hdrop 1
    cases hdropped : ds.drop 1 with
    | nil =>
      simpa only [List.forall_mem_append, List.forall_mem_cons, List.append_nil] using
        ⟨htake _, by decide, hsign _, hdigits _⟩
    | cons c cs =>
      rw [hdropped] at hfraction
      simpa only [List.forall_mem_append, List.forall_mem_cons] using
        ⟨⟨htake _, by decide, List.forall_mem_cons.1 hfraction⟩, by decide, hsign _, hdigits _⟩

/-- At most 18 digits, a sign, a point and a power of ten. -/
theorem utf8ByteSize_text (x : Float) : (text x).utf8ByteSize ≤ 27 := by
  have hbody (bits : UInt64) : String.utf8Len
      (if bits = 0 then ['0', '.', '0'] else Layout.standard.write (shortest bits)) ≤ 26 := by
    obtain ⟨hdigits, hlow, hhigh⟩ := shortest_mem bits
    split
    · decide
    · rw [Json.utf8Len_ascii (ascii_write _)]
      exact length_write hdigits hlow hhigh
  have hsign : '-'.utf8Size = 1 := rfl
  have hmagnitude := hbody (x.toBits &&& 0x7fffffffffffffff)
  unfold text
  dsimp only
  rw [String.utf8ByteSize_ofList]
  split
  · exact hmagnitude.trans (by decide)
  · rw [String.utf8Len_cons, hsign]
    exact Nat.succ_le_succ hmagnitude

end RadioScan.Double
