import RadioScan.Proofs.Candidates
import RadioScan.Proofs.PeriodTable

/-!
# Every period is a multiple of the base

A shared candidate's period is an entry of the table, so the shortest of them divides the others,
and what halving makes of it still does (`basePeriod_dvd`). Any other period is moved to a multiple
(`dvd_alignTo`). In 32-bit words the move divides by the base only, which is not zero, and every
sum and product that it needs is a word, or is looked at before it is used
(`nearestMultiple?_eq_some`).
-/

namespace RadioScan

/-! ## Words -/

namespace Word

/-- The quotient of two words; there is none by zero. -/
def div? (a b : UInt32) : Option UInt32 := if b = 0 then none else some (a / b)

/-- The remainder of two words; there is none by zero. -/
def mod? (a b : UInt32) : Option UInt32 := if b = 0 then none else some (a % b)

/-- The sum of two words, if it is a word. -/
def add? (a b : UInt32) : Option UInt32 :=
  if a.toNat + b.toNat < UInt32.size then some (a + b) else none

/-- The product of two words, if it is a word. -/
def mul? (a b : UInt32) : Option UInt32 :=
  if a.toNat * b.toNat < UInt32.size then some (a * b) else none

theorem div?_eq_some (a : UInt32) {b : UInt32} (h : 0 < b) : div? a b = some (a / b) :=
  if_neg (UInt32.pos_iff_ne_zero.1 h)

theorem mod?_eq_some (a : UInt32) {b : UInt32} (h : 0 < b) : mod? a b = some (a % b) :=
  if_neg (UInt32.pos_iff_ne_zero.1 h)

theorem add?_eq_some {a b : UInt32} (h : a.toNat + b.toNat < UInt32.size) :
    add? a b = some (.ofNat (a.toNat + b.toNat)) := by
  rw [add?, if_pos h, Option.some.injEq, ← UInt32.toNat_inj, UInt32.toNat_add,
    UInt32.toNat_ofNat_of_lt' h]
  exact Nat.mod_eq_of_lt h

theorem mul?_eq_some {a b : UInt32} (h : a.toNat * b.toNat < UInt32.size) :
    mul? a b = some (.ofNat (a.toNat * b.toNat)) := by
  rw [mul?, if_pos h, Option.some.injEq, ← UInt32.toNat_inj, UInt32.toNat_mul,
    UInt32.toNat_ofNat_of_lt' h]
  exact Nat.mod_eq_of_lt h

theorem mul?_eq_none {a b : UInt32} (h : ¬ a.toNat * b.toNat < UInt32.size) : mul? a b = none :=
  if_neg h

end Word

namespace Plan

variable {cs : List Candidate} {c : Candidate} {base : Millis}

/-! ## The base -/

theorem halve_dvd (bound base : Millis) : (halve bound base).toNat ∣ base.toNat := by
  fun_induction halve bound base with
  | case1 base h ih =>
    have heven : base.toNat % 2 = 0 := by
      rw [← UInt32.toNat_inj, UInt32.toNat_mod] at h
      exact h.2
    have hhalf : (base / 2).toNat = base.toNat / 2 := UInt32.toNat_div base 2
    rw [hhalf] at ih
    exact Nat.dvd_trans ih (Nat.div_dvd_of_dvd (Nat.dvd_of_mod_eq_zero heven))
  | case2 base h => exact Nat.dvd_refl _

theorem halve_pos (bound : Millis) {base : Millis} (h : 0 < base) : 0 < halve bound base := by
  rw [UInt32.lt_iff_toNat_lt] at h ⊢
  exact Nat.pos_of_dvd_of_pos (halve_dvd bound base) h

theorem leastPeriod?_eq_some {exact : Bool} {p : Millis} (h : leastPeriod? cs exact = some p) :
    (∃ c ∈ cs, c.isExact = exact ∧ c.period = p) ∧
      ∀ c ∈ cs, c.isExact = exact → p ≤ c.period := by
  obtain ⟨hmem, hle⟩ := List.min?_eq_some_iff.1 h
  obtain ⟨c, hc, rfl⟩ := List.mem_map.1 hmem
  simp only [List.mem_filter, beq_iff_eq] at hc
  refine ⟨⟨c, hc.1, hc.2, rfl⟩, fun d hd he => hle _ (List.mem_map_of_mem ?_)⟩
  simpa [he] using hd

theorem leastPeriod?_eq_none {exact : Bool} (h : leastPeriod? cs exact = none) :
    ∀ c ∈ cs, c.isExact ≠ exact := by
  simp only [leastPeriod?, List.min?_eq_none_iff, List.map_eq_nil_iff, List.filter_eq_nil_iff,
    beq_iff_eq] at h
  exact h

/-- A period above zero, from the table if the candidate is shared. -/
def Timed (t : PeriodTable) (c : Candidate) : Prop :=
  0 < c.period ∧ (c.isExact = false → c.period ∈ t.entries)

theorem basePeriod_pos {t : PeriodTable} {idle : Millis} (hidle : 0 < idle)
    (h : ∀ c ∈ cs, Timed t c) : 0 < basePeriod idle cs := by
  unfold basePeriod
  split
  · next hpooled _ =>
    obtain ⟨⟨c, hc, -, rfl⟩, -⟩ := leastPeriod?_eq_some hpooled
    exact halve_pos _ (h c hc).1
  · next hpooled _ =>
    obtain ⟨⟨c, hc, -, rfl⟩, -⟩ := leastPeriod?_eq_some hpooled
    exact (h c hc).1
  · next _ hexact =>
    obtain ⟨⟨c, hc, -, rfl⟩, -⟩ := leastPeriod?_eq_some hexact
    exact (h c hc).1
  · exact hidle

theorem leastPeriod?_dvd {t : PeriodTable} {p : Millis} (h : ∀ c ∈ cs, Timed t c)
    (hp : leastPeriod? cs false = some p) (hc : c ∈ cs) (hpooled : c.isExact = false) :
    p.toNat ∣ c.period.toNat := by
  obtain ⟨⟨d, hd, hdpooled, rfl⟩, hle⟩ := leastPeriod?_eq_some hp
  exact t.dvd_of_mem_of_le ((h d hd).2 hdpooled) ((h c hc).2 hpooled) (hle c hc hpooled)

/-- The base divides every period that stays as it is. -/
theorem basePeriod_dvd {t : PeriodTable} (idle : Millis) (h : ∀ c ∈ cs, Timed t c) (hc : c ∈ cs)
    (hpooled : c.isExact = false) : (basePeriod idle cs).toNat ∣ c.period.toNat := by
  unfold basePeriod
  split
  · next hp _ => exact Nat.dvd_trans (halve_dvd _ _) (leastPeriod?_dvd h hp hc hpooled)
  · next hp _ => exact leastPeriod?_dvd h hp hc hpooled
  · next hp _ => exact absurd hpooled (leastPeriod?_eq_none hp c hc)
  · next hp _ => exact absurd hpooled (leastPeriod?_eq_none hp c hc)

/-! ## The nearest multiple -/

theorem toNat_nearestMultiple (period base : Millis) :
    ∃ k, 0 < k ∧ (nearestMultiple period base).toNat = k * base.toNat := by
  have hle := Nat.div_mul_le_self period.toNat base.toNat
  have hlt := period.toNat_lt
  unfold nearestMultiple
  simp only []
  split_ifs with hq hup
  · exact ⟨1, Nat.one_pos, (Nat.one_mul _).symm⟩
  · exact ⟨_, Nat.succ_pos _, UInt32.toNat_ofNat_of_lt' hup.2⟩
  · exact ⟨_, Nat.pos_of_ne_zero hq, UInt32.toNat_ofNat_of_lt' (Nat.lt_of_le_of_lt hle hlt)⟩

theorem dvd_nearestMultiple (period base : Millis) :
    base.toNat ∣ (nearestMultiple period base).toNat := by
  obtain ⟨k, -, h⟩ := toNat_nearestMultiple period base
  exact ⟨k, h.trans (Nat.mul_comm _ _)⟩

theorem nearestMultiple_pos (period : Millis) (hbase : 0 < base) :
    0 < nearestMultiple period base := by
  obtain ⟨k, hk, h⟩ := toNat_nearestMultiple period base
  rw [UInt32.lt_iff_toNat_lt] at hbase ⊢
  rw [h]
  exact Nat.mul_pos hk hbase

/-! ## The aligned candidates -/

theorem alignTo_of_isExact (h : c.isExact = true) :
    alignTo base c = { c with period := nearestMultiple c.period base } :=
  if_pos h

theorem alignTo_of_not_isExact (h : c.isExact = false) : alignTo base c = c :=
  if_neg (by simp [h])

theorem alignTo_pos {t : PeriodTable} (hbase : 0 < base) (hc : Timed t c) :
    0 < (alignTo base c).period := by
  cases he : c.isExact with
  | true =>
    rw [alignTo_of_isExact he]
    exact nearestMultiple_pos c.period hbase
  | false =>
    rw [alignTo_of_not_isExact he]
    exact hc.1

theorem dvd_alignTo {t : PeriodTable} (idle : Millis) (h : ∀ c ∈ cs, Timed t c) (hc : c ∈ cs) :
    (basePeriod idle cs).toNat ∣ (alignTo (basePeriod idle cs) c).period.toNat := by
  cases he : c.isExact with
  | true =>
    rw [alignTo_of_isExact he]
    exact dvd_nearestMultiple c.period _
  | false =>
    rw [alignTo_of_not_isExact he]
    exact basePeriod_dvd idle h hc he

theorem isExact_absorb (c d : Candidate) : (c.absorb d).isExact = c.isExact := by
  unfold Candidate.absorb Candidate.isExact
  cases c.cadence <;> rfl

theorem Opens.timed {s : Settings} {i order : Nat} {r : Request} (h : Opens s i r order c)
    (hs : r.isSchedulable s.catalog = true) : Timed s.periods c := by
  cases h with
  | alone he =>
    simp only [Request.isSchedulable, Bool.and_eq_true, decide_eq_true_eq] at hs
    exact ⟨hs.1, fun hpooled => by cases hpooled⟩
  | shared he =>
    have hmem := s.periods.nearest_mem r.period
    exact ⟨s.periods.pos_of_mem hmem, fun _ => hmem⟩

theorem timed_of_mem_candidates {s : Settings} {rs : List Request} (hc : c ∈ candidates s rs) :
    Timed s.periods c :=
  candidates_forall (P := Timed s.periods) (fun _ _ _ _ _ hs h => h.timed hs)
    (fun c d hc _ => by rwa [Timed, isExact_absorb]) (fun _ _ hc => hc) c hc

/-! ## Aligning in words -/

/-- The nearest multiple in words: it stops at a quotient by zero, and at a sum or a product that
is no word, except that a next multiple that is none is passed over. -/
def nearestMultiple? (period base : Millis) : Option Millis := do
  let quotient ← Word.div? period base
  let remainder ← Word.mod? period base
  if quotient = 0 then
    return base
  let below ← Word.mul? quotient base
  if base.toUInt64 < remainder.toUInt64 * 2 then
    let next ← Word.add? quotient 1
    return (Word.mul? next base).getD below
  else
    return below

theorem lt_double_iff (base remainder : UInt32) :
    base.toUInt64 < remainder.toUInt64 * 2 ↔ base.toNat < 2 * remainder.toNat := by
  have hlt := remainder.toNat_lt
  have hdouble : (remainder.toUInt64 * 2).toNat = remainder.toNat * 2 := by
    rw [UInt64.toNat_mul, UInt32.toNat_toUInt64]
    exact Nat.mod_eq_of_lt (by change remainder.toNat * 2 < _; omega)
  rw [UInt64.lt_iff_toNat_lt, hdouble, UInt32.toNat_toUInt64, Nat.mul_comm]

/-- Where the next multiple is asked for, the remainder leaves room for one more quotient. -/
theorem quotient_lt (period : Millis) (hbase : 0 < base)
    (h : base.toNat < 2 * (period.toNat % base.toNat)) :
    period.toNat / base.toNat + 1 < UInt32.size := by
  have hperiod : period.toNat < UInt32.size := period.toNat_lt
  have hsum := Nat.div_add_mod' period.toNat base.toNat
  have hle := Nat.le_mul_of_pos_right (period.toNat / base.toNat) (UInt32.lt_iff_toNat_lt.1 hbase)
  omega

/-- Nothing stops as long as the base is not zero. -/
theorem nearestMultiple?_eq_some (period : Millis) (hbase : 0 < base) :
    nearestMultiple? period base = some (nearestMultiple period base) := by
  have hquot : (period / base).toNat = period.toNat / base.toNat := UInt32.toNat_div _ _
  have hrem : (period % base).toNat = period.toNat % base.toNat := UInt32.toNat_mod _ _
  have hle := Nat.lt_of_le_of_lt (Nat.div_mul_le_self period.toNat base.toNat) period.toNat_lt
  have hzero : period / base = 0 ↔ period.toNat / base.toNat = 0 := by
    rw [← UInt32.toNat_inj, hquot, UInt32.toNat_zero]
  have hbelow : Word.mul? (period / base) base
      = some (.ofNat (period.toNat / base.toNat * base.toNat)) := by
    rw [Word.mul?_eq_some (by rwa [hquot]), hquot]
  unfold nearestMultiple? nearestMultiple
  simp only [Word.div?_eq_some period hbase, Word.mod?_eq_some period hbase, Option.bind_eq_bind,
    Option.bind_some, hzero, hbelow, lt_double_iff, hrem, Option.pure_def]
  by_cases hq : period.toNat / base.toNat = 0
  · rw [if_pos hq, if_pos hq]
  by_cases hup : base.toNat < 2 * (period.toNat % base.toNat)
  · have hroom := quotient_lt period hbase hup
    have hnext : Word.add? (period / base) 1
        = some (.ofNat (period.toNat / base.toNat + 1)) := by
      rw [← hquot] at hroom ⊢
      exact Word.add?_eq_some hroom
    have hword : (UInt32.ofNat (period.toNat / base.toNat + 1)).toNat
        = period.toNat / base.toNat + 1 := UInt32.toNat_ofNat_of_lt' hroom
    rw [if_neg hq, if_neg hq, if_pos hup, hnext, Option.bind_some]
    by_cases hfits : (period.toNat / base.toNat + 1) * base.toNat < UInt32.size
    · rw [if_pos ⟨hup, hfits⟩, Word.mul?_eq_some (by rwa [hword]), hword, Option.getD_some]
    · rw [if_neg fun h => hfits h.2, Word.mul?_eq_none (by rwa [hword]), Option.getD_none]
  · rw [if_neg hq, if_neg hq, if_neg hup, if_neg fun h => hup h.1]

example : nearestMultiple? 4294967295 1610612736 = some 3221225472 := by decide

/-- A candidate aligned in words. -/
def alignTo? (base : Millis) (c : Candidate) : Option Candidate :=
  if c.isExact then (nearestMultiple? c.period base).map fun period => { c with period }
  else some c

theorem alignTo?_eq_some (c : Candidate) (hbase : 0 < base) :
    alignTo? base c = some (alignTo base c) := by
  unfold alignTo? alignTo
  split_ifs
  · rw [nearestMultiple?_eq_some c.period hbase, Option.map_some]
  · rfl

end Plan

end RadioScan
