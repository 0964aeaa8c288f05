import RadioScan.Proofs.PeriodBase
import Mathlib.Algebra.Group.Nat.Defs
import Mathlib.Order.Bounds.Basic

/-!
# Alignment rounds to the nearest multiple

The base is the shortest period if all candidates are of one kind. Else it is the shortest shared
one, halved until it is no longer than the shortest exact one or odd (`isLeast_halvings`). Every
period goes to the multiple of the base that is nearest to it, the smaller of two
(`isNearestMultiple_nearestMultiple`); a shared one is a multiple already. Nearest multiples of
longer periods are longer or the same (`IsNearestMultiple.mono`), so alignment leaves the candidates
in their order (`aligns_basePeriod`).
-/

namespace RadioScan.Plan

variable {cs : List Candidate} {c d : Candidate} {base period period' q q' : Millis}

/-- Of the multiples of a base that are periods, the one that is closest to a period, or the smaller
of two that are. -/
structure IsNearestMultiple (base period q : Millis) : Prop where
  dvd : base.toNat ∣ q.toNat
  le : base ≤ q
  nearest : ∀ m : Millis, base.toNat ∣ m.toNat → base ≤ m →
    q.gap period < m.gap period ∨ (q.gap period = m.gap period ∧ q ≤ m)

/-- The periods of the candidates of a kind. -/
def periodsOf (cs : List Candidate) (exact : Bool) : Set Millis :=
  {p | ∃ c ∈ cs, c.isExact = exact ∧ c.period = p}

/-- How often a period may have been halved when it is no longer than a bound, or odd. -/
def halvings (bound base : Millis) : Set Nat :=
  {k | base.toNat / 2 ^ k ≤ bound.toNat ∨ base.toNat / 2 ^ k % 2 = 1}

/-- What becomes of some candidates' periods when they are aligned with a base. -/
structure Aligns (cs : List Candidate) (base : Millis) : Prop where
  one_kind : ∀ exact, (∀ c ∈ cs, c.isExact = exact) → IsLeast (periodsOf cs exact) base
  both : (∃ c ∈ cs, c.isExact = false) → (∃ c ∈ cs, c.isExact = true) →
    ∃ pooled exact k, IsLeast (periodsOf cs false) pooled ∧ IsLeast (periodsOf cs true) exact ∧
      IsLeast (halvings exact pooled) k ∧ base.toNat = pooled.toNat / 2 ^ k
  pooled_eq : ∀ c ∈ cs, c.isExact = false → alignTo base c = c
  exact_eq : ∀ c ∈ cs, c.isExact = true →
    ∃ p, alignTo base c = { c with period := p } ∧ IsNearestMultiple base c.period p
  /-- No step divides by zero or leaves the words. -/
  computes : cs.mapM (alignTo? base) = some (cs.map (alignTo base))
  ordered : ∀ c ∈ cs, ∀ d ∈ cs, c.period ≤ d.period →
    (alignTo base c).period ≤ (alignTo base d).period

/-! ## The base -/

theorem zero_mem_halvings_iff {bound base : Millis} :
    0 ∈ halvings bound base ↔ ¬ (bound < base ∧ base % 2 = 0) := by
  have hmod : (base % 2).toNat = base.toNat % 2 := UInt32.toNat_mod base 2
  change base.toNat / 2 ^ 0 ≤ bound.toNat ∨ base.toNat / 2 ^ 0 % 2 = 1 ↔ _
  rw [Nat.pow_zero, Nat.div_one, UInt32.lt_iff_toNat_lt, ← UInt32.toNat_inj, hmod,
    UInt32.toNat_zero]
  omega

theorem succ_mem_halvings_iff {bound base : Millis} {k : Nat} :
    k + 1 ∈ halvings bound base ↔ k ∈ halvings bound (base / 2) := by
  have hhalf : (base / 2).toNat / 2 ^ k = base.toNat / 2 ^ (k + 1) := by
    rw [UInt32.toNat_div, Nat.pow_succ', ← Nat.div_div_eq_div_mul]
    rfl
  change base.toNat / 2 ^ (k + 1) ≤ bound.toNat ∨ base.toNat / 2 ^ (k + 1) % 2 = 1 ↔
    (base / 2).toNat / 2 ^ k ≤ bound.toNat ∨ (base / 2).toNat / 2 ^ k % 2 = 1
  rw [hhalf]

theorem isLeast_halvings (bound base : Millis) :
    ∃ k, IsLeast (halvings bound base) k ∧ (halve bound base).toNat = base.toNat / 2 ^ k := by
  fun_induction halve bound base with
  | case1 base h ih =>
    obtain ⟨k, ⟨hk, hleast⟩, heq⟩ := ih
    refine ⟨k + 1, ⟨succ_mem_halvings_iff.2 hk, ?_⟩, ?_⟩
    · rintro (_ | j) hj
      · exact absurd h (zero_mem_halvings_iff.1 hj)
      · exact Nat.succ_le_succ (hleast (succ_mem_halvings_iff.1 hj))
    · rw [heq, UInt32.toNat_div, Nat.pow_succ', ← Nat.div_div_eq_div_mul]
      rfl
  | case2 base h =>
    refine ⟨0, ⟨zero_mem_halvings_iff.2 h, fun _ _ => Nat.zero_le _⟩, ?_⟩
    rw [Nat.pow_zero, Nat.div_one]

theorem isLeast_periodsOf {exact : Bool} {p : Millis} (h : leastPeriod? cs exact = some p) :
    IsLeast (periodsOf cs exact) p := by
  obtain ⟨hmem, hle⟩ := leastPeriod?_eq_some h
  refine ⟨hmem, ?_⟩
  rintro q ⟨c, hc, he, rfl⟩
  exact hle c hc he

theorem exists_leastPeriod? {exact : Bool} (h : ∃ c ∈ cs, c.isExact = exact) :
    ∃ p, leastPeriod? cs exact = some p := by
  obtain ⟨c, hc, he⟩ := h
  refine Option.ne_none_iff_exists'.1 fun hnone => ?_
  exact leastPeriod?_eq_none hnone c hc he

theorem leastPeriod?_eq_none_of_forall {exact : Bool} (h : ∀ c ∈ cs, c.isExact ≠ exact) :
    leastPeriod? cs exact = none := by
  simpa [leastPeriod?, List.min?_eq_none_iff] using h

/-! ## The nearest multiple -/

/-- No multiple lies between two neighbours. -/
theorem le_or_le_of_dvd {b m : Nat} (k : Nat) (h : b ∣ m) : m ≤ k * b ∨ (k + 1) * b ≤ m := by
  obtain ⟨j, rfl⟩ := h
  rw [Nat.mul_comm b j]
  rcases Nat.lt_or_ge k j with hlt | hge
  · exact Or.inr (Nat.mul_le_mul_right b hlt)
  · exact Or.inl (Nat.mul_le_mul_right b hge)

/-- The multiple below, unless there is none or the next one is nearer and still a period. -/
theorem toNat_nearestMultiple_cases (period base : Millis) :
    let k := period.toNat / base.toNat
    let r := period.toNat % base.toNat
    (k = 0 ∧ (nearestMultiple period base).toNat = base.toNat) ∨
    (k ≠ 0 ∧ base.toNat < 2 * r ∧ (nearestMultiple period base).toNat = (k + 1) * base.toNat) ∨
    (k ≠ 0 ∧ (base.toNat < 2 * r → UInt32.size ≤ (k + 1) * base.toNat) ∧
      (nearestMultiple period base).toNat = k * base.toNat) := by
  have hle := Nat.div_mul_le_self period.toNat base.toNat
  have hlt := period.toNat_lt
  unfold nearestMultiple
  dsimp only
  split_ifs with hk hup
  · exact Or.inl ⟨hk, rfl⟩
  · exact Or.inr (Or.inl ⟨hk, hup.1, UInt32.toNat_ofNat_of_lt' hup.2⟩)
  · refine Or.inr (Or.inr ⟨hk, fun h => Nat.le_of_not_lt fun hfits => hup ⟨h, hfits⟩, ?_⟩)
    exact UInt32.toNat_ofNat_of_lt' (Nat.lt_of_le_of_lt hle hlt)

theorem isNearestMultiple_nearestMultiple (period : Millis) (hbase : 0 < base) :
    IsNearestMultiple base period (nearestMultiple period base) := by
  have hb : 0 < base.toNat := UInt32.lt_iff_toNat_lt.1 hbase
  refine ⟨dvd_nearestMultiple period base, ?_, fun m hm hle => ?_⟩
  · rw [UInt32.le_iff_toNat_le]
    exact Nat.le_of_dvd (UInt32.lt_iff_toNat_lt.1 (nearestMultiple_pos period hbase))
      (dvd_nearestMultiple period base)
  have hsplit := Nat.div_add_mod' period.toNat base.toNat
  have hrest := Nat.mod_lt period.toNat hb
  have hnext := Nat.add_one_mul (period.toNat / base.toNat) base.toNat
  have hsides := le_or_le_of_dvd (period.toNat / base.toNat) hm
  have hword : m.toNat < UInt32.size := m.toNat_lt
  simp only [Millis.gap, UInt32.le_iff_toNat_le] at hle ⊢
  rcases toNat_nearestMultiple_cases period base with ⟨hk, hq⟩ | ⟨-, hup, hq⟩ | ⟨-, hup, hq⟩
  · rw [hk, Nat.zero_mul] at hsplit
    omega
  · omega
  · omega

/-- A multiple is nearest to itself. -/
theorem isNearestMultiple_self (hperiod : 0 < period) (h : base.toNat ∣ period.toNat) :
    IsNearestMultiple base period period where
  dvd := h
  le := UInt32.le_iff_toNat_le.2 (Nat.le_of_dvd (UInt32.lt_iff_toNat_lt.1 hperiod) h)
  nearest := by
    intro m _ _
    simp only [Millis.gap, UInt32.le_iff_toNat_le]
    omega

theorem IsNearestMultiple.mono (hq : IsNearestMultiple base period q)
    (hq' : IsNearestMultiple base period' q') (h : period ≤ period') : q ≤ q' := by
  have hnear := hq.nearest q' hq'.dvd hq'.le
  have hnear' := hq'.nearest q hq.dvd hq.le
  simp only [Millis.gap, UInt32.le_iff_toNat_le] at hnear hnear' h ⊢
  omega

/-! ## The aligned candidates -/

/-- The idle period is the base only when there is nothing to align. -/
theorem basePeriod_eq_of_ne_nil (idle idle' : Millis) (hne : cs ≠ []) :
    basePeriod idle cs = basePeriod idle' cs := by
  unfold basePeriod
  split
  · rfl
  · rfl
  · rfl
  · next hpooled hexact =>
    obtain ⟨c, hc⟩ := List.exists_mem_of_ne_nil cs hne
    have hp := leastPeriod?_eq_none hpooled c hc
    exact absurd (eq_true_of_ne_false hp) (leastPeriod?_eq_none hexact c hc)

theorem isLeast_basePeriod_of_forall {exact : Bool} (idle : Millis) (hne : cs ≠ [])
    (hall : ∀ c ∈ cs, c.isExact = exact) : IsLeast (periodsOf cs exact) (basePeriod idle cs) := by
  obtain ⟨c, hc⟩ := List.exists_mem_of_ne_nil cs hne
  obtain ⟨p, hp⟩ := exists_leastPeriod? ⟨c, hc, hall c hc⟩
  have hother : leastPeriod? cs (!exact) = none :=
    leastPeriod?_eq_none_of_forall fun c hc => by rw [hall c hc]; exact Bool.self_ne_not exact
  have hbase : basePeriod idle cs = p := by
    cases exact with
    | false => rw [basePeriod, hp, show leastPeriod? cs true = none from hother]
    | true => rw [basePeriod, hp, show leastPeriod? cs false = none from hother]
  rw [hbase]
  exact isLeast_periodsOf hp

theorem isNearestMultiple_alignTo {t : PeriodTable} {idle : Millis} (h : ∀ c ∈ cs, Timed t c)
    (hbase : 0 < basePeriod idle cs) (hc : c ∈ cs) :
    IsNearestMultiple (basePeriod idle cs) c.period (alignTo (basePeriod idle cs) c).period := by
  cases he : c.isExact with
  | true =>
    rw [alignTo_of_isExact he]
    exact isNearestMultiple_nearestMultiple c.period hbase
  | false =>
    rw [alignTo_of_not_isExact he]
    exact isNearestMultiple_self (h c hc).1 (basePeriod_dvd idle h hc he)

/-- Whatever the idle period, the base is found with as few halvings as will do, and every period
goes to the multiple nearest to it. -/
theorem aligns_basePeriod (t : PeriodTable) (idle : Millis) (cs : List Candidate) (hne : cs ≠ [])
    (h : ∀ c ∈ cs, Timed t c) : Aligns cs (basePeriod idle cs) := by
  have hbase : 0 < basePeriod idle cs := by
    rw [basePeriod_eq_of_ne_nil idle 1 hne]
    exact basePeriod_pos (by decide) h
  constructor
  case one_kind => exact fun _ => isLeast_basePeriod_of_forall idle hne
  case both =>
    intro hpooled hexact
    obtain ⟨pooled, hpooled⟩ := exists_leastPeriod? hpooled
    obtain ⟨exact, hexact⟩ := exists_leastPeriod? hexact
    obtain ⟨k, hleast, heq⟩ := isLeast_halvings exact pooled
    refine ⟨pooled, exact, k, isLeast_periodsOf hpooled, isLeast_periodsOf hexact, hleast, ?_⟩
    rw [basePeriod, hpooled, hexact]
    exact heq
  case pooled_eq => exact fun c _ he => alignTo_of_not_isExact he
  case exact_eq =>
    intro c hc he
    refine ⟨_, alignTo_of_isExact he, ?_⟩
    exact isNearestMultiple_nearestMultiple c.period hbase
  case computes => exact mapM_alignTo? hbase cs
  case ordered =>
    intro c hc d hd hle
    exact (isNearestMultiple_alignTo h hbase hc).mono (isNearestMultiple_alignTo h hbase hd) hle

theorem aligns_basePeriod_halved :
    let cs : List Candidate :=
      [⟨0, 40000, .pooled (.band ⟨1⟩), .ofList [2412], ⟨0⟩, [0]⟩,
        ⟨1, 15000, .exact (some ⟨120000, 3⟩), .ofList [5180], ⟨1⟩, [1]⟩,
        ⟨2, 20000, .pooled .channels, .ofList [5745], ⟨0⟩, [2]⟩,
        ⟨3, 4294967294, .exact (some ⟨4294967295, 2⟩), .ofList [5180], ⟨2⟩, [3]⟩]
    cs ≠ [] ∧ (∀ c ∈ cs, Timed .standard c) ∧ Aligns cs (basePeriod 40000 cs) := by
  intro cs
  have htimed : ∀ c ∈ cs, Timed .standard c := by
    simp only [cs, List.forall_mem_cons, Timed]
    decide
  exact ⟨by decide, htimed, aligns_basePeriod .standard 40000 cs (by decide) htimed⟩

end RadioScan.Plan
