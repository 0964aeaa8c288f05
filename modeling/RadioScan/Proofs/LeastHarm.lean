import RadioScan.Plan.Elimination
import Mathlib.Data.List.Basic
import Mathlib.Data.Fin.Basic

/-!
# The candidate whose loss harms least

Each candidate has one home: of the others that may take over its members, the one whose period is
closest, then the one with the shorter period, then the first in the list (`IsHome.unique`). Giving
a candidate up means to move its members there (`elimination?_eq_some_iff`), and the one to give up
is the one for which that does the least harm, the loosest of several (`pick?_eq_some`). As long as
there are two candidates, there is one to give up (`exists_pick`).
-/

namespace RadioScan.Plan

variable {m : Metric} {cs : List Candidate}

/-- Who may take over the members of a candidate: another one, whose period is fixed if that
candidate's is, unless no other period is. -/
structure MayTakeOver (cs : List Candidate) (victim target : Fin cs.length) : Prop where
  ne : target ≠ victim
  fixed : (cs.get victim).isBackoff = false → (∃ i, i ≠ victim ∧ (cs.get i).isBackoff = false) →
    (cs.get target).isBackoff = false

/-- What decides between two that may take over: the distance, then the shorter period, then the
place in the list. -/
def nearness (m : Metric) (cs : List Candidate) (victim target : Fin cs.length) : Key :=
  ⟨m.distance (cs.get victim).period (cs.get target).period, (cs.get target).period.toNat, target⟩

/-- The nearest of those that may take over. -/
structure IsHome (m : Metric) (cs : List Candidate) (victim target : Fin cs.length) : Prop where
  mayTakeOver : MayTakeOver cs victim target
  nearest : ∀ i, MayTakeOver cs victim i → nearness m cs victim target ≤ nearness m cs victim i

/-- The harm of moving all members of one candidate to another. -/
def moveHarm (m : Metric) (cs : List Candidate) (victim target : Fin cs.length) : Nat :=
  m.harm (cs.get victim).period (cs.get target).period (cs.get victim).members.length

/-- The longer period or, of equal periods, the later opening. -/
def Looser (c d : Candidate) : Prop :=
  d.period < c.period ∨ (d.period = c.period ∧ d.order < c.order)

/-- The members move home, and to move those of any other candidate home harms more, or as much
while that candidate is less loose. -/
structure IsLeastHarmful (m : Metric) (cs : List Candidate) (victim target : Fin cs.length) :
    Prop where
  home : IsHome m cs victim target
  least : ∀ v t, v ≠ victim → IsHome m cs v t → moveHarm m cs victim target < moveHarm m cs v t ∨
    (moveHarm m cs victim target = moveHarm m cs v t ∧ Looser (cs.get victim) (cs.get v))

/-- The members move home, and no move home costs less. -/
structure IsCheapest (m : Metric) (cs : List Candidate) (victim target : Fin cs.length) : Prop where
  home : IsHome m cs victim target
  cost_le : ∀ v t, IsHome m cs v t →
    cost m (cs.get victim) (cs.get target) ≤ cost m (cs.get v) (cs.get t)

theorem IsHome.unique {victim i j : Fin cs.length} (hi : IsHome m cs victim i)
    (hj : IsHome m cs victim j) : i = j := by
  have hij := hi.nearest j hj.mayTakeOver
  have hji := hj.nearest i hi.mayTakeOver
  simp only [nearness, Key.le_def] at hij hji
  exact Fin.ext (by omega)

/-! ## The first of the least -/

theorem exists_append_of_minOn? {α : Type} {f : α → Key} {a : α} : ∀ {l : List α},
    l.minOn? f = some a → ∃ l₁ l₂, l = l₁ ++ a :: l₂ ∧ ∀ b ∈ l₁, ¬ f b ≤ f a
  | x :: xs, h => by
    rw [List.minOn?_cons, Option.some.injEq] at h
    cases hxs : xs.minOn? f with
    | none =>
      rw [hxs, Option.elim_none] at h
      exact ⟨[], xs, by rw [h, List.nil_append], by simp⟩
    | some y =>
      rw [hxs, Option.elim_some, minOn] at h
      split_ifs at h with hle
      · exact ⟨[], xs, by rw [h, List.nil_append], by simp⟩
      · obtain ⟨l₁, l₂, hl, habove⟩ := exists_append_of_minOn? hxs
        subst h
        exact ⟨x :: l₁, l₂, by rw [hl, List.cons_append], by simpa [hle] using habove⟩

theorem exists_minOn? {α : Type} (f : α → Key) {l : List α} {b : α} (hb : b ∈ l) :
    ∃ a, l.minOn? f = some a :=
  Option.isSome_iff_exists.1 (List.isSome_minOn?_of_mem hb)

theorem minOn?_le {α : Type} {f : α → Key} {l : List α} {a b : α} (h : l.minOn? f = some a)
    (hb : b ∈ l) : f a ≤ f b := by
  have := List.apply_get_minOn?_le_of_mem (f := f) hb
  simpa only [h, Option.get_some] using this

/-! ## The home of a candidate -/

theorem mem_others {victim : Fin cs.length} {d : Candidate × Nat} :
    d ∈ cs.zipIdx.filter (·.2 != victim.val) ↔ ∃ i, i ≠ victim ∧ d = (cs.get i, i.val) := by
  obtain ⟨d, k⟩ := d
  simp only [List.mem_filter, List.mem_zipIdx_iff_getElem?, List.getElem?_eq_some_iff, bne_iff_ne,
    Prod.mk.injEq]
  constructor
  · rintro ⟨⟨hk, rfl⟩, hne⟩
    exact ⟨⟨k, hk⟩, fun h => hne (congrArg Fin.val h), rfl, rfl⟩
  · rintro ⟨i, hi, rfl, rfl⟩
    exact ⟨⟨i.isLt, rfl⟩, fun h => hi (Fin.ext h)⟩

theorem any_others {victim : Fin cs.length} :
    ((cs.zipIdx.filter (·.2 != victim.val)).any fun d => !d.1.isBackoff) = true ↔
      ∃ i, i ≠ victim ∧ (cs.get i).isBackoff = false := by
  simp only [List.any_eq_true, mem_others, Bool.not_eq_true']
  constructor
  · rintro ⟨d, ⟨i, hi, rfl⟩, hback⟩
    exact ⟨i, hi, hback⟩
  · rintro ⟨i, hi, hback⟩
    exact ⟨_, ⟨i, hi, rfl⟩, hback⟩

theorem mem_homes {victim : Fin cs.length} {home : Nat × Millis} :
    home ∈ homes cs victim (cs.get victim) ↔
      ∃ i, MayTakeOver cs victim i ∧ home = (i.val, (cs.get i).period) := by
  rw [homes, List.mem_map]
  constructor
  · rintro ⟨d, hd, rfl⟩
    obtain ⟨hd, hfree⟩ := List.mem_filter.1 hd
    obtain ⟨i, hi, rfl⟩ := mem_others.1 hd
    refine ⟨i, ⟨hi, fun hv hother => ?_⟩, rfl⟩
    rw [hv, any_others.2 hother] at hfree
    simpa using hfree
  · rintro ⟨i, ⟨hi, hfixed⟩, rfl⟩
    refine ⟨_, List.mem_filter.2 ⟨mem_others.2 ⟨i, hi, rfl⟩, ?_⟩, rfl⟩
    rw [Bool.not_eq_true', ← Bool.not_eq_true, Bool.and_eq_true, Bool.and_eq_true, any_others,
      Bool.not_eq_true']
    rintro ⟨⟨hv, hother⟩, hback⟩
    rw [hfixed hv hother] at hback
    cases hback

theorem homes_ascend (cs : List Candidate) (position : Nat) (c : Candidate) :
    (homes cs position c).Pairwise fun a b => a.1 < b.1 := by
  have hzip : cs.zipIdx.Pairwise fun a b => a.2 < b.2 := by
    refine List.pairwise_map.1 (?_ : (cs.zipIdx.map Prod.snd).Pairwise (· < ·))
    rw [List.zipIdx_map_snd]
    exact List.pairwise_lt_range'
  exact List.pairwise_map.2 ((hzip.filter _).filter _)

theorem exists_mayTakeOver (h : 2 ≤ cs.length) (victim : Fin cs.length) :
    ∃ i, MayTakeOver cs victim i := by
  by_cases hother : ∃ i, i ≠ victim ∧ (cs.get i).isBackoff = false
  · obtain ⟨i, hi, hback⟩ := hother
    exact ⟨i, hi, fun _ _ => hback⟩
  · have := Fin.nontrivial_iff_two_le.2 h
    obtain ⟨i, hi⟩ := exists_ne victim
    exact ⟨i, hi, fun _ h => absurd h hother⟩

/-- Of the homes that are equally good, the first in the list is chosen. -/
theorem isHome_of_minOn? {victim : Fin cs.length} {home : Nat × Millis}
    (h : (homes cs victim (cs.get victim)).minOn? (m.closeness (cs.get victim).period)
      = some home) :
    ∃ i, IsHome m cs victim i ∧ home.1 = i := by
  obtain ⟨i, hi, rfl⟩ := mem_homes.1 (List.minOn?_mem h)
  refine ⟨i, ⟨hi, fun j hj => ?_⟩, rfl⟩
  have hmem := mem_homes.2 ⟨j, hj, rfl⟩
  have hle := minOn?_le h hmem
  obtain ⟨l₁, l₂, hl, habove⟩ := exists_append_of_minOn? h
  have hascend := homes_ascend cs victim (cs.get victim)
  rw [hl] at hmem hascend
  rcases List.mem_append.1 hmem with hbefore | hafter
  · have := habove _ hbefore
    simp only [Metric.closeness, nearness, Key.le_def] at this hle ⊢
    omega
  · have hij : i.val ≤ j.val := by
      rcases List.mem_cons.1 hafter with heq | hafter
      · exact (congrArg Prod.fst heq).ge
      · exact Nat.le_of_lt
          (List.rel_of_pairwise_cons (List.pairwise_append.1 hascend).2.1 hafter)
    simp only [Metric.closeness, nearness, Key.le_def] at hle ⊢
    omega

theorem exists_home (m : Metric) (h : 2 ≤ cs.length) (victim : Fin cs.length) :
    ∃ i, IsHome m cs victim i := by
  obtain ⟨i, hi⟩ := exists_mayTakeOver h victim
  obtain ⟨home, hhome⟩ := exists_minOn? (m.closeness (cs.get victim).period)
    (mem_homes.2 ⟨i, hi, rfl⟩)
  obtain ⟨j, hj, -⟩ := isHome_of_minOn? hhome
  exact ⟨j, hj⟩

theorem closest?_eq_some_iff {victim : Fin cs.length} {k : Nat} :
    m.closest? (cs.get victim).period (homes cs victim (cs.get victim)) = some k ↔
      ∃ i, IsHome m cs victim i ∧ k = i := by
  rw [Metric.closest?, Option.map_eq_some_iff]
  constructor
  · rintro ⟨home, h, rfl⟩
    exact isHome_of_minOn? h
  · rintro ⟨i, hi, rfl⟩
    obtain ⟨home, h⟩ := exists_minOn? (m.closeness (cs.get victim).period)
      (mem_homes.2 ⟨i, hi.mayTakeOver, rfl⟩)
    obtain ⟨j, hj, heq⟩ := isHome_of_minOn? h
    exact ⟨home, h, by rw [heq, hj.unique hi]⟩

/-! ## The candidate to give up -/

theorem elimination?_eq_some_iff {victim : Fin cs.length} {e : Elimination} :
    elimination? m cs (cs.get victim) victim = some e ↔
      ∃ target, IsHome m cs victim target ∧
        e = ⟨victim, target, cost m (cs.get victim) (cs.get target)⟩ := by
  simp only [elimination?, Option.bind_eq_bind, Option.bind_eq_some_iff, closest?_eq_some_iff,
    Option.pure_def, Option.some.injEq]
  constructor
  · rintro ⟨_, ⟨target, hhome, rfl⟩, d, hd, rfl⟩
    obtain ⟨-, rfl⟩ := List.getElem?_eq_some_iff.1 hd
    exact ⟨target, hhome, rfl⟩
  · rintro ⟨target, hhome, rfl⟩
    exact ⟨target, ⟨target, hhome, rfl⟩, _, List.getElem?_eq_getElem target.isLt, rfl⟩

theorem mem_eliminations {e : Elimination} :
    e ∈ (cs.zipIdx.filterMap fun (c, i) => elimination? m cs c i) ↔
      ∃ victim target, IsHome m cs victim target ∧
        e = ⟨victim, target, cost m (cs.get victim) (cs.get target)⟩ := by
  rw [List.mem_filterMap]
  constructor
  · rintro ⟨⟨c, i⟩, hmem, he⟩
    have hc : cs[i]? = some c := List.mem_zipIdx_iff_getElem?.1 hmem
    obtain ⟨hi, rfl⟩ := List.getElem?_eq_some_iff.1 hc
    exact ⟨⟨i, hi⟩, elimination?_eq_some_iff.1 he⟩
  · rintro ⟨victim, target, hhome, rfl⟩
    exact ⟨(cs.get victim, victim), List.mem_zipIdx_iff_getElem?.2
      (List.getElem?_eq_getElem victim.isLt), elimination?_eq_some_iff.2 ⟨target, hhome, rfl⟩⟩

theorem pick?_eq_some {e : Elimination} (h : pick? m cs = some e) :
    ∃ victim target, IsCheapest m cs victim target ∧
      e = ⟨victim, target, cost m (cs.get victim) (cs.get target)⟩ := by
  obtain ⟨victim, target, hhome, rfl⟩ := mem_eliminations.1 (List.minOn?_mem h)
  refine ⟨victim, target, ⟨hhome, fun v t hvt => ?_⟩, rfl⟩
  exact minOn?_le h (mem_eliminations.2 ⟨v, t, hvt, rfl⟩)

theorem exists_pick (m : Metric) (h : 2 ≤ cs.length) : ∃ e, pick? m cs = some e := by
  obtain ⟨target, hhome⟩ := exists_home m h ⟨0, by omega⟩
  exact exists_minOn? _ (mem_eliminations.2 ⟨_, target, hhome, rfl⟩)

/-- Of two candidates that cost the same, the looser one goes; the orders tell them apart. -/
theorem IsCheapest.isLeastHarmful {victim target : Fin cs.length}
    (h : IsCheapest m cs victim target) (horders : (cs.map Candidate.order).Nodup) :
    IsLeastHarmful m cs victim target := by
  refine ⟨h.home, fun v t hne hvt => ?_⟩
  have hle := h.cost_le v t hvt
  have horder : (cs.get v).order ≠ (cs.get victim).order := by
    intro heq
    refine hne (Fin.ext ((List.getElem?_inj (by simp) horders).1 ?_))
    rw [List.getElem?_map, List.getElem?_map, List.getElem?_eq_getElem v.isLt,
      List.getElem?_eq_getElem victim.isLt]
    exact congrArg some heq
  simp only [cost, Key.le_def] at hle
  simp only [moveHarm, Looser, UInt32.lt_iff_toNat_lt, ← UInt32.toNat_inj]
  omega

end RadioScan.Plan
