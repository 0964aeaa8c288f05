import RadioScan.Proofs.Placement
import Mathlib.Combinatorics.Pigeonhole

/-!
# Periods under bucket pressure

If no request backs off, every candidate polls all of its members at the period that each of them
was snapped to (`OnTime`). With more candidates than periods, two have the same one, and to fold one
into the other does no harm, while to fold a candidate into one of another period does
(`period_eq_of_isCheapest`). So as long as there are as many buckets as periods, however many
candidates are folded, nobody's period changes (`keepsPeriods_update`).
-/

namespace RadioScan

/-- Some periods are told apart: a move of one member or more, up to a bound, goes no distance and
does no harm when it is to the same period, and does both when it is to another. -/
structure Metric.Separates (m : Metric) (periods : List Millis) (most : Nat) : Prop where
  distance_self : ∀ p ∈ periods, m.distance p p = Double.rank 0
  distance_pos : ∀ p ∈ periods, ∀ q ∈ periods, p ≠ q → Double.rank 0 < m.distance p q
  harm_self : ∀ p ∈ periods, ∀ n ≤ most, 0 < n → m.harm p p n = Double.rank 0
  harm_pos : ∀ p ∈ periods, ∀ q ∈ periods, p ≠ q → ∀ n ≤ most, 0 < n →
    Double.rank 0 < m.harm p q n

namespace Plan

variable {s : Settings} {rs : List Request} {c d : Candidate} {cs : List Candidate} {m : Metric}

/-- The periods that the requests that can be scheduled are snapped to. -/
def snapped (s : Settings) (rs : List Request) : List Millis :=
  (rs.filter fun r => r.isSchedulable s.catalog).map fun r => s.periods.nearest r.period

/-- A shared candidate that polls every member at the period it was snapped to. -/
structure OnTime (s : Settings) (rs : List Request) (c : Candidate) : Prop where
  pooled : c.isExact = false
  members_ne_nil : c.members ≠ []
  period_eq : ∀ i ∈ c.members, ∃ r, rs[i]? = some r ∧ r.isSchedulable s.catalog = true ∧
    s.periods.nearest r.period = c.period

/-! ## Candidates -/

theorem Opens.onTime {i order : Nat} {r : Request} (h : Opens s i r order c)
    (hr : rs[i]? = some r) (hs : r.isSchedulable s.catalog = true) (he : r.isExponential = false) :
    OnTime s rs c := by
  cases h with
  | alone h =>
    rw [he] at h
    cases h
  | shared _ =>
    refine ⟨rfl, List.cons_ne_nil _ _, fun j hj => ?_⟩
    cases List.mem_singleton.1 hj
    exact ⟨r, hr, hs, rfl⟩

theorem OnTime.absorb (hperiod : c.period = d.period) (hc : OnTime s rs c) (hd : OnTime s rs d) :
    OnTime s rs (c.absorb d) where
  pooled := (isExact_absorb c d).trans hc.pooled
  members_ne_nil := by simp [Candidate.absorb, hc.members_ne_nil]
  period_eq := by
    intro i hi
    rcases List.mem_append.1 hi with hi | hi
    · exact hc.period_eq i hi
    · obtain ⟨r, hr, hs, hnearest⟩ := hd.period_eq i hi
      exact ⟨r, hr, hs, hnearest.trans hperiod.symm⟩

theorem OnTime.dropOldest (hc : OnTime s rs c) : OnTime s rs c.dropOldest :=
  ⟨hc.pooled, hc.members_ne_nil, hc.period_eq⟩

theorem OnTime.isBackoff (hc : OnTime s rs c) : c.isBackoff = false := by
  have h := hc.pooled
  unfold Candidate.isExact at h
  unfold Candidate.isBackoff Candidate.backoff?
  cases hk : c.cadence with
  | pooled group => rfl
  | exact curve => simp [hk] at h

theorem OnTime.period_mem_snapped (hc : OnTime s rs c) : c.period ∈ snapped s rs := by
  obtain ⟨i, hi⟩ := List.exists_mem_of_ne_nil _ hc.members_ne_nil
  obtain ⟨r, hr, hs, hnearest⟩ := hc.period_eq i hi
  exact List.mem_map.2 ⟨r, List.mem_filter.2 ⟨List.mem_of_getElem? hr, hs⟩, hnearest⟩

theorem OnTime.period_mem_entries (hc : OnTime s rs c) : c.period ∈ s.periods.entries := by
  obtain ⟨r, -, hr⟩ := List.mem_map.1 hc.period_mem_snapped
  exact hr ▸ s.periods.nearest_mem r.period

/-! ## One round -/

theorem onTime_get (hcs : ∀ c ∈ cs, OnTime s rs c) (k : Fin cs.length) : OnTime s rs (cs.get k) :=
  hcs _ (List.get_mem cs k)

/-- More candidates than periods: two of them share one. -/
theorem exists_ne_period_eq (hcs : ∀ c ∈ cs, OnTime s rs c)
    (h : (snapped s rs).toFinset.card < cs.length) :
    ∃ i j : Fin cs.length, i ≠ j ∧ (cs.get i).period = (cs.get j).period := by
  have hcard : (snapped s rs).toFinset.card < (Finset.univ : Finset (Fin cs.length)).card := by
    rwa [Finset.card_fin]
  obtain ⟨i, -, j, -, hne, heq⟩ := Finset.exists_ne_map_eq_of_card_lt_of_maps_to hcard
    (f := fun i => (cs.get i).period) fun i _ =>
      List.mem_toFinset.2 (onTime_get hcs i).period_mem_snapped
  exact ⟨i, j, hne, heq⟩

theorem mayTakeOver_of_ne (hcs : ∀ c ∈ cs, OnTime s rs c) {victim target : Fin cs.length}
    (hne : target ≠ victim) : MayTakeOver cs victim target :=
  ⟨hne, fun _ _ => (onTime_get hcs target).isBackoff⟩

theorem length_members_le (hc : c ∈ cs) : c.members.length ≤ (memberList cs).length := by
  obtain ⟨l₁, l₂, rfl⟩ := List.append_of_mem hc
  simp only [memberList, List.flatMap_append, List.flatMap_cons, List.length_append]
  omega

section Round

variable (hm : m.Separates s.periods.entries rs.length) (hcs : ∀ c ∈ cs, OnTime s rs c)
  {victim target : Fin cs.length}

include hm hcs

/-- A candidate whose period another one shares goes to one with that period. -/
theorem period_eq_of_isHome {i : Fin cs.length} (hne : i ≠ victim)
    (hperiod : (cs.get i).period = (cs.get victim).period) (h : IsHome m cs victim target) :
    (cs.get target).period = (cs.get victim).period := by
  by_contra hother
  have hv := (onTime_get hcs victim).period_mem_entries
  have ht := (onTime_get hcs target).period_mem_entries
  have hfar : Double.rank 0 < m.distance (cs.get victim).period (cs.get target).period :=
    hm.distance_pos _ hv _ ht fun h => hother h.symm
  have hnear : m.distance (cs.get victim).period (cs.get i).period = Double.rank 0 := by
    rw [hperiod]
    exact hm.distance_self _ hv
  have hle := h.nearest i (mayTakeOver_of_ne hcs hne)
  simp only [nearness, Key.le_def] at hle
  omega

/-- With more candidates than periods, the cheapest move is to a candidate of the same period. -/
theorem period_eq_of_isCheapest (hmembers : (memberList cs).length ≤ rs.length)
    (hcard : (snapped s rs).toFinset.card < cs.length) (h : IsCheapest m cs victim target) :
    (cs.get target).period = (cs.get victim).period := by
  have hsize : ∀ k : Fin cs.length,
      0 < (cs.get k).members.length ∧ (cs.get k).members.length ≤ rs.length :=
    fun k => ⟨List.length_pos_iff.2 (onTime_get hcs k).members_ne_nil,
      Nat.le_trans (length_members_le (List.get_mem cs k)) hmembers⟩
  have hentry : ∀ k : Fin cs.length, (cs.get k).period ∈ s.periods.entries :=
    fun k => (onTime_get hcs k).period_mem_entries
  -- one that shares its period with another could move for nothing
  obtain ⟨i, j, hne, hperiod⟩ := exists_ne_period_eq hcs hcard
  obtain ⟨t, ht⟩ := exists_home m (show 2 ≤ cs.length by omega) i
  have hsame := period_eq_of_isHome hm hcs hne.symm hperiod.symm ht
  have hfree : m.harm (cs.get i).period (cs.get t).period (cs.get i).members.length
      = Double.rank 0 := by
    rw [hsame]
    exact hm.harm_self _ (hentry i) _ (hsize i).2 (hsize i).1
  by_contra hother
  have hharm : Double.rank 0
      < m.harm (cs.get victim).period (cs.get target).period (cs.get victim).members.length :=
    hm.harm_pos _ (hentry victim) _ (hentry target) (fun h => hother h.symm) _ (hsize victim).2
      (hsize victim).1
  have hle := h.cost_le i t ht
  simp only [cost, Key.le_def] at hle
  omega

end Round

/-! ## All of them -/

section WholePlan

variable (hfixed : ∀ r ∈ rs, r.isSchedulable s.catalog = true → r.isExponential = false)
  (hcard : (snapped s rs).toFinset.card ≤ s.limits.maxBuckets.toNat)
  (hbuckets : 1 ≤ s.limits.maxBuckets.toNat)
  (hm : s.policy.metric.Separates s.periods.entries rs.length)

include hfixed

theorem onTime_pool : ∀ c ∈ pool s rs, OnTime s rs c :=
  pool_forall (fun _ r _ _ hr hs h => h.onTime hr hs (hfixed r (List.mem_of_getElem? hr) hs))
    fun _ _ => OnTime.absorb

include hcard hbuckets hm

theorem onTime_reduced : ∀ c ∈ reduced s rs, OnTime s rs c := by
  have hpool : (memberList (pool s rs)).length ≤ rs.length := by
    rw [memberList_pool.length_eq]
    exact (List.length_filter_le _ _).trans (List.length_range).le
  refine ((eliminate_rounds _ hbuckets _).induction
    (P := fun cs => (∀ c ∈ cs, OnTime s rs c) ∧ (memberList cs).length ≤ rs.length) ?_
    ⟨onTime_pool hfixed, hpool⟩).1
  rintro cs victim target hlt hcheap ⟨hcs, hmembers⟩
  have hperiod := period_eq_of_isCheapest hm hcs hmembers (Nat.lt_of_le_of_lt hcard hlt) hcheap
  have hfold := fold_takesOver hcheap.home.mayTakeOver.ne
  exact ⟨hfold.forall (OnTime.absorb hperiod) hcs, hfold.memberList.length_eq.trans_le hmembers⟩

/-- Neither trimming nor alignment moves a shared candidate's period. -/
theorem onTime_arranged : ∀ c ∈ arranged s rs, OnTime s rs c := by
  intro c hc
  obtain ⟨d, hd, rfl⟩ := exists_of_mem_arranged hc
  have hd := trim_forall (P := OnTime s rs) (fun _ _ => OnTime.dropOldest) _
    (onTime_reduced hfixed hcard hbuckets hm) d hd
  rwa [alignTo_of_not_isExact hd.pooled]

end WholePlan

end Plan

namespace Scheduler

open Plan

/-- Every request that is placed in a bucket is polled at the period it is snapped to. -/
def KeepsPeriods (s : Scheduler) (requests : List Request) : Prop :=
  ∀ (i : Nat) (r : Request) (k : Nat), requests[i]? = some r → s.bucketIndex? i = some k →
    ∃ b, s.schedule.buckets.toList[k]? = some b ∧
      b.period = s.settings.periods.nearest r.period

/-- As many buckets as periods are enough to keep every period, however many candidates have to be
folded. -/
theorem keepsPeriods_update (catalog : Catalog) (ops : List Operation) (requests : List Request)
    (hfixed : ∀ r ∈ requests, r.isSchedulable catalog = true → r.isExponential = false)
    (hcard : (snapped ((ofCatalog catalog).run ops).settings requests).toFinset.card
      ≤ ((ofCatalog catalog).run ops).limits.maxBuckets.toNat)
    (hm : ((ofCatalog catalog).run ops).settings.policy.metric.Separates
      ((ofCatalog catalog).run ops).settings.periods.entries requests.length) :
    (((ofCatalog catalog).run ops).update requests).KeepsPeriods requests := by
  have hrange := inRange_run catalog ops
  rw [← catalog_run catalog ops] at hfixed
  generalize (ofCatalog catalog).run ops = s at hfixed hcard hm hrange
  intro i r k hr hk
  obtain ⟨c, hc, hi⟩ := bucketIndex?_update.1 hk
  have hontime := onTime_arranged hfixed hcard hrange.one_le_maxBuckets hm c
    (List.mem_of_getElem? hc)
  obtain ⟨q, hq, -, hnearest⟩ := hontime.period_eq i hi
  rw [hr] at hq
  cases hq
  exact ⟨_, (getElem?_buckets_update hrange).2 ⟨c, hc, rfl⟩, hnearest.symm⟩

theorem separates_absolute_two : Policy.absolute.metric.Separates [10000, 20000] 5 := by
  -- the periods one by one, since to decide it for all words at once is out of reach
  constructor <;>
    simp only [List.forall_mem_cons, List.not_mem_nil, false_imp_iff, implies_true, and_true] <;>
    and_intros <;> decide +kernel

theorem keepsPeriods_update_two_periods :
    let table : PeriodTable :=
      ⟨[10000, 20000], PeriodTable.isGeometric_of_firstFault (by decide) (by decide), by decide⟩
    let ops : List Operation := [.setPeriodTable table, .setPolicy .absolute, .setMaxBuckets 2]
    let requests : List Request := [.ofScope (.band ⟨1⟩) 9000, .ofScope (.channels [5180]) 25000,
      .ofScope (.band ⟨2⟩) 12000, .ofScope (.channels []) 10000, .ofScope (.band ⟨2⟩) 20000]
    let s := (ofCatalog .standard).run ops
    (snapped s.settings requests).toFinset.card ≤ s.limits.maxBuckets.toNat ∧
      s.limits.maxBuckets.toNat < (pool s.settings requests).length ∧
      s.settings.policy.metric.Separates s.settings.periods.entries requests.length ∧
      (s.update requests).KeepsPeriods requests := by
  intro table ops requests s
  have hcard : (snapped s.settings requests).toFinset.card ≤ s.limits.maxBuckets.toNat := by
    decide
  exact ⟨hcard, by decide, separates_absolute_two,
    keepsPeriods_update _ _ _ (by decide) hcard separates_absolute_two⟩

end Scheduler

end RadioScan
