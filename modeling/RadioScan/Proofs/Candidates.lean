import RadioScan.Plan.Assembly
import RadioScan.Proofs.Elimination
import RadioScan.Proofs.Pooling
import RadioScan.Proofs.Trimming
import Mathlib.Data.List.Nodup

/-!
# From requests to candidates

To join a candidate is to open one and to be absorbed at once (`Placed.takesOver`), so a candidate
before trimming has what opening gives and absorbing keeps (`reduced_forall`), and one after it what
losing a channel keeps besides (`candidates_forall`). Members are handed on, never lost, until
trimming drops a candidate with all of its own (`memberList_reduced`,
`nodup_memberList_candidates`).
-/

namespace RadioScan.Plan

variable {s : Settings} {rs : List Request} {cs cs' : List Candidate}

/-- The numbers of the requests that some candidate serves. -/
def memberList (cs : List Candidate) : List Nat := cs.flatMap Candidate.members

/-- The numbers of the requests that can be scheduled, up to a number. -/
def servable (catalog : Catalog) (rs : List Request) (n : Nat) : List Nat :=
  (List.range n).filter fun i => rs[i]?.any fun r => r.isSchedulable catalog

theorem mem_servable {catalog : Catalog} {n i : Nat} : i ∈ servable catalog rs n ↔
    i < n ∧ ∃ r, rs[i]? = some r ∧ r.isSchedulable catalog = true := by
  simp [servable, Option.any_eq_true]

theorem memberList_perm (h : cs.Perm cs') : (memberList cs).Perm (memberList cs') :=
  h.flatMap_right _

/-- No number is a member twice over. -/
theorem eq_of_mem_members (h : (memberList cs).Nodup) {i j k : Nat} {c d : Candidate}
    (hj : cs[j]? = some c) (hk : cs[k]? = some d) (hc : i ∈ c.members) (hd : i ∈ d.members) :
    j = k := by
  obtain ⟨hj', rfl⟩ := List.getElem?_eq_some_iff.1 hj
  obtain ⟨hk', rfl⟩ := List.getElem?_eq_some_iff.1 hk
  have hpw := List.pairwise_iff_getElem.1 (List.nodup_flatMap.1 h).2
  rcases Nat.lt_trichotomy j k with hlt | heq | hlt
  · exact absurd hd (hpw j k hj' hk' hlt hc)
  · exact heq
  · exact absurd hc (hpw k j hk' hj' hlt hd)

/-! ## Pooling and elimination -/

/-- For a shared candidate, serving one more request is taking over a candidate opened for it. -/
theorem join_eq_absorb {catalog : Catalog} {c : Candidate} {r : Request} {order i : Nat}
    {period : Millis} {cadence : Cadence} {g : Group} (hg : c.cadence = .pooled g) :
    c.join i r.events (ChannelSet.ofScope catalog r.scope)
      = c.absorb (openFor catalog order i r period cadence) := by
  simp [Candidate.join, Candidate.absorb, openFor, hg]

/-- A request that can be scheduled opens a candidate, which one of its period may take over at
once. -/
theorem Placed.takesOver {i : Nat} {r : Request} (h : Placed s i r cs cs')
    (hr : r.isSchedulable s.catalog = true) :
    ∃ new, Opens s i r cs.length new ∧ (cs' = cs ++ [new] ∨
      ∃ c, c.period = new.period ∧ TakesOver c new (cs ++ [new]) cs') := by
  cases h with
  | ignored h =>
    rw [hr] at h
    cases h
  | opened _ hnew _ => exact ⟨_, hnew, Or.inl rfl⟩
  | @joined l₁ l₂ c _ he _ hc =>
    obtain ⟨g, hg⟩ := exists_group_of_takes hc
    refine ⟨_, .shared he, Or.inr ⟨c, period_of_takes hc, l₁ ++ l₂, ?_, ?_⟩⟩
    · refine (List.perm_append_singleton _ _).trans ?_
      exact (List.perm_middle.cons _).trans (List.Perm.swap _ _ _)
    · rw [join_eq_absorb hg]
      exact List.perm_middle

/-- What the candidates have and the one that takes over still has, all have afterwards. -/
theorem TakesOver.forall {P : Candidate → Prop} {c removed : Candidate}
    (h : TakesOver c removed cs cs') (habsorb : P c → P removed → P (c.absorb removed))
    (hcs : ∀ d ∈ cs, P d) : ∀ d ∈ cs', P d := by
  obtain ⟨rest, h, h'⟩ := h
  intro d hd
  rcases List.mem_cons.1 (h'.mem_iff.1 hd) with rfl | hd
  · exact habsorb (hcs c (h.mem_iff.2 (by simp))) (hcs removed (h.mem_iff.2 (by simp)))
  · exact hcs d (h.mem_iff.2 (by simp [hd]))

/-- A fold hands members over and loses none. -/
theorem TakesOver.memberList {c removed : Candidate} (h : TakesOver c removed cs cs') :
    (memberList cs').Perm (memberList cs) := by
  obtain ⟨rest, h, h'⟩ := h
  refine (memberList_perm h').trans (List.Perm.trans ?_ (memberList_perm h).symm)
  simp [Plan.memberList, Candidate.absorb]

/-- What every candidate is opened with, and keeps when it takes over one of its own period, the
whole pool has. -/
theorem pool_forall {P : Candidate → Prop}
    (hopen : ∀ i r order new, rs[i]? = some r → r.isSchedulable s.catalog = true →
      Opens s i r order new → P new)
    (habsorb : ∀ c d, c.period = d.period → P c → P d → P (c.absorb d)) : ∀ c ∈ pool s rs, P c := by
  refine pool_induction (P := fun _ cs => ∀ c ∈ cs, P c) (by simp) ?_
  intro i r cs cs' hr hplaced hcs
  by_cases hsched : r.isSchedulable s.catalog = true
  · obtain ⟨new, hnew, h⟩ := hplaced.takesOver hsched
    have happend : ∀ c ∈ cs ++ [new], P c := by
      intro c hc
      rcases List.mem_append.1 hc with hc | hc
      · exact hcs c hc
      · rw [List.mem_singleton.1 hc]
        exact hopen i r _ new hr hsched hnew
    rcases h with rfl | ⟨c, hperiod, h⟩
    · exact happend
    · exact h.forall (habsorb c new hperiod) happend
  · cases hplaced with
    | ignored _ => exact hcs
    | opened h _ _ => exact absurd h hsched
    | joined h _ _ _ => exact absurd h hsched

theorem trim_forall {P : Candidate → Prop}
    (hdrop : ∀ c, 1 < c.channels.size → P c → P c.dropOldest) (n : Nat) (hcs : ∀ c ∈ cs, P c) :
    ∀ c ∈ trim n cs, P c := by
  refine trim_induction (P := fun cs => ∀ c ∈ cs, P c) ?_ n hcs
  intro cs cs' h hcs
  cases h with
  | @channel l₁ l₂ c hc _ =>
    intro d hd
    rcases List.mem_append.1 hd with hd | hd
    · exact hcs d (by simp [hd])
    · rcases List.mem_cons.1 hd with rfl | hd
      · exact hdrop c hc (hcs c (by simp))
      · exact hcs d (by simp [hd])
  | whole _ _ =>
    intro d hd
    rcases List.mem_append.1 hd with hd | hd <;> exact hcs d (by simp [hd])

section Forall

variable {P : Candidate → Prop}
  (hopen : ∀ i r order new, rs[i]? = some r → r.isSchedulable s.catalog = true →
    Opens s i r order new → P new)
  (habsorb : ∀ c d, P c → P d → P (c.absorb d))

include hopen habsorb

theorem reduced_forall : ∀ c ∈ reduced s rs, P c := by
  refine eliminate_induction (P := fun cs => ∀ c ∈ cs, P c) (fun cs cs' h hcs => ?_) _
    (pool_forall hopen fun c d _ => habsorb c d)
  obtain ⟨c, removed, h⟩ := h
  exact h.forall (habsorb c removed) hcs

theorem candidates_forall (hdrop : ∀ c, 1 < c.channels.size → P c → P c.dropOldest) :
    ∀ c ∈ candidates s rs, P c :=
  trim_forall hdrop _ (reduced_forall hopen habsorb)

end Forall

theorem servable_succ {catalog : Catalog} {n : Nat} {r : Request} (hr : rs[n]? = some r) :
    servable catalog rs (n + 1)
      = servable catalog rs n ++ if r.isSchedulable catalog then [n] else [] := by
  rw [servable, List.range_succ, List.filter_append, ← servable]
  simp only [List.filter_cons, List.filter_nil, hr, Option.any_some]

theorem memberList_pool :
    (memberList (pool s rs)).Perm (servable s.catalog rs rs.length) := by
  refine pool_induction (P := fun n cs => (memberList cs).Perm (servable s.catalog rs n))
    (List.Perm.refl _) ?_
  intro i r cs cs' hr hplaced hcs
  rw [servable_succ hr]
  by_cases hsched : r.isSchedulable s.catalog = true
  · obtain ⟨new, hnew, h⟩ := hplaced.takesOver hsched
    have happend : (memberList (cs ++ [new])).Perm (servable s.catalog rs i ++ [i]) := by
      rw [memberList, List.flatMap_append, List.flatMap_singleton, hnew.members]
      exact hcs.append_right _
    rw [if_pos hsched]
    rcases h with rfl | ⟨c, -, h⟩
    · exact happend
    · exact h.memberList.trans happend
  · rw [if_neg hsched, List.append_nil]
    cases hplaced with
    | ignored _ => exact hcs
    | opened h _ _ => exact absurd h hsched
    | joined h _ _ _ => exact absurd h hsched

theorem nodup_memberList_pool : (memberList (pool s rs)).Nodup :=
  memberList_pool.nodup_iff.2 (List.nodup_range.filter _)

theorem mem_memberList_pool {i : Nat} : i ∈ memberList (pool s rs) ↔
    ∃ r, rs[i]? = some r ∧ r.isSchedulable s.catalog = true := by
  rw [memberList_pool.mem_iff, mem_servable]
  constructor
  · exact And.right
  · rintro ⟨r, hr, hsched⟩
    exact ⟨(List.getElem?_eq_some_iff.1 hr).1, r, hr, hsched⟩

theorem memberList_eliminate (m : Metric) (n : Nat) (cs : List Candidate) :
    (memberList (eliminate m n cs)).Perm (memberList cs) := by
  refine eliminate_induction (P := fun cs' => (memberList cs').Perm (memberList cs))
    (fun cs₁ cs₂ hfold hcs => ?_) n (List.Perm.refl _)
  obtain ⟨c, removed, h⟩ := hfold
  exact h.memberList.trans hcs

/-- Up to trimming, the members are the requests that can be scheduled, each once. -/
theorem memberList_reduced :
    (memberList (reduced s rs)).Perm (servable s.catalog rs rs.length) :=
  (memberList_eliminate _ _ _).trans memberList_pool

theorem mem_memberList_reduced {i : Nat} : i ∈ memberList (reduced s rs) ↔
    ∃ r, rs[i]? = some r ∧ r.isSchedulable s.catalog = true :=
  (memberList_eliminate _ _ _).mem_iff.trans mem_memberList_pool

theorem length_reduced_le (h : 1 ≤ s.limits.maxBuckets.toNat) :
    (reduced s rs).length ≤ s.limits.maxBuckets.toNat := by
  rw [reduced, length_eliminate h]
  exact Nat.min_le_right _ _

/-! ## Trimming -/

theorem IsTrim.memberList (h : IsTrim cs cs') : (memberList cs').Sublist (memberList cs) := by
  cases h with
  | channel _ _ => simp [Plan.memberList, Candidate.dropOldest]
  | whole _ _ =>
    simp only [Plan.memberList, List.flatMap_append, List.flatMap_cons]
    exact (List.sublist_append_right _ _).append_left _

theorem IsTrim.length_le (h : IsTrim cs cs') : cs'.length ≤ cs.length := by
  cases h <;> simp

/-- Trimming lets members go, with their candidates, but moves none. -/
theorem memberList_candidates :
    (memberList (candidates s rs)).Sublist (memberList (reduced s rs)) :=
  trim_induction (P := fun cs => (memberList cs).Sublist (memberList (reduced s rs)))
    (fun _ _ h hcs => h.memberList.trans hcs) _ (List.Sublist.refl _)

theorem nodup_memberList_candidates : (memberList (candidates s rs)).Nodup := by
  refine List.Nodup.sublist memberList_candidates (memberList_reduced.nodup_iff.2 ?_)
  exact List.nodup_range.filter _

theorem length_candidates_le (h : 1 ≤ s.limits.maxBuckets.toNat) :
    (candidates s rs).length ≤ s.limits.maxBuckets.toNat :=
  trim_induction (P := fun cs => cs.length ≤ s.limits.maxBuckets.toNat)
    (fun _ _ h hcs => Nat.le_trans h.length_le hcs) _ (length_reduced_le h)

end RadioScan.Plan
