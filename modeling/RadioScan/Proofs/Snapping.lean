import RadioScan.Proofs.Validation

/-!
# Snapping to the periods of a table

A table made of some periods snaps every period to the closest of these. A longer one never snaps to
a smaller entry: that follows from being closest alone (`IsClosest.mono`), whatever the ratios of
the entries are, and however the closest one is found.
-/

namespace RadioScan

variable {ps : List Millis} {p p' q q' : Millis}

/-- A larger entry that is strictly closer to a period is so to all longer ones. -/
theorem IsClosest.mono (hq : IsClosest ps p q) (hq' : IsClosest ps p' q') (h : p ≤ p') :
    q ≤ q' := by
  have hle := hq.gap_le q' hq'.mem
  have hle' := hq'.gap_le q hq.mem
  have htie := hq.le_of_gap_eq q' hq'.mem
  simp only [Millis.gap, UInt32.le_iff_toNat_le] at hle hle' htie h ⊢
  omega

namespace PeriodTable

theorem isLeast_least (t : PeriodTable) : IsLeast {p | p ∈ t.entries} t.least := by
  have h := t.ascending
  rw [← t.least_cons_tail, List.pairwise_cons] at h
  refine ⟨List.head_mem _, fun e (he : e ∈ t.entries) => ?_⟩
  rw [← t.least_cons_tail] at he
  rcases List.mem_cons.1 he with rfl | he
  · exact UInt32.le_refl _
  · exact UInt32.le_of_lt (h.1 e he)

theorem isGreatest_greatest (t : PeriodTable) : IsGreatest {p | p ∈ t.entries} t.greatest := by
  have hconcat : t.entries.dropLast ++ [t.greatest] = t.entries :=
    List.dropLast_append_getLast _
  have h := t.ascending
  rw [← hconcat, List.pairwise_append] at h
  refine ⟨List.getLast_mem _, fun e (he : e ∈ t.entries) => ?_⟩
  rw [← hconcat, List.mem_append, List.mem_singleton] at he
  rcases he with he | rfl
  · exact UInt32.le_of_lt (h.2.2 e he _ (List.mem_singleton_self _))
  · exact UInt32.le_refl _

/-- What a table promises that was made of some periods. -/
structure Snaps (t : PeriodTable) (ps : List Millis) : Prop where
  entries_eq : t.entries = ps
  dvd : ∀ p ∈ ps, ∀ q ∈ ps, p ≤ q → p.toNat ∣ q.toNat
  least : IsLeast {p | p ∈ ps} t.least
  greatest : IsGreatest {p | p ∈ ps} t.greatest
  nearest : ∀ p, IsClosest ps p (t.nearest p)
  nearest_mono : ∀ p q, p ≤ q → t.nearest p ≤ t.nearest q

theorem snaps_ofEntries? {t : PeriodTable} (h : ofEntries? ps = .ok t) : t.Snaps ps := by
  obtain ⟨-, rfl⟩ := ofEntries?_eq_ok_iff.1 h
  exact {
    entries_eq := rfl
    dvd := fun _ hp _ hq => t.dvd_of_mem_of_le hp hq
    least := t.isLeast_least
    greatest := t.isGreatest_greatest
    nearest := t.isClosest_nearest
    nearest_mono := fun p q => (t.isClosest_nearest p).mono (t.isClosest_nearest q) }

theorem snaps_ofEntries?_three :
    ∃ t, ofEntries? [5000, 10000, 30000] = .ok t ∧ t.Snaps [5000, 10000, 30000] :=
  ⟨_, rfl, snaps_ofEntries? rfl⟩

end PeriodTable

end RadioScan
