import RadioScan.PeriodTable
import Mathlib.Data.List.Basic

/-!
# What a period table promises

Neighbours are only compared with each other, but the order and the division they are checked for
both chain: of any two entries the smaller comes first and divides the larger
(`dvd_of_mem_of_le`). Snapping scans the entries from the smallest on and changes over only to one
that is strictly closer, so it leads to the closest entry, and to the smaller of two that are
(`isClosest_nearest`).
-/

namespace RadioScan

theorem IsGeometric.pos : ∀ {ps : List Millis}, IsGeometric ps → ∀ p ∈ ps, 0 < p
  | [_], h, p, hp => by
    rw [List.mem_singleton.1 hp]
    exact h
  | _ :: _ :: _, h, p, hp => by
    rcases List.mem_cons.1 hp with rfl | hp
    · exact h.1
    · exact IsGeometric.pos h.2.2 p hp

/-- Every entry is a proper divisor of all that come after it. -/
theorem IsGeometric.pairwise : ∀ {ps : List Millis}, IsGeometric ps →
    ps.Pairwise fun p q => p < q ∧ p.toNat ∣ q.toNat
  | [_], _ => List.pairwise_singleton _ _
  | p :: q :: rest, h => by
    obtain ⟨-, ⟨hlt, hmod⟩, hrest⟩ := h
    have ih := IsGeometric.pairwise hrest
    have hpq : p.toNat ∣ q.toNat := Nat.dvd_of_mod_eq_zero hmod
    refine List.pairwise_cons.2 ⟨fun r hr => ?_, ih⟩
    rcases List.mem_cons.1 hr with rfl | hr
    · exact ⟨hlt, hpq⟩
    · obtain ⟨hqr, hdvd⟩ := (List.pairwise_cons.1 ih).1 r hr
      exact ⟨UInt32.lt_trans hlt hqr, Nat.dvd_trans hpq hdvd⟩

/-- Of some periods the closest to `p`, or the smaller of two that are. -/
structure IsClosest (ps : List Millis) (p q : Millis) : Prop where
  mem : q ∈ ps
  gap_le : ∀ e ∈ ps, q.gap p ≤ e.gap p
  le_of_gap_eq : ∀ e ∈ ps, e.gap p = q.gap p → q ≤ e

/-- What the scan holds is the closest of the entries that it has seen. -/
theorem isClosest_foldl (p : Millis) : ∀ (es : List Millis) {best : Millis},
    (best :: es).Pairwise (· < ·) →
      IsClosest (best :: es) p
        (es.foldl (fun best e => if e.gap p < best.gap p then e else best) best)
  | [], best, _ => by
    refine ⟨List.mem_cons_self, ?_, ?_⟩ <;> simp
  | e :: es, best, h => by
    obtain ⟨hbest, hes⟩ := List.pairwise_cons.1 h
    rw [List.foldl_cons]
    split_ifs with hcloser
    · -- `best` is farther away than `e`, so it cannot tie with the closest of the others
      have ih := isClosest_foldl p es hes
      have he := ih.gap_le e List.mem_cons_self
      refine ⟨List.mem_cons_of_mem _ ih.mem, List.forall_mem_cons.2 ⟨?_, ih.gap_le⟩,
        List.forall_mem_cons.2 ⟨fun htie => ?_, ih.le_of_gap_eq⟩⟩
      · omega
      · omega
    · -- `e` may tie with `best`, but it is larger
      obtain ⟨hlt, hbest⟩ := List.forall_mem_cons.1 hbest
      have ih := isClosest_foldl p es (List.pairwise_cons.2 ⟨hbest, (List.pairwise_cons.1 hes).2⟩)
      obtain ⟨hle, hrest⟩ := List.forall_mem_cons.1 ih.gap_le
      obtain ⟨htie, hties⟩ := List.forall_mem_cons.1 ih.le_of_gap_eq
      have hsub : best :: es ⊆ best :: e :: es :=
        List.cons_subset_cons _ (List.subset_cons_self _ _)
      refine ⟨hsub ih.mem, List.forall_mem_cons.2 ⟨hle, List.forall_mem_cons.2 ⟨?_, hrest⟩⟩,
        List.forall_mem_cons.2 ⟨htie, List.forall_mem_cons.2 ⟨fun he => ?_, hties⟩⟩⟩
      · omega
      · exact UInt32.le_of_lt (UInt32.lt_of_le_of_lt (htie (by omega)) hlt)

namespace PeriodTable

variable (t : PeriodTable)

theorem pos_of_mem {p : Millis} (hp : p ∈ t.entries) : 0 < p :=
  t.geometric.pos p hp

/-- Of two entries the smaller divides the larger. -/
theorem dvd_of_mem_of_le {p q : Millis} (hp : p ∈ t.entries) (hq : q ∈ t.entries) (h : p ≤ q) :
    p.toNat ∣ q.toNat := by
  have hpw : t.entries.Pairwise fun p q => p ≤ q → p.toNat ∣ q.toNat :=
    t.geometric.pairwise.imp fun h _ => h.2
  have hpw' : t.entries.Pairwise fun p q => q ≤ p → q.toNat ∣ p.toNat := by
    refine t.geometric.pairwise.imp fun hlt hle => ?_
    exact absurd (UInt32.lt_of_lt_of_le hlt.1 hle) (UInt32.lt_irrefl _)
  exact hpw.forall_of_forall_of_flip (fun _ _ _ => Nat.dvd_refl _) hpw' hp hq h

theorem ascending : t.entries.Pairwise (· < ·) := t.geometric.pairwise.imp And.left

theorem least_cons_tail : t.least :: t.entries.tail = t.entries := List.cons_head_tail _

theorem isClosest_nearest (p : Millis) : IsClosest t.entries p (t.nearest p) := by
  have h := t.ascending
  rw [← t.least_cons_tail] at h ⊢
  exact isClosest_foldl p t.entries.tail h

theorem nearest_mem (p : Millis) : t.nearest p ∈ t.entries := (t.isClosest_nearest p).mem

end PeriodTable

end RadioScan
