import RadioScan.Plan.Trimming
import RadioScan.Proofs.ChannelSet
import Mathlib.Data.List.Basic

/-!
# What giving up one channel does

Trimming takes one channel from the total at a time (`IsTrim.totalChannels`): the oldest of the
loosest candidate that can spare one, or the only one of the loosest candidate, which goes with it.
So a trim ends exactly at the limit if it starts above it (`totalChannels_trim`), and a total below
the limit says that nothing was given up (`trim_eq_self`).
-/

namespace RadioScan.Plan

variable {cs cs' : List Candidate}

/-- Every candidate has a channel. -/
def Occupied (cs : List Candidate) : Prop := ∀ c ∈ cs, 0 < c.channels.size

/-- One channel has been given up, and a candidate with it if it was its last. -/
inductive IsTrim : List Candidate → List Candidate → Prop
  | channel {l₁ l₂ : List Candidate} {c : Candidate} (hc : 1 < c.channels.size)
      (hloosest : ∀ d ∈ l₁ ++ c :: l₂, 1 < d.channels.size → d.looseness ≤ c.looseness) :
      IsTrim (l₁ ++ c :: l₂) (l₁ ++ c.dropOldest :: l₂)
  | whole {l₁ l₂ : List Candidate} {c : Candidate}
      (hsingle : ∀ d ∈ l₁ ++ c :: l₂, d.channels.size ≤ 1)
      (hloosest : ∀ d ∈ l₁ ++ c :: l₂, d.looseness ≤ c.looseness) :
      IsTrim (l₁ ++ c :: l₂) (l₁ ++ l₂)

theorem loosest?_eq_some {p : Candidate → Bool} {i : Nat} (h : loosest? cs p = some i) :
    ∃ hi : i < cs.length, p cs[i] = true ∧
      ∀ d ∈ cs, p d = true → d.looseness ≤ cs[i].looseness := by
  obtain ⟨⟨c, j⟩, hmax, rfl⟩ := Option.map_eq_some_iff.1 h
  have hmem := List.mem_filter.1 (List.maxOn?_mem hmax)
  obtain ⟨hj, hc⟩ := List.getElem?_eq_some_iff.1 (List.mem_zipIdx_iff_getElem?.1 hmem.1)
  refine ⟨hj, ?_, fun d hd hp => ?_⟩
  · rw [hc]
    exact hmem.2
  · obtain ⟨k, hk, rfl⟩ := List.getElem_of_mem hd
    have hmem' : (cs[k], k) ∈ cs.zipIdx.filter (p ·.1) :=
      List.mem_filter.2 ⟨List.mem_zipIdx_iff_getElem?.2 (List.getElem?_eq_getElem hk), hp⟩
    have hle := List.le_apply_get_maxOn?_of_mem (f := (·.1.looseness)) hmem'
    simp only [hmax, Option.get_some] at hle
    rwa [hc]

theorem loosest?_eq_none {p : Candidate → Bool} (h : loosest? cs p = none) :
    ∀ d ∈ cs, p d = false := by
  intro d hd
  by_contra hp
  rw [Bool.not_eq_false] at hp
  obtain ⟨k, hk, rfl⟩ := List.getElem_of_mem hd
  have hmem : (cs[k], k) ∈ cs.zipIdx.filter (p ·.1) :=
    List.mem_filter.2 ⟨List.mem_zipIdx_iff_getElem?.2 (List.getElem?_eq_getElem hk), hp⟩
  have hsome := List.isSome_maxOn?_of_mem (f := (·.1.looseness)) hmem
  rw [loosest?, Option.map_eq_none_iff] at h
  rw [h] at hsome
  cases hsome

theorem trimOne_isTrim (h : cs ≠ []) : IsTrim cs (trimOne cs) := by
  unfold trimOne
  split
  · next i hi =>
    obtain ⟨hlt, hc, hmax⟩ := loosest?_eq_some hi
    obtain ⟨l₁, c, l₂, rfl, rfl, hmod⟩ := List.exists_of_modify Candidate.dropOldest hlt
    rw [hmod]
    simp only [List.getElem_append_right (Nat.le_refl _), Nat.sub_self, List.getElem_cons_zero,
      decide_eq_true_eq] at hc hmax
    exact .channel hc hmax
  · next hnone =>
    -- nobody can spare a channel
    have hsingle := loosest?_eq_none hnone
    simp only [decide_eq_false_iff_not, Nat.not_lt] at hsingle
    split
    · next i hi =>
      obtain ⟨hlt, -, hmax⟩ := loosest?_eq_some hi
      obtain ⟨l₁, c, l₂, rfl, rfl, -⟩ := List.exists_of_modify Candidate.dropOldest hlt
      simp only [List.getElem_append_right (Nat.le_refl _), Nat.sub_self, List.getElem_cons_zero,
        forall_const] at hmax
      rw [List.eraseIdx_append_of_length_le (Nat.le_refl _), Nat.sub_self, List.eraseIdx_cons_zero]
      exact .whole hsingle hmax
    · next hnone' =>
      obtain ⟨c, hc⟩ := List.exists_mem_of_ne_nil _ h
      exact absurd (loosest?_eq_none hnone' c hc) (by simp)

theorem totalChannels_nil : totalChannels [] = 0 := rfl

theorem totalChannels_cons (c : Candidate) (l : List Candidate) :
    totalChannels (c :: l) = c.channels.size + totalChannels l := rfl

theorem totalChannels_append (l₁ l₂ : List Candidate) :
    totalChannels (l₁ ++ l₂) = totalChannels l₁ + totalChannels l₂ := by
  induction l₁ with
  | nil => simp [totalChannels_nil]
  | cons c l₁ ih =>
    rw [List.cons_append, totalChannels_cons, totalChannels_cons, ih]
    omega

theorem totalChannels_perm (h : cs.Perm cs') : totalChannels cs = totalChannels cs' := by
  induction h with
  | nil => rfl
  | cons c _ ih => rw [totalChannels_cons, totalChannels_cons, ih]
  | swap c d l =>
    simp only [totalChannels_cons]
    omega
  | trans _ _ ih₁ ih₂ => exact ih₁.trans ih₂

theorem size_channels_dropOldest (c : Candidate) :
    c.dropOldest.channels.size = c.channels.size - 1 :=
  ChannelSet.size_dropOldest c.channels

theorem IsTrim.totalChannels (h : IsTrim cs cs') (ho : Occupied cs) :
    totalChannels cs' + 1 = totalChannels cs := by
  cases h with
  | channel hc _ =>
    simp only [totalChannels_append, totalChannels_cons, size_channels_dropOldest]
    omega
  | @whole l₁ l₂ c hsingle _ =>
    have hle := hsingle c (by simp)
    have hpos := ho c (by simp)
    simp only [totalChannels_append, totalChannels_cons]
    omega

theorem IsTrim.occupied (h : IsTrim cs cs') (ho : Occupied cs) : Occupied cs' := by
  cases h with
  | @channel l₁ l₂ c hc _ =>
    intro d hd
    rcases List.mem_append.1 hd with hd | hd
    · exact ho d (List.mem_append_left _ hd)
    · rcases List.mem_cons.1 hd with rfl | hd
      · rw [size_channels_dropOldest]
        omega
      · exact ho d (by simp [hd])
  | whole hsingle _ =>
    intro d hd
    rcases List.mem_append.1 hd with hd | hd <;> exact ho d (by simp [hd])

theorem totalChannels_pos (ho : Occupied cs) (h : cs ≠ []) : 0 < totalChannels cs := by
  obtain ⟨c, cs, rfl⟩ := List.exists_cons_of_ne_nil h
  rw [totalChannels_cons]
  have := ho c List.mem_cons_self
  omega

theorem ne_nil_of_lt_totalChannels {n : Nat} (h : n < totalChannels cs) : cs ≠ [] := by
  rintro rfl
  exact absurd h (Nat.not_lt_zero n)

theorem trimTimes_nil : ∀ n, trimTimes n [] = []
  | 0 => rfl
  | n + 1 => trimTimes_nil n

theorem trimTimes_induction {P : List Candidate → Prop}
    (hstep : ∀ cs cs', IsTrim cs cs' → P cs → P cs') :
    ∀ (n : Nat) (cs : List Candidate), P cs → P (trimTimes n cs)
  | 0, _, h => h
  | n + 1, cs, h => by
    rcases eq_or_ne cs [] with rfl | hne
    · rw [trimTimes_nil]
      exact h
    · exact trimTimes_induction hstep n _ (hstep _ _ (trimOne_isTrim hne) h)

/-- What giving up one channel keeps holds of the candidates that are left. -/
theorem trim_induction {P : List Candidate → Prop}
    (hstep : ∀ cs cs', IsTrim cs cs' → P cs → P cs') (n : Nat) (h : P cs) : P (trim n cs) :=
  trimTimes_induction hstep _ cs h

theorem totalChannels_trimTimes : ∀ (n : Nat) (cs : List Candidate), Occupied cs →
    totalChannels (trimTimes n cs) = totalChannels cs - n
  | 0, _, _ => rfl
  | n + 1, cs, ho => by
    rcases eq_or_ne cs [] with rfl | hne
    · rw [trimTimes_nil]
      simp [totalChannels_nil]
    · have hstep := trimOne_isTrim hne
      have htotal := hstep.totalChannels ho
      have ih := totalChannels_trimTimes n (trimOne cs) (hstep.occupied ho)
      rw [trimTimes]
      omega

/-- The total ends at the limit, or where it was below it. -/
theorem totalChannels_trim (n : Nat) (ho : Occupied cs) :
    totalChannels (trim n cs) = min (totalChannels cs) n := by
  rw [trim, totalChannels_trimTimes _ cs ho]
  omega

/-- A total below the limit was never above it. -/
theorem trim_eq_self {n : Nat} (ho : Occupied cs) (h : totalChannels (trim n cs) < n) :
    trim n cs = cs := by
  rw [totalChannels_trim n ho] at h
  rw [trim, Nat.sub_eq_zero_of_le (by omega)]
  rfl

/-- As long as one channel is allowed, something is left of something. -/
theorem trim_eq_nil_iff {n : Nat} (hn : 1 ≤ n) (ho : Occupied cs) : trim n cs = [] ↔ cs = [] := by
  constructor
  · intro h
    by_contra hne
    have htotal := totalChannels_trim n ho
    have hpos := totalChannels_pos ho hne
    rw [h] at htotal
    rw [totalChannels_nil] at htotal
    omega
  · rintro rfl
    exact trimTimes_nil _

end RadioScan.Plan
