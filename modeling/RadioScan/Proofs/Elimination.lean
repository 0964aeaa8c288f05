import RadioScan.Proofs.LeastHarm
import Mathlib.Data.List.Perm.Basic

/-!
# What giving up one candidate does

A round replaces two candidates by the one that has absorbed the other (`fold_takesOver`), which
keeps its place among those that are left (`map_fold_sublist`). Rounds go on until there are as many
candidates as buckets (`eliminate_rounds`), each with the least harm (`Rounds.leastHarmful`), so as
many are left as there are buckets, if there were enough (`Rounds.length_eq`), and whatever a fold
keeps holds in the end (`eliminate_induction`).
-/

namespace RadioScan.Plan

variable {m : Metric} {n : Nat} {cs cs' : List Candidate}

/-- One candidate of a list has taken over another, in whatever places. -/
def TakesOver (c removed : Candidate) (cs cs' : List Candidate) : Prop :=
  ∃ rest, cs.Perm (c :: removed :: rest) ∧ cs'.Perm (c.absorb removed :: rest)

/-- Two candidates of a list have become one. -/
def IsFold (cs cs' : List Candidate) : Prop := ∃ c removed, TakesOver c removed cs cs'

/-! ## One fold -/

theorem fold_eq (victim : Fin cs.length) (target : Nat) : fold cs victim target
    = (cs.modify target fun c => c.absorb (cs.get victim)).eraseIdx victim := by
  simp only [fold, List.getElem?_eq_getElem victim.isLt, List.get_eq_getElem]

theorem fold_takesOver {victim target : Fin cs.length} (hne : target ≠ victim) :
    TakesOver (cs.get target) (cs.get victim) cs (fold cs victim target) := by
  have hv : cs[victim.val]? = some (cs.get victim) := List.getElem?_eq_getElem victim.isLt
  have hne : victim.val ≠ target.val := fun h => hne (Fin.ext h.symm)
  obtain ⟨l₁, l₂, hsplit⟩ :=
    List.append_of_mem (List.mem_eraseIdx_iff_getElem?.2 ⟨victim.val, hne, hv⟩)
  -- without the target, the victim and the others
  have hrest : (cs.eraseIdx target).Perm (cs.get victim :: (l₁ ++ l₂)) := by
    rw [hsplit]
    exact List.perm_middle
  refine ⟨l₁ ++ l₂, ?_, ?_⟩
  · exact (List.getElem_cons_eraseIdx_perm target.isLt).symm.trans (hrest.cons _)
  · have hset : cs.modify target (fun c => c.absorb (cs.get victim))
        = cs.set target ((cs.get target).absorb (cs.get victim)) := by
      rw [List.modify_eq_take_cons_drop target.isLt, List.set_eq_take_append_cons_drop,
        if_pos target.isLt]
      rfl
    have hv' : (cs.modify target fun c => c.absorb (cs.get victim))[victim.val]?
        = some (cs.get victim) := by
      rw [List.getElem?_modify_ne _ _ hne.symm, hv]
    obtain ⟨hlt', hget⟩ := List.getElem?_eq_some_iff.1 hv'
    have hperm := List.getElem_cons_eraseIdx_perm hlt'
    rw [hget] at hperm
    rw [fold_eq]
    refine List.Perm.cons_inv (a := cs.get victim) (hperm.trans ?_)
    rw [hset]
    exact ((List.set_perm_cons_eraseIdx target.isLt _).trans (hrest.cons _)).trans
      (List.Perm.swap _ _ _)

theorem modify_map {α β : Type} {f : α → β} {p : α → α} {q : β → β} (h : ∀ a, q (f a) = f (p a))
    (l : List α) (i : Nat) : (l.map f).modify i q = (l.modify i p).map f := by
  refine List.ext_getElem? fun k => ?_
  simp only [List.getElem?_map, List.getElem?_modify]
  cases l[k]? with
  | none => rfl
  | some a =>
    simp only [Option.map_eq_map, Option.map_some]
    split_ifs
    · rw [h]
    · rfl

/-- What absorbing leaves as it is stays, for the candidates that stay, and in their order. -/
theorem map_fold_sublist {α : Type} {f : Candidate → α} (hf : ∀ c d, f (c.absorb d) = f c)
    (victim : Fin cs.length) (target : Nat) :
    ((fold cs victim target).map f).Sublist (cs.map f) := by
  have hmap : (cs.modify target fun c => c.absorb (cs.get victim)).map f = cs.map f := by
    rw [← modify_map (q := id) fun c => (hf c (cs.get victim)).symm, List.modify_id]
  rw [fold_eq, ← hmap]
  exact (List.eraseIdx_sublist _ _).map f

theorem TakesOver.length {c removed : Candidate} (h : TakesOver c removed cs cs') :
    cs'.length + 1 = cs.length := by
  obtain ⟨rest, h, h'⟩ := h
  rw [h.length_eq, h'.length_eq]
  rfl

theorem length_fold {victim target : Fin cs.length} (hne : target ≠ victim) :
    (fold cs victim target).length + 1 = cs.length :=
  (fold_takesOver hne).length

/-! ## All rounds -/

/-- Rounds are played as long as there are more candidates than buckets, each with a victim and a
target chosen under some condition. -/
inductive Rounds (choice : ∀ cs : List Candidate, Fin cs.length → Fin cs.length → Prop) (n : Nat) :
    List Candidate → List Candidate → Prop
  | done {cs : List Candidate} (h : cs.length ≤ n) : Rounds choice n cs cs
  | round {cs cs' : List Candidate} {victim target : Fin cs.length} (h : n < cs.length)
      (hchoice : choice cs victim target)
      (hrest : Rounds choice n (fold cs victim target) cs') : Rounds choice n cs cs'

theorem eliminateTimes_rounds (hn : 1 ≤ n) : ∀ (k : Nat) (cs : List Candidate),
    cs.length = n + k → Rounds (IsCheapest m) n cs (eliminateTimes m k cs)
  | 0, _, h => .done (Nat.le_of_eq h)
  | k + 1, cs, h => by
    obtain ⟨e, he⟩ := exists_pick m (show 2 ≤ cs.length by omega)
    obtain ⟨victim, target, hcheap, rfl⟩ := pick?_eq_some he
    have hlen := length_fold hcheap.home.mayTakeOver.ne
    refine .round (by omega) hcheap ?_
    simp only [eliminateTimes, eliminateOne, he]
    exact eliminateTimes_rounds hn k _ (by omega)

/-- Each round gives up a candidate that costs least then. -/
theorem eliminate_rounds (m : Metric) (hn : 1 ≤ n) (cs : List Candidate) :
    Rounds (IsCheapest m) n cs (eliminate m n cs) := by
  rcases Nat.le_total cs.length n with hle | hle
  · rw [eliminate, Nat.sub_eq_zero_of_le hle]
    exact .done hle
  · exact eliminateTimes_rounds hn _ _ (by omega)

/-- What a round keeps, all rounds keep. -/
theorem Rounds.induction {choice : ∀ cs : List Candidate, Fin cs.length → Fin cs.length → Prop}
    {P : List Candidate → Prop}
    (hstep : ∀ cs (victim target : Fin cs.length), n < cs.length → choice cs victim target →
      P cs → P (fold cs victim target)) (h : Rounds choice n cs cs') (hcs : P cs) : P cs' := by
  induction h with
  | done _ => exact hcs
  | round h hchoice _ ih => exact ih (hstep _ _ _ h hchoice hcs)

/-- Orders that tell the candidates apart go on doing so, and then the cheapest is the least
harmful. -/
theorem Rounds.leastHarmful (h : Rounds (IsCheapest m) n cs cs')
    (horders : (cs.map Candidate.order).Nodup) : Rounds (IsLeastHarmful m) n cs cs' := by
  induction h with
  | done h => exact .done h
  | @round _ _ victim target h hcheap _ ih =>
    have hfold := map_fold_sublist (f := Candidate.order) (fun _ _ => rfl) victim target
    exact .round h (hcheap.isLeastHarmful horders) (ih (horders.sublist hfold))

theorem Rounds.length_eq (h : Rounds (IsCheapest m) n cs cs') : cs'.length = min cs.length n := by
  induction h with
  | done h => exact (Nat.min_eq_left h).symm
  | round h hcheap _ ih =>
    have hlen := length_fold hcheap.home.mayTakeOver.ne
    omega

theorem length_eliminate (hn : 1 ≤ n) (cs : List Candidate) :
    (eliminate m n cs).length = min cs.length n :=
  (eliminate_rounds m hn cs).length_eq

/-- A round that finds nobody to give up changes nothing. -/
theorem eliminateOne_eq_or_isFold (m : Metric) (cs : List Candidate) :
    eliminateOne m cs = cs ∨ IsFold cs (eliminateOne m cs) := by
  unfold eliminateOne
  split
  · next e he =>
    obtain ⟨victim, target, hcheap, rfl⟩ := pick?_eq_some he
    exact Or.inr ⟨_, _, fold_takesOver hcheap.home.mayTakeOver.ne⟩
  · exact Or.inl rfl

theorem eliminateTimes_induction {P : List Candidate → Prop}
    (hstep : ∀ cs cs', IsFold cs cs' → P cs → P cs') :
    ∀ (k : Nat) (cs : List Candidate), P cs → P (eliminateTimes m k cs)
  | 0, _, h => h
  | k + 1, cs, h => by
    refine eliminateTimes_induction hstep k _ ?_
    rcases eliminateOne_eq_or_isFold m cs with heq | hfold
    · rwa [heq]
    · exact hstep _ _ hfold h

/-- What folding one candidate into another keeps holds of the candidates that are left, however
few are wanted. -/
theorem eliminate_induction {P : List Candidate → Prop}
    (hstep : ∀ cs cs', IsFold cs cs' → P cs → P cs') (n : Nat) (h : P cs) : P (eliminate m n cs) :=
  eliminateTimes_induction hstep _ cs h

end RadioScan.Plan
