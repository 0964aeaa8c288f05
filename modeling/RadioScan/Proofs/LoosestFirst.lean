import RadioScan.Proofs.LeastHarm
import RadioScan.Proofs.Trimming
import Mathlib.Data.List.Forall2
import Mathlib.Data.List.Nodup

/-!
# Loosest first, oldest first

Whatever has been given up so far, a candidate that has lost something leaves the looser ones one
channel at most, and one that is gone was looser than all that are left, with one channel each. One
pass keeps that (`LoosestSoFar.trim`), so it holds at the end (`loosestFirst_trim`). The loop itself
does not count the channels anew but carries their total along; it ends, with the total that the
candidates have (`Trimming.ends_trim`).
-/

namespace RadioScan.Plan

variable {n : Nat} {cs cs' cs'' : List Candidate} {c c' d x : Candidate}

/-- The first is what is left of the second: all but the oldest of its channels. -/
structure LeftOf (c' c : Candidate) : Prop where
  eq : c' = { c with channels := c'.channels }
  suffix : c'.channels.toList <:+ c.channels.toList

/-- Nothing is left of a candidate. -/
def Dropped (cs' : List Candidate) (c : Candidate) : Prop := ∀ c' ∈ cs', ¬ LeftOf c' c

/-- A candidate has lost some of its channels. -/
def Shortened (cs' : List Candidate) (c : Candidate) : Prop :=
  ∃ c' ∈ cs', LeftOf c' c ∧ c'.channels.size < c.channels.size

/-- As many channels are left as there may be; looseness has decided who had to lose some, and age
which ones. -/
structure LoosestFirst (n : Nat) (cs cs' : List Candidate) : Prop where
  totalChannels_eq : totalChannels cs' = min (totalChannels cs) n
  ne_nil : cs ≠ [] → cs' ≠ []
  left : ∃ kept, kept.Sublist cs ∧ List.Forall₂ LeftOf cs' kept
  occupied : Occupied cs'
  looser : ∀ c ∈ cs, Dropped cs' c ∨ Shortened cs' c → ∀ d ∈ cs, Looser d c →
    Dropped cs' d ∨ ∃ d' ∈ cs', LeftOf d' d ∧ d'.channels.size = 1
  dropped : ∀ c ∈ cs, Dropped cs' c → ∀ d ∈ cs', d.channels.size = 1 ∧ Looser c d

/-! ## What is left -/

namespace LeftOf

theorem refl (c : Candidate) : LeftOf c c := ⟨rfl, List.suffix_rfl⟩

theorem trans {e : Candidate} (h : LeftOf e d) (h' : LeftOf d c) : LeftOf e c where
  eq := by rw [h.eq, h'.eq]
  suffix := h.suffix.trans h'.suffix

theorem dropOldest (c : Candidate) : LeftOf c.dropOldest c := ⟨rfl, List.tail_suffix _⟩

theorem order_eq (h : LeftOf c' c) : c'.order = c.order := by rw [h.eq]

theorem period_eq (h : LeftOf c' c) : c'.period = c.period := by rw [h.eq]

end LeftOf

/-- The second candidates are what is left of some of the first, in their order. -/
def Leaves (cs cs' : List Candidate) : Prop := List.SublistForall₂ LeftOf cs' cs

namespace Leaves

theorem refl (cs : List Candidate) : Leaves cs cs :=
  List.sublistForall₂_iff.2
    ⟨cs, List.forall₂_same.2 fun c _ => LeftOf.refl c, List.Sublist.refl cs⟩

theorem trans (h : Leaves cs cs') (h' : Leaves cs' cs'') : Leaves cs cs'' := by
  have : IsTrans Candidate LeftOf := ⟨fun _ _ _ => LeftOf.trans⟩
  unfold Leaves at h h' ⊢
  exact IsTrans.trans _ _ _ h' h

/-- The orders stay as they are, without those of the candidates that are gone. -/
theorem orders_sublist (h : Leaves cs cs') :
    (cs'.map Candidate.order).Sublist (cs.map Candidate.order) := by
  unfold Leaves at h
  induction h with
  | nil => exact List.nil_sublist _
  | cons hc _ ih =>
    rw [List.map_cons, List.map_cons, hc.order_eq]
    exact ih.cons_cons _
  | cons_right _ ih => exact ih.cons _

theorem exists_leftOf (h : Leaves cs cs') : ∀ c' ∈ cs', ∃ c ∈ cs, LeftOf c' c := by
  unfold Leaves at h
  induction h with
  | nil => exact fun _ h => absurd h List.not_mem_nil
  | cons hc _ ih =>
    refine List.forall_mem_cons.2 ⟨⟨_, List.mem_cons_self, hc⟩, fun d hd => ?_⟩
    obtain ⟨e, he, hleft⟩ := ih d hd
    exact ⟨e, List.mem_cons_of_mem _ he, hleft⟩
  | cons_right _ ih =>
    intro d hd
    obtain ⟨e, he, hleft⟩ := ih d hd
    exact ⟨e, List.mem_cons_of_mem _ he, hleft⟩

/-- An order names what is left of one candidate only. -/
theorem leftOf_of_order (h : Leaves cs cs') (horders : (cs.map Candidate.order).Nodup)
    (hc : c ∈ cs) (hc' : c' ∈ cs') (horder : c'.order = c.order) : LeftOf c' c := by
  obtain ⟨d, hd, hleft⟩ := h.exists_leftOf c' hc'
  rwa [List.inj_on_of_nodup_map horders hc hd (horder.symm.trans hleft.order_eq)]

end Leaves

theorem IsTrim.leaves (h : IsTrim cs cs') : Leaves cs cs' := by
  have hsame : ∀ l : List Candidate, List.Forall₂ LeftOf l l :=
    fun l => List.forall₂_same.2 fun c _ => LeftOf.refl c
  cases h with
  | @channel l₁ l₂ c _ _ =>
    refine List.sublistForall₂_iff.2 ⟨_, ?_, List.Sublist.refl _⟩
    exact List.rel_append (hsame l₁) (.cons (LeftOf.dropOldest c) (hsame l₂))
  | @whole l₁ l₂ c _ _ =>
    refine List.sublistForall₂_iff.2 ⟨l₁ ++ l₂, hsame _, ?_⟩
    exact (List.sublist_cons_self c l₂).append_left l₁

/-! ## One pass -/

theorem not_looser_of_le (h : d.looseness ≤ c.looseness) : ¬ Looser d c := by
  simp only [Candidate.looseness, Key.le_def] at h
  simp only [Looser, UInt32.lt_iff_toNat_lt, ← UInt32.toNat_inj]
  omega

/-- Orders decide between equal periods. -/
theorem looser_of_le (h : d.looseness ≤ c.looseness) (hne : d.order ≠ c.order) : Looser c d := by
  simp only [Candidate.looseness, Key.le_def] at h
  simp only [Looser, UInt32.lt_iff_toNat_lt, ← UInt32.toNat_inj]
  omega

theorem mem_middle {l₁ l₂ : List Candidate} : d ∈ l₁ ++ x :: l₂ ↔ d = x ∨ d ∈ l₁ ++ l₂ :=
  List.perm_middle.mem_iff.trans List.mem_cons

/-- How what is left after some passes shows that the loosest went first. -/
structure LoosestSoFar (cs cs' : List Candidate) : Prop where
  leaves : Leaves cs cs'
  looser : ∀ c ∈ cs, c ∉ cs' → ∀ d ∈ cs', Looser d c → d.channels.size ≤ 1
  gone : ∀ c ∈ cs, (∀ d ∈ cs', d.order ≠ c.order) →
    ∀ d ∈ cs', d.channels.size ≤ 1 ∧ Looser c d

namespace LoosestSoFar

theorem refl (cs : List Candidate) : LoosestSoFar cs cs where
  leaves := Leaves.refl cs
  looser := fun _ hc hnot => absurd hc hnot
  gone := fun c hc hne => absurd rfl (hne c hc)

theorem trim (h : LoosestSoFar cs cs') (horders : (cs.map Candidate.order).Nodup)
    (htrim : IsTrim cs' cs'') : LoosestSoFar cs cs'' := by
  have hleaves := h.leaves.trans htrim.leaves
  cases htrim with
  | @channel l₁ l₂ x hx hloosest =>
    refine ⟨hleaves, fun c hc hnot d hd hlooser => ?_, fun c hc hne => ?_⟩
    · have hbefore : ∀ d ∈ l₁ ++ x :: l₂, Looser d c → d.channels.size ≤ 1 := by
        by_cases hcs' : c ∈ l₁ ++ x :: l₂
        · -- only now has it lost a channel
          obtain rfl : c = x :=
            (mem_middle.1 hcs').resolve_right fun h => hnot (mem_middle.2 (Or.inr h))
          intro d hd hlooser
          by_contra hsize
          exact not_looser_of_le (hloosest d hd (by omega)) hlooser
        · exact h.looser c hc hcs'
      rcases mem_middle.1 hd with rfl | hd
      · rw [size_channels_dropOldest]
        exact Nat.le_trans (Nat.sub_le _ _) (hbefore x (by simp) hlooser)
      · exact hbefore d (mem_middle.2 (Or.inr hd)) hlooser
    · -- nobody is gone as long as one candidate has a channel to spare
      have hgone : ∀ d ∈ l₁ ++ x :: l₂, d.order ≠ c.order := by
        intro d hd
        rcases mem_middle.1 hd with rfl | hd
        · exact hne d.dropOldest (by simp)
        · exact hne d (mem_middle.2 (Or.inr hd))
      exact absurd (h.gone c hc hgone x (by simp)).1 (by omega)
  | @whole l₁ l₂ x hsingle hloosest =>
    have hmem : ∀ d ∈ l₁ ++ l₂, d ∈ l₁ ++ x :: l₂ := fun d hd => mem_middle.2 (Or.inr hd)
    refine ⟨hleaves, fun c hc hnot d hd _ => hsingle d (hmem d hd), fun c hc hne d hd => ?_⟩
    refine ⟨hsingle d (hmem d hd), ?_⟩
    by_cases hgone : x.order = c.order
    · -- it goes now, as the loosest
      have hlooser : Looser x d := by
        refine looser_of_le (hloosest d (hmem d hd)) ?_
        rw [hgone]
        exact hne d hd
      have hleft := h.leaves.leftOf_of_order horders hc (by simp) hgone
      simpa only [Looser, hleft.order_eq, hleft.period_eq] using hlooser
    · refine (h.gone c hc (fun e he => ?_) d (hmem d hd)).2
      rcases mem_middle.1 he with rfl | he
      · exact hgone
      · exact hne e he

end LoosestSoFar

theorem loosestSoFar_trim (n : Nat) (horders : (cs.map Candidate.order).Nodup) :
    LoosestSoFar cs (trim n cs) :=
  trim_induction (P := LoosestSoFar cs) (fun _ _ htrim h => h.trim horders htrim) n
    (LoosestSoFar.refl cs)

theorem occupied_trim (n : Nat) (ho : Occupied cs) : Occupied (trim n cs) :=
  trim_induction (P := Occupied) (fun _ _ htrim h => htrim.occupied h) n ho

/-- One that is gone is one whose order is gone. -/
theorem Leaves.order_ne_of_dropped (h : Leaves cs cs') (horders : (cs.map Candidate.order).Nodup)
    (hc : c ∈ cs) (hdropped : Dropped cs' c) : ∀ d ∈ cs', d.order ≠ c.order :=
  fun d hd horder => hdropped d hd (h.leftOf_of_order horders hc hd horder)

/-- One that has lost something is not there any more as it was. -/
theorem Leaves.not_mem_of_dropped_or_shortened (h : Leaves cs cs')
    (horders : (cs.map Candidate.order).Nodup) (hlost : Dropped cs' c ∨ Shortened cs' c) :
    c ∉ cs' := by
  intro hc
  rcases hlost with hdropped | ⟨c', hc', hleft, hsize⟩
  · exact hdropped c hc (LeftOf.refl c)
  · have heq := List.inj_on_of_nodup_map (horders.sublist h.orders_sublist) hc' hc hleft.order_eq
    rw [heq] at hsize
    exact Nat.lt_irrefl _ hsize

/-! ## The loop -/

/-- Where the loop stands: what is left, and how many channels that has by the loop's own count. -/
structure Trimming where
  total : Nat
  candidates : List Candidate

namespace Trimming

/-- What one pass makes of it; there is none once the count is within the limit. -/
def next? (maxChannels : Nat) (t : Trimming) : Option Trimming :=
  if maxChannels < t.total then
    match loosest? t.candidates fun c => 1 < c.channels.size with
    | some i =>
      -- the count goes down only if there was a channel to drop
      if (t.candidates[i]?.bind fun c => c.channels.oldest?).isSome then
        some ⟨t.total - 1, t.candidates.modify i Candidate.dropOldest⟩
      else some t
    | none => do
      let i ← loosest? t.candidates fun _ => true
      let removed ← t.candidates[i]?
      return ⟨t.total - removed.channels.size, t.candidates.eraseIdx i⟩
  else none

/-- The loop comes to an end. -/
inductive Ends (maxChannels : Nat) : Trimming → Trimming → Prop
  | stop {t : Trimming} (h : t.next? maxChannels = none) : Ends maxChannels t t
  | pass {t t' t'' : Trimming} (h : t.next? maxChannels = some t')
      (hrest : Ends maxChannels t' t'') : Ends maxChannels t t''

/-- The loop's state when its count is right. -/
def counted (cs : List Candidate) : Trimming := ⟨totalChannels cs, cs⟩

theorem isSome_oldest? {s : ChannelSet} (h : 0 < s.size) : s.oldest?.isSome = true :=
  List.isSome_head?.2 (List.ne_nil_of_length_pos h)

/-- Above the limit a pass is made, and its count is right again. -/
theorem next?_counted (ho : Occupied cs) (h : n < totalChannels cs) :
    (counted cs).next? n = some (counted (trimOne cs)) := by
  have hne := ne_nil_of_lt_totalChannels h
  have htotal := (trimOne_isTrim hne).totalChannels ho
  rw [next?, if_pos (show n < (counted cs).total from h)]
  dsimp only [counted]
  cases hspare : loosest? cs fun c => 1 < c.channels.size with
  | some i =>
    obtain ⟨hlt, hsize, -⟩ := loosest?_eq_some hspare
    rw [decide_eq_true_eq] at hsize
    have hone : trimOne cs = cs.modify i Candidate.dropOldest := by
      simp only [trimOne, hspare]
    rw [hone] at htotal ⊢
    simp only [List.getElem?_eq_getElem hlt, Option.bind_some,
      isSome_oldest? (Nat.lt_trans Nat.one_pos hsize), if_true, ← htotal, Nat.add_sub_cancel]
  | none =>
    have hsingle := loosest?_eq_none hspare
    cases hany : loosest? cs fun _ => true with
    | some i =>
      obtain ⟨hlt, -, -⟩ := loosest?_eq_some hany
      have hsize : cs[i].channels.size = 1 := by
        have hpos := ho cs[i] (List.getElem_mem hlt)
        have hle := hsingle cs[i] (List.getElem_mem hlt)
        rw [decide_eq_false_iff_not] at hle
        omega
      have hone : trimOne cs = cs.eraseIdx i := by
        simp only [trimOne, hspare, hany]
      rw [hone] at htotal ⊢
      simp only [Option.bind_eq_bind, Option.bind_some, List.getElem?_eq_getElem hlt, hsize,
        ← htotal, Nat.add_sub_cancel, Option.pure_def]
    | none =>
      obtain ⟨c, hc⟩ := List.exists_mem_of_ne_nil cs hne
      exact absurd (loosest?_eq_none hany c hc) (by simp)

theorem ends_trimTimes : ∀ (k : Nat) (cs : List Candidate), Occupied cs →
    totalChannels cs - n = k → Ends n (counted cs) (counted (trimTimes k cs))
  | 0, cs, _, h => .stop (if_neg (by change ¬ n < totalChannels cs; omega))
  | k + 1, cs, ho, h => by
    have hlt : n < totalChannels cs := by omega
    have hstep := trimOne_isTrim (ne_nil_of_lt_totalChannels hlt)
    have htotal := hstep.totalChannels ho
    exact .pass (next?_counted ho hlt) (ends_trimTimes k _ (hstep.occupied ho) (by omega))

/-- The loop ends with what giving up the excess leaves. -/
theorem ends_trim (ho : Occupied cs) : Ends n (counted cs) (counted (trim n cs)) :=
  ends_trimTimes _ cs ho rfl

end Trimming

/-- The loop that trims ends, exactly at the limit if it has to start, and takes from the loosest
first, and from each the oldest first. -/
theorem loosestFirst_trim (hn : 1 ≤ n) (horders : (cs.map Candidate.order).Nodup)
    (ho : Occupied cs) :
    Trimming.Ends n (Trimming.counted cs) (Trimming.counted (trim n cs)) ∧
      LoosestFirst n cs (trim n cs) := by
  have hsofar := loosestSoFar_trim n horders
  have hocc := occupied_trim n ho
  refine ⟨Trimming.ends_trim ho, ?_⟩
  constructor
  case totalChannels_eq => exact totalChannels_trim n ho
  case ne_nil => exact fun hne => (trim_eq_nil_iff hn ho).not.2 hne
  case left =>
    obtain ⟨kept, hleft, hkept⟩ := List.sublistForall₂_iff.1 hsofar.leaves
    exact ⟨kept, hkept, hleft⟩
  case occupied => exact hocc
  case looser =>
    intro c hc hlost d _ hlooser
    have hnot := hsofar.leaves.not_mem_of_dropped_or_shortened horders hlost
    by_cases hgone : Dropped (trim n cs) d
    · exact Or.inl hgone
    · simp only [Dropped, not_forall, not_not] at hgone
      obtain ⟨d', hd', hleft⟩ := hgone
      have hlooser' : Looser d' c := by
        simpa only [Looser, hleft.order_eq, hleft.period_eq] using hlooser
      have hle := hsofar.looser c hc hnot d' hd' hlooser'
      have hpos := hocc d' hd'
      exact Or.inr ⟨d', hd', hleft, by omega⟩
  case dropped =>
    intro c hc hdropped d hd
    obtain ⟨hle, hlooser⟩ :=
      hsofar.gone c hc (hsofar.leaves.order_ne_of_dropped horders hc hdropped) d hd
    have hpos := hocc d hd
    exact ⟨by omega, hlooser⟩

theorem loosestFirst_trim_three :
    let cs : List Candidate :=
      [⟨0, 20000, .exact (some ⟨80000, 2⟩), .ofList [5180], ⟨1⟩, [0]⟩,
        ⟨1, 40000, .pooled .channels, .ofList [5745, 5180, 2412], ⟨2⟩, [1, 3]⟩,
        ⟨2, 20000, .pooled (.band ⟨1⟩), .ofList [2412, 2417], ⟨3⟩, [2]⟩]
    (cs.map Candidate.order).Nodup ∧ Occupied cs ∧
      (Trimming.Ends 4 (Trimming.counted cs) (Trimming.counted (trim 4 cs)) ∧
        LoosestFirst 4 cs (trim 4 cs)) ∧
      Trimming.Ends 2 (Trimming.counted cs) (Trimming.counted (trim 2 cs)) ∧
        LoosestFirst 2 cs (trim 2 cs) := by
  intro cs
  have horders : (cs.map Candidate.order).Nodup := by decide
  have ho : Occupied cs := by
    simp only [Occupied, cs, List.forall_mem_cons]
    decide
  exact ⟨horders, ho, loosestFirst_trim (by decide) horders ho,
    loosestFirst_trim (by decide) horders ho⟩

end RadioScan.Plan
