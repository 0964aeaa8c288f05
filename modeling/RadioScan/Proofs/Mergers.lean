import RadioScan.Proofs.Members

/-!
# What the remaining candidates are made of

Every candidate that remains was there from the start and has taken over some of the others, each of
the others being taken over once (`merged_eliminate`). It keeps its order, its period and, as long
as all that it has taken over back off, its curve, and has all of their members, events and channels
(`Merger.Makes`). So every member has one home among as many candidates as there are buckets, and
which candidates had to go was decided by the least harm each time (`leastHarmful_lossless`), which
singles out one candidate in every plan (`reduced_rounds`).
-/

namespace RadioScan.Plan

/-- What is left of a cadence once others share it, which may or may not all back off. -/
def Cadence.shared (k : Cadence) (backsOff : Bool) : Cadence :=
  match k with
  | .pooled group => .pooled group
  | .exact curve => .exact (if backsOff then curve else none)

/-- A candidate and those that it has taken over. -/
structure Merger where
  home : Candidate
  others : List Candidate

namespace Merger

def parts (g : Merger) : List Candidate := g.home :: g.others

/-- One candidate stands for all: it is the home, with what the others had to serve. -/
structure Makes (g : Merger) (c : Candidate) : Prop where
  order_eq : c.order = g.home.order
  period_eq : c.period = g.home.period
  cadence_eq : c.cadence = g.home.cadence.shared (g.others.all Candidate.isBackoff)
  members_eq : c.members = memberList g.parts
  events_eq : c.events = .unionAll (g.parts.map Candidate.events)
  mem_channels : ∀ f, f ∈ c.channels ↔ ∃ d ∈ g.parts, f ∈ d.channels

end Merger

/-- Every one of some candidates is made of one merger, and together they are the given ones. -/
def Merged (cs cs' : List Candidate) : Prop :=
  ∃ gs : List Merger, (gs.flatMap Merger.parts).Perm cs ∧ List.Forall₂ Merger.Makes gs cs'

/-- What a candidate never loses. -/
def Candidate.lasting (c : Candidate) : Nat × Millis := (c.order, c.period)

/-- Candidates may have gone, to leave one for each bucket, but nothing that they had to serve. -/
structure Lossless (n : Nat) (cs cs' : List Candidate) : Prop where
  length_eq : cs'.length = min cs.length n
  kept : (cs'.map Candidate.lasting).Sublist (cs.map Candidate.lasting)
  merged : Merged cs cs'
  members_perm : (memberList cs').Perm (memberList cs)
  one_home : (memberList cs).Nodup →
    ∀ i ∈ memberList cs, ∃! k : Fin cs'.length, i ∈ (cs'.get k).members

variable {m : Metric} {cs cs' cs'' : List Candidate} {c d : Candidate} {g h : Merger}

/-! ## Mergers -/

theorem cadence_absorb : (c.absorb d).cadence = c.cadence.shared d.isBackoff := by
  cases hc : c.cadence <;> simp [Candidate.absorb, Cadence.shared, hc]

theorem Cadence.shared_shared (k : Cadence) (a b : Bool) :
    (k.shared a).shared b = k.shared (a && b) := by
  cases k <;> cases a <;> cases b <;> rfl

theorem Cadence.shared_true (k : Cadence) : k.shared true = k := by
  cases k <;> rfl

namespace Merger

theorem single_makes (c : Candidate) : (⟨c, []⟩ : Merger).Makes c where
  order_eq := rfl
  period_eq := rfl
  cadence_eq := (Cadence.shared_true _).symm
  members_eq := by simp [parts, memberList]
  events_eq := by simp [parts, ReportEvents.unionAll_singleton]
  mem_channels := by simp [parts]

theorem Makes.isBackoff_eq (hg : g.Makes c) : c.isBackoff = g.parts.all Candidate.isBackoff := by
  simp only [parts, List.all_cons, Candidate.isBackoff, Candidate.backoff?, hg.cadence_eq]
  cases g.home.cadence with
  | pooled group => rfl
  | exact curve => cases g.others.all Candidate.isBackoff <;> simp [Cadence.shared]

/-- A candidate that takes over another takes over all that the other one had. -/
theorem Makes.absorb (hg : g.Makes c) (hh : h.Makes d) :
    (⟨g.home, g.others ++ h.parts⟩ : Merger).Makes (c.absorb d) where
  order_eq := hg.order_eq
  period_eq := hg.period_eq
  cadence_eq := by
    rw [cadence_absorb, hg.cadence_eq, Cadence.shared_shared, hh.isBackoff_eq, List.all_append]
  members_eq := by
    change c.members ++ d.members = memberList (g.parts ++ h.parts)
    rw [hg.members_eq, hh.members_eq, memberList, memberList, memberList, List.flatMap_append]
  events_eq := by
    change c.events.union d.events = .unionAll ((g.parts ++ h.parts).map Candidate.events)
    rw [List.map_append, ReportEvents.unionAll_append, ← hg.events_eq, ← hh.events_eq]
  mem_channels := by
    intro f
    change f ∈ c.channels.union d.channels ↔ ∃ e ∈ g.parts ++ h.parts, f ∈ e.channels
    simp only [ChannelSet.mem_union, hg.mem_channels, hh.mem_channels, List.mem_append,
      or_and_right, exists_or]

end Merger

theorem Merged.refl (cs : List Candidate) : Merged cs cs := by
  refine ⟨cs.map fun c => ⟨c, []⟩, List.Perm.of_eq ?_, ?_⟩
  · simp [List.flatMap_map, Merger.parts]
  · exact List.forall₂_map_left_iff.2 (List.forall₂_same.2 fun c _ => Merger.single_makes c)

/-- The candidates may come in any order. -/
theorem Merged.perm (hm : Merged cs cs') (hperm : cs'.Perm cs'') : Merged cs cs'' := by
  obtain ⟨gs, hgs, hmakes⟩ := hm
  obtain ⟨gs', hmakes', hgs'⟩ := List.perm_comp_forall₂ hperm.symm hmakes.flip
  exact ⟨gs', (hgs'.flatMap_right _).trans hgs, hmakes'.flip⟩

theorem Merged.fold (hm : Merged cs cs') (hfold : IsFold cs' cs'') : Merged cs cs'' := by
  obtain ⟨c, removed, rest, hcs', hcs''⟩ := hfold
  obtain ⟨gs, hgs, hmakes⟩ := hm.perm hcs'
  cases hmakes with
  | @cons g _ _ _ hc hmakes =>
    cases hmakes with
    | @cons h _ gs _ hremoved hrest =>
      refine Merged.perm ⟨⟨g.home, g.others ++ h.parts⟩ :: gs, ?_, ?_⟩ hcs''.symm
      · refine (List.Perm.of_eq ?_).trans hgs
        simp [Merger.parts]
      · exact .cons (hc.absorb hremoved) hrest

/-! ## All rounds -/

theorem merged_eliminate (m : Metric) (n : Nat) (cs : List Candidate) :
    Merged cs (eliminate m n cs) :=
  eliminate_induction (P := Merged cs) (fun _ _ hfold hm => hm.fold hfold) n (Merged.refl cs)

theorem Rounds.kept {n : Nat} (h : Rounds (IsCheapest m) n cs cs') :
    (cs'.map Candidate.lasting).Sublist (cs.map Candidate.lasting) :=
  h.induction (P := fun cs' => (cs'.map Candidate.lasting).Sublist (cs.map Candidate.lasting))
    (fun _ victim target _ _ hcs => (map_fold_sublist (fun _ _ => rfl) victim target).trans hcs)
    (List.Sublist.refl _)

/-- The candidates of a pool are numbered in the order in which they were opened. -/
theorem orders_pool (s : Settings) (rs : List Request) :
    (pool s rs).map Candidate.order = List.range (pool s rs).length := by
  refine pool_induction (P := fun _ cs => cs.map Candidate.order = List.range cs.length) rfl ?_
  intro i r cs cs' _ hplaced hcs
  cases hplaced with
  | ignored _ => exact hcs
  | opened _ hnew _ =>
    rw [List.map_append, hcs, List.map_singleton, hnew.order_eq, List.length_append,
      List.length_singleton, List.range_succ]
  | joined _ _ _ _ => simpa [Candidate.join] using hcs

/-- So whatever the requests, those that have to share a bucket are the ones that it harms least. -/
theorem reduced_rounds {s : Settings} (rs : List Request) (h : 1 ≤ s.limits.maxBuckets.toNat) :
    Rounds (IsLeastHarmful s.policy.metric) s.limits.maxBuckets.toNat (pool s rs) (reduced s rs) :=
  (eliminate_rounds _ h _).leastHarmful (by rw [orders_pool]; exact List.nodup_range)

theorem existsUnique_home {i : Nat} (hnodup : (memberList cs).Nodup) (hi : i ∈ memberList cs) :
    ∃! k : Fin cs.length, i ∈ (cs.get k).members := by
  obtain ⟨c, hc, hmem⟩ := List.mem_flatMap.1 hi
  obtain ⟨k, hk, rfl⟩ := List.getElem_of_mem hc
  refine ⟨⟨k, hk⟩, hmem, fun j hj => Fin.ext ?_⟩
  exact eq_of_mem_members hnodup (List.getElem?_eq_getElem j.isLt) (List.getElem?_eq_getElem hk) hj
    hmem

theorem lossless_eliminate {n : Nat} (hn : 1 ≤ n) (cs : List Candidate) :
    Lossless n cs (eliminate m n cs) where
  length_eq := length_eliminate hn cs
  kept := (eliminate_rounds m hn cs).kept
  merged := merged_eliminate m n cs
  members_perm := memberList_eliminate m n cs
  one_home := by
    intro hnodup i hi
    have hperm := memberList_eliminate m n cs
    exact existsUnique_home (hperm.nodup_iff.2 hnodup) (hperm.mem_iff.2 hi)

/-- The candidates to give up are chosen one by one, the least harmful first, and those that are
left take over all that they had to serve. -/
theorem leastHarmful_lossless (m : Metric) (cs : List Candidate) :
    (2 ≤ cs.length → (cs.map Candidate.order).Nodup →
      (∀ v, ∃ t, IsHome m cs v t) ∧
      ∃ victim target : Fin cs.length, ∃ k, pick? m cs = some ⟨victim, target, k⟩ ∧
        IsLeastHarmful m cs victim target) ∧
    ∀ n, 1 ≤ n →
      ((cs.map Candidate.order).Nodup → Rounds (IsLeastHarmful m) n cs (eliminate m n cs)) ∧
      Lossless n cs (eliminate m n cs) := by
  constructor
  · intro hlen horders
    refine ⟨exists_home m hlen, ?_⟩
    obtain ⟨e, he⟩ := exists_pick m hlen
    obtain ⟨victim, target, hcheap, rfl⟩ := pick?_eq_some he
    exact ⟨victim, target, _, he, hcheap.isLeastHarmful horders⟩
  · exact fun n hn => ⟨(eliminate_rounds m hn cs).leastHarmful, lossless_eliminate hn cs⟩

theorem leastHarmful_lossless_three :
    let cs : List Candidate :=
      [⟨0, 10000, .exact (some ⟨80000, 2⟩), .ofList [5180], ⟨1⟩, [0]⟩,
        ⟨1, 20000, .pooled .channels, .ofList [5745, 5180], ⟨2⟩, [1, 3]⟩,
        ⟨2, 40000, .pooled (.band ⟨1⟩), .ofList [2412], ⟨3⟩, [2]⟩]
    let m := Policy.absolute.metric
    ((∀ v, ∃ t, IsHome m cs v t) ∧
      ∃ victim target : Fin cs.length, ∃ k, pick? m cs = some ⟨victim, target, k⟩ ∧
        IsLeastHarmful m cs victim target) ∧
    Rounds (IsLeastHarmful m) 2 cs (eliminate m 2 cs) ∧ Lossless 2 cs (eliminate m 2 cs) :=
  ⟨(leastHarmful_lossless _ _).1 (by decide) (by decide),
    ((leastHarmful_lossless _ _).2 2 (by decide)).imp_left fun h => h (by decide)⟩

end RadioScan.Plan
