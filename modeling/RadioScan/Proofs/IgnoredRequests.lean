import RadioScan.Proofs.Placement
import Mathlib.Data.Fin.VecNotation
import Mathlib.Data.List.InsertIdx
import Mathlib.Data.List.Sort
import Mathlib.Order.Hom.Basic

/-!
# Ignored requests leave no trace

A plan looks at the numbers of requests only to tell members apart, so each of its stages does the
same under other numbers (`place_renumber` and what follows it). A request that cannot be scheduled
does no more than take up a number, so with such requests slipped in anywhere the candidates are the
same but for the numbers of their members (`arranged_of_intersperses`), and nothing of the schedule
shows that they were there (`update_of_intersperses`).
-/

namespace RadioScan

section Ignored

variable {catalog : Catalog} {r : Request}

/-- There is no time between scans, or there is nothing to scan. -/
def Request.IsVoid (r : Request) (catalog : Catalog) : Prop :=
  r.period = 0 ∨ r.scope = .channels [] ∨ ∃ b, r.scope = .band b ∧ catalog.expandBand b = []

theorem Catalog.expand_eq_nil_iff {scope : Scope} : catalog.expand scope = [] ↔
    scope = .channels [] ∨ ∃ b, scope = .band b ∧ catalog.expandBand b = [] := by
  cases scope with
  | band b => simp [Catalog.expand]
  | channels fs =>
    simp only [Scope.channels.injEq, reduceCtorEq, false_and, exists_false, or_false]
    constructor
    · intro h
      refine List.eq_nil_iff_forall_not_mem.2 fun f hf => ?_
      have hmem : f ∈ catalog.expand (.channels fs) := ChannelSet.mem_ofList.2 hf
      rw [h] at hmem
      cases hmem
    · rintro rfl
      rfl

theorem Request.isVoid_iff : r.IsVoid catalog ↔ r.isSchedulable catalog = false := by
  rw [Request.IsVoid, ← Catalog.expand_eq_nil_iff, Request.isSchedulable, Bool.and_eq_false_iff,
    decide_eq_false_iff_not, Bool.not_eq_false', List.isEmpty_iff, UInt32.pos_iff_ne_zero, not_not]

end Ignored

/-- The second list is the first with void requests slipped in; `f` tells where each request of the
first has gone. -/
structure Intersperses (catalog : Catalog) (xs ys : List Request)
    (f : Fin xs.length ↪o Fin ys.length) : Prop where
  kept : ∀ i, ys.get (f i) = xs.get i
  void : ∀ j, j ∉ Set.range f → (ys.get j).IsVoid catalog

namespace Plan

/-- The same candidate with its members under other numbers. -/
def Candidate.renumber (g : Nat → Nat) (c : Candidate) : Candidate :=
  { c with members := c.members.map g }

section Renumbering

variable (g : Nat → Nat)

/-! ## Pooling under other numbers -/

theorem openFor_renumber (catalog : Catalog) (order i : Nat) (r : Request) (period : Millis)
    (cadence : Cadence) : openFor catalog order (g i) r period cadence
      = (openFor catalog order i r period cadence).renumber g := rfl

theorem join_renumber (c : Candidate) (i : Nat) (events : ReportEvents) (channels : ChannelSet) :
    (c.renumber g).join (g i) events channels = (c.join i events channels).renumber g := by
  simp [Candidate.renumber, Candidate.join]

theorem place_renumber (s : Settings) (cs : List Candidate) (i : Nat) (r : Request) :
    place s (cs.map (.renumber g)) (g i) r = (place s cs i r).map (.renumber g) := by
  unfold place
  split_ifs
  · rw [List.map_append, List.length_map, openFor_renumber, List.map_singleton]
  · -- the numbers of members play no part in who accepts whom
    have haccepts : accepts s.limits.maxChannels.toNat (s.periods.nearest r.period)
        (groupOf r.scope) (.ofScope s.catalog r.scope) ∘ Candidate.renumber g
          = accepts s.limits.maxChannels.toNat (s.periods.nearest r.period)
            (groupOf r.scope) (.ofScope s.catalog r.scope) := rfl
    dsimp only
    rw [List.findIdx?_map, haccepts]
    cases cs.findIdx? _ with
    | some k => exact modify_map (fun c => join_renumber g c i _ _) cs k
    | none => rw [List.map_append, List.length_map, openFor_renumber, List.map_singleton]
  · rfl

theorem foldl_place_renumber (s : Settings) : ∀ (es : List (Request × Nat)) (cs : List Candidate),
    es.foldl (fun cs e => place s cs (g e.2) e.1) (cs.map (.renumber g))
      = (es.foldl (fun cs e => place s cs e.2 e.1) cs).map (.renumber g)
  | [], _ => rfl
  | e :: es, cs => by
    rw [List.foldl_cons, List.foldl_cons, place_renumber, foldl_place_renumber s es]

/-! ## Elimination under other numbers -/

theorem absorb_renumber (c d : Candidate) :
    (c.renumber g).absorb (d.renumber g) = (c.absorb d).renumber g := by
  unfold Candidate.absorb Candidate.renumber
  rw [List.map_append]
  rfl

theorem homes_renumber (cs : List Candidate) (i : Nat) (c : Candidate) :
    homes (cs.map (.renumber g)) i (c.renumber g) = homes cs i c := by
  simp only [homes, List.zipIdx_map, List.filter_map, List.any_map, List.map_map]
  rfl

theorem elimination?_renumber (m : Metric) (cs : List Candidate) (c : Candidate) (i : Nat) :
    elimination? m (cs.map (.renumber g)) (c.renumber g) i = elimination? m cs c i := by
  have hcost (d : Candidate) : cost m (c.renumber g) (d.renumber g) = cost m c d := by
    simp only [cost, Candidate.renumber, List.length_map]
  have hperiod : (c.renumber g).period = c.period := rfl
  rw [elimination?, elimination?, homes_renumber, hperiod]
  cases m.closest? c.period (homes cs i c) with
  | none => rfl
  | some target =>
    simp only [Option.bind_eq_bind, Option.bind_some, List.getElem?_map]
    cases cs[target]? with
    | none => rfl
    | some d => simp only [Option.map_some, Option.bind_some, hcost]

theorem pick?_renumber (m : Metric) (cs : List Candidate) :
    pick? m (cs.map (.renumber g)) = pick? m cs := by
  have hsame : (fun e : Candidate × Nat => elimination? m (cs.map (.renumber g)) e.1 e.2)
      ∘ Prod.map (.renumber g) id = fun e => elimination? m cs e.1 e.2 :=
    funext fun e => elimination?_renumber g m cs e.1 e.2
  rw [pick?, List.zipIdx_map, List.filterMap_map, hsame, ← pick?]

theorem fold_renumber (cs : List Candidate) (victim target : Nat) :
    fold (cs.map (.renumber g)) victim target = (fold cs victim target).map (.renumber g) := by
  unfold fold
  rw [List.getElem?_map]
  cases cs[victim]? with
  | none => rfl
  | some removed =>
    have hmodify := modify_map (f := Candidate.renumber g) (p := (·.absorb removed))
      (q := (·.absorb (removed.renumber g))) (fun c => absorb_renumber g c removed) cs target
    simp only [Option.map_some, hmodify, List.eraseIdx_map]

theorem eliminateOne_renumber (m : Metric) (cs : List Candidate) :
    eliminateOne m (cs.map (.renumber g)) = (eliminateOne m cs).map (.renumber g) := by
  unfold eliminateOne
  rw [pick?_renumber]
  cases pick? m cs with
  | none => rfl
  | some e => exact fold_renumber g cs e.victim e.target

theorem eliminateTimes_renumber (m : Metric) : ∀ (n : Nat) (cs : List Candidate),
    eliminateTimes m n (cs.map (.renumber g)) = (eliminateTimes m n cs).map (.renumber g)
  | 0, _ => rfl
  | n + 1, cs => by
    rw [eliminateTimes, eliminateTimes, eliminateOne_renumber, eliminateTimes_renumber m n]

theorem eliminate_renumber (m : Metric) (n : Nat) (cs : List Candidate) :
    eliminate m n (cs.map (.renumber g)) = (eliminate m n cs).map (.renumber g) := by
  rw [eliminate, List.length_map, eliminateTimes_renumber, ← eliminate]

/-! ## Trimming under other numbers -/

theorem maxOn?_map {α β : Type} (f : α → β) (key : β → Key) : ∀ l : List α,
    (l.map f).maxOn? key = (l.maxOn? fun a => key (f a)).map f
  | [] => rfl
  | a :: l => by
    rw [List.map_cons, List.maxOn?_cons, List.maxOn?_cons, maxOn?_map f key l]
    cases l.maxOn? fun a => key (f a) with
    | none => rfl
    | some b =>
      simp only [Option.map_some, Option.elim_some, maxOn_eq_if]
      split_ifs <;> rfl

theorem loosest?_renumber {p : Candidate → Bool} (hp : ∀ c, p (c.renumber g) = p c)
    (cs : List Candidate) : loosest? (cs.map (.renumber g)) p = loosest? cs p := by
  have hpick : (fun e : Candidate × Nat => p e.1) ∘ Prod.map (.renumber g) id
      = fun e => p e.1 := funext fun e => hp e.1
  unfold loosest?
  rw [List.zipIdx_map, List.filter_map, hpick, maxOn?_map, Option.map_map]
  rfl

theorem trimOne_renumber (cs : List Candidate) :
    trimOne (cs.map (.renumber g)) = (trimOne cs).map (.renumber g) := by
  unfold trimOne
  rw [loosest?_renumber g (fun _ => rfl), loosest?_renumber g (fun _ => rfl)]
  cases loosest? cs fun c => 1 < c.channels.size with
  | some i => exact modify_map (f := Candidate.renumber g) (p := .dropOldest) (fun _ => rfl) cs i
  | none =>
    cases loosest? cs fun _ => true with
    | some i => exact List.eraseIdx_map _ cs i
    | none => rfl

theorem trimTimes_renumber : ∀ (n : Nat) (cs : List Candidate),
    trimTimes n (cs.map (.renumber g)) = (trimTimes n cs).map (.renumber g)
  | 0, _ => rfl
  | n + 1, cs => by rw [trimTimes, trimTimes, trimOne_renumber, trimTimes_renumber n]

theorem trim_renumber (n : Nat) (cs : List Candidate) :
    trim n (cs.map (.renumber g)) = (trim n cs).map (.renumber g) := by
  have htotal : totalChannels (cs.map (.renumber g)) = totalChannels cs := by
    rw [totalChannels, List.foldr_map]
    rfl
  rw [trim, htotal, trimTimes_renumber, ← trim]

/-! ## Alignment under other numbers -/

theorem basePeriod_renumber (idle : Millis) (cs : List Candidate) :
    basePeriod idle (cs.map (.renumber g)) = basePeriod idle cs := by
  have hleast (exact : Bool) :
      leastPeriod? (cs.map (.renumber g)) exact = leastPeriod? cs exact := by
    rw [leastPeriod?, List.filter_map, List.map_map]
    rfl
  rw [basePeriod, hleast, hleast, ← basePeriod]

theorem arrange_renumber (base : Millis) (cs : List Candidate) :
    arrange base (cs.map (.renumber g)) = (arrange base cs).map (.renumber g) := by
  have halign : alignTo base ∘ Candidate.renumber g = .renumber g ∘ alignTo base := by
    funext c
    rw [Function.comp_apply, Function.comp_apply, alignTo, alignTo,
      apply_ite (Candidate.renumber g)]
    rfl
  rw [arrange, arrange, List.map_map, halign, ← List.map_map]
  exact (List.map_mergeSort (f := Candidate.renumber g) fun _ _ _ _ => rfl).symm

end Renumbering

/-! ## The requests that count -/

/-- The requests that can be scheduled, with their numbers. -/
def entries (catalog : Catalog) (rs : List Request) : List (Request × Nat) :=
  rs.zipIdx.filter fun e => e.1.isSchedulable catalog

theorem mem_entries {catalog : Catalog} {rs : List Request} {r : Request} {i : Nat} :
    (r, i) ∈ entries catalog rs ↔ rs[i]? = some r ∧ r.isSchedulable catalog = true := by
  rw [entries, List.mem_filter, List.mem_zipIdx_iff_getElem?]

theorem entries_ascending (catalog : Catalog) (rs : List Request) :
    (entries catalog rs).Pairwise fun d e => d.2 < e.2 := by
  refine List.Pairwise.filter _ (List.pairwise_map.1 ?_)
  rw [List.zipIdx_map_snd]
  exact List.pairwise_lt_range'

theorem map_fst_entries (catalog : Catalog) (rs : List Request) :
    (entries catalog rs).map Prod.fst = rs.filter fun r => r.isSchedulable catalog := by
  have hfilter := List.filter_map (f := Prod.fst) (p := fun r : Request => r.isSchedulable catalog)
    (l := rs.zipIdx)
  rw [List.zipIdx_map_fst] at hfilter
  exact hfilter.symm

theorem pool_eq_foldl_entries (s : Settings) (rs : List Request) :
    pool s rs = (entries s.catalog rs).foldl (fun cs e => place s cs e.2 e.1) [] := by
  have hplace : (fun cs (e : Request × Nat) => place s cs e.2 e.1)
      = fun cs e => if e.1.isSchedulable s.catalog then place s cs e.2 e.1 else cs := by
    funext cs e
    split_ifs with h
    · rfl
    · rw [place, if_neg h]
  rw [entries, List.foldl_filter, ← hplace]
  rfl

section Intersperses

variable {s : Settings} {catalog : Catalog} {xs ys : List Request}
  {f : Fin xs.length ↪o Fin ys.length} {g : Nat → Nat}

/-- Every number has a new one, in the same order; that of a request of the first list is where it
has gone. -/
structure Extends (f : Fin xs.length ↪o Fin ys.length) (g : Nat → Nat) : Prop where
  strictMono : StrictMono g
  apply_eq : ∀ i : Fin xs.length, g i = f i

theorem exists_extends (f : Fin xs.length ↪o Fin ys.length) : ∃ g, Extends f g := by
  refine ⟨fun i => if h : i < xs.length then f ⟨i, h⟩ else ys.length + i, fun i j hij => ?_,
    fun i => dif_pos i.isLt⟩
  by_cases hj : j < xs.length
  · rw [dif_pos (Nat.lt_trans hij hj), dif_pos hj]
    exact f.strictMono hij
  · rw [dif_neg hj]
    split_ifs with hi
    · exact Nat.lt_of_lt_of_le (f ⟨i, hi⟩).isLt (Nat.le_add_right _ _)
    · exact Nat.add_lt_add_left hij _

/-- What can be scheduled is found in the longer list where it has gone, and nowhere else. -/
theorem getElem?_of_intersperses (h : Intersperses catalog xs ys f) (hg : Extends f g)
    {r : Request} {j : Nat} (hsched : r.isSchedulable catalog = true) :
    ys[j]? = some r ↔ ∃ i, xs[i]? = some r ∧ g i = j := by
  constructor
  · intro hget
    obtain ⟨hj, rfl⟩ := List.getElem?_eq_some_iff.1 hget
    obtain ⟨i, hi⟩ : (⟨j, hj⟩ : Fin ys.length) ∈ Set.range f := by
      by_contra hout
      exact ne_true_of_eq_false (Request.isVoid_iff.1 (h.void _ hout)) hsched
    have hkept := h.kept i
    rw [hi] at hkept
    refine ⟨i, ?_, by rw [hg.apply_eq, hi]⟩
    rw [List.getElem?_eq_getElem i.isLt]
    exact congrArg some hkept.symm
  · rintro ⟨i, hget, rfl⟩
    obtain ⟨hi, rfl⟩ := List.getElem?_eq_some_iff.1 hget
    rw [hg.apply_eq ⟨i, hi⟩, List.getElem?_eq_getElem (f ⟨i, hi⟩).isLt]
    exact congrArg some (h.kept ⟨i, hi⟩)

/-- Void requests make no entry, and the others keep their order. -/
theorem entries_of_intersperses (h : Intersperses catalog xs ys f) (hg : Extends f g) :
    entries catalog ys = (entries catalog xs).map (Prod.map id g) := by
  have hys := entries_ascending catalog ys
  have hxs : ((entries catalog xs).map (Prod.map id g)).Pairwise fun d e => d.2 < e.2 :=
    List.pairwise_map.2 ((entries_ascending catalog xs).imp fun hlt => hg.strictMono hlt)
  have hne {d e : Request × Nat} (hlt : d.2 < e.2) : d ≠ e :=
    fun heq => Nat.ne_of_lt hlt (congrArg Prod.snd heq)
  -- two ascending lists with the same entries
  refine List.Perm.eq_of_pairwise (fun d e _ _ hlt hgt => absurd hgt (Nat.lt_asymm hlt)) hys hxs ?_
  refine (List.perm_ext_iff_of_nodup (hys.imp hne) (hxs.imp hne)).2 fun ⟨r, j⟩ => ?_
  rw [mem_entries, List.mem_map]
  constructor
  · rintro ⟨hget, hsched⟩
    obtain ⟨i, hi, rfl⟩ := (getElem?_of_intersperses h hg hsched).1 hget
    exact ⟨(r, i), mem_entries.2 ⟨hi, hsched⟩, rfl⟩
  · rintro ⟨⟨q, i⟩, he, heq⟩
    obtain ⟨hi, hsched⟩ := mem_entries.1 he
    cases heq
    exact ⟨(getElem?_of_intersperses h hg hsched).2 ⟨i, hi, rfl⟩, hsched⟩

theorem pool_of_intersperses (h : Intersperses s.catalog xs ys f) (hg : Extends f g) :
    pool s ys = (pool s xs).map (.renumber g) := by
  rw [pool_eq_foldl_entries, pool_eq_foldl_entries, entries_of_intersperses h hg, List.foldl_map]
  exact foldl_place_renumber g s _ []

theorem candidates_of_intersperses (h : Intersperses s.catalog xs ys f) (hg : Extends f g) :
    candidates s ys = (candidates s xs).map (.renumber g) := by
  rw [candidates, candidates, reduced, reduced, pool_of_intersperses h hg, eliminate_renumber,
    trim_renumber]

theorem baseFor_of_intersperses (h : Intersperses s.catalog xs ys f) :
    baseFor s ys = baseFor s xs := by
  obtain ⟨g, hg⟩ := exists_extends f
  rw [baseFor, baseFor, candidates_of_intersperses h hg, basePeriod_renumber]

theorem arranged_of_intersperses (h : Intersperses s.catalog xs ys f) (hg : Extends f g) :
    arranged s ys = (arranged s xs).map (.renumber g) := by
  rw [arranged, arranged, baseFor_of_intersperses h, candidates_of_intersperses h hg,
    arrange_renumber]

theorem filter_of_intersperses (h : Intersperses catalog xs ys f) :
    (ys.filter fun r => r.isSchedulable catalog) = xs.filter fun r => r.isSchedulable catalog := by
  obtain ⟨g, hg⟩ := exists_extends f
  rw [← map_fst_entries, ← map_fst_entries, entries_of_intersperses h hg, List.map_map]
  rfl

end Intersperses

end Plan

namespace Scheduler

open Plan

variable {s : Scheduler} {xs ys : List Request} {f : Fin xs.length ↪o Fin ys.length}

theorem schedule_of_intersperses (h : Intersperses s.settings.catalog xs ys f) :
    (s.update ys).schedule = (s.update xs).schedule := by
  obtain ⟨g, hg⟩ := exists_extends f
  have hbucket : toBucket s.settings.catalog ∘ .renumber g = toBucket s.settings.catalog := rfl
  simp only [update, compute, assemble]
  rw [baseFor_of_intersperses h, arranged_of_intersperses h hg, filter_of_intersperses h,
    List.map_map, hbucket]

theorem bucketIndex?_of_intersperses (h : Intersperses s.settings.catalog xs ys f)
    (i : Fin xs.length) : (s.update ys).bucketIndex? (f i) = (s.update xs).bucketIndex? i := by
  obtain ⟨g, hg⟩ := exists_extends f
  refine Option.ext fun k => ?_
  rw [bucketIndex?_update, bucketIndex?_update, arranged_of_intersperses h hg, List.getElem?_map]
  cases (arranged s.settings xs)[k]? with
  | none => simp
  | some c => simp [Candidate.renumber, ← hg.apply_eq, hg.strictMono.injective.eq_iff]

/-- With void requests slipped in, an update leaves the same schedule, and every other request in
its bucket. -/
theorem update_of_intersperses (s : Scheduler) (xs ys : List Request)
    (f : Fin xs.length ↪o Fin ys.length) (h : Intersperses s.settings.catalog xs ys f) :
    (s.update ys).schedule = (s.update xs).schedule ∧
      (∀ i, (s.update ys).bucketIndex? (f i) = (s.update xs).bucketIndex? i) ∧
      ∀ j, j ∉ Set.range f → (s.update ys).bucketIndex? j = none := by
  refine ⟨schedule_of_intersperses h, bucketIndex?_of_intersperses h, fun j hj => ?_⟩
  exact unplaced_update (List.getElem?_eq_getElem j.isLt) (Request.isVoid_iff.1 (h.void j hj))

theorem update_of_intersperses_three :
    let s := ofCatalog .standard
    let xs : List Request := [.withBssidsPerScan (.ofScope (.band ⟨1⟩) 40000) 10,
      .withBackoff (.ofScope (.channels [5180]) 15000) 60000 2]
    let ys : List Request := [.withBssidsPerScan (.ofScope (.band ⟨1⟩) 0) 1,
      .withBssidsPerScan (.ofScope (.band ⟨1⟩) 40000) 10,
      .withMaxScansToCache (.ofScope (.channels []) 10000) 1,
      .withBackoff (.ofScope (.channels [5180]) 15000) 60000 2,
      .withBackoff (.ofScope (.band ⟨8⟩) 5000) 20000 1]
    let f : Fin xs.length ↪o Fin ys.length := OrderEmbedding.ofStrictMono ![1, 3] (by decide)
    Intersperses s.settings.catalog xs ys f ∧
      (s.update ys).schedule = (s.update xs).schedule ∧
        (∀ i, (s.update ys).bucketIndex? (f i) = (s.update xs).bucketIndex? i) ∧
        ∀ j, j ∉ Set.range f → (s.update ys).bucketIndex? j = none := by
  intro s xs ys f
  have hvoid : ∀ j, (∀ i, f i ≠ j) → (ys.get j).isSchedulable s.settings.catalog = false := by
    decide
  have h : Intersperses s.settings.catalog xs ys f :=
    ⟨by decide, fun j hj => Request.isVoid_iff.2 (hvoid j fun i hi => hj ⟨i, hi⟩)⟩
  exact ⟨h, update_of_intersperses s xs ys f h⟩

end Scheduler

end RadioScan
