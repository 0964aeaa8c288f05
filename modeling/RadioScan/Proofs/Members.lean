import RadioScan.Proofs.Candidates
import RadioScan.Proofs.Catalog

/-!
# What a candidate owes to its members

A candidate's events are those of its members together, its channels are wanted by some member,
and it backs off only if all of its members do, along the curve of one of them (`Serves`). Opening
gives this, absorbing and losing a channel keep it, so it holds of every candidate of a plan
(`serves_of_mem_candidates`). Until channels are given up a candidate also has every channel that a
member wants (`covers_of_mem_reduced`).
-/

namespace RadioScan

namespace ReportEvents

/-- The flags that any of some masks has. -/
def unionAll (es : List ReportEvents) : ReportEvents := es.foldl union bufferFull

theorem union_assoc (a b c : ReportEvents) : (a.union b).union c = a.union (b.union c) := by
  simp [union, UInt8.or_assoc]

theorem union_comm (a b : ReportEvents) : a.union b = b.union a := by
  simp [union, UInt8.or_comm]

theorem bufferFull_union (a : ReportEvents) : bufferFull.union a = a := by
  simp [union, bufferFull]

theorem foldl_union (es : List ReportEvents) : ∀ e : ReportEvents,
    es.foldl union e = e.union (unionAll es) := by
  induction es with
  | nil => exact fun e => (union_comm e _).trans (bufferFull_union e) |>.symm
  | cons d es ih =>
    intro e
    rw [unionAll, List.foldl_cons, List.foldl_cons, ih, ih, bufferFull_union, union_assoc]

theorem unionAll_append (es fs : List ReportEvents) :
    unionAll (es ++ fs) = (unionAll es).union (unionAll fs) := by
  rw [unionAll, List.foldl_append, foldl_union]
  rfl

theorem unionAll_singleton (e : ReportEvents) : unionAll [e] = e :=
  bufferFull_union e

theorem unionAll_perm {es fs : List ReportEvents} (h : es.Perm fs) : unionAll es = unionAll fs :=
  have : RightCommutative union := ⟨fun a b c => by
    rw [union_assoc, union_comm b c, ← union_assoc]⟩
  h.foldl_eq bufferFull

end ReportEvents

namespace Plan

variable {catalog : Catalog} {rs : List Request} {c d : Candidate}

/-- The requests that a candidate's members stand for. -/
def Candidate.requests (c : Candidate) (rs : List Request) : List Request :=
  c.members.filterMap (rs[·]?)

/-- What every candidate owes to its members, at any time. -/
structure Serves (catalog : Catalog) (rs : List Request) (c : Candidate) : Prop where
  members_ne_nil : c.members ≠ []
  schedulable : ∀ i ∈ c.members, ∃ r, rs[i]? = some r ∧ r.isSchedulable catalog = true
  events_eq : c.events = .unionAll ((c.requests rs).map Request.events)
  channels_pos : 0 < c.channels.size
  wanted : ∀ f ∈ c.channels, ∃ r ∈ c.requests rs, f ∈ catalog.expand r.scope
  fixed : c.backoff? = none → ∃ r ∈ c.requests rs, r.isExponential = false
  curve : ∀ curve, c.backoff? = some curve → (∀ r ∈ c.requests rs, r.isExponential = true) ∧
    ∃ r ∈ c.requests rs, curve = ⟨r.maxPeriod, r.stepCount⟩

/-- Every member gets all of its channels. -/
def Covers (catalog : Catalog) (rs : List Request) (c : Candidate) : Prop :=
  ∀ r ∈ c.requests rs, ∀ f ∈ catalog.expand r.scope, f ∈ c.channels

/-! ## One candidate -/

theorem mem_requests {r : Request} : r ∈ c.requests rs ↔ ∃ i ∈ c.members, rs[i]? = some r :=
  List.mem_filterMap

theorem Opens.requests {s : Settings} {i order : Nat} {r : Request} (h : Opens s i r order c)
    (hr : rs[i]? = some r) : c.requests rs = [r] := by
  simp [Candidate.requests, h.members, hr]

theorem requests_absorb : (c.absorb d).requests rs = c.requests rs ++ d.requests rs := by
  simp [Candidate.requests, Candidate.absorb, List.filterMap_append]

theorem Opens.serves {s : Settings} {i order : Nat} {r : Request} (h : Opens s i r order c)
    (hr : rs[i]? = some r) (hs : r.isSchedulable s.catalog = true) : Serves s.catalog rs c where
  members_ne_nil := by simp [h.members]
  schedulable := by
    intro j hj
    rw [h.members, List.mem_singleton] at hj
    subst hj
    exact ⟨r, hr, hs⟩
  events_eq := by
    rw [h.requests hr, List.map_singleton, ReportEvents.unionAll_singleton, h.events]
  channels_pos := by
    simp only [Request.isSchedulable, Bool.and_eq_true, Bool.not_eq_true',
      List.isEmpty_eq_false_iff_exists_mem] at hs
    obtain ⟨f, hf⟩ := hs.2
    rw [h.channels]
    exact ChannelSet.size_pos_iff.2 ⟨f, ChannelSet.mem_ofScope.2 hf⟩
  wanted := by
    intro f hf
    rw [h.channels] at hf
    rw [h.requests hr]
    exact ⟨r, List.mem_singleton_self r, ChannelSet.mem_ofScope.1 hf⟩
  fixed := by
    intro hb
    rw [h.requests hr]
    refine ⟨r, List.mem_singleton_self r, ?_⟩
    rw [h.backoff?] at hb
    split_ifs at hb with he
    simpa using he
  curve := by
    intro curve hb
    rw [h.requests hr]
    rw [h.backoff?] at hb
    split_ifs at hb with he
    cases hb
    exact ⟨by simpa using he, r, List.mem_singleton_self r, rfl⟩

theorem Opens.covers {s : Settings} {i order : Nat} {r : Request} (h : Opens s i r order c)
    (hr : rs[i]? = some r) : Covers s.catalog rs c := by
  intro q hq f hf
  rw [h.requests hr, List.mem_singleton] at hq
  subst hq
  rw [h.channels]
  exact ChannelSet.mem_ofScope.2 hf

theorem backoff?_absorb : (c.absorb d).backoff? = if d.isBackoff then c.backoff? else none := by
  unfold Candidate.absorb Candidate.backoff?
  cases c.cadence with
  | pooled g => simp
  | exact curve => rfl

/-- Members with a fixed period bring the curve of those that take them over to an end. -/
theorem Serves.absorb (hc : Serves catalog rs c) (hd : Serves catalog rs d) :
    Serves catalog rs (c.absorb d) where
  members_ne_nil := by simp [Candidate.absorb, hc.members_ne_nil]
  schedulable := by
    intro j hj
    rcases List.mem_append.1 hj with hj | hj
    · exact hc.schedulable j hj
    · exact hd.schedulable j hj
  events_eq := by
    rw [requests_absorb, List.map_append, ReportEvents.unionAll_append, ← hc.events_eq,
      ← hd.events_eq]
    rfl
  channels_pos := Nat.lt_of_lt_of_le hc.channels_pos (ChannelSet.size_le_size_union _ _)
  wanted := by
    intro f hf
    rw [requests_absorb]
    rcases ChannelSet.mem_union.1 hf with hf | hf
    · obtain ⟨r, hr, hfr⟩ := hc.wanted f hf
      exact ⟨r, List.mem_append_left _ hr, hfr⟩
    · obtain ⟨r, hr, hfr⟩ := hd.wanted f hf
      exact ⟨r, List.mem_append_right _ hr, hfr⟩
  fixed := by
    intro hb
    rw [requests_absorb]
    rw [backoff?_absorb] at hb
    split at hb
    · obtain ⟨r, hr, he⟩ := hc.fixed hb
      exact ⟨r, List.mem_append_left _ hr, he⟩
    · next hnot =>
      rw [Candidate.isBackoff, Option.not_isSome_iff_eq_none] at hnot
      obtain ⟨r, hr, he⟩ := hd.fixed hnot
      exact ⟨r, List.mem_append_right _ hr, he⟩
  curve := by
    intro curve hb
    rw [requests_absorb]
    rw [backoff?_absorb] at hb
    split at hb
    · next hsome =>
      obtain ⟨other, hother⟩ := Option.isSome_iff_exists.1 hsome
      obtain ⟨hall, r, hr, hcurve⟩ := hc.curve curve hb
      refine ⟨fun q hq => ?_, r, List.mem_append_left _ hr, hcurve⟩
      rcases List.mem_append.1 hq with hq | hq
      · exact hall q hq
      · exact (hd.curve other hother).1 q hq
    · cases hb

theorem Serves.dropOldest (hc : Serves catalog rs c) (h : 1 < c.channels.size) :
    Serves catalog rs c.dropOldest where
  members_ne_nil := hc.members_ne_nil
  schedulable := hc.schedulable
  events_eq := hc.events_eq
  channels_pos := by
    rw [size_channels_dropOldest]
    omega
  wanted := fun f hf => hc.wanted f (ChannelSet.mem_of_mem_dropOldest hf)
  fixed := hc.fixed
  curve := hc.curve

theorem Covers.absorb (hc : Covers catalog rs c) (hd : Covers catalog rs d) :
    Covers catalog rs (c.absorb d) := by
  intro r hr f hf
  rw [requests_absorb] at hr
  rcases List.mem_append.1 hr with hr | hr
  · exact ChannelSet.mem_union.2 (Or.inl (hc r hr f hf))
  · exact ChannelSet.mem_union.2 (Or.inr (hd r hr f hf))

/-! ## All candidates -/

theorem serves_of_mem_reduced {s : Settings} (hc : c ∈ reduced s rs) : Serves s.catalog rs c :=
  reduced_forall (P := Serves s.catalog rs) (fun _ _ _ _ hr hs h => h.serves hr hs)
    (fun _ _ => Serves.absorb) c hc

theorem covers_of_mem_reduced {s : Settings} (hc : c ∈ reduced s rs) : Covers s.catalog rs c :=
  reduced_forall (P := Covers s.catalog rs) (fun _ _ _ _ hr _ h => h.covers hr)
    (fun _ _ => Covers.absorb) c hc

theorem serves_of_mem_candidates {s : Settings} (hc : c ∈ candidates s rs) :
    Serves s.catalog rs c :=
  candidates_forall (P := Serves s.catalog rs) (fun _ _ _ _ hr hs h => h.serves hr hs)
    (fun _ _ => Serves.absorb) (fun _ h hc => hc.dropOldest h) c hc

theorem occupied_reduced (s : Settings) (rs : List Request) : Occupied (reduced s rs) :=
  fun _ hc => (serves_of_mem_reduced hc).channels_pos

theorem totalChannels_candidates_le (s : Settings) (rs : List Request) :
    totalChannels (candidates s rs) ≤ s.limits.maxChannels.toNat := by
  rw [candidates, totalChannels_trim _ (occupied_reduced s rs)]
  exact Nat.min_le_right _ _

/-- A total below the limit shows that no channel was given up. -/
theorem candidates_eq_reduced {s : Settings}
    (h : totalChannels (candidates s rs) < s.limits.maxChannels.toNat) :
    candidates s rs = reduced s rs :=
  trim_eq_self (occupied_reduced s rs) h

/-- Nothing is planned only when nothing can be scheduled. -/
theorem candidates_eq_nil_iff {s : Settings} (h : 1 ≤ s.limits.maxChannels.toNat) :
    candidates s rs = [] ↔ ∀ r ∈ rs, r.isSchedulable s.catalog = false := by
  rw [candidates, trim_eq_nil_iff h (occupied_reduced s rs)]
  constructor
  · intro hnil r hr
    obtain ⟨i, hi⟩ := List.mem_iff_getElem?.1 hr
    by_contra hs
    have hmem := mem_memberList_reduced.2 ⟨r, hi, by simpa using hs⟩
    simp [hnil, memberList] at hmem
  · intro hall
    by_contra hne
    obtain ⟨c, hc⟩ := List.exists_mem_of_ne_nil _ hne
    obtain ⟨i, hi⟩ := List.exists_mem_of_ne_nil _ (serves_of_mem_reduced hc).members_ne_nil
    obtain ⟨r, hr, hs⟩ := (serves_of_mem_reduced hc).schedulable i hi
    rw [hall r (List.mem_of_getElem? hr)] at hs
    cases hs

end Plan

end RadioScan
