import RadioScan.Proofs.Members
import RadioScan.Proofs.Mergers

/-!
# Pooling is first fit

A candidate of the pool either serves one request that backs off or shares its period and its group
with all of its members (`Formed`), and every candidate that was there earlier had been passed over:
as it was then, it did not take the request (`PassedOver`). Placing a request keeps both
(`wellPlaced_pool`), and from them it follows who shares a candidate with whom (`pool_compatible`).
-/

namespace RadioScan.Plan

variable {s : Settings} {rs : List Request} {c d : Candidate} {n : Nat} {r : Request}

/-- What some requests want scanned: each frequency once, where it comes first. -/
def wantedBy (catalog : Catalog) (rs : List Request) : ChannelSet :=
  .ofList (rs.flatMap fun r => catalog.expand r.scope)

/-- The members that a candidate had before the request with number `i` found its place. -/
def Candidate.membersBefore (c : Candidate) (i : Nat) : List Nat := c.members.filter (· < i)

/-- The requests that a candidate served before that with number `i` found its place. -/
def Candidate.requestsBefore (c : Candidate) (rs : List Request) (i : Nat) : List Request :=
  (c.membersBefore i).filterMap (rs[·]?)

/-- A candidate of its own for the request with number `i`. -/
structure ServesAlone (c : Candidate) (i : Nat) (r : Request) : Prop where
  members_eq : c.members = [i]
  period_eq : c.period = r.period
  cadence_eq : c.cadence = .exact (some ⟨r.maxPeriod, r.stepCount⟩)

/-- A candidate of the table's period for some requests, all for one band or all for lists. -/
structure ServesTogether (periods : PeriodTable) (c : Candidate) (qs : List Request) : Prop where
  period_eq : ∀ r ∈ qs, periods.nearest r.period = c.period
  group : (∃ b, c.cadence = .pooled (.band b) ∧ ∀ r ∈ qs, r.scope = .band b) ∨
    (c.cadence = .pooled .channels ∧ ∀ r ∈ qs, ∃ fs, r.scope = .channels fs)

/-- Every request that can be scheduled has joined the first candidate that could take it, or opened
one. -/
structure Compatible (s : Settings) (rs : List Request) (cs : List Candidate) : Prop where
  one_home : ∀ i r, rs[i]? = some r → r.isSchedulable s.catalog = true →
    ∃! k : Fin cs.length, i ∈ (cs.get k).members
  schedulable : ∀ c ∈ cs, ∀ i ∈ c.members,
    ∃ r, rs[i]? = some r ∧ r.isSchedulable s.catalog = true
  ascending : ∀ c ∈ cs, c.members.Pairwise (· < ·)
  alone : ∀ c ∈ cs, ∀ i ∈ c.members, ∀ r, rs[i]? = some r → r.isExponential = true →
    ServesAlone c i r
  together : ∀ c ∈ cs, (∀ r ∈ c.requests rs, r.isExponential = false) →
    ServesTogether s.periods c (c.requests rs)
  bands_share : ∀ i j q r b, rs[i]? = some q → rs[j]? = some r →
    q.isSchedulable s.catalog = true → r.isSchedulable s.catalog = true →
    q.isExponential = false → r.isExponential = false →
    q.scope = .band b → r.scope = .band b →
    s.periods.nearest q.period = s.periods.nearest r.period →
    ∃ c ∈ cs, i ∈ c.members ∧ j ∈ c.members
  lists_fit : ∀ c ∈ cs, c.cadence = .pooled .channels → 2 ≤ c.members.length →
    c.channels.size ≤ s.limits.maxChannels.toNat
  /-- An earlier candidate could not have taken any list that a later one of its period has. -/
  first_fit : cs.Pairwise fun d c => d.cadence = .pooled .channels → c.cadence = .pooled .channels →
    d.period = c.period → ∀ i ∈ c.members, ∀ r, rs[i]? = some r →
      s.limits.maxChannels.toNat < (wantedBy s.catalog (d.requestsBefore rs i ++ [r])).size
  channels_eq : ∀ c ∈ cs, c.channels = wantedBy s.catalog (c.requests rs)

/-! ## One candidate -/

theorem wantedBy_append_singleton (catalog : Catalog) (rs : List Request) (r : Request) :
    wantedBy catalog (rs ++ [r]) = (wantedBy catalog rs).union (.ofScope catalog r.scope) := by
  rw [wantedBy, List.flatMap_append, ChannelSet.ofList_append, List.flatMap_singleton,
    ← ChannelSet.ofScope_eq_ofList]
  rfl

/-- A request is taken by candidates of its period and its group, lists only as long as the channel
limit allows. -/
theorem takes_iff : takes s r c = true ↔ c.period = s.periods.nearest r.period ∧
    c.cadence = .pooled (groupOf r.scope) ∧ (groupOf r.scope = .channels →
      (c.channels.union (.ofScope s.catalog r.scope)).size ≤ s.limits.maxChannels.toNat) := by
  unfold takes accepts
  rw [Bool.and_eq_true, beq_iff_eq]
  refine and_congr_right fun _ => ?_
  cases c.cadence with
  | exact curve => simp
  | pooled g => cases g <;> cases groupOf r.scope <;> simp [ChannelSet.unionSize_eq]

/-- A candidate as it was before the request with number `i` found its place. -/
def Candidate.before (c : Candidate) (catalog : Catalog) (rs : List Request) (i : Nat) :
    Candidate :=
  { c with
    members := c.membersBefore i
    channels := wantedBy catalog (c.requestsBefore rs i) }

/-- A candidate that some of the first requests have made. -/
structure Formed (s : Settings) (rs : List Request) (n : Nat) (c : Candidate) : Prop where
  members_ne_nil : c.members ≠ []
  lt : ∀ i ∈ c.members, i < n
  ascending : c.members.Pairwise (· < ·)
  channels_eq : c.channels = wantedBy s.catalog (c.requests rs)
  alone : ∀ i ∈ c.members, ∀ r, rs[i]? = some r → r.isExponential = true → ServesAlone c i r
  shared : ∀ i ∈ c.members, ∀ r, rs[i]? = some r → r.isExponential = false →
    s.periods.nearest r.period = c.period ∧ c.cadence = .pooled (groupOf r.scope)
  lists_fit : c.cadence = .pooled .channels → 2 ≤ c.members.length →
    c.channels.size ≤ s.limits.maxChannels.toNat

theorem Opens.eq_of_mem {i : Nat} {q : Request} (h : Opens s n r order c) (hr : rs[n]? = some r)
    (hi : i ∈ c.members) (hq : rs[i]? = some q) : i = n ∧ q = r := by
  rw [h.members, List.mem_singleton] at hi
  subst hi
  exact ⟨rfl, Option.some.inj (hq.symm.trans hr)⟩

theorem Opens.formed (h : Opens s n r order c) (hr : rs[n]? = some r) :
    Formed s rs (n + 1) c where
  members_ne_nil := by simp [h.members]
  lt := by simp [h.members]
  ascending := by simp [h.members]
  channels_eq := by
    rw [h.channels, h.requests hr, ChannelSet.ofScope_eq_ofList, wantedBy, List.flatMap_singleton]
  alone := by
    intro i hi q hq hexp
    obtain ⟨rfl, rfl⟩ := h.eq_of_mem hr hi hq
    cases h with
    | alone _ => exact ⟨rfl, rfl, rfl⟩
    | shared he => exact absurd hexp (ne_true_of_eq_false he)
  shared := by
    intro i hi q hq hfixed
    obtain ⟨rfl, rfl⟩ := h.eq_of_mem hr hi hq
    cases h with
    | alone he => exact absurd he (ne_true_of_eq_false hfixed)
    | shared _ => exact ⟨rfl, rfl⟩
  lists_fit := by simp [h.members]

theorem mem_or_eq_of_mem_join {i : Nat} {q : Request} {events : ReportEvents}
    {channels : ChannelSet} (hr : rs[n]? = some r) (hi : i ∈ (c.join n events channels).members)
    (hq : rs[i]? = some q) : i ∈ c.members ∨ i = n ∧ q = r := by
  rcases List.mem_append.1 hi with hi | hi
  · exact Or.inl hi
  · rw [List.mem_singleton] at hi
    subst hi
    exact Or.inr ⟨rfl, Option.some.inj (hq.symm.trans hr)⟩

theorem requests_join {events : ReportEvents} {channels : ChannelSet} (hr : rs[n]? = some r) :
    (c.join n events channels).requests rs = c.requests rs ++ [r] := by
  simp [Candidate.requests, Candidate.join, List.filterMap_append, hr]

namespace Formed

theorem succ (h : Formed s rs n c) : Formed s rs (n + 1) c :=
  ⟨h.members_ne_nil, fun i hi => Nat.lt_succ_of_lt (h.lt i hi), h.ascending, h.channels_eq,
    h.alone, h.shared, h.lists_fit⟩

theorem join (h : Formed s rs n c) (hr : rs[n]? = some r) (he : r.isExponential = false)
    (htakes : takes s r c = true) :
    Formed s rs (n + 1) (c.join n r.events (.ofScope s.catalog r.scope)) := by
  obtain ⟨hperiod, hcadence, hsize⟩ := takes_iff.1 htakes
  constructor
  case members_ne_nil => simp [Candidate.join]
  case lt =>
    intro i hi
    rcases List.mem_append.1 hi with hi | hi
    · exact Nat.lt_succ_of_lt (h.lt i hi)
    · rw [List.mem_singleton.1 hi]
      exact Nat.lt_succ_self n
  case ascending =>
    refine List.pairwise_append.2 ⟨h.ascending, List.pairwise_singleton _ _, fun i hi j hj => ?_⟩
    rw [List.mem_singleton.1 hj]
    exact h.lt i hi
  case channels_eq =>
    rw [requests_join hr, wantedBy_append_singleton, ← h.channels_eq]
    rfl
  case alone =>
    intro i hi q hq hexp
    rcases mem_or_eq_of_mem_join hr hi hq with hi | ⟨rfl, rfl⟩
    · have halone := (h.alone i hi q hq hexp).cadence_eq
      rw [hcadence] at halone
      cases halone
    · exact absurd hexp (ne_true_of_eq_false he)
  case shared =>
    intro i hi q hq hfixed
    rcases mem_or_eq_of_mem_join hr hi hq with hi | ⟨rfl, rfl⟩
    · exact h.shared i hi q hq hfixed
    · exact ⟨hperiod.symm, hcadence⟩
  case lists_fit =>
    intro hlists _
    refine hsize ?_
    rw [show c.cadence = .pooled .channels from hlists] at hcadence
    injection hcadence with hgroup
    exact hgroup.symm

/-- Before the next request a candidate is what it is. -/
theorem before_eq (h : Formed s rs n c) : c.before s.catalog rs n = c := by
  have hmembers : c.membersBefore n = c.members :=
    List.filter_eq_self.2 fun i hi => by simpa using h.lt i hi
  rw [Candidate.before, Candidate.requestsBefore, hmembers, ← Candidate.requests, ← h.channels_eq]

end Formed

/-! ## The pool -/

/-- When its requests were placed, a later candidate was not needed for lack of an earlier one that
would have taken them, but because that one did not. -/
def PassedOver (s : Settings) (rs : List Request) (d c : Candidate) : Prop :=
  ∀ i ∈ c.members, ∀ r, rs[i]? = some r → r.isExponential = false →
    takes s r (d.before s.catalog rs i) = false

/-- What a candidate takes on later does not change what it was before. -/
theorem takes_before_join {i : Nat} {q : Request} {events : ReportEvents} {channels : ChannelSet}
    (hi : i < n) : takes s q ((c.join n events channels).before s.catalog rs i)
      = takes s q (c.before s.catalog rs i) := by
  have hmembers : (c.join n events channels).membersBefore i = c.membersBefore i := by
    simp [Candidate.membersBefore, Candidate.join, List.filter_append, Nat.le_of_lt hi]
  rw [Bool.eq_iff_iff, takes_iff, takes_iff, Candidate.before, Candidate.before,
    Candidate.requestsBefore, Candidate.requestsBefore, hmembers]
  rfl

/-- What the candidates of a pool are, and why a request is with one and not with another. -/
structure WellPlaced (s : Settings) (rs : List Request) (n : Nat) (cs : List Candidate) : Prop where
  formed : ∀ c ∈ cs, Formed s rs n c
  passedOver : cs.Pairwise (PassedOver s rs)

theorem WellPlaced.opened {cs : List Candidate} {new : Candidate} (h : WellPlaced s rs n cs)
    (hr : rs[n]? = some r) (hnew : Opens s n r cs.length new)
    (hnone : r.isExponential = false → ∀ c ∈ cs, takes s r c = false) :
    WellPlaced s rs (n + 1) (cs ++ [new]) where
  formed := by
    refine List.forall_mem_append.2 ⟨fun c hc => (h.formed c hc).succ, fun c hc => ?_⟩
    rw [List.mem_singleton.1 hc]
    exact hnew.formed hr
  passedOver := by
    refine List.pairwise_append.2 ⟨h.passedOver, List.pairwise_singleton _ _, ?_⟩
    intro d hd c hc i hi q hq he
    rw [List.mem_singleton.1 hc] at hi
    obtain ⟨rfl, rfl⟩ := hnew.eq_of_mem hr hi hq
    rw [(h.formed d hd).before_eq]
    exact hnone he d hd

theorem WellPlaced.joined {l₁ l₂ : List Candidate} (h : WellPlaced s rs n (l₁ ++ c :: l₂))
    (hr : rs[n]? = some r) (he : r.isExponential = false)
    (hfirst : ∀ d ∈ l₁, takes s r d = false) (hc : takes s r c = true) :
    WellPlaced s rs (n + 1) (l₁ ++ c.join n r.events (.ofScope s.catalog r.scope) :: l₂) := by
  obtain ⟨hformed₁, hformed⟩ := List.forall_mem_append.1 h.formed
  obtain ⟨hformed, hformed₂⟩ := List.forall_mem_cons.1 hformed
  obtain ⟨hpass₁, hpass, hcross⟩ := List.pairwise_append.1 h.passedOver
  obtain ⟨hpass, hpass₂⟩ := List.pairwise_cons.1 hpass
  constructor
  case formed =>
    exact List.forall_mem_append.2 ⟨fun d hd => (hformed₁ d hd).succ,
      List.forall_mem_cons.2 ⟨hformed.join hr he hc, fun d hd => (hformed₂ d hd).succ⟩⟩
  case passedOver =>
    refine List.pairwise_append.2 ⟨hpass₁, List.pairwise_cons.2 ⟨fun e hle => ?_, hpass₂⟩, ?_⟩
    · -- the later ones have older members only
      intro i hi q hq hfixed
      rw [takes_before_join ((hformed₂ e hle).lt i hi)]
      exact hpass e hle i hi q hq hfixed
    · intro d hd
      refine List.forall_mem_cons.2 ⟨fun i hi q hq hfixed => ?_, fun e hle => ?_⟩
      · rcases mem_or_eq_of_mem_join hr hi hq with hi | ⟨rfl, rfl⟩
        · exact hcross d hd c List.mem_cons_self i hi q hq hfixed
        · rw [(hformed₁ d hd).before_eq]
          exact hfirst d hd
      · exact hcross d hd e (List.mem_cons_of_mem _ hle)

theorem wellPlaced_pool (s : Settings) (rs : List Request) :
    WellPlaced s rs rs.length (pool s rs) := by
  refine pool_induction (P := WellPlaced s rs) ⟨by simp, List.Pairwise.nil⟩ ?_
  intro n r cs cs' hr hplaced h
  cases hplaced with
  | ignored _ => exact ⟨fun c hc => (h.formed c hc).succ, h.passedOver⟩
  | opened _ hnew hnone => exact h.opened hr hnew hnone
  | joined _ he hfirst hc => exact h.joined hr he hfirst hc

/-! ## Who shares with whom -/

theorem groupOf_eq_band_iff {scope : Scope} {b : Band} :
    groupOf scope = .band b ↔ scope = .band b := by
  cases scope <;> simp [groupOf]

theorem groupOf_eq_channels_iff {scope : Scope} :
    groupOf scope = .channels ↔ ∃ fs, scope = .channels fs := by
  cases scope <;> simp [groupOf]

theorem Formed.servesTogether (h : Formed s rs n c)
    (hsched : ∀ i ∈ c.members, ∃ r, rs[i]? = some r ∧ r.isSchedulable s.catalog = true)
    (hfixed : ∀ r ∈ c.requests rs, r.isExponential = false) :
    ServesTogether s.periods c (c.requests rs) := by
  have hshared : ∀ r ∈ c.requests rs,
      s.periods.nearest r.period = c.period ∧ c.cadence = .pooled (groupOf r.scope) := by
    intro r hr
    obtain ⟨i, hi, hget⟩ := mem_requests.1 hr
    exact h.shared i hi r hget (hfixed r hr)
  obtain ⟨i, hi⟩ := List.exists_mem_of_ne_nil _ h.members_ne_nil
  obtain ⟨r, hr, -⟩ := hsched i hi
  have hcadence := (hshared r (mem_requests.2 ⟨i, hi, hr⟩)).2
  have hgroup : ∀ q ∈ c.requests rs, groupOf q.scope = groupOf r.scope := by
    intro q hq
    have heq := (hshared q hq).2.symm.trans hcadence
    injection heq
  refine ⟨fun q hq => (hshared q hq).1, ?_⟩
  cases hscope : groupOf r.scope with
  | band b =>
    rw [hscope] at hcadence hgroup
    exact Or.inl ⟨b, hcadence, fun q hq => groupOf_eq_band_iff.1 (hgroup q hq)⟩
  | channels =>
    rw [hscope] at hcadence hgroup
    exact Or.inr ⟨hcadence, fun q hq => groupOf_eq_channels_iff.1 (hgroup q hq)⟩

/-- Of two candidates for requests that both take, the earlier one has not been passed over. -/
theorem not_passedOver_of_band {i j : Nat} {q r : Request} {b : Band}
    (hd : Formed s rs n d) (hi : i ∈ d.members) (hj : j ∈ c.members) (hq : rs[i]? = some q)
    (hr : rs[j]? = some r) (hqfixed : q.isExponential = false) (hrfixed : r.isExponential = false)
    (hqscope : q.scope = .band b) (hrscope : r.scope = .band b)
    (hperiod : s.periods.nearest q.period = s.periods.nearest r.period) :
    ¬ PassedOver s rs d c := by
  intro hpass
  have htakes := hpass j hj r hr hrfixed
  obtain ⟨hdperiod, hdcadence⟩ := hd.shared i hi q hq hqfixed
  rw [← Bool.not_eq_true, takes_iff] at htakes
  refine htakes ⟨hdperiod.symm.trans hperiod, ?_, ?_⟩
  · rw [hrscope, ← hqscope]
    exact hdcadence
  · rw [hrscope]
    exact fun h => by cases h

/-- There is one candidate for all requests of a band with the same period. -/
theorem WellPlaced.eq_of_band {cs : List Candidate} {i j : Nat} {q r : Request} {b : Band}
    (h : WellPlaced s rs n cs) (hd : d ∈ cs) (hc : c ∈ cs) (hi : i ∈ d.members) (hj : j ∈ c.members)
    (hq : rs[i]? = some q) (hr : rs[j]? = some r) (hqfixed : q.isExponential = false)
    (hrfixed : r.isExponential = false) (hqscope : q.scope = .band b) (hrscope : r.scope = .band b)
    (hperiod : s.periods.nearest q.period = s.periods.nearest r.period) : d = c := by
  obtain ⟨k, hk, rfl⟩ := List.getElem_of_mem hd
  obtain ⟨l, hl, rfl⟩ := List.getElem_of_mem hc
  have hpass := List.pairwise_iff_getElem.1 h.passedOver
  rcases Nat.lt_trichotomy k l with hlt | rfl | hlt
  · exact absurd (hpass k l hk hl hlt) (not_passedOver_of_band (h.formed _ hd) hi hj hq hr
      hqfixed hrfixed hqscope hrscope hperiod)
  · rfl
  · exact absurd (hpass l k hl hk hlt) (not_passedOver_of_band (h.formed _ hc) hj hi hr hq
      hrfixed hqfixed hrscope hqscope hperiod.symm)

/-- A candidate for lists that has been passed over had no room for the list. -/
theorem PassedOver.lt_size {i : Nat} {r : Request} (hpass : PassedOver s rs d c)
    (hformed : Formed s rs n c) (hdlists : d.cadence = .pooled .channels)
    (hclists : c.cadence = .pooled .channels) (hperiod : d.period = c.period)
    (hi : i ∈ c.members) (hr : rs[i]? = some r) :
    s.limits.maxChannels.toNat < (wantedBy s.catalog (d.requestsBefore rs i ++ [r])).size := by
  have hfixed : r.isExponential = false := by
    refine eq_false_of_ne_true fun hexp => ?_
    have halone := (hformed.alone i hi r hr hexp).cadence_eq
    rw [hclists] at halone
    cases halone
  obtain ⟨hnearest, hcadence⟩ := hformed.shared i hi r hr hfixed
  have hnot := hpass i hi r hr hfixed
  rw [← Bool.not_eq_true, takes_iff] at hnot
  rw [wantedBy_append_singleton, ← Nat.not_le]
  intro hle
  refine hnot ⟨hperiod.trans hnearest.symm, ?_, fun _ => hle⟩
  rw [← hcadence, hclists]
  exact hdlists

theorem pool_compatible (s : Settings) (rs : List Request) : Compatible s rs (pool s rs) := by
  have h := wellPlaced_pool s rs
  constructor
  case one_home =>
    intro i r hr hs
    exact existsUnique_home nodup_memberList_pool (mem_memberList_pool.2 ⟨r, hr, hs⟩)
  case schedulable =>
    intro c hc i hi
    exact mem_memberList_pool.1 (List.mem_flatMap.2 ⟨c, hc, hi⟩)
  case ascending => exact fun c hc => (h.formed c hc).ascending
  case alone => exact fun c hc => (h.formed c hc).alone
  case together =>
    intro c hc hfixed
    refine (h.formed c hc).servesTogether (fun i hi => ?_) hfixed
    exact mem_memberList_pool.1 (List.mem_flatMap.2 ⟨c, hc, hi⟩)
  case bands_share =>
    intro i j q r b hq hr hqs hrs hqfixed hrfixed hqscope hrscope hperiod
    obtain ⟨d, hd, hi⟩ := List.mem_flatMap.1 (mem_memberList_pool.2 ⟨q, hq, hqs⟩)
    obtain ⟨c, hc, hj⟩ := List.mem_flatMap.1 (mem_memberList_pool.2 ⟨r, hr, hrs⟩)
    obtain rfl := h.eq_of_band hd hc hi hj hq hr hqfixed hrfixed hqscope hrscope hperiod
    exact ⟨d, hd, hi, hj⟩
  case lists_fit => exact fun c hc => (h.formed c hc).lists_fit
  case first_fit =>
    refine h.passedOver.imp_of_mem ?_
    intro d c _ hc hpass hdlists hclists hperiod i hi r hr
    exact hpass.lt_size (h.formed c hc) hdlists hclists hperiod hi hr
  case channels_eq => exact fun c hc => (h.formed c hc).channels_eq

end RadioScan.Plan
