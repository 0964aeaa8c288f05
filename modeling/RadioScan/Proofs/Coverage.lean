import RadioScan.Proofs.Placement

/-!
# What the buckets scan, and for whom

A request that cannot be scheduled gets no bucket. A bucket delivers what the requests placed in it
ask for together, and scans nothing that none of them wants. As long as a schedule has fewer
channels than it may have, nothing was given up for it: every request that can be scheduled has a
bucket, and that bucket scans all of its channels (`covering_update`).
-/

namespace RadioScan

namespace Scheduler

open Plan

/-- What a scheduler that was just updated owes to the requests. -/
structure Covering (s : Scheduler) (catalog : Catalog) (requests : List Request) : Prop where
  unplaced : ∀ (i : Nat) (r : Request), requests[i]? = some r → r.isSchedulable catalog = false →
    s.bucketIndex? i = none
  events_eq : ∀ (k : Nat) (b : Bucket), s.schedule.buckets.toList[k]? = some b →
    b.events = .unionAll ((s.served requests k).map Request.events)
  wanted : ∀ (k : Nat) (b : Bucket), s.schedule.buckets.toList[k]? = some b →
    ∀ f ∈ b.frequencies catalog, ∃ r ∈ s.served requests k, f ∈ catalog.expand r.scope
  complete : s.schedule.totalChannels catalog < s.limits.maxChannels.toNat →
    ∀ (i : Nat) (r : Request), requests[i]? = some r → r.isSchedulable catalog = true →
      ∃ b, s.bucket? i = some b ∧ ∀ f ∈ catalog.expand r.scope, f ∈ b.frequencies catalog

variable {s : Scheduler} {rs : List Request} {r : Request} {b : Bucket} {i k : Nat}

theorem events_update (h : s.limits.InRange)
    (hb : (s.update rs).schedule.buckets.toList[k]? = some b) :
    b.events = .unionAll (((s.update rs).served rs k).map Request.events) := by
  obtain ⟨c, hserves, rfl, hperm⟩ := exists_candidate_of_bucket h hb
  rw [ReportEvents.unionAll_perm (hperm.map _)]
  exact hserves.events_eq

theorem wanted_update (h : s.limits.InRange) (hn : s.settings.catalog.frequencies.Nodup)
    (hb : (s.update rs).schedule.buckets.toList[k]? = some b) :
    ∀ f ∈ b.frequencies s.settings.catalog,
      ∃ r ∈ (s.update rs).served rs k, f ∈ s.settings.catalog.expand r.scope := by
  obtain ⟨c, hserves, rfl, hperm⟩ := exists_candidate_of_bucket h hb
  intro f hf
  have hmem : f ∈ c.channels := (ChannelSet.mem_expand_toScope hn).1 hf
  obtain ⟨r, hr, hfr⟩ := hserves.wanted f hmem
  exact ⟨r, hperm.mem_iff.2 hr, hfr⟩

/-- Candidates from which nothing was trimmed serve every request, and serve it in full. -/
theorem exists_covering_candidate (hred : candidates s.settings rs = reduced s.settings rs)
    (hr : rs[i]? = some r) (hs : r.isSchedulable s.settings.catalog = true) :
    ∃ c ∈ arranged s.settings rs, i ∈ c.members ∧
      ∀ f ∈ s.settings.catalog.expand r.scope, f ∈ c.channels := by
  obtain ⟨c, hc, hi⟩ := List.mem_flatMap.1 (mem_memberList_reduced.2 ⟨r, hr, hs⟩)
  have hcovers := covers_of_mem_reduced hc r (mem_requests.2 ⟨i, hi, hr⟩)
  rw [← hred] at hc
  refine ⟨alignTo (baseFor s.settings rs) c, ?_, ?_, ?_⟩
  · exact arranged_perm.mem_iff.2 (List.mem_map_of_mem hc)
  · rwa [alignTo_members]
  · rwa [alignTo_channels]

theorem complete_update (h : s.limits.InRange) (hn : s.settings.catalog.frequencies.Nodup)
    (hlt : (s.update rs).schedule.totalChannels s.settings.catalog < s.limits.maxChannels.toNat)
    (hr : rs[i]? = some r) (hs : r.isSchedulable s.settings.catalog = true) :
    ∃ b, (s.update rs).bucket? i = some b ∧
      ∀ f ∈ s.settings.catalog.expand r.scope, f ∈ b.frequencies s.settings.catalog := by
  rw [totalChannels_update h] at hlt
  obtain ⟨c, hc, hi, hchannels⟩ := exists_covering_candidate (candidates_eq_reduced hlt) hr hs
  obtain ⟨k, hk⟩ := List.mem_iff_getElem?.1 hc
  have hplaced : (s.update rs).bucketIndex? i = some k := bucketIndex?_update.2 ⟨c, hk, hi⟩
  refine ⟨toBucket s.settings.catalog c, ?_, ?_⟩
  · rw [bucket?, hplaced]
    exact (getElem?_buckets_update h).2 ⟨c, hk, rfl⟩
  · intro f hf
    exact (ChannelSet.mem_expand_toScope hn).2 (hchannels f hf)

theorem covering_update {config : Config} {catalog : Catalog}
    (h : config.channelCatalog = .ok catalog) (ops : List Operation) (requests : List Request) :
    (((ofCatalog catalog).run ops).update requests).Covering catalog requests := by
  have hn := Config.nodup_of_channelCatalog h
  have hrange := inRange_run catalog ops
  have hcatalog := catalog_run catalog ops
  generalize (ofCatalog catalog).run ops = s at hrange hcatalog
  subst hcatalog
  exact {
    unplaced := fun _ _ => unplaced_update
    events_eq := fun _ _ => events_update hrange
    wanted := fun _ _ => wanted_update hrange hn
    complete := fun hlt _ _ => complete_update hrange hn hlt }

theorem covering_update_two_bands :
    Config.channelCatalog ⟨.standard, .standard, none, some ⟨[2412, 2417], [5180], []⟩⟩
        = .ok ⟨[2412, 2417], [5180], []⟩ ∧
      (((ofCatalog ⟨[2412, 2417], [5180], []⟩).run [.setMaxBuckets 1, .setMaxChannels 4]).update
        [.ofScope (.channels [2417, 5180]) 15000, .ofScope (.band .unspecified) 60000]).Covering
          ⟨[2412, 2417], [5180], []⟩
          [.ofScope (.channels [2417, 5180]) 15000, .ofScope (.band .unspecified) 60000] :=
  ⟨rfl, covering_update
    (show Config.channelCatalog ⟨.standard, .standard, none, some ⟨[2412, 2417], [5180], []⟩⟩ = _
      from rfl) _ _⟩

end Scheduler

end RadioScan
