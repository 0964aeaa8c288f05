import RadioScan.Proofs.Formats
import RadioScan.Proofs.Json.Listing

/-!
# What a text need not say

A request, limits or a configuration is read from every text that lists it: its fields in any order
and with any blanks, among keys that say nothing, and without any fields that have their defaults
(`lenient`). What is left out of a text is so what is left alone in building a request.
-/

namespace RadioScan

/-! ## Building a request -/

/-- A setting of a request that has been made for a scope and a period. -/
inductive Touch
  | backoff (maxPeriod : Millis) (stepCount : UInt32)
  | maxScansToCache (n : UInt32)
  | bssidsPerScan (n : UInt32)
  | events (e : ReportEvents)

namespace Touch

def apply (r : Request) : Touch → Request
  | backoff maxPeriod stepCount => r.withBackoff maxPeriod stepCount
  | maxScansToCache n => r.withMaxScansToCache n
  | bssidsPerScan n => r.withBssidsPerScan n
  | events e => r.withEvents e

/-- The fields that are set, by name. -/
def fields : Touch → List String
  | backoff _ _ => ["max_period_ms", "step_count"]
  | maxScansToCache _ => ["max_scans_to_cache"]
  | bssidsPerScan _ => ["num_bssids_per_scan"]
  | events _ => ["report_events"]

end Touch

/-- A request made for a scope and a period, and then touched. -/
def Request.built (scope : Scope) (period : Millis) (touches : List Touch) : Request :=
  touches.foldl Touch.apply (.ofScope scope period)

namespace Format

open Json (Form Listing Lists States)

/-! ## Listings -/

def requestListing : List (Listing Request) := [
  .needed "scope" (.exact ofScope) Request.scope,
  .needed "period_ms" (.exact ofUInt32) Request.period,
  .defaulted "max_period_ms" (.exact ofUInt32) Request.maxPeriod 0,
  .defaulted "step_count" (.exact ofUInt32) Request.stepCount 0,
  .defaulted "max_scans_to_cache" (.exact ofUInt32) Request.maxScansToCache 0,
  .defaulted "num_bssids_per_scan" (.exact ofUInt32) Request.bssidsPerScan 0,
  .defaulted "report_events" (.exact ofEvents) Request.events .bufferFull]

def limitsListing : List (Listing Limits) := [
  .defaulted "max_buckets" (.exact ofWord) Limits.maxBuckets Limits.standard.maxBuckets,
  .defaulted "max_channels" (.exact ofWord) Limits.maxChannels Limits.standard.maxChannels,
  .defaulted "max_batch" (.exact ofUInt32) Limits.maxBatch Limits.standard.maxBatch,
  .defaulted "max_ap_per_scan" (.exact ofUInt32) Limits.maxApPerScan Limits.standard.maxApPerScan,
  .defaulted "idle_period_ms" (.exact ofUInt32) Limits.idlePeriod Limits.standard.idlePeriod]

def catalogListing : List (Listing Catalog) := [
  .defaulted "band_24_ghz" (.exact ofFrequencies) Catalog.ghz24 [],
  .defaulted "band_5_ghz" (.exact ofFrequencies) Catalog.ghz5 [],
  .defaulted "band_5_ghz_dfs" (.exact ofFrequencies) Catalog.ghz5Dfs []]

def configListing : List (Listing Config) := [
  .defaulted "limits" (.object limitsListing) Config.limits .standard,
  .defaulted "reassign_policy" (.exact ofPolicy) Config.policy .logScale,
  .defaulted "period_table_ms" (Form.exact (ofList ofUInt32)).option Config.periods none,
  .defaulted "catalog" (Form.object catalogListing).option Config.catalog none]

/-! ## Writing and reading them -/

theorem suits_option {α : Type} {form : Form α} {encode : α → Json} {decode : Json.Decoder α}
    (h : form.Suits encode decode) (hnull : ∀ a, ¬form a .null) :
    form.option.Suits (ofOption encode) (Json.optional decode) where
  states_encode a := by
    cases a with
    | none => rfl
    | some a => exact h.states_encode a
  decode_eq a j hj := by
    cases a with
    | none =>
      cases hj
      rfl
    | some a =>
      have hne : j ≠ .null := by
        rintro rfl
        exact hnull a hj
      rw [Json.optional, h.decode_eq a j hj, Except.map]
      exact hne

theorem suits_request : (Form.object requestListing).Suits request.encode request.decode := by
  have hnumber := Json.faithful_uint32.suits
  exact Json.Record.suits (by decide)
    (.cons faithful_scope.suits.needed <| .cons hnumber.needed <|
      .cons (hnumber.defaulted rfl) <| .cons (hnumber.defaulted rfl) <|
      .cons (hnumber.defaulted rfl) <| .cons (hnumber.defaulted rfl) <|
      .cons (faithful_events.suits.defaulted rfl) .nil)
    ⟨by simp [Json.Row.Commute], by simp⟩ (fun _ _ => rfl) rfl

theorem suits_limits : (Form.object limitsListing).Suits limits.encode limits.decode := by
  have hword := Json.faithful_word.suits
  have hnumber := Json.faithful_uint32.suits
  exact Json.Record.suits (by decide)
    (.cons (hword.defaulted rfl) <| .cons (hword.defaulted rfl) <|
      .cons (hnumber.defaulted rfl) <| .cons (hnumber.defaulted rfl) <|
      .cons (hnumber.defaulted rfl) .nil)
    ⟨by simp [Json.Row.Commute], by simp⟩ (fun _ _ => rfl) rfl

theorem suits_catalog : (Form.object catalogListing).Suits catalog.encode catalog.decode := by
  have htable := faithful_frequencies.suits
  exact Json.Record.suits (by decide)
    (.cons (htable.defaulted rfl) <| .cons (htable.defaulted rfl) <|
      .cons (htable.defaulted rfl) .nil)
    ⟨by simp [Json.Row.Commute], by simp⟩ (fun _ _ => rfl) rfl

theorem suits_config : (Form.object configListing).Suits config.encode config.decode := by
  have hperiods := suits_option Json.faithful_uint32.list.suits (by simp [Form.exact])
  have hcatalog := suits_option suits_catalog (by simp [Form.object])
  exact Json.Record.suits (by decide)
    (.cons (suits_limits.defaulted rfl) <| .cons (faithful_policy.suits.defaulted rfl) <|
      .cons (hperiods.defaulted rfl) <| .cons (hcatalog.defaulted rfl) .nil)
    ⟨by simp [Json.Row.Commute], by simp⟩ (fun _ _ => rfl) rfl

/-! ## Requests that were built -/

/-- A field that has its default keeps it when other fields are set. -/
theorem omissible_apply {l : Listing Request} (hl : l ∈ requestListing) {t : Touch}
    (hname : l.name ∉ t.fields) {r : Request} (h : l.omissible r) : l.omissible (t.apply r) := by
  simp only [requestListing, List.mem_cons, List.not_mem_nil, or_false] at hl
  -- the touch leaves the field as it is, or names it
  rcases hl with rfl | rfl | rfl | rfl | rfl | rfl | rfl <;> cases t <;>
    first
    | exact h
    | simp [Listing.defaulted, Touch.fields] at hname

theorem omissible_ofScope {l : Listing Request} (hl : l ∈ requestListing)
    (hname : l.name ∉ ["scope", "period_ms"]) (scope : Scope) (period : Millis) :
    l.omissible (.ofScope scope period) := by
  simp only [requestListing, List.mem_cons, List.not_mem_nil, or_false] at hl
  rcases hl with rfl | rfl | rfl | rfl | rfl | rfl | rfl <;>
    first
    | rfl
    | simp [Listing.needed] at hname

theorem omissible_foldl {l : Listing Request} (hl : l ∈ requestListing) {touches : List Touch}
    (hname : ∀ t ∈ touches, l.name ∉ t.fields) {r : Request} (h : l.omissible r) :
    l.omissible (touches.foldl Touch.apply r) := by
  induction touches generalizing r with
  | nil => exact h
  | cons t touches ih =>
    rw [List.forall_mem_cons] at hname
    exact ih hname.2 (omissible_apply hl hname.1 h)

/-- Members that state a built request list it, if they leave out only what was not touched. -/
theorem lists_built {scope : Scope} {period : Millis} {touches : List Touch}
    {members : List (Option String × Json)}
    (h : States requestListing (.built scope period touches) members)
    (hnames : ∀ name ∈ "scope" :: "period_ms" :: touches.flatMap Touch.fields,
      some name ∈ members.map Prod.fst) :
    Lists requestListing (.built scope period touches) members where
  toStates := h
  omitted l hl hunlisted := by
    have hname : l.name ∉ "scope" :: "period_ms" :: touches.flatMap Touch.fields :=
      fun hmem => hunlisted (hnames l.name hmem)
    simp only [List.mem_cons, List.mem_flatMap, not_or, not_exists, not_and] at hname
    exact omissible_foldl hl hname.2.2 (omissible_ofScope hl (by simp [hname]) scope period)

/-! ## Texts that are read -/

theorem configOfText_of_decodeText {c : Config} {s : String} (hvalid : c.validate = .ok ())
    (h : Json.decodeText config.decode s = .ok c) : configOfText s = .ok c := by
  simp only [configOfText, h, hvalid]

/-- Neither the order of the keys, nor unknown keys, nor the defaults matter in a text. -/
structure Lenient : Prop where
  of_request : ∀ (r : Request) (s : String), (Form.object requestListing).Texts r s →
    Json.decodeText request.decode s = .ok r
  of_limits : ∀ (l : Limits) (s : String), (Form.object limitsListing).Texts l s →
    Json.decodeText limits.decode s = .ok l
  of_config : ∀ (c : Config) (s : String), (Form.object configListing).Texts c s →
    Json.decodeText config.decode s = .ok c
  /-- A valid configuration is taken from each of its texts, -/
  of_valid : ∀ (c : Config) (s : String), c.validate = .ok () →
    (Form.object configListing).Texts c s → configOfText s = .ok c
  /-- and from the one that is written of it. -/
  of_written : ∀ c : Config, c.validate = .ok () →
    configOfText (config.encode c).compact = .ok c
  /-- A request that was built is read from every text that states it and leaves out nothing but
  what was not touched. -/
  of_built : ∀ (scope : Scope) (period : Millis) (touches : List Touch) (s : String)
    (members : List (Option String × Json)), Json.IsText s (.object members) →
    States requestListing (.built scope period touches) members →
    (∀ name ∈ "scope" :: "period_ms" :: touches.flatMap Touch.fields,
      some name ∈ members.map Prod.fst) →
    Json.decodeText request.decode s = .ok (.built scope period touches)

theorem lenient : Lenient where
  of_request _ _ := suits_request.decodeText
  of_limits _ _ := suits_limits.decodeText
  of_config _ _ := suits_config.decodeText
  of_valid _ _ hvalid hs := configOfText_of_decodeText hvalid (suits_config.decodeText hs)
  of_written c hvalid := configOfText_of_decodeText hvalid
    (suits_config.decodeText (suits_config.texts_compact (faithful_config.written c)))
  of_built _ _ _ _ _ htext hstates hnames :=
    suits_request.decodeText ⟨_, ⟨_, rfl, lists_built hstates hnames⟩, htext⟩

theorem lenient_spaced :
    configOfText
        " \x7b \"unit\" : [ \"ms\" ] , \"limits\" : \x7b \"idle_period_ms\" : 1000 \x7d \x7d" =
      .ok ⟨⟨8, 64, 10, 32, 1000⟩, .logScale, none, none⟩ := by
  have hlimits : Lists limitsListing ⟨8, 64, 10, 32, 1000⟩
      [(some "idle_period_ms", ofUInt32 1000)] := by
    refine ⟨⟨by decide, ?_, by decide, by decide⟩, ?_⟩ <;>
      simp [limitsListing, Listing.defaulted, Form.exact, Limits.standard]
  have hconfig : Lists configListing ⟨⟨8, 64, 10, 32, 1000⟩, .logScale, none, none⟩
      [(some "unit", .array [ofString "ms"]),
        (some "limits", .object [(some "idle_period_ms", ofUInt32 1000)])] := by
    refine ⟨⟨by decide, ?_, by decide, by decide⟩, ?_⟩
    · simpa [configListing, Listing.defaulted, Form.object] using hlimits
    · simp [configListing, Listing.defaulted]
  have hblank : ∀ c ∈ [' '], Json.isBlank c := by simp [Json.isBlank]
  have hunit : (Json.array [ofString "ms"]).IsWritten :=
    .array (List.forall_mem_singleton.2 (.text "ms"))
  have hlimit : (Json.object [(some "idle_period_ms", ofUInt32 1000)]).IsWritten :=
    .object (by decide) (List.forall_mem_singleton.2 (Json.isWritten_ofNat 1000))
  refine lenient.of_valid _ _ (by decide) ⟨_, ⟨_, rfl, hconfig⟩, ?_⟩
  have hwritten : Json.IsWritten (.object _) :=
    .object hconfig.keys (List.forall_mem_cons.2 ⟨hunit, List.forall_mem_singleton.2 hlimit⟩)
  exact hwritten.isText hblank (by decide +kernel)

end Format

end RadioScan
