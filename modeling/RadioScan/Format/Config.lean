import RadioScan.Config
import RadioScan.Format.Scan

/-!
# Limits and configurations in JSON

Everything may be left out of a configuration; what is left out keeps its standard.
-/

namespace RadioScan.Format

open Json (Record Field Decoder)

def limits : Record Limits where
  title := "struct SchedulerLimits"
  blank := .standard
  fields := [
    .defaulted "max_buckets" ofWord Json.word Limits.maxBuckets
      fun v l => { l with maxBuckets := v },
    .defaulted "max_channels" ofWord Json.word Limits.maxChannels
      fun v l => { l with maxChannels := v },
    .defaulted "max_batch" ofUInt32 Json.uint32 Limits.maxBatch fun v l => { l with maxBatch := v },
    .defaulted "max_ap_per_scan" ofUInt32 Json.uint32 Limits.maxApPerScan
      fun v l => { l with maxApPerScan := v },
    .defaulted "idle_period_ms" ofUInt32 Json.uint32 Limits.idlePeriod
      fun v l => { l with idlePeriod := v }]

def ofPolicy : Policy → Json
  | .logScale => ofString "LogScale"
  | .absolute => ofString "Absolute"

def policy : Decoder Policy :=
  Json.choice [⟨"LogScale", .unit .logScale⟩, ⟨"Absolute", .unit .absolute⟩]

def catalog : Record Catalog where
  title := "struct CatalogConfig"
  blank := ⟨[], [], []⟩
  fields := [
    .defaulted "band_24_ghz" ofFrequencies frequencies Catalog.ghz24
      fun v c => { c with ghz24 := v },
    .defaulted "band_5_ghz" ofFrequencies frequencies Catalog.ghz5 fun v c => { c with ghz5 := v },
    .defaulted "band_5_ghz_dfs" ofFrequencies frequencies Catalog.ghz5Dfs
      fun v c => { c with ghz5Dfs := v }]

def config : Record Config where
  title := "struct SchedulerConfig"
  blank := .standard
  fields := [
    .defaulted "limits" limits.encode limits.decode Config.limits fun v c => { c with limits := v },
    .defaulted "reassign_policy" ofPolicy policy Config.policy fun v c => { c with policy := v },
    .defaulted "period_table_ms" (ofOption (ofList ofUInt32))
      (Json.optional (Json.list Json.uint32)) Config.periods fun v c => { c with periods := v },
    .defaulted "catalog" (ofOption catalog.encode) (Json.optional catalog.decode) Config.catalog
      fun v c => { c with catalog := v }]

/-- Why a text is not a valid configuration. -/
inductive ConfigTextError
  | json (fault : Json.Fault)
  | invalid (e : ConfigError)
deriving DecidableEq

def ConfigTextError.message (n : Json.Notice) : ConfigTextError → String
  | json fault => "invalid config JSON: " ++ fault.report n
  | invalid e => e.message

/-- Reads a configuration and validates it. -/
def configOfText (s : String) : Except ConfigTextError Config :=
  match Json.decodeText config.decode s with
  | .error fault => .error (.json fault)
  | .ok c =>
    match c.validate with
    | .error e => .error (.invalid e)
    | .ok _ => .ok c

end RadioScan.Format
