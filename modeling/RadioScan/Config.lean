import RadioScan.Settings

/-!
# Configuration

A configuration gives limits and a policy and may replace the period table and the channel catalog.
It is taken over only as a whole: the first part that is invalid, limits before table before
catalog, is the error.
-/

namespace RadioScan

/-- What makes channel tables unfit as a catalog. -/
inductive CatalogError
  | allEmpty
  | zeroFrequency
  | repeated (f : Frequency)
  | tooMany (count : Nat)
deriving DecidableEq

namespace CatalogError

def message : CatalogError → String
  | allEmpty => "all band tables are empty"
  | zeroFrequency => "frequency 0 is not a channel"
  | repeated f => s!"frequency {f} listed more than once"
  | tooMany count =>
    s!"{count} channels exceed the hardware list of {Hardware.maxChannels}"

end CatalogError

/-- The first frequency that is zero or has been seen before. -/
def Catalog.firstFault (seen : List Frequency) : List Frequency → Option CatalogError
  | [] => none
  | f :: fs =>
    if f = 0 then some .zeroFrequency
    else if f ∈ seen then some (.repeated f)
    else Catalog.firstFault (f :: seen) fs

/-- What is wrong with a catalog, if anything. One sub-band may be empty, but not all of them. -/
def Catalog.fault? (c : Catalog) : Option CatalogError :=
  if c.frequencies = [] then some .allEmpty
  else match Catalog.firstFault [] c.frequencies with
    | some e => some e
    | none =>
      if Hardware.maxChannels < c.frequencies.length then some (.tooMany c.frequencies.length)
      else none

/-- Limits, policy, and what replaces the standard table and catalog. -/
structure Config where
  limits : Limits
  policy : Policy
  periods : Option (List Millis)
  catalog : Option Catalog
deriving DecidableEq

/-- What makes a configuration invalid. -/
inductive ConfigError
  | limit (e : LimitError)
  | periods (e : PeriodTableError)
  | catalog (e : CatalogError)
deriving DecidableEq

def ConfigError.message : ConfigError → String
  | limit e => e.message
  | periods e => s!"invalid period table: {e.message}"
  | catalog e => s!"invalid channel catalog: {e.message}"

namespace Config

def standard : Config := ⟨.standard, .standard, none, none⟩

/-- The period table of a configuration. -/
def periodTable (c : Config) : Except ConfigError PeriodTable :=
  match c.periods with
  | none => .ok .standard
  | some ps =>
    match PeriodTable.ofEntries? ps with
    | .ok t => .ok t
    | .error e => .error (.periods e)

/-- The channel catalog of a configuration. -/
def channelCatalog (c : Config) : Except ConfigError Catalog :=
  match c.catalog with
  | none => .ok .standard
  | some tables =>
    match tables.fault? with
    | none => .ok tables
    | some e => .error (.catalog e)

/-- What is wrong with a configuration, if anything. -/
def validate (c : Config) : Except ConfigError Unit := do
  match c.limits.fault? with
  | some e => throw (.limit e)
  | none => pure ()
  let _ ← c.periodTable
  let _ ← c.channelCatalog

end Config

end RadioScan
