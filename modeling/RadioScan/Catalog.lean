import RadioScan.Band
import RadioScan.ChannelSet

/-!
# Channel catalogs

A catalog says which frequencies the radio has in each sub-band. It turns a scope, which is a band
or a list of frequencies, into the frequencies to scan, and writes a set of frequencies back as the
shortest scope that stands for it.
-/

namespace RadioScan

/-- What is to be scanned. -/
inductive Scope
  | band (b : Band)
  | channels (fs : List Frequency)
deriving DecidableEq

namespace Scope

def isBand : Scope → Bool
  | band _ => true
  | channels _ => false

/-- A band by its name, a list of frequencies in brackets. -/
def text : Scope → String
  | band b => b.name
  | channels fs => "[" ++ ",".intercalate (fs.map fun f => toString f.toNat) ++ "]"

end Scope

/-- The frequencies of each sub-band. -/
structure Catalog where
  ghz24 : List Frequency
  ghz5 : List Frequency
  ghz5Dfs : List Frequency
deriving DecidableEq

namespace Catalog

/-- The channels that a radio has when nothing else is configured. -/
def standard : Catalog where
  ghz24 := [2412, 2417, 2422, 2427, 2432, 2437, 2442, 2447, 2452, 2457, 2462, 2467, 2472]
  ghz5 := [5180, 5200, 5220, 5240, 5745, 5765, 5785, 5805, 5825]
  ghz5Dfs := [5260, 5280, 5300, 5320, 5500, 5520, 5540, 5560, 5580, 5600, 5620, 5640, 5660, 5680,
    5700, 5720]

def table (c : Catalog) : SubBand → List Frequency
  | .ghz24 => c.ghz24
  | .ghz5 => c.ghz5
  | .ghz5Dfs => c.ghz5Dfs

/-- Every table, one after the other. -/
def frequencies (c : Catalog) : List Frequency := SubBand.all.flatMap c.table

/-- The tables of a band's sub-bands; an unknown band has none, the unspecified one has all. -/
def expandBand (c : Catalog) (b : Band) : List Frequency :=
  if b.isUnknown then []
  else if b.isUnspecified then c.frequencies
  else b.subBands.flatMap c.table

/-- The frequencies that a scope stands for; a list counts each once, where it comes first. -/
def expand (c : Catalog) : Scope → List Frequency
  | .band b => c.expandBand b
  | .channels fs => (ChannelSet.ofList fs).toList

/-- The first sub-band whose table has the frequency. -/
def subBandOf? (c : Catalog) (f : Frequency) : Option SubBand :=
  SubBand.all.find? fun s => f ∈ c.table s

/-- The sub-band of a frequency as a band; unspecified when no table has it. -/
def bandOf (c : Catalog) (f : Frequency) : Band :=
  ((c.subBandOf? f).map SubBand.toBand).getD Band.unspecified

end Catalog

namespace ChannelSet

/-- Adds what a scope stands for. -/
def insertScope (s : ChannelSet) (c : Catalog) : Scope → ChannelSet
  | .band b => s.insertAll (c.expandBand b)
  | .channels fs => s.insertAll fs

def ofScope (c : Catalog) (scope : Scope) : ChannelSet := empty.insertScope c scope

/-- Whether the band stands for something and all of that is held. -/
def coversBand (s : ChannelSet) (c : Catalog) (b : Band) : Bool :=
  !(c.expandBand b).isEmpty && (c.expandBand b).all (· ∈ s)

/-- The sub-bands that have a table and have all of it held. -/
def coveredSubBands (s : ChannelSet) (c : Catalog) : List SubBand :=
  SubBand.all.filter fun b => !(c.table b).isEmpty && (c.table b).all (· ∈ s)

def coveredBand (s : ChannelSet) (c : Catalog) : Band := Band.ofSubBands (s.coveredSubBands c)

/-- The covered band if it accounts for every frequency held, else the frequencies themselves. -/
def toScope (s : ChannelSet) (c : Catalog) : Scope :=
  let covered := s.coveredBand c
  if !covered.isUnspecified && (c.expandBand covered).length == s.size then .band covered
  else .channels s.toList

end ChannelSet

end RadioScan
