/-!
# Bands

A band names a set of the radio's sub-bands by one byte, a bit for each. The empty byte asks for
every sub-band; bits outside the three known ones make a band that the radio cannot serve.
-/

namespace RadioScan

/-- The parts of the spectrum that a channel table is kept for, in table order. -/
inductive SubBand
  | ghz24
  | ghz5
  | ghz5Dfs
deriving DecidableEq

/-- A set of sub-bands as a bit mask. -/
structure Band where
  bits : UInt8
deriving DecidableEq

namespace SubBand

def all : List SubBand := [ghz24, ghz5, ghz5Dfs]

def bit : SubBand → UInt8
  | ghz24 => 1
  | ghz5 => 2
  | ghz5Dfs => 4

def toBand (s : SubBand) : Band := ⟨s.bit⟩

end SubBand

namespace Band

/-- No band given; stands for every known frequency. -/
def unspecified : Band := ⟨0⟩

/-- Every known sub-band, by name. -/
def everything : Band := ⟨7⟩

def isUnspecified (b : Band) : Bool := b.bits == 0

/-- Some bit of the band belongs to no sub-band. -/
def isUnknown (b : Band) : Bool := b.bits &&& ~~~everything.bits != 0

def contains (b other : Band) : Bool := b.bits &&& other.bits == other.bits

def union (b other : Band) : Band := ⟨b.bits ||| other.bits⟩

/-- The sub-bands whose bit is set, in table order. -/
def subBands (b : Band) : List SubBand := SubBand.all.filter fun s => b.contains s.toBand

/-- The sub-band that the band is, when it is exactly one. -/
def subBand? (b : Band) : Option SubBand := SubBand.all.find? fun s => s.toBand == b

/-- The band that holds exactly the given sub-bands. -/
def ofSubBands (ss : List SubBand) : Band := ⟨ss.foldl (fun bits s => bits ||| s.bit) 0⟩

/-- Two hexadecimal digits, in lower case. -/
def hexByte (b : UInt8) : String :=
  String.ofList [Nat.digitChar (b.toNat / 16), Nat.digitChar (b.toNat % 16)]

def name (b : Band) : String :=
  match b.bits with
  | 0 => "unspecified"
  | 1 => "2.4GHz"
  | 2 => "5GHz"
  | 3 => "2.4GHz+5GHz"
  | 4 => "5GHz-DFS"
  | 6 => "5GHz+DFS"
  | 7 => "2.4GHz+5GHz+DFS"
  | bits => s!"band(0x{hexByte bits})"

end Band

end RadioScan
