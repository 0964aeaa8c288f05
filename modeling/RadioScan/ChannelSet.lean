/-!
# Channel sets

A channel set holds frequencies without repeats in the order in which they joined. Joining again
changes nothing, so the front is always the frequency that has been held longest.
-/

namespace RadioScan

/-- A channel's centre frequency, in MHz. -/
abbrev Frequency := UInt32

/-- Frequencies without repeats, oldest first. -/
structure ChannelSet where
  toList : List Frequency
  nodup : toList.Nodup
deriving DecidableEq

namespace ChannelSet

def empty : ChannelSet := ⟨[], List.nodup_nil⟩

instance : Membership Frequency ChannelSet := ⟨fun s f => f ∈ s.toList⟩

instance (f : Frequency) (s : ChannelSet) : Decidable (f ∈ s) :=
  inferInstanceAs (Decidable (f ∈ s.toList))

theorem mem_def {f : Frequency} {s : ChannelSet} : f ∈ s ↔ f ∈ s.toList := Iff.rfl

def size (s : ChannelSet) : Nat := s.toList.length

def isEmpty (s : ChannelSet) : Bool := s.toList.isEmpty

/-- A frequency already held keeps its place; a new one goes last. -/
def insert (s : ChannelSet) (f : Frequency) : ChannelSet :=
  if h : f ∈ s then s
  else ⟨s.toList ++ [f], List.nodup_append.2 ⟨s.nodup, by simp, by
    intro a ha b hb
    rw [List.mem_singleton.1 hb]
    rintro rfl
    exact h ha⟩⟩

def insertAll (s : ChannelSet) (fs : List Frequency) : ChannelSet := fs.foldl insert s

def ofList (fs : List Frequency) : ChannelSet := empty.insertAll fs

/-- The first set in its order, then what only the second has in its own. -/
def union (s t : ChannelSet) : ChannelSet := s.insertAll t.toList

/-- The size of the union, counted without building it. -/
def unionSize (s t : ChannelSet) : Nat := s.size + t.toList.countP fun f => f ∉ s

/-- What is left once the oldest frequency is gone. -/
def dropOldest (s : ChannelSet) : ChannelSet := ⟨s.toList.tail, s.nodup.tail⟩

def oldest? (s : ChannelSet) : Option Frequency := s.toList.head?

end ChannelSet

end RadioScan
