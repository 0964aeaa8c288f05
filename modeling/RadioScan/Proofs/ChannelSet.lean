import RadioScan.ChannelSet
import Mathlib.Data.List.Basic
import Mathlib.Data.List.Induction

/-!
# Channel sets as sets and as lists

Insertions leave a set's list and what was inserted behind it, of each frequency the first
(`toList_insertAll`). What a set holds after an insertion is thus what it held and what was inserted
(`mem_insertAll`), its list grows at the end only, and a list without repeats is its own set. A
union appends what is missing (`toList_union`), so its size can be counted without building it.
-/

namespace RadioScan

theorem eraseDups_of_nodup : ∀ {fs : List Frequency}, fs.Nodup → fs.eraseDups = fs
  | [], _ => rfl
  | f :: fs, h => by
    obtain ⟨hf, hfs⟩ := List.nodup_cons.1 h
    have hfilter : fs.filter (fun g => !g == f) = fs := by
      refine List.filter_eq_self.2 fun g hg => ?_
      have hne : g ≠ f := fun h => hf (h ▸ hg)
      simp [hne]
    rw [List.eraseDups_cons, hfilter, eraseDups_of_nodup hfs]

theorem isPrefix_eraseDups_append {fs : List Frequency} (h : fs.Nodup) (gs : List Frequency) :
    fs <+: (fs ++ gs).eraseDups := by
  rw [List.eraseDups_append, eraseDups_of_nodup h]
  exact List.prefix_append _ _

namespace ChannelSet

theorem toList_injective : Function.Injective toList := by
  rintro ⟨_, _⟩ ⟨_, _⟩ rfl
  rfl

theorem insert_of_mem {s : ChannelSet} {f : Frequency} (h : f ∈ s) : s.insert f = s := by
  simp [insert, h]

theorem toList_insert_of_not_mem {s : ChannelSet} {f : Frequency} (h : ¬ f ∈ s) :
    (s.insert f).toList = s.toList ++ [f] := by
  simp [insert, h]

/-- Of each frequency that a set holds or is given the first stays. -/
theorem toList_insertAll : ∀ (fs : List Frequency) {s : ChannelSet},
    (s.insertAll fs).toList = (s.toList ++ fs).eraseDups
  | [], s => by
    rw [List.append_nil, eraseDups_of_nodup s.nodup]
    rfl
  | f :: fs, s => by
    have ih := toList_insertAll fs (s := s.insert f)
    change ((s.insert f).insertAll fs).toList = _
    rw [ih]
    by_cases hf : f ∈ s
    · have hmem : f ∈ s.toList := hf
      simp [insert_of_mem hf, List.eraseDups_append, List.cons_removeAll, hmem]
    · rw [toList_insert_of_not_mem hf, List.append_assoc]
      rfl

theorem toList_ofList (fs : List Frequency) : (ofList fs).toList = fs.eraseDups :=
  toList_insertAll fs

theorem toList_ofList_of_nodup {fs : List Frequency} (h : fs.Nodup) : (ofList fs).toList = fs := by
  rw [toList_ofList, eraseDups_of_nodup h]

theorem mem_insertAll {f : Frequency} (fs : List Frequency) {s : ChannelSet} :
    f ∈ s.insertAll fs ↔ f ∈ s ∨ f ∈ fs := by
  rw [mem_def, toList_insertAll, List.mem_eraseDups, List.mem_append, mem_def]

theorem mem_ofList {fs : List Frequency} {f : Frequency} : f ∈ ofList fs ↔ f ∈ fs := by
  rw [mem_def, toList_ofList, List.mem_eraseDups]

theorem mem_union {s t : ChannelSet} {f : Frequency} : f ∈ s.union t ↔ f ∈ s ∨ f ∈ t :=
  mem_insertAll t.toList

/-- Nothing that a set holds leaves it, or moves, when others join. -/
theorem toList_isPrefix_insertAll (fs : List Frequency) {s : ChannelSet} :
    s.toList <+: (s.insertAll fs).toList := by
  rw [toList_insertAll]
  exact isPrefix_eraseDups_append s.nodup fs

/-- What the second set alone holds goes to the end as it stands. -/
theorem toList_union (s t : ChannelSet) :
    (s.union t).toList = s.toList ++ t.toList.filter (· ∉ s) := by
  have hmissing : t.toList.removeAll s.toList = t.toList.filter (· ∉ s) :=
    List.filter_congr fun f _ => by simp [mem_def]
  rw [union, toList_insertAll, List.eraseDups_append, eraseDups_of_nodup s.nodup, hmissing,
    eraseDups_of_nodup (t.nodup.filter _)]

/-- The union is counted without building it. -/
theorem unionSize_eq (s t : ChannelSet) : s.unionSize t = (s.union t).size := by
  rw [size, toList_union, List.length_append, ← List.countP_eq_length_filter]
  rfl

theorem size_le_size_union (s t : ChannelSet) : s.size ≤ (s.union t).size :=
  (toList_isPrefix_insertAll t.toList).length_le

theorem insertAll_append (s : ChannelSet) (fs gs : List Frequency) :
    s.insertAll (fs ++ gs) = (s.insertAll fs).insertAll gs :=
  List.foldl_append

/-- Repeats do not count: to insert a list is to insert the set that it makes. -/
theorem union_ofList (s : ChannelSet) (fs : List Frequency) :
    s.union (ofList fs) = s.insertAll fs := by
  induction fs using List.reverseRecOn with
  | nil => rfl
  | append_singleton fs f ih =>
    have hfs : ofList (fs ++ [f]) = (ofList fs).insert f := insertAll_append empty fs [f]
    have hs : s.insertAll (fs ++ [f]) = (s.insertAll fs).insert f := insertAll_append s fs [f]
    rw [hfs, hs]
    by_cases hf : f ∈ ofList fs
    · rw [insert_of_mem hf, ih, insert_of_mem ((mem_insertAll fs).2 (Or.inr (mem_ofList.1 hf)))]
    · rw [union, toList_insert_of_not_mem hf, insertAll_append, ← ih]
      rfl

theorem ofList_append (fs gs : List Frequency) :
    ofList (fs ++ gs) = (ofList fs).union (ofList gs) := by
  rw [union_ofList]
  exact insertAll_append empty fs gs

theorem size_pos_iff {s : ChannelSet} : 0 < s.size ↔ ∃ f, f ∈ s :=
  List.length_pos_iff_exists_mem

theorem size_dropOldest (s : ChannelSet) : s.dropOldest.size = s.size - 1 :=
  List.length_tail

theorem mem_of_mem_dropOldest {s : ChannelSet} {f : Frequency} (h : f ∈ s.dropOldest) : f ∈ s :=
  List.mem_of_mem_tail h

end ChannelSet

end RadioScan
