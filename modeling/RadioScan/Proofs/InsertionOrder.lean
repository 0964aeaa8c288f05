import RadioScan.Proofs.Catalog
import Mathlib.Data.List.Infix

/-!
# Channel sets as ordered sets

Whatever is called on a channel set, it holds what the same calls make of a plain list: what is
offered goes to the end, of a frequency that is then there twice the later one is erased, and the
oldest is the head (`ChannelSet.toList_run`). So a frequency moves only when one in front of it is
dropped, and by one place (`ChannelSet.drop_isPrefix_run`): joining again does not bring it to the
end. A union appends what is missing and nothing else, so it is as large as counted and the same
when made twice (`ChannelSet.merges`).
-/

namespace RadioScan.ChannelSet

/-! ## Runs -/

/-- A call that changes a channel set. A band is inserted as a scope, and the other set of a union
may have come about in any way and for any catalog. -/
inductive Operation
  | insert (f : Frequency)
  | insertScope (scope : Scope)
  | union (t : ChannelSet)
  | dropOldest
deriving DecidableEq

def perform (c : Catalog) (s : ChannelSet) : Operation → ChannelSet
  | .insert f => s.insert f
  | .insertScope scope => s.insertScope c scope
  | .union t => s.union t
  | .dropOldest => s.dropOldest

/-- The set after some calls. -/
def run (c : Catalog) (s : ChannelSet) (ops : List Operation) : ChannelSet :=
  ops.foldl (perform c) s

/-- What some calls make of a new set. -/
def built (c : Catalog) (ops : List Operation) : ChannelSet := empty.run c ops

/-- What a call makes of a plain list. -/
def listing (c : Catalog) (fs : List Frequency) : Operation → List Frequency
  | .insert f => (fs ++ [f]).eraseDups
  | .insertScope scope => (fs ++ c.expand scope).eraseDups
  | .union t => (fs ++ t.toList).eraseDups
  | .dropOldest => fs.tail

variable {c : Catalog} {s : ChannelSet}

theorem toList_perform (c : Catalog) (s : ChannelSet) (op : Operation) :
    (s.perform c op).toList = listing c s.toList op := by
  cases op with
  | insert f => exact toList_insertAll [f]
  | insertScope scope =>
    rw [perform, insertScope_eq]
    exact toList_insertAll (c.expand scope)
  | union t => exact toList_insertAll t.toList
  | dropOldest => rfl

theorem toList_run (c : Catalog) : ∀ (ops : List Operation) {s : ChannelSet},
    (s.run c ops).toList = ops.foldl (listing c) s.toList
  | [], _ => rfl
  | op :: ops, s => by
    rw [List.foldl_cons, ← toList_perform]
    exact toList_run c ops

example : (built .standard [.insertScope (.channels [5180, 2412]), .insert 5180, .insert 2437,
    .dropOldest]).toList = [2412, 2437] := by decide

/-- Every call but a drop leaves what is held in its place. -/
theorem toList_isPrefix_perform {op : Operation} (hop : op ≠ .dropOldest) :
    s.toList <+: (s.perform c op).toList := by
  rw [toList_perform]
  cases op with
  | dropOldest => exact absurd rfl hop
  | _ => exact isPrefix_eraseDups_append s.nodup _

/-- Each drop takes one frequency from the front, and what is left stays in front of all that
joins. -/
theorem drop_isPrefix_run (c : Catalog) : ∀ (ops : List Operation) {s : ChannelSet},
    s.toList.drop (ops.count .dropOldest) <+: (s.run c ops).toList
  | [], _ => List.prefix_rfl
  | op :: ops, s => by
    refine List.IsPrefix.trans ?_ (drop_isPrefix_run c ops (s := s.perform c op))
    by_cases hop : op = .dropOldest
    · subst hop
      rw [List.count_cons_self, ← List.drop_tail]
      exact List.prefix_rfl
    · rw [List.count_cons_of_ne hop]
      exact (toList_isPrefix_perform hop).drop _

/-! ## Unions and drops -/

theorem toList_eq_append_dropOldest (s : ChannelSet) :
    s.toList = s.oldest?.toList ++ s.dropOldest.toList := by
  obtain ⟨fs, hfs⟩ := s
  cases fs <;> rfl

theorem oldest?_eq_none_iff : s.oldest? = none ↔ s = empty := by
  rw [oldest?, List.head?_eq_none_iff]
  exact toList_injective.eq_iff (b := empty)

theorem mem_dropOldest_iff {f : Frequency} : f ∈ s.dropOldest ↔ f ∈ s ∧ s.oldest? ≠ some f := by
  obtain ⟨fs, hfs⟩ := s
  cases fs with
  | nil => simp [mem_def, dropOldest]
  | cons g fs =>
    -- the oldest is not held a second time
    have hg : g ∉ fs := (List.nodup_cons.1 hfs).1
    constructor
    · intro hf
      refine ⟨mem_of_mem_dropOldest hf, fun holdest => ?_⟩
      cases holdest
      exact hg hf
    · rintro ⟨hf, hne⟩
      refine (List.mem_cons.1 hf).resolve_left fun h => ?_
      rw [h] at hne
      exact hne rfl

/-- What one set becomes in a union with another, and what that counts. -/
structure Merges (s t : ChannelSet) : Prop where
  unionSize_eq : s.unionSize t = (s.union t).size
  toList_union : (s.union t).toList = s.toList ++ t.toList.filter (· ∉ s)
  union_union : (s.union t).union t = s.union t
  mem_union : ∀ f, f ∈ s.union t ↔ f ∈ s ∨ f ∈ t

theorem merges (s t : ChannelSet) : s.Merges t where
  unionSize_eq := s.unionSize_eq t
  toList_union := s.toList_union t
  union_union := by
    have hnone : t.toList.filter (· ∉ s.union t) = [] := by
      refine List.filter_eq_nil_iff.2 fun f hf => ?_
      have hmem : f ∈ s.union t := ChannelSet.mem_union.2 (Or.inr hf)
      simp [hmem]
    apply toList_injective
    rw [ChannelSet.toList_union, hnone, List.append_nil]
  mem_union _ := ChannelSet.mem_union

/-- What calls on a new set lead to, however they go on. -/
structure InsertionOrdered (c : Catalog) (ops : List Operation) : Prop where
  toList_eq : (built c ops).toList = ops.foldl (listing c) []
  nodup : (ops.foldl (listing c) []).Nodup
  insert_of_mem : ∀ f ∈ built c ops, (built c ops).insert f = built c ops
  kept : ∀ more : List Operation,
    (built c ops).toList.drop (more.count .dropOldest) <+: (built c (ops ++ more)).toList
  toList_insertScope : ∀ scope, (empty.insertScope c scope).toList = (c.expand scope).eraseDups
  expand_channels : ∀ fs, c.expand (.channels fs) = fs.eraseDups
  merges : ∀ c' ops', (built c ops).Merges (built c' ops')
  toList_dropOldest :
    (built c ops).toList = (built c ops).oldest?.toList ++ (built c ops).dropOldest.toList
  mem_dropOldest : ∀ f,
    f ∈ (built c ops).dropOldest ↔ f ∈ built c ops ∧ (built c ops).oldest? ≠ some f
  oldest?_eq_none : (built c ops).oldest? = none ↔ built c ops = empty

theorem insertionOrdered_built (c : Catalog) (ops : List Operation) : InsertionOrdered c ops where
  toList_eq := toList_run c ops
  nodup := by
    have hlist : (built c ops).toList = ops.foldl (listing c) [] := toList_run c ops
    rw [← hlist]
    exact (built c ops).nodup
  insert_of_mem _ := ChannelSet.insert_of_mem
  kept more := by
    have happend : built c (ops ++ more) = (built c ops).run c more := List.foldl_append
    rw [happend]
    exact drop_isPrefix_run c more
  toList_insertScope scope := by
    rw [insertScope_eq]
    exact toList_insertAll (c.expand scope)
  expand_channels := toList_ofList
  merges c' ops' := (built c ops).merges (built c' ops')
  toList_dropOldest := (built c ops).toList_eq_append_dropOldest
  mem_dropOldest _ := mem_dropOldest_iff
  oldest?_eq_none := oldest?_eq_none_iff

end RadioScan.ChannelSet
