import RadioScan.Plan.Pooling
import Mathlib.Data.List.Basic

/-!
# What pooling does with one request

A request is ignored, opens a candidate, which it does unless its period is fixed and one takes it,
or joins the first candidate that takes it (`place_placed`). Whatever all three cases keep holds of
the whole pool (`pool_induction`).
-/

namespace RadioScan.Plan

variable (s : Settings)

/-- Whether a candidate takes a request whose period is fixed. -/
def takes (r : Request) (c : Candidate) : Bool :=
  accepts s.limits.maxChannels.toNat (s.periods.nearest r.period) (groupOf r.scope)
    (ChannelSet.ofScope s.catalog r.scope) c

/-- The candidate that is opened for the request with number `i`. -/
inductive Opens (i : Nat) (r : Request) (order : Nat) : Candidate → Prop
  | alone (he : r.isExponential = true) : Opens i r order
      (openFor s.catalog order i r r.period (.exact (some ⟨r.maxPeriod, r.stepCount⟩)))
  | shared (he : r.isExponential = false) : Opens i r order
      (openFor s.catalog order i r (s.periods.nearest r.period) (.pooled (groupOf r.scope)))

section Opens

variable {s} {i order : Nat} {r : Request} {c : Candidate}

theorem Opens.order_eq (h : Opens s i r order c) : c.order = order := by
  cases h <;> rfl

theorem Opens.members (h : Opens s i r order c) : c.members = [i] := by
  cases h <;> rfl

theorem Opens.events (h : Opens s i r order c) : c.events = r.events := by
  cases h <;> rfl

theorem Opens.channels (h : Opens s i r order c) :
    c.channels = ChannelSet.ofScope s.catalog r.scope := by
  cases h <;> rfl

theorem Opens.backoff? (h : Opens s i r order c) :
    c.backoff? = if r.isExponential then some ⟨r.maxPeriod, r.stepCount⟩ else none := by
  cases h with
  | alone he =>
    rw [if_pos he]
    rfl
  | shared he =>
    rw [he]
    rfl

end Opens

/-- How the candidates change when the request with number `i` finds its place. -/
inductive Placed (i : Nat) (r : Request) : List Candidate → List Candidate → Prop
  | ignored {cs : List Candidate} (h : r.isSchedulable s.catalog = false) : Placed i r cs cs
  | opened {cs : List Candidate} {new : Candidate} (h : r.isSchedulable s.catalog = true)
      (hnew : Opens s i r cs.length new)
      (hnone : r.isExponential = false → ∀ c ∈ cs, takes s r c = false) :
      Placed i r cs (cs ++ [new])
  | joined {l₁ l₂ : List Candidate} {c : Candidate} (h : r.isSchedulable s.catalog = true)
      (he : r.isExponential = false) (hfirst : ∀ d ∈ l₁, takes s r d = false)
      (hc : takes s r c = true) :
      Placed i r (l₁ ++ c :: l₂)
        (l₁ ++ c.join i r.events (ChannelSet.ofScope s.catalog r.scope) :: l₂)

theorem place_placed (cs : List Candidate) (i : Nat) (r : Request) :
    Placed s i r cs (place s cs i r) := by
  unfold place
  split_ifs with h he
  · exact .opened h (.alone he) fun hf => absurd he (by simp [hf])
  · have he : r.isExponential = false := by simpa using he
    dsimp only
    split
    · next k hk =>
      change cs.findIdx? (takes s r) = some k at hk
      obtain ⟨hlt, hc, hfirst⟩ := List.findIdx?_eq_some_iff_getElem.1 hk
      obtain ⟨l₁, c, l₂, rfl, rfl, hmod⟩ := List.exists_of_modify
        (fun c : Candidate => c.join i r.events (ChannelSet.ofScope s.catalog r.scope)) hlt
      rw [hmod]
      refine .joined h he (fun d hd => ?_) (by simpa using hc)
      obtain ⟨j, hj, rfl⟩ := List.getElem_of_mem hd
      have := hfirst j hj
      rwa [List.getElem_append_left hj, Bool.not_eq_true] at this
    · next hnone => exact .opened h (.shared he) fun _ => List.findIdx?_eq_none_iff.1 hnone
  · exact .ignored (by simpa using h)

variable {s}

/-- Only shared candidates take a request. -/
theorem exists_group_of_takes {r : Request} {c : Candidate} (h : takes s r c = true) :
    ∃ g, c.cadence = .pooled g := by
  unfold takes accepts at h
  cases hc : c.cadence with
  | pooled g => exact ⟨g, rfl⟩
  | exact curve => simp [hc] at h

theorem period_of_takes {r : Request} {c : Candidate} (h : takes s r c = true) :
    c.period = s.periods.nearest r.period := by
  unfold takes accepts at h
  rw [Bool.and_eq_true, beq_iff_eq] at h
  exact h.1

theorem foldl_place_induction {rs : List Request} {P : Nat → List Candidate → Prop}
    (hstep : ∀ i r cs cs', rs[i]? = some r → Placed s i r cs cs' → P i cs → P (i + 1) cs') :
    ∀ (l : List Request) (k : Nat) (cs : List Candidate), rs.drop k = l → P k cs →
      P (k + l.length) ((l.zipIdx k).foldl (fun cs (r, i) => place s cs i r) cs)
  | [], k, cs, _, h => h
  | r :: l, k, cs, hl, h => by
    have hr : rs[k]? = some r := by
      rw [← List.head?_drop, hl, List.head?_cons]
    have hl' : rs.drop (k + 1) = l := by
      rw [← List.tail_drop, hl, List.tail_cons]
    have hnext := hstep k r cs _ hr (place_placed s cs k r) h
    have ih := foldl_place_induction hstep l (k + 1) _ hl' hnext
    rw [List.length_cons, Nat.add_comm l.length 1, ← Nat.add_assoc]
    exact ih

/-- What placing any request keeps, counted by the requests placed, holds of the pool. -/
theorem pool_induction {rs : List Request} {P : Nat → List Candidate → Prop} (h0 : P 0 [])
    (hstep : ∀ i r cs cs', rs[i]? = some r → Placed s i r cs cs' → P i cs → P (i + 1) cs') :
    P rs.length (pool s rs) := by
  have := foldl_place_induction hstep rs 0 [] List.drop_zero h0
  rwa [Nat.zero_add] at this

end RadioScan.Plan
