/-!
# Keys

A key orders choices by three numbers, the first that differs deciding.
-/

namespace RadioScan.Plan

/-- Three numbers, compared from the first on. -/
structure Key where
  first : Int
  second : Int
  third : Int
deriving DecidableEq

namespace Key

/-- At most, by the first number that differs. -/
def Le (a b : Key) : Prop :=
  a.first < b.first ∨ (a.first = b.first ∧
    (a.second < b.second ∨ (a.second = b.second ∧ a.third ≤ b.third)))

instance : LE Key := ⟨Le⟩

theorem le_def {a b : Key} : a ≤ b ↔ a.first < b.first ∨ (a.first = b.first ∧
    (a.second < b.second ∨ (a.second = b.second ∧ a.third ≤ b.third))) := Iff.rfl

instance : DecidableLE Key := fun _ _ => inferInstanceAs (Decidable (_ ∨ (_ ∧ (_ ∨ (_ ∧ _)))))

instance : Std.IsLinearPreorder Key where
  le_refl a := by simp [le_def]
  le_trans a b c := by simp only [le_def]; omega
  le_total a b := by simp only [le_def]; omega

end Key

end RadioScan.Plan
