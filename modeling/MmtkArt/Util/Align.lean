import Mathlib.Algebra.Order.Group.Nat

/-! # Rounding to a multiple -/

/-- The least multiple of `a` that is at least `v`. -/
def alignUp (a v : Nat) : Nat := (v + (a - 1)) / a * a

/-- The greatest multiple of `a` that is at most `v`. -/
def alignDown (a v : Nat) : Nat := v / a * a

section
variable {a v w : Nat}

theorem dvd_alignUp : a ∣ alignUp a v := Nat.dvd_mul_left _ _

theorem alignUp_lt (ha : 0 < a) : alignUp a v < v + a := by
  have h : alignUp a v ≤ v + (a - 1) := Nat.div_mul_le_self _ a
  omega

theorem le_alignUp (ha : 0 < a) : v ≤ alignUp a v := by
  have h : (v + (a - 1)) % a + alignUp a v = v + (a - 1) := Nat.mod_add_div' _ _
  have hlt := Nat.mod_lt (v + (a - 1)) ha
  omega

theorem alignDown_of_dvd (h : a ∣ v) : alignDown a v = v := Nat.div_mul_cancel h

/-- Rounding up stays below a multiple. -/
theorem alignUp_le_of_dvd (ha : 0 < a) (hw : a ∣ w) (h : v ≤ w) : alignUp a v ≤ w := by
  obtain ⟨k, rfl⟩ := hw
  obtain ⟨m, hm⟩ := dvd_alignUp (a := a) (v := v)
  have hlt := alignUp_lt (v := v) ha
  rw [hm] at hlt ⊢
  have hlt : a * m < a * (k + 1) := by
    rw [Nat.mul_succ]
    omega
  exact Nat.mul_le_mul_left a (Nat.lt_succ_iff.mp (Nat.lt_of_mul_lt_mul_left hlt))

theorem alignUp_le_iff (ha : 0 < a) (hw : a ∣ w) : alignUp a v ≤ w ↔ v ≤ w :=
  ⟨(le_alignUp ha).trans, alignUp_le_of_dvd ha hw⟩

end
