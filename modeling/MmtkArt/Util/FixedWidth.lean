import Mathlib.Data.Int.Basic
import Mathlib.Algebra.Group.Nat.Defs
import MmtkArt.Util.Refines

/-! # Arithmetic on machine words

A word of a fixed-width unsigned type is a natural number below its modulus `n`. When the exact
result of an operation does not fit, a build that checks overflow panics (`none`) and any other
build wraps around. The atomic operations always wrap. A signed type with `n` values has its words
in two's complement. -/

namespace FixedWidth

/-- The result of an operation whose exact value is `x`. -/
def fit (checked : Bool) (n x : Nat) : Option Nat :=
  if x < n then some x else if checked then none else some (x % n)

def add (checked : Bool) (n x y : Nat) : Option Nat := fit checked n (x + y)

def mul (checked : Bool) (n x y : Nat) : Option Nat := fit checked n (x * y)

def sub (checked : Bool) (n x y : Nat) : Option Nat :=
  if y ≤ x then some (x - y) else if checked then none else some ((x + (n - y % n)) % n)

/-- A left shift of a word of `bits` bits. The bits shifted out are dropped in every build; the
amount overflows from `bits` on. -/
def shl (checked : Bool) (bits x k : Nat) : Option Nat :=
  (fit checked bits k).map fun k => x * 2 ^ k % 2 ^ bits

/-- The signed value of a word. -/
def toSigned (n x : Nat) : Int := Int.bmod x n

/-- The word of a signed value, cut to the modulus. -/
def ofSigned (n : Nat) (i : Int) : Nat := (i % n).toNat

variable {checked : Bool} {n x y z k : Nat}

theorem fit_of_lt (h : x < n) : fit checked n x = some x := if_pos h

/-- An operation that is not checked returns. -/
theorem fit_of_unchecked (h : checked = false) : fit checked n x = some (x % n) := by
  unfold fit
  split
  · next hlt => rw [Nat.mod_eq_of_lt hlt]
  · rw [if_neg (by simp [h])]

/-- A result is exact when overflow is checked, or when the exact value fits. -/
theorem fit_exact (hx : checked = true ∨ x < n) (h : fit checked n x = some z) :
    z = x ∧ x < n := by
  unfold fit at h
  split at h
  · cases h; exact ⟨rfl, by assumption⟩
  · rcases hx with rfl | hx
    · simp at h
    · contradiction

@[simp] theorem add_of_lt (h : x + y < n) : add checked n x y = some (x + y) := fit_of_lt h

@[simp] theorem mul_of_lt (h : x * y < n) : mul checked n x y = some (x * y) := fit_of_lt h

@[simp] theorem sub_of_le (h : y ≤ x) : sub checked n x y = some (x - y) := if_pos h

theorem shl_of_lt {bits : Nat} (hk : k < bits) (h : x * 2 ^ k < 2 ^ bits) :
    shl checked bits x k = some (x * 2 ^ k) := by
  rw [shl, fit_of_lt hk, Option.map_some, Nat.mod_eq_of_lt h]

/-! ### Checked operations

A result that passes the check is the result of every build. -/

theorem fit_refines : Refines (fit true n x) (fit checked n x) := by
  intro z hz
  obtain ⟨rfl, hlt⟩ := fit_exact (.inl rfl) hz
  exact fit_of_lt hlt

theorem add_refines : Refines (add true n x y) (add checked n x y) := fit_refines

theorem mul_refines : Refines (mul true n x y) (mul checked n x y) := fit_refines

theorem sub_refines : Refines (sub true n x y) (sub checked n x y) := by
  intro z hz
  rw [sub] at hz
  split at hz
  · next h => rw [sub_of_le h, hz]
  · cases hz

/-! ### Signed values -/

theorem toSigned_of_lt (h : 2 * x < n) : toSigned n x = x := by
  have hx : (x : Int) % n = x := Int.emod_eq_of_lt (by omega) (by omega)
  simp only [toSigned, Int.bmod, hx]
  exact if_pos (by omega)

@[simp] theorem ofSigned_natCast (h : x < n) : ofSigned n x = x := by
  rw [ofSigned, Int.emod_eq_of_lt (by omega) (by omega), Int.toNat_natCast]

end FixedWidth
