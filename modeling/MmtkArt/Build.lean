import Mathlib.Data.Rat.Floor
import Mathlib.Order.Fin.Basic
import MmtkArt.Util.FixedWidth

/-! # The build and its machine types

`usize` is as wide as a pointer of the target. Whether an overflowing addition panics is a flag of
the build (`-C overflow-checks`, which `Android.bp` sets). The atomic operations of
`std::sync::atomic` wrap in every build. -/

namespace MmtkArt

/-- `target_pointer_width` -/
inductive PointerWidth
  | w32
  | w64
  deriving DecidableEq, Repr

def PointerWidth.bits : PointerWidth → Nat
  | .w32 => 32
  | .w64 => 64

structure Build where
  targetPointerWidth : PointerWidth
  overflowChecks : Bool
  deriving DecidableEq, Repr

namespace Build

/-- The build of `Android.bp` for a 64-bit target. -/
def android64 : Build := ⟨.w64, true⟩

/-- The same target with overflow checks. -/
def checked (b : Build) : Build := { b with overflowChecks := true }

/-- The number of values of `usize`. -/
def usizeCard (b : Build) : Nat := 2 ^ b.targetPointerWidth.bits

theorem usizeCard_pos (b : Build) : 0 < b.usizeCard := Nat.two_pow_pos _

theorem two_pow_32_le_usizeCard (b : Build) : 2 ^ 32 ≤ b.usizeCard := by
  unfold usizeCard
  cases b.targetPointerWidth <;> decide

instance (b : Build) : NeZero b.usizeCard := ⟨b.usizeCard_pos.ne'⟩

end Build

/-- `debug_assert!`, whose condition is evaluated only in a build with debug assertions. -/
def debugAssert (debugAssertions : Bool) (condition : Option Bool) : Option Unit :=
  if debugAssertions then do
    if ← condition then some () else none
  else some ()

@[simp] theorem debugAssert_true (debugAssertions : Bool) :
    debugAssert debugAssertions (some true) = some () := by
  cases debugAssertions <;> rfl

/-- A value of type `usize`. The operators `+` and `-` wrap, as `fetch_add` and `fetch_sub` do. -/
abbrev Usize (b : Build) := Fin b.usizeCard

namespace Usize

variable {b : Build} {x y z : Usize b}

/-- `x + y` -/
def add (x y : Usize b) : Option (Usize b) :=
  (FixedWidth.add b.overflowChecks b.usizeCard x y).map (Fin.ofNat b.usizeCard)

/-- `x - y` -/
def sub (x y : Usize b) : Option (Usize b) :=
  (FixedWidth.sub b.overflowChecks b.usizeCard x y).map (Fin.ofNat b.usizeCard)

/-- `usize::MAX` -/
def max (b : Build) : Usize b := ⟨b.usizeCard - 1, Nat.sub_lt b.usizeCard_pos one_pos⟩

/-- A sum that fits does not overflow. -/
theorem add_of_lt (h : x.val + y.val < b.usizeCard) : x.add y = some ⟨x + y, h⟩ := by
  rw [add, FixedWidth.add_of_lt h]
  exact congrArg some (Fin.ext (Nat.mod_eq_of_lt h))

theorem val_of_add (hb : b.overflowChecks = true ∨ x.val + y.val < b.usizeCard)
    (h : x.add y = some z) : z.val = x + y := by
  obtain ⟨s, hs, rfl⟩ := Option.map_eq_some_iff.mp h
  obtain ⟨rfl, hlt⟩ := FixedWidth.fit_exact hb hs
  exact Nat.mod_eq_of_lt hlt

theorem sub_of_le (h : y ≤ x) : x.sub y = some (x - y) := by
  have hv : y.val ≤ x.val := h
  rw [sub, FixedWidth.sub_of_le hv]
  refine congrArg some (Fin.ext ?_)
  rw [Fin.sub_val_of_le h]
  exact Nat.mod_eq_of_lt (Nat.lt_of_le_of_lt (Nat.sub_le _ _) x.isLt)

end Usize

/-- The `f64` operations that the heap-growth formulas use. `cast n` is the `as` cast to the
unsigned type with `n` values: it truncates and saturates. -/
class F64 (F : Type) where
  one : F
  ofNat : Nat → F
  mul : F → F → F
  sub : F → F → F
  div : F → F → F
  le : F → F → Bool
  cast : (n : Nat) → [NeZero n] → F → Fin n

/-- Exact rationals, truncated to integers. -/
instance : F64 ℚ where
  one := 1
  ofNat n := n
  mul := (· * ·)
  sub := (· - ·)
  div := (· / ·)
  le x y := decide (x ≤ y)
  cast n _ q := ⟨min ⌊q⌋₊ (n - 1), by have := NeZero.pos n; omega⟩

end MmtkArt
