import Mathlib.Algebra.Group.Nat.Defs

/-! # Byte-addressed memory

A memory gives every address a byte. Words are little-endian. -/

abbrev Memory := Nat → UInt8

namespace Memory

/-- The word of `n` bytes at the address `a`. -/
def load (m : Memory) (a : Nat) : Nat → Nat
  | 0 => 0
  | n + 1 => (m a).toNat + 256 * load m (a + 1) n

def load32 (m : Memory) (a : Nat) : Nat := m.load a 4

/-- The word `w` in the `n` bytes from `a` on. -/
def store (m : Memory) (a w n : Nat) : Memory := fun x =>
  if a ≤ x ∧ x < a + n then UInt8.ofNat (w >>> (8 * (x - a))) else m x

def store32 (m : Memory) (a w : Nat) : Memory := m.store a w 4

/-- `n` bytes from `src` copied to `dst`. -/
def copy (m : Memory) (src dst n : Nat) : Memory := fun a =>
  if dst ≤ a ∧ a < dst + n then m (src + (a - dst)) else m a

/-- A memory that holds the given words, by address, and is zero elsewhere. -/
def ofWords (words : List (Nat × Nat)) : Memory := fun a =>
  match words.find? fun w => w.1 ≤ a && a < w.1 + 4 with
  | some (start, word) => UInt8.ofNat (word >>> (8 * (a - start)))
  | none => 0

variable {m m' : Memory} {a a' n : Nat}

theorem load_lt : m.load a n < 256 ^ n := by
  induction n generalizing a with
  | zero => exact Nat.one_pos
  | succ n ih =>
    have hb := (m a).toNat_lt
    have hw := ih (a := a + 1)
    rw [load, Nat.pow_succ]
    omega

theorem load32_lt : m.load32 a < 2 ^ 32 := load_lt

/-- A word depends on its bytes only. -/
theorem load_congr (h : ∀ i, i < n → m (a + i) = m' (a' + i)) : m.load a n = m'.load a' n := by
  induction n generalizing a a' with
  | zero => rfl
  | succ n ih =>
    have h₀ : m a = m' a' := h 0 n.succ_pos
    have h₁ : m.load (a + 1) n = m'.load (a' + 1) n := by
      apply ih
      intro i hi
      rw [Nat.add_right_comm, Nat.add_right_comm a']
      exact h (i + 1) (Nat.succ_lt_succ hi)
    rw [load, load, h₀, h₁]

theorem load32_congr (h : ∀ i, i < 4 → m (a + i) = m' (a' + i)) : m.load32 a = m'.load32 a' :=
  load_congr h

/-! ### Stores -/

theorem store_of_outside {w x : Nat} (h : x < a ∨ a + n ≤ x) : m.store a w n x = m x :=
  if_neg (by omega)

/-- A word is read back. The first byte is the lowest one, and the others are the rest of the
word. -/
theorem load_store {w : Nat} (hw : w < 256 ^ n) : (m.store a w n).load a n = w := by
  induction n generalizing m a w with
  | zero => exact (Nat.lt_one_iff.mp hw).symm
  | succ n ih =>
    have hfirst : (m.store a w (n + 1) a).toNat = w % 256 := by
      rw [store, if_pos (by omega), Nat.sub_self]
      exact UInt8.toNat_ofNat'
    have hrest : (m.store a w (n + 1)).load (a + 1) n =
        (m.store (a + 1) (w / 256) n).load (a + 1) n := by
      apply load_congr
      intro i hi
      rw [store, store, if_pos (by omega), if_pos (by omega)]
      have hshift : 8 * (a + 1 + i - a) = 8 + 8 * (a + 1 + i - (a + 1)) := by omega
      rw [hshift, Nat.shiftRight_add, Nat.shiftRight_eq_div_pow w 8]
    rw [load, hfirst, hrest, ih (by rw [Nat.pow_succ] at hw; omega)]
    omega

theorem load32_store32 {w : Nat} (hw : w < 2 ^ 32) : (m.store32 a w).load32 a = w :=
  load_store hw

/-- A store leaves the words that it does not overlap. -/
theorem load32_store32_of_disjoint {w : Nat} (h : a' + 4 ≤ a ∨ a + 4 ≤ a') :
    (m.store32 a w).load32 a' = m.load32 a' :=
  load32_congr fun i hi => store_of_outside (by omega)

/-! ### Copies -/

variable {src dst : Nat}

theorem copy_add (h : a < n) : m.copy src dst n (dst + a) = m (src + a) := by
  rw [copy, if_pos (by omega), Nat.add_sub_cancel_left]

theorem copy_of_outside (h : a < dst ∨ dst + n ≤ a) : m.copy src dst n a = m a :=
  if_neg (by omega)

end Memory
