import MmtkArt.Build
import MmtkArt.Util.Align

/-! # What the binding uses of mmtk-core's arithmetic

mmtk-core is another crate. Its alignment functions are parameters here, with what their
documentation promises: a value is rounded to the given power of two (or to a chunk) as long as the
result is a `usize`. -/

namespace MmtkArt

/-- mmtk-core's chunks are 4 MiB. -/
def BYTES_IN_CHUNK : Nat := 2 ^ 22

class MmtkCore (b : Build) where
  rawAlignUp : Nat → Nat → Nat
  rawIsAligned : Nat → Nat → Bool
  chunkAlignUp : Nat → Nat
  chunkAlignDown : Nat → Nat
  rawAlignUp_eq : ∀ {v k : Nat}, v + 2 ^ k ≤ b.usizeCard →
    rawAlignUp v (2 ^ k) = alignUp (2 ^ k) v
  rawIsAligned_iff : ∀ {v k : Nat}, v < b.usizeCard → (rawIsAligned v (2 ^ k) = true ↔ 2 ^ k ∣ v)
  chunkAlignUp_eq : ∀ {v : Nat}, v + BYTES_IN_CHUNK ≤ b.usizeCard →
    chunkAlignUp v = alignUp BYTES_IN_CHUNK v
  chunkAlignDown_eq : ∀ {v : Nat}, v < b.usizeCard →
    chunkAlignDown v = alignDown BYTES_IN_CHUNK v

/-- The functions do not depend on the overflow checks of the binding. -/
instance MmtkCore.checked {b : Build} [MmtkCore b] : MmtkCore b.checked where
  rawAlignUp := rawAlignUp b
  rawIsAligned := rawIsAligned b
  chunkAlignUp := chunkAlignUp b
  chunkAlignDown := chunkAlignDown b
  rawAlignUp_eq := rawAlignUp_eq (b := b)
  rawIsAligned_iff := rawIsAligned_iff (b := b)
  chunkAlignUp_eq := chunkAlignUp_eq (b := b)
  chunkAlignDown_eq := chunkAlignDown_eq (b := b)

/-- Functions that behave as documented. -/
@[reducible] def MmtkCore.documented (b : Build) : MmtkCore b where
  rawAlignUp v a := alignUp a v
  rawIsAligned v a := decide (a ∣ v)
  chunkAlignUp := alignUp BYTES_IN_CHUNK
  chunkAlignDown := alignDown BYTES_IN_CHUNK
  rawAlignUp_eq _ := rfl
  rawIsAligned_iff _ := decide_eq_true_iff
  chunkAlignUp_eq _ := rfl
  chunkAlignDown_eq _ := rfl

end MmtkArt
