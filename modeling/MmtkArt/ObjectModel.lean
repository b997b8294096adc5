import MmtkArt.Abi

/-! # The object model

`ArtObjectModel` as mmtk-core calls it to size and to copy an object. The copy context is
mmtk-core's and a parameter here, and its side metadata is not part of the memory. -/

namespace MmtkArt

/-- `std::ptr::copy_nonoverlapping::<u8>`; `none` where its behaviour is undefined. -/
def copyNonoverlapping (m : Memory) (src dst bytes : Nat) : Option Memory :=
  if src + bytes ≤ dst ∨ dst + bytes ≤ src then some (m.copy src dst bytes) else none

/-- What `copy` uses of mmtk-core's `GCWorkerCopyContext`. -/
structure CopyContext (CopySemantics : Type) where
  allocCopy : (object bytes align offset : Nat) → CopySemantics → Nat
  postCopy : Memory → (object bytes : Nat) → CopySemantics → Memory

namespace ArtObjectModel

/-- `LOCAL_FORWARDING_BITS_SPEC`: two bits of the header, from this one on. -/
def localForwardingBits : Nat := 61

variable (b : Build) [MmtkCore b] (m : Memory)

def getCurrentSize (object : Nat) : Option Nat := do
  return MmtkCore.rawAlignUp b (← getObjectSize b m object) MIN_ALIGNMENT

def getSizeWhenCopied (object : Nat) : Option Nat := getCurrentSize b m object

/-- The copy, and the memory afterwards. -/
def copy {CopySemantics : Type} (source : Nat) (semantics : CopySemantics)
    (copyContext : CopyContext CopySemantics) : Option (Nat × Memory) := do
  let bytes ← getSizeWhenCopied b m source
  let dst := copyContext.allocCopy source bytes MIN_ALIGNMENT 0 semantics
  let copied ← copyNonoverlapping m source dst bytes
  return (dst, copyContext.postCopy copied dst bytes semantics)

end ArtObjectModel

/-- mmtk-core's `post_copy` writes no byte of the memory but the one with the forwarding bits. -/
def CopyContext.KeepsBytes {CopySemantics : Type} (copyContext : CopyContext CopySemantics) :
    Prop :=
  ∀ m object bytes semantics a, a ≠ object + ArtObjectModel.localForwardingBits / 8 →
    copyContext.postCopy m object bytes semantics a = m a

/-- A context that allocates at `dst` and clears the forwarding bits of the copy. -/
def CopyContext.allocatingAt (dst : Nat) : CopyContext Unit where
  allocCopy _ _ _ _ _ := dst
  postCopy m object _ _ a :=
    if a = object + ArtObjectModel.localForwardingBits / 8 then m a &&& 0b10011111 else m a

theorem CopyContext.allocatingAt_keepsBytes (dst : Nat) : (allocatingAt dst).KeepsBytes :=
  fun _ _ _ _ _ h => if_neg h

end MmtkArt
