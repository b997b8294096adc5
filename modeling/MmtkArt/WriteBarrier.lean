import MmtkArt.ObjectScanning.Scannable
import MmtkArt.Slot

/-! # The write barrier

`mmtk_object_reference_write_post` asserts of a store that its slot is an aligned word inside the
source, or null, and that the source and the target are valid (`writePost_asserting`). -/

namespace MmtkArt
namespace Debug

section
variable (b : Build) (isObjectSane : Nat → Bool) (m : Memory) (src : Nat) (slot : ArtSlot)
  (target : Option Nat)

/-- What mmtk-core's barrier is given. -/
def mmtkObjectReferenceWritePost [MmtkCore b] : Option (Nat × ArtSlot × Option Nat) := do
  guard (isObjectSane src)
  guard (MmtkCore.rawIsAligned b slot.address 4)
  if slot.address ≠ 0 then
    guard (slot.address ≥ src)
    guard (slot.address < (← FixedWidth.add b.overflowChecks b.usizeCard src
      (← getObjectSize b isObjectSane m src)))
  guard (target.all isObjectSane)
  return (src, slot, target)

end

variable {b : Build} [MmtkCore b] {isObjectSane : Nat → Bool} {m : Memory} {ptrSize src : Nat}
  {slot : ArtSlot} {target : Option Nat}

end Debug
end MmtkArt
