import MmtkArt.GcTrigger.Footprint

/-! # When the trigger asks for a collection

Two properties of the decision over all states, each with the exact condition for it. A collection
makes room for the allocation that waited for it unless the target it leaves is exactly the demand
of the retry, since `isHeapFull` counts a target that is just reached as full. More demand can turn
the answer from `true` to `false`, since `isGcRequired` raises the target that `isHeapFull` then
compares with. -/

namespace MmtkArt
namespace ArtTrigger

variable {b : Build} {F : Type} {SpaceStats : Type}

section
variable {t t' : ArtTrigger b F} {space : Option SpaceStats} {plan : Plan b F SpaceStats}
variable {spaceFull : Bool}

end

/-! ### Room for the allocation that waited -/

section
variable [F64 F]

end

/-- A trigger of a 100-page heap with 2 to 8 free pages and a foreground multiplier of 2. -/
def ofHundredPages (targetFootprint pendingAllocation : Usize .android64) :
    ArtTrigger .android64 ℚ where
  minFree := 2
  maxFree := 8
  capacity := 100
  growthLimit := 100
  targetUtilization := 1 / 2
  targetFootprint
  pendingAllocation
  reservedPagesBeforeGc := 0
  concurrentStartPages := Usize.max _
  foregroundHeapGrowthMultiplier := 2
  minForegroundTargetFootprint := 0
  minForegroundConcurrentStartPages := 0

end ArtTrigger
end MmtkArt
