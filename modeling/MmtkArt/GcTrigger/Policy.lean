import MmtkArt.Build

/-! # The ART GC trigger

`ArtTrigger` with the operations of `gc_trigger.rs`, each run without interference; `Threads.lean`
has the individual atomic accesses of the two that loop. The atomics of the source are plain
fields here. An operation is `none` when one of its additions panics. -/

namespace MmtkArt

/-- mmtk-core's page size is 4096 bytes. -/
def LOG_BYTES_IN_PAGE : Nat := 12

/-- `bytes >> LOG_BYTES_IN_PAGE` -/
def Usize.toPages {b : Build} (bytes : Usize b) : Usize b :=
  ⟨bytes.val >>> LOG_BYTES_IN_PAGE,
    Nat.lt_of_le_of_lt (Nat.shiftRight_le _ _) bytes.isLt⟩

theorem Usize.toPages_le {b : Build} {x y : Usize b} (h : x ≤ y) : x.toPages ≤ y.toPages := by
  have h : x.val ≤ y.val := h
  change x.val >>> LOG_BYTES_IN_PAGE ≤ y.val >>> LOG_BYTES_IN_PAGE
  rw [Nat.shiftRight_eq_div_pow, Nat.shiftRight_eq_div_pow]
  exact Nat.div_le_div_right h

/-- The ART GC trigger. Sizes are in pages. -/
structure ArtTrigger (b : Build) (F : Type) where
  /-- Minimum free heap size -/
  minFree : Usize b
  /-- The ideal maximum free heap size -/
  maxFree : Usize b
  /-- Max heap size -/
  capacity : Usize b
  /-- Size the heap is limited to -/
  growthLimit : Usize b
  targetUtilization : F
  /-- A GC is triggered when the heap size exceeds this value -/
  targetFootprint : Usize b
  pendingAllocation : Usize b
  reservedPagesBeforeGc : Usize b
  concurrentStartPages : Usize b
  foregroundHeapGrowthMultiplier : F
  /-- Cached target footprint for the switch from background to foreground; 0 is no value -/
  minForegroundTargetFootprint : Usize b
  minForegroundConcurrentStartPages : Usize b

/-- What the trigger reads of the MMTk instance. -/
structure Mmtk (b : Build) where
  reservedPages : Usize b
  isJankPerceptible : Bool
  isNurseryCollection : Bool

/-- The plan: the pages it has reserved, and its own collection test, which may ask the policy. -/
structure Plan (b : Build) (F : Type) (SpaceStats : Type) where
  reservedPages : Usize b
  collectionRequired : Bool → Option SpaceStats → ArtTrigger b F → Bool

namespace ArtTrigger

variable {b : Build} {F : Type} {SpaceStats : Type}

def new (minFree maxFree initialSize capacity growthLimit : Usize b)
    (targetUtilization foregroundHeapGrowthMultiplier : F) : ArtTrigger b F where
  minFree := minFree.toPages
  maxFree := maxFree.toPages
  capacity := capacity.toPages
  growthLimit := growthLimit.toPages
  targetUtilization
  targetFootprint := initialSize.toPages
  pendingAllocation := 0
  reservedPagesBeforeGc := 0
  concurrentStartPages := Usize.max b
  foregroundHeapGrowthMultiplier
  minForegroundTargetFootprint := 0
  minForegroundConcurrentStartPages := 0

def getHeapGrowthMultiplier [F64 F] (t : ArtTrigger b F) (jankPerceptible : Bool) : F :=
  if !jankPerceptible then F64.one else t.foregroundHeapGrowthMultiplier

def setIdealFootprint (t : ArtTrigger b F) (targetFootprint : Usize b) : ArtTrigger b F :=
  { t with
    targetFootprint :=
      if targetFootprint > t.growthLimit then t.growthLimit else targetFootprint }

/-- Set the capacity to the growth limit. -/
def clampGrowthLimit (t : ArtTrigger b F) : ArtTrigger b F :=
  { t with capacity := t.growthLimit }

/-- Set the growth limit to the capacity. -/
def clearGrowthLimit (t : ArtTrigger b F) : ArtTrigger b F :=
  { t with
    targetFootprint :=
      if t.targetFootprint = t.growthLimit ∧ t.growthLimit < t.capacity then t.capacity
      else t.targetFootprint
    growthLimit := t.capacity }

/-- Increase heap size when the application transitions to a jank perceptible state. Nothing
interferes here, so the first compare-exchange succeeds. -/
def growHeapOnJankPerceptibleSwitch (t : ArtTrigger b F) : ArtTrigger b F :=
  if t.targetFootprint < t.minForegroundTargetFootprint then
    { t with targetFootprint := t.minForegroundTargetFootprint }
  else t

section
variable [F64 F]

/-- `(self.max_free as f64 * multiplier) as usize` -/
def adjustedMaxFree (t : ArtTrigger b F) (multiplier : F) : Usize b :=
  F64.cast b.usizeCard (F64.mul (F64.ofNat t.maxFree) multiplier)

/-- `grow_pages` of a full collection. The delta is cast to `u64` before it becomes a `usize`. -/
def fullGrowPages (t : ArtTrigger b F) (reservedPages : Usize b) : Usize b :=
  let delta : Fin (2 ^ 64) := F64.cast (2 ^ 64) (F64.mul (F64.ofNat reservedPages)
    (F64.sub (F64.div F64.one t.targetUtilization) F64.one))
  max (min (Fin.ofNat b.usizeCard delta) t.maxFree) t.minFree

/-- `(grow_pages as f64 * multiplier) as usize` -/
def scaledGrowPages (growPages : Usize b) (multiplier : F) : Usize b :=
  F64.cast b.usizeCard (F64.mul (F64.ofNat growPages) multiplier)

/-- `target_size` and `grow_pages` before the pending allocations are added. -/
def targetSize (t : ArtTrigger b F) (mmtk : Mmtk b) : Option (Usize b × Usize b) :=
  let reservedPages := mmtk.reservedPages
  let multiplier := t.getHeapGrowthMultiplier mmtk.isJankPerceptible
  if mmtk.isNurseryCollection then do
    let sum ← reservedPages.add (t.adjustedMaxFree multiplier)
    if sum < t.targetFootprint then
      return (sum, t.maxFree)
    else
      return (max reservedPages t.targetFootprint, 0)
  else do
    let growPages := t.fullGrowPages reservedPages
    return (← reservedPages.add (scaledGrowPages growPages multiplier), growPages)

/-- `target_size` with the pending allocations added when they do not fit in its headroom. -/
def addPendingAllocation (t : ArtTrigger b F) (reservedPages targetSize : Usize b) :
    Option (Usize b) := do
  if (← targetSize.sub reservedPages) < t.pendingAllocation then
    targetSize.add t.pendingAllocation
  else some targetSize

/-- `min_foreground_target_footprint` -/
def foregroundTarget (t : ArtTrigger b F) (mmtk : Mmtk b) (growPages : Usize b) :
    Option (Usize b) := do
  let multiplier := t.getHeapGrowthMultiplier mmtk.isJankPerceptible
  if F64.le multiplier F64.one ∧ 0 < growPages then
    let sum ← mmtk.reservedPages.add (scaledGrowPages growPages t.foregroundHeapGrowthMultiplier)
    return min sum t.growthLimit
  else some 0

def growForUtilization (t : ArtTrigger b F) (mmtk : Mmtk b) : Option (ArtTrigger b F) := do
  let (targetSize, growPages) ← t.targetSize mmtk
  let targetSize ← t.addPendingAllocation mmtk.reservedPages targetSize
  let t := t.setIdealFootprint targetSize
  let minForegroundTargetFootprint ← t.foregroundTarget mmtk growPages
  return { t with minForegroundTargetFootprint }

def onGcEnd (t : ArtTrigger b F) (mmtk : Mmtk b) : Option (ArtTrigger b F) := do
  let t ← t.growForUtilization mmtk
  return { t with pendingAllocation := 0, reservedPagesBeforeGc := 0 }

end

def onPendingAllocation (t : ArtTrigger b F) (pages : Usize b) : ArtTrigger b F :=
  { t with pendingAllocation := t.pendingAllocation + pages }

def onGcStart (t : ArtTrigger b F) (mmtk : Mmtk b) : ArtTrigger b F :=
  { t with reservedPagesBeforeGc := mmtk.reservedPages }

/-- The loop of `is_gc_required` and the state it leaves. Nothing interferes here, so the
compare-exchange succeeds. -/
def isGcRequiredLoop (t : ArtTrigger b F) (reservedPages : Usize b) :
    Option (Bool × ArtTrigger b F) := do
  let oldTarget := t.targetFootprint
  let pendingAllocation := t.pendingAllocation
  let newTarget ← reservedPages.add pendingAllocation
  if newTarget ≤ oldTarget then
    return (false, t)
  else if newTarget > t.growthLimit then
    return (true, t)
  else
    -- between `target_footprint` and `growth_limit`
    return (false, { t with
      targetFootprint := newTarget
      pendingAllocation := t.pendingAllocation - pendingAllocation })

def isGcRequired (t : ArtTrigger b F) (spaceFull : Bool) (space : Option SpaceStats)
    (plan : Plan b F SpaceStats) : Option (Bool × ArtTrigger b F) := do
  let (gcRequired, t) ← t.isGcRequiredLoop plan.reservedPages
  return (gcRequired || plan.collectionRequired spaceFull space t, t)

def isHeapFull (t : ArtTrigger b F) (plan : Plan b F SpaceStats) : Bool :=
  plan.reservedPages ≥ t.targetFootprint

def getCurrentHeapSizeInPages (t : ArtTrigger b F) : Usize b := t.targetFootprint

def getMaxHeapSizeInPages (t : ArtTrigger b F) : Usize b := t.growthLimit

def canHeapSizeGrow (t : ArtTrigger b F) : Bool := t.targetFootprint < t.growthLimit

/-- `clamp_max_heap_size`, which returns `true` besides. -/
def clampMaxHeapSize (t : ArtTrigger b F) (maxHeapSize : Usize b) : Bool × ArtTrigger b F :=
  let maxHeapPages := maxHeapSize.toPages
  let t := { t with capacity := maxHeapPages, growthLimit := maxHeapPages }
  (true, t.setIdealFootprint maxHeapPages)

def growHeapSizeForEvent (t : ArtTrigger b F) : ArtTrigger b F :=
  t.growHeapOnJankPerceptibleSwitch

end ArtTrigger

/-- A plan that behaves so. -/
def Plan.ofReserved {b : Build} (F SpaceStats : Type) (reservedPages : Usize b) :
    Plan b F SpaceStats where
  reservedPages
  collectionRequired spaceFull _ t := spaceFull || decide (reservedPages ≥ t.targetFootprint)

end MmtkArt
