import MmtkArt.MmtkCore

/-! # The address range of the heap

`set_vm_layout` fixes the range `[heap_start, heap_end)` once, from the capacity that the trigger
is created with. It rejects a capacity above 2 GiB, but on a 64-bit target the boot image follows
sooner, and the slack is not counted against it (`belowBootImage_iff`). -/

namespace MmtkArt

structure VmLayout where
  logAddressSpace : Nat
  heapStart : Nat
  heapEnd : Nat
  logSpaceExtent : Nat
  forceUseContiguousSpaces : Bool
  deriving DecidableEq, Repr

/-- Start the heap from the first chunk. On a 32-bit target asan reserves what is below. -/
def PointerWidth.heapBase : PointerWidth → Nat
  | .w64 => 0x0040_0000
  | .w32 => 0x2000_0000

theorem PointerWidth.heapBase_le (width : PointerWidth) : width.heapBase ≤ 0x2000_0000 := by
  cases width <;> decide

theorem PointerWidth.dvd_heapBase (width : PointerWidth) : BYTES_IN_CHUNK ∣ width.heapBase := by
  cases width <;> decide

section
variable {b : Build} [MmtkCore b]

/-- The layout given to the builder; `none` is the failing assertion or an overflow. -/
def setVmLayout (maxHeapSize : Usize b) : Option VmLayout := do
  if maxHeapSize.val ≤ 2 <<< 30 then
    let start := b.targetPointerWidth.heapBase
    let end' ← FixedWidth.add b.overflowChecks b.usizeCard start maxHeapSize
    let limit ← FixedWidth.add b.overflowChecks b.usizeCard end' (5 * BYTES_IN_CHUNK)
    return {
      logAddressSpace := 32
      heapStart := MmtkCore.chunkAlignDown b start
      -- the slack is for the collection reserve
      heapEnd := MmtkCore.chunkAlignUp b limit
      logSpaceExtent := 31
      forceUseContiguousSpaces := false }
  else none

/-- The layout in exact arithmetic. -/
def VmLayout.ofHeapSize (width : PointerWidth) (maxHeapSize : Nat) : VmLayout where
  logAddressSpace := 32
  heapStart := width.heapBase
  heapEnd := alignUp BYTES_IN_CHUNK (width.heapBase + maxHeapSize + 5 * BYTES_IN_CHUNK)
  logSpaceExtent := 31
  forceUseContiguousSpaces := false

/-- Up to 2 GiB nothing overflows. -/
theorem setVmLayout_of_le {maxHeapSize : Usize b} (hle : maxHeapSize.val ≤ 2 ^ 31) :
    setVmLayout maxHeapSize = some (.ofHeapSize b.targetPointerWidth maxHeapSize) := by
  have hcard := b.two_pow_32_le_usizeCard
  have hbase := b.targetPointerWidth.heapBase_le
  have hchunk : BYTES_IN_CHUNK = 2 ^ 22 := rfl
  rw [setVmLayout, if_pos (show maxHeapSize.val ≤ 2 <<< 30 from hle)]
  dsimp only
  rw [FixedWidth.add_of_lt (by omega), Option.bind_eq_bind, Option.bind_some,
    FixedWidth.add_of_lt (by omega), Option.bind_some, MmtkCore.chunkAlignDown_eq (by omega),
    MmtkCore.chunkAlignUp_eq (by omega), alignDown_of_dvd (PointerWidth.dvd_heapBase _)]
  rfl

/-- The layout of an accepted capacity. -/
theorem setVmLayout_eq_some {maxHeapSize : Usize b} {layout : VmLayout}
    (h : setVmLayout maxHeapSize = some layout) :
    maxHeapSize.val ≤ 2 ^ 31 ∧ layout = .ofHeapSize b.targetPointerWidth maxHeapSize := by
  by_cases hle : maxHeapSize.val ≤ 2 ^ 31
  · rw [setVmLayout_of_le hle] at h
    exact ⟨hle, (Option.some.inj h).symm⟩
  · rw [setVmLayout, if_neg (show ¬ maxHeapSize.val ≤ 2 <<< 30 from hle)] at h
    cases h

/-- The range is made of chunks, with room for `maxHeapSize` bytes and the five-chunk slack. -/
structure VmLayout.Reserves (layout : VmLayout) (maxHeapSize : Nat) : Prop where
  start_aligned : BYTES_IN_CHUNK ∣ layout.heapStart
  end_aligned : BYTES_IN_CHUNK ∣ layout.heapEnd
  room : layout.heapStart + maxHeapSize + 5 * BYTES_IN_CHUNK ≤ layout.heapEnd

theorem VmLayout.ofHeapSize_reserves (width : PointerWidth) (maxHeapSize : Nat) :
    (ofHeapSize width maxHeapSize).Reserves maxHeapSize where
  start_aligned := width.dvd_heapBase
  end_aligned := dvd_alignUp
  room := le_alignUp (by decide)

theorem setVmLayout_reserves {maxHeapSize : Usize b} {layout : VmLayout}
    (h : setVmLayout maxHeapSize = some layout) : layout.Reserves maxHeapSize := by
  obtain ⟨-, rfl⟩ := setVmLayout_eq_some h
  exact VmLayout.ofHeapSize_reserves _ _

/-- `pages` pages and the five-chunk slack fit in the range. -/
def VmLayout.Holds (layout : VmLayout) (pages : Nat) : Prop :=
  layout.heapStart + (pages * 4096 + 5 * BYTES_IN_CHUNK) ≤ layout.heapEnd

/-- The range has room for the capacity it was made for. -/
theorem setVmLayout_holds {maxHeapSize : Usize b} {layout : VmLayout} {pages : Nat}
    (h : setVmLayout maxHeapSize = some layout) (hp : pages ≤ maxHeapSize.val >>> 12) :
    layout.Holds pages := by
  have hroom := (setVmLayout_reserves h).room
  rw [Nat.shiftRight_eq_div_pow, Nat.le_div_iff_mul_le (by decide)] at hp
  unfold VmLayout.Holds
  omega

/-! ### The boot image -/

/-- The ART boot image really wants to be mapped here. -/
def bootImageStart : Nat := 0x7000_0000

/-- The range ends before the boot image starts. -/
structure VmLayout.BelowBootImage (layout : VmLayout) (maxHeapSize : Nat) : Prop
    extends layout.Reserves maxHeapSize where
  end_le : layout.heapEnd ≤ bootImageStart

/-- The boot image starts at a chunk, so rounding up does not reach into it. -/
theorem VmLayout.ofHeapSize_heapEnd_le_iff {maxHeapSize : Nat} :
    (ofHeapSize .w64 maxHeapSize).heapEnd ≤ bootImageStart ↔ maxHeapSize ≤ 1768 * 2 ^ 20 := by
  have hchunk : BYTES_IN_CHUNK = 2 ^ 22 := rfl
  have hbase : PointerWidth.w64.heapBase = 0x40_0000 := rfl
  have hdvd : BYTES_IN_CHUNK ∣ bootImageStart := by decide
  rw [ofHeapSize, alignUp_le_iff (by decide) hdvd, bootImageStart]
  omega

/-- **The heap stays below the boot image** up to 1768 MiB: the 1788 MiB between the start of the
heap and the boot image, without the slack. Larger sizes are rejected only above 2 GiB. -/
theorem belowBootImage_iff (hb : b.targetPointerWidth = .w64) (maxHeapSize : Usize b) :
    (∀ layout, setVmLayout maxHeapSize = some layout → layout.Reserves maxHeapSize) ∧
    ((∀ layout, setVmLayout maxHeapSize = some layout → layout.BelowBootImage maxHeapSize) ↔
      maxHeapSize.val ≤ 1768 * 2 ^ 20 ∨ 2 ^ 31 < maxHeapSize.val) := by
  refine ⟨fun _ => setVmLayout_reserves, ?_⟩
  constructor
  · intro h
    refine or_iff_not_imp_right.mpr fun hle => ?_
    have hlayout := setVmLayout_of_le (not_lt.mp hle)
    rw [hb] at hlayout
    exact VmLayout.ofHeapSize_heapEnd_le_iff.mp (h _ hlayout).end_le
  · intro hsize layout h
    obtain ⟨hle, heq⟩ := setVmLayout_eq_some h
    have hend := VmLayout.ofHeapSize_heapEnd_le_iff.mpr (hsize.resolve_right (not_lt.mpr hle))
    rw [hb] at heq
    exact ⟨setVmLayout_reserves h, heq ▸ hend⟩

end

/-- The largest heap that ends where the boot image starts. -/
theorem belowBootImage_largest :
    letI := MmtkCore.documented .android64
    ∃ layout, setVmLayout (b := .android64) ⟨1768 * 2 ^ 20, by decide⟩ = some layout ∧
      layout.heapEnd = bootImageStart ∧ layout.BelowBootImage (1768 * 2 ^ 20) := by
  let _ := MmtkCore.documented .android64
  obtain ⟨-, hbelow⟩ :=
    @belowBootImage_iff .android64 _ rfl ⟨1768 * 2 ^ 20, by decide⟩
  have hlayout : setVmLayout (b := .android64) ⟨1768 * 2 ^ 20, by decide⟩ =
      some ⟨32, 0x40_0000, 0x7000_0000, 31, false⟩ := by decide +kernel
  exact ⟨_, hlayout, rfl, hbelow.mpr (.inl le_rfl) _ hlayout⟩

/-- The documented maximum of 1788 MiB is accepted, and its slack reaches into the boot image. -/
theorem not_belowBootImage :
    letI := MmtkCore.documented .android64
    ¬ ∀ (maxHeapSize : Usize .android64) (layout : VmLayout),
      setVmLayout maxHeapSize = some layout → layout.BelowBootImage maxHeapSize := by
  let _ := MmtkCore.documented .android64
  intro h
  have hlayout : setVmLayout (b := .android64) ⟨1788 * 2 ^ 20, by decide⟩ =
      some ⟨32, 0x40_0000, 0x7140_0000, 31, false⟩ := by decide +kernel
  exact absurd (h _ _ hlayout).end_le (by decide)

end MmtkArt
