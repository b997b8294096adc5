import MmtkArt.Slot

/-! # Slices of slots

The array-copy barriers turn a count into bytes, the iterator of a slice walks over addresses, and
`copy` turns bytes into words. The three agree: a slice made for `count` slots iterates over exactly
these, and copying it moves exactly these (`slices_agree`). -/

namespace MmtkArt

/-- log_2 of how many bytes in an integer -/
def LOG_BYTES_IN_INT : Nat := 2

/-- log_2 of how many bytes in a slot -/
def LOG_BYTES_IN_SLOT : Nat := 2

/-- A range of slots. -/
structure ArtMemorySlice where
  start : ArtSlot
  /-- The end of the range, which is not in it -/
  stop : ArtSlot
  deriving DecidableEq, Repr

structure ArtSlotIterator where
  cursor : Nat
  limit : Nat
  deriving DecidableEq, Repr

section
variable (b : Build)

/-- `count << LOG_BYTES_IN_SLOT` -/
def slotBytes (count : Nat) : Option Nat :=
  FixedWidth.shl b.overflowChecks b.targetPointerWidth.bits count LOG_BYTES_IN_SLOT

/-- `(start..start + bytes).into()` -/
def ArtMemorySlice.fromRange (start bytes : Nat) : Option ArtMemorySlice := do
  return ⟨⟨start⟩, ⟨← FixedWidth.add b.overflowChecks b.usizeCard start bytes⟩⟩

/-- The slot that is next, if there is one, and the iterator after it. -/
def ArtSlotIterator.next (it : ArtSlotIterator) : Option (Option ArtSlot × ArtSlotIterator) :=
  if it.cursor ≥ it.limit then some (none, it)
  else do
    let slot := it.cursor
    let cursor ←
      FixedWidth.add b.overflowChecks b.usizeCard it.cursor (1 <<< LOG_BYTES_IN_SLOT)
    return (some ⟨slot⟩, { it with cursor })

/-- The slots up to the end of the iterator, in at most `fuel` calls of `next`. -/
def ArtSlotIterator.collect : Nat → ArtSlotIterator → Option (List ArtSlot)
  | 0, _ => none
  | fuel + 1, it => do
    match ← it.next b with
    | (none, _) => return []
    | (some slot, it) => return slot :: (← collect fuel it)

namespace ArtMemorySlice

def iterSlots (slice : ArtMemorySlice) : ArtSlotIterator :=
  ⟨slice.start.address, slice.stop.address⟩

def bytes (slice : ArtMemorySlice) : Option Nat :=
  FixedWidth.sub b.overflowChecks b.usizeCard slice.stop.address slice.start.address

/-- Raw memory copy: `std::ptr::copy` moves the words as if through a buffer. -/
def copy (debugAssertions : Bool) (m : Memory) (src tgt : ArtMemorySlice) : Option Memory := do
  debugAssert debugAssertions do return (← src.bytes b) = (← tgt.bytes b)
  debugAssert debugAssertions do return (← src.bytes b) &&& ((1 <<< LOG_BYTES_IN_INT) - 1) = 0
  let words := (← tgt.bytes b) >>> LOG_BYTES_IN_INT
  return m.copy src.start.address tgt.start.address (4 * words)

end ArtMemorySlice

/-- The slices that `mmtk_array_copy_pre` gives to the barrier. -/
def mmtkArrayCopyPre (src dst count : Nat) : Option (ArtMemorySlice × ArtMemorySlice) := do
  let bytes ← slotBytes b count
  return (← ArtMemorySlice.fromRange b src bytes, ← ArtMemorySlice.fromRange b dst bytes)

end

/-! ### Iteration -/

/-- The `count` slots from an address on. -/
def slotsFrom (start count : Nat) : List ArtSlot :=
  (List.range count).map fun i => ⟨start + 4 * i⟩

theorem slotsFrom_succ (start count : Nat) :
    slotsFrom start (count + 1) = ⟨start⟩ :: slotsFrom (start + 4) count := by
  rw [slotsFrom, slotsFrom, List.range_succ_eq_map, List.map_cons, List.map_map]
  congr 1
  refine List.map_congr_left fun i _ => ?_
  change (⟨start + 4 * (i + 1)⟩ : ArtSlot) = ⟨start + 4 + 4 * i⟩
  rw [Nat.mul_succ, Nat.add_assoc, Nat.add_comm 4]

theorem slotsFrom_add (start j k : Nat) :
    slotsFrom start (j + k) = slotsFrom start j ++ slotsFrom (start + 4 * j) k := by
  induction j generalizing start with
  | zero => rw [Nat.zero_add]; rfl
  | succ j ih =>
    rw [Nat.succ_add, slotsFrom_succ, slotsFrom_succ, ih, List.cons_append, Nat.mul_succ,
      Nat.add_assoc, Nat.add_comm 4]

theorem mem_slotsFrom {start count : Nat} {slot : ArtSlot} :
    slot ∈ slotsFrom start count ↔ ∃ i, i < count ∧ start + 4 * i = slot.address := by
  simp only [slotsFrom, List.mem_map, List.mem_range, ArtSlot.ext_iff]

variable {b : Build} {src dst start count : Nat}

namespace ArtSlotIterator

variable {cursor limit fuel : Nat}

theorem next_of_le (h : limit ≤ cursor) :
    next b ⟨cursor, limit⟩ = some (none, ⟨cursor, limit⟩) := if_pos h

theorem next_of_lt (h : cursor < limit) (hfit : cursor + 4 < b.usizeCard) :
    next b ⟨cursor, limit⟩ = some (some ⟨cursor⟩, ⟨cursor + 4, limit⟩) := by
  have hadd : FixedWidth.add b.overflowChecks b.usizeCard cursor (1 <<< LOG_BYTES_IN_SLOT) =
      some (cursor + 4) := FixedWidth.add_of_lt hfit
  rw [next, if_neg (Nat.not_le.mpr h), hadd]
  rfl

/-- The walk over the slots. The induction is on what is left of the slice. -/
theorem collect_eq (hend : start + 4 * count < b.usizeCard) (hfuel : count < fuel) :
    collect b fuel ⟨start, start + 4 * count⟩ = some (slotsFrom start count) := by
  induction count generalizing start fuel with
  | zero =>
    obtain ⟨fuel, rfl⟩ := Nat.exists_eq_succ_of_ne_zero (Nat.ne_of_gt hfuel)
    rw [collect, next_of_le (show start + 4 * 0 ≤ start from Nat.le_refl start)]
    rfl
  | succ count ih =>
    obtain ⟨fuel, rfl⟩ := Nat.exists_eq_succ_of_ne_zero (Nat.ne_of_gt (Nat.zero_lt_of_lt hfuel))
    have hlimit : start + 4 * (count + 1) = start + 4 + 4 * count := by omega
    have hrest : collect b fuel ⟨start + 4, start + 4 + 4 * count⟩ =
        some (slotsFrom (start + 4) count) := ih (by omega) (by omega)
    rw [collect, next_of_lt (by omega) (by omega), Option.bind_eq_bind, Option.bind_some, hlimit]
    dsimp only
    rw [hrest, slotsFrom_succ]
    rfl

end ArtSlotIterator

namespace ArtMemorySlice

/-- The iteration over the slice ends after these slots. -/
def Yields (b : Build) (slice : ArtMemorySlice) (l : List ArtSlot) : Prop :=
  ∃ n, ∀ fuel, n ≤ fuel → slice.iterSlots.collect b fuel = some l

/-- The slice of the `count` slots from an address on. -/
def ofCount (start count : Nat) : ArtMemorySlice := ⟨⟨start⟩, ⟨start + 4 * count⟩⟩

theorem ofCount_yields (hend : start + 4 * count < b.usizeCard) :
    (ofCount start count).Yields b (slotsFrom start count) :=
  ⟨count + 1, fun _ hfuel => ArtSlotIterator.collect_eq hend hfuel⟩

theorem slotBytes_eq (hfit : 4 * count < b.usizeCard) : slotBytes b count = some (4 * count) := by
  have hbits : LOG_BYTES_IN_SLOT < b.targetPointerWidth.bits := by
    cases b.targetPointerWidth <;> decide
  have hcount : count * 2 ^ LOG_BYTES_IN_SLOT = 4 * count := Nat.mul_comm _ _
  rw [slotBytes, FixedWidth.shl_of_lt hbits (hcount ▸ hfit), hcount]

theorem fromRange_eq (hend : start + 4 * count < b.usizeCard) :
    fromRange b start (4 * count) = some (ofCount start count) := by
  rw [fromRange, FixedWidth.add_of_lt hend]
  rfl

theorem bytes_ofCount (b : Build) (start count : Nat) :
    (ofCount start count).bytes b = some (4 * count) := by
  rw [bytes, ofCount, FixedWidth.sub_of_le (Nat.le_add_right _ _), Nat.add_sub_cancel_left]

/-- The debug assertions of a copy between slices of one count hold. -/
theorem copy_ofCount (debugAssertions : Bool) (m : Memory) :
    copy b debugAssertions m (ofCount src count) (ofCount dst count) =
      some (m.copy src dst (4 * count)) := by
  have hmask : 4 * count &&& ((1 <<< LOG_BYTES_IN_INT) - 1) = 0 := by
    rw [show (1 <<< LOG_BYTES_IN_INT) - 1 = 2 ^ 2 - 1 from rfl, Nat.and_two_pow_sub_one_eq_mod]
    omega
  have hwords : (4 * count) >>> LOG_BYTES_IN_INT = count := by
    rw [Nat.shiftRight_eq_div_pow]
    exact Nat.mul_div_cancel_left count (by decide)
  have hsame : (do return (← (ofCount src count).bytes b) = (← (ofCount dst count).bytes b)) =
      some true := by
    rw [bytes_ofCount, bytes_ofCount]
    exact congrArg some (decide_eq_true rfl)
  have hwhole : (do return (← (ofCount src count).bytes b) &&&
      ((1 <<< LOG_BYTES_IN_INT) - 1) = 0) = some true := by
    rw [bytes_ofCount]
    exact congrArg some (decide_eq_true hmask)
  rw [copy, hsame, hwhole, debugAssert_true, bytes_ofCount]
  change some (m.copy src dst (4 * ((4 * count) >>> LOG_BYTES_IN_INT))) = _
  rw [hwords]

end ArtMemorySlice

/-- The slices of the barriers. -/
theorem mmtkArrayCopyPre_eq (hsrc : src + 4 * count < b.usizeCard)
    (hdst : dst + 4 * count < b.usizeCard) :
    mmtkArrayCopyPre b src dst count = some (.ofCount src count, .ofCount dst count) := by
  rw [mmtkArrayCopyPre, ArtMemorySlice.slotBytes_eq (by omega), Option.bind_eq_bind,
    Option.bind_some, ArtMemorySlice.fromRange_eq hsrc, ArtMemorySlice.fromRange_eq hdst]
  rfl

/-- The iteration over a slice is over `count` slots from its start on, each inside, and it is that
over the two halves of any split one after the other. -/
def ArtMemorySlice.Walks (b : Build) (slice : ArtMemorySlice) (start count : Nat) : Prop :=
  slice.Yields b (slotsFrom start count) ∧
    (∀ slot ∈ slotsFrom start count,
      slice.start.address ≤ slot.address ∧ slot.address + 4 ≤ slice.stop.address) ∧
    ∀ j, j ≤ count → ∃ l l', Yields b ⟨slice.start, ⟨start + 4 * j⟩⟩ l ∧
      Yields b ⟨⟨start + 4 * j⟩, slice.stop⟩ l' ∧ slice.Yields b (l ++ l')

theorem ArtMemorySlice.ofCount_walks (hend : start + 4 * count < b.usizeCard) :
    (ofCount start count).Walks b start count := by
  refine ⟨ofCount_yields hend, fun slot hslot => ?_, fun j hj => ?_⟩
  · obtain ⟨i, hi, heq⟩ := mem_slotsFrom.mp hslot
    dsimp only [ofCount]
    omega
  · obtain ⟨k, rfl⟩ := Nat.exists_eq_add_of_le hj
    have hstop : start + 4 * (j + k) = start + 4 * j + 4 * k := by omega
    refine ⟨slotsFrom start j, slotsFrom (start + 4 * j) k, ofCount_yields (by omega), ?_, ?_⟩
    · rw [ofCount, hstop]
      exact ofCount_yields (by omega)
    · rw [← slotsFrom_add]
      exact ofCount_yields hend

/-- **The iteration and the copy agree** with the count that the barrier is given. -/
theorem slices_agree [FromRawAddress b] (hsrc : src + 4 * count < b.usizeCard)
    (hdst : dst + 4 * count < b.usizeCard) :
    ∃ s d, mmtkArrayCopyPre b src dst count = some (s, d) ∧ s.Walks b src count ∧
      d.Walks b dst count ∧
      ∀ debugAssertions m, ∃ m', ArtMemorySlice.copy b debugAssertions m s d = some m' ∧
        (∀ i, i < count →
          ArtSlot.load b m' ⟨dst + 4 * i⟩ = ArtSlot.load b m ⟨src + 4 * i⟩) ∧
        ∀ a, a < dst ∨ dst + 4 * count ≤ a → m' a = m a := by
  refine ⟨_, _, mmtkArrayCopyPre_eq hsrc hdst, ArtMemorySlice.ofCount_walks hsrc,
    ArtMemorySlice.ofCount_walks hdst, fun debugAssertions m =>
    ⟨_, ArtMemorySlice.copy_ofCount debugAssertions m, fun i hi => ?_,
      fun a ha => Memory.copy_of_outside ha⟩⟩
  have hword : (m.copy src dst (4 * count)).load32 (dst + 4 * i) = m.load32 (src + 4 * i) := by
    apply Memory.load32_congr
    intro j hj
    rw [Nat.add_assoc, Nat.add_assoc]
    exact Memory.copy_add (by omega)
  rw [ArtSlot.load, hword, ArtSlot.load]

/-- Three slots moved up by one: the ranges overlap. -/
theorem slices_agree_three :
    letI := FromRawAddress.documented .android64
    ∃ s d, mmtkArrayCopyPre .android64 0x1000 0x1004 3 = some (s, d) ∧
      s.Walks .android64 0x1000 3 ∧ d.Walks .android64 0x1004 3 := by
  let _ := FromRawAddress.documented .android64
  obtain ⟨s, d, hslices, hs, hd, -⟩ :=
    @slices_agree .android64 0x1000 0x1004 3 _ (by decide) (by decide)
  exact ⟨s, d, hslices, hs, hd⟩

end MmtkArt
