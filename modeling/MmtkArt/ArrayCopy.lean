import MmtkArt.MemorySlice

/-! # The check after an array copy

`mmtk_array_copy_post` means to compare the slots of two ranges that do not overlap. Its test for an
overlap asks for one of two inequalities of which one always holds (`overlapping_eq`), so it never
compares anything (`mmtkArrayCopyPost_eq`), and it meets its purpose only where there is nothing to
find (`detects_iff`). -/

namespace MmtkArt

/-- The assertions of `mmtk_array_copy_post`, with the addresses in their messages. -/
inductive ArrayCopyAssertion
  | notAligned (address : Nat)
  | notCopied (dst src : Nat)
  deriving DecidableEq, Repr

section
variable (b : Build)

/-- `idx += 1`, on an `i32`. -/
def nextIdx (idx : Int) : Option Int :=
  if idx + 1 < 2 ^ 31 then some (idx + 1)
  else if b.overflowChecks then none
  else some (Int.bmod (idx + 1) (2 ^ 32))

/-- `src + (idx << LOG_BYTES_IN_SLOT) as usize` -/
def srcSlotAddress (src : Nat) (idx : Int) : Option Nat :=
  FixedWidth.add b.overflowChecks b.usizeCard src
    (asUsize b (Int.bmod (idx * 2 ^ LOG_BYTES_IN_SLOT) (2 ^ 32)))

/-- `overlapping` -/
def overlapping (src dst count : Nat) : Option Bool := do
  if (← FixedWidth.add b.overflowChecks b.usizeCard src (← slotBytes b count)) > dst then
    return true
  else return (← FixedWidth.add b.overflowChecks b.usizeCard dst (← slotBytes b count)) > src

variable [MmtkCore b]

/-- The loop over the slots of the source. -/
def assertAligned : List ArtSlot → Except ArrayCopyAssertion Unit
  | [] => .ok ()
  | slot :: slots =>
    if MmtkCore.rawIsAligned b slot.address 4 then assertAligned slots
    else .error (.notAligned slot.address)

variable [FromRawAddress b]

/-- The loop over the slots of the destination. A failing assertion is an error, and `none` is an
overflow. -/
def assertCopied (m : Memory) (src dst count : Nat) :
    Int → List ArtSlot → Option (Except ArrayCopyAssertion Unit)
  | _, [] => some (.ok ())
  | idx, slot :: slots =>
    if MmtkCore.rawIsAligned b slot.address 4 then do
      -- We can't check this assertion for overlapping slices
      let overlapping ← overlapping b src dst count
      if src ≠ 0 && !overlapping then
        let srcAddress ← srcSlotAddress b src idx
        if ArtSlot.load b m slot = ArtSlot.load b m ⟨srcAddress⟩ then
          assertCopied m src dst count (← nextIdx b idx) slots
        else some (.error (.notCopied slot.address srcAddress))
      else assertCopied m src dst count idx slots
    else some (.error (.notAligned slot.address))

/-- What the debug assertions check. Neither loop changes the iteration that it is over, so the
slots are collected first. -/
def assertArrayCopy (fuel : Nat) (m : Memory) (src dst count : Nat) :
    Option (Except ArrayCopyAssertion Unit) := do
  let bytes ← slotBytes b count
  let srcSlice ← ArtMemorySlice.fromRange b src bytes
  let dstSlice ← ArtMemorySlice.fromRange b dst bytes
  match assertAligned b (← srcSlice.iterSlots.collect b fuel) with
  | .error e => return .error e
  | .ok () => assertCopied b m src dst count 0 (← dstSlice.iterSlots.collect b fuel)

/-- The slices given to the barrier, or the assertion that fails before. -/
def mmtkArrayCopyPost (debugAssertions : Bool) (fuel : Nat) (m : Memory) (src dst count : Nat) :
    Option (Except ArrayCopyAssertion (ArtMemorySlice × ArtMemorySlice)) := do
  let bytes ← slotBytes b count
  let asserts := if debugAssertions then assertArrayCopy b fuel m src dst count else some (.ok ())
  match ← asserts with
  | .error e => return .error e
  | .ok () =>
    return .ok (← ArtMemorySlice.fromRange b src bytes, ← ArtMemorySlice.fromRange b dst bytes)

end

variable {b : Build} {src dst count fuel : Nat} {m : Memory}

/-! ### The guard -/

/-- Of the two inequalities one always holds, unless both ranges are empty. -/
theorem overlapping_eq (hcount : 1 ≤ count) (hsrc : src + 4 * count < b.usizeCard)
    (hdst : dst + 4 * count < b.usizeCard) : overlapping b src dst count = some true := by
  rw [overlapping, ArtMemorySlice.slotBytes_eq (by omega), Option.bind_eq_bind, Option.bind_some,
    FixedWidth.add_of_lt hsrc, Option.bind_some]
  split
  · rfl
  · rw [Option.bind_some, FixedWidth.add_of_lt hdst, Option.bind_some]
    exact congrArg some (decide_eq_true (by omega))

variable [MmtkCore b]

theorem rawIsAligned_four {a : Nat} (ha : a < b.usizeCard) (h : 4 ∣ a) :
    MmtkCore.rawIsAligned b a 4 = true := (MmtkCore.rawIsAligned_iff (k := 2) ha).mpr h

theorem assertAligned_ok {slots : List ArtSlot}
    (h : ∀ slot ∈ slots, MmtkCore.rawIsAligned b slot.address 4 = true) :
    assertAligned b slots = .ok () := by
  induction slots with
  | nil => rfl
  | cons slot slots ih =>
    rw [assertAligned, if_pos (h slot List.mem_cons_self)]
    exact ih fun s hs => h s (List.mem_cons_of_mem slot hs)

theorem rawIsAligned_of_mem_slotsFrom {start : Nat} (ha : 4 ∣ start)
    (hend : start + 4 * count < b.usizeCard) :
    ∀ slot ∈ slotsFrom start count, MmtkCore.rawIsAligned b slot.address 4 = true := by
  intro slot hslot
  obtain ⟨i, hi, heq⟩ := mem_slotsFrom.mp hslot
  exact rawIsAligned_four (by omega) (by omega)

variable [FromRawAddress b]

/-- Behind the guard nothing is compared. -/
theorem assertCopied_ok {slots : List ArtSlot} {idx : Int}
    (hover : overlapping b src dst count = some true)
    (h : ∀ slot ∈ slots, MmtkCore.rawIsAligned b slot.address 4 = true) :
    assertCopied b m src dst count idx slots = some (.ok ()) := by
  induction slots with
  | nil => rfl
  | cons slot slots ih =>
    rw [assertCopied, if_pos (h slot List.mem_cons_self), hover, Option.bind_eq_bind,
      Option.bind_some, if_neg (by simp)]
    exact ih fun s hs => h s (List.mem_cons_of_mem slot hs)

/-- No assertion fails, whatever was copied. -/
theorem assertArrayCopy_eq (hs : 4 ∣ src) (hd : 4 ∣ dst) (hcount : 1 ≤ count)
    (hsrc : src + 4 * count < b.usizeCard) (hdst : dst + 4 * count < b.usizeCard)
    (hfuel : count < fuel) : assertArrayCopy b fuel m src dst count = some (.ok ()) := by
  have hslots : ∀ start, start + 4 * count < b.usizeCard →
      (ArtMemorySlice.ofCount start count).iterSlots.collect b fuel =
        some (slotsFrom start count) :=
    fun _ hend => ArtSlotIterator.collect_eq hend hfuel
  have haligned := assertAligned_ok (rawIsAligned_of_mem_slotsFrom hs hsrc)
  have hcopied : assertCopied b m src dst count 0 (slotsFrom dst count) = some (.ok ()) :=
    assertCopied_ok (overlapping_eq hcount hsrc hdst) (rawIsAligned_of_mem_slotsFrom hd hdst)
  have hbytes : slotBytes b count = some (4 * count) :=
    ArtMemorySlice.slotBytes_eq (by omega)
  simp only [assertArrayCopy, hbytes, ArtMemorySlice.fromRange_eq hsrc,
    ArtMemorySlice.fromRange_eq hdst, hslots src hsrc, hslots dst hdst, haligned, hcopied,
    Option.bind_eq_bind, Option.bind_some]

theorem mmtkArrayCopyPost_eq (debugAssertions : Bool) (hs : 4 ∣ src) (hd : 4 ∣ dst)
    (hcount : 1 ≤ count) (hsrc : src + 4 * count < b.usizeCard)
    (hdst : dst + 4 * count < b.usizeCard) (hfuel : count < fuel) :
    mmtkArrayCopyPost b debugAssertions fuel m src dst count =
      some (.ok (.ofCount src count, .ofCount dst count)) := by
  have hbytes : slotBytes b count = some (4 * count) :=
    ArtMemorySlice.slotBytes_eq (by omega)
  simp only [mmtkArrayCopyPost, assertArrayCopy_eq hs hd hcount hsrc hdst hfuel, ite_self, hbytes,
    ArtMemorySlice.fromRange_eq hsrc, ArtMemorySlice.fromRange_eq hdst, Option.bind_eq_bind,
    Option.bind_some]
  rfl

/-! ### What the check detects -/

/-- The ranges do not intersect. -/
def RangesDisjoint (src dst count : Nat) : Prop := src + 4 * count ≤ dst ∨ dst + 4 * count ≤ src

/-- An assertion fails. -/
def PostFails (b : Build) [MmtkCore b] [FromRawAddress b] (fuel : Nat) (m : Memory)
    (src dst count : Nat) : Prop :=
  ∃ e, mmtkArrayCopyPost b true fuel m src dst count = some (.error e)

/-- Every slot of the destination loads what its slot of the source loads. -/
def SlotsCopied (b : Build) [FromRawAddress b] (m : Memory) (src dst count : Nat) : Prop :=
  ∀ i, i < count → ArtSlot.load b m ⟨dst + 4 * i⟩ = ArtSlot.load b m ⟨src + 4 * i⟩

/-- An assertion fails for a wrong copy between disjoint ranges, and only for one. -/
def DetectsWrongCopy (b : Build) [MmtkCore b] [FromRawAddress b] (fuel : Nat) (m : Memory)
    (src dst count : Nat) : Prop :=
  (RangesDisjoint src dst count →
    (PostFails b fuel m src dst count ↔ ¬ SlotsCopied b m src dst count)) ∧
    (¬ RangesDisjoint src dst count → ¬ PostFails b fuel m src dst count)

/-- **The check meets its purpose where there is nothing to find**: where the ranges intersect or
the copy is right. -/
theorem detects_iff (hs : 4 ∣ src) (hd : 4 ∣ dst) (hcount : 1 ≤ count)
    (hsrc : src + 4 * count < b.usizeCard) (hdst : dst + 4 * count < b.usizeCard)
    (hfuel : count < fuel) :
    DetectsWrongCopy b fuel m src dst count ↔
      ¬ RangesDisjoint src dst count ∨ SlotsCopied b m src dst count := by
  have hnever : ¬ PostFails b fuel m src dst count := by
    rintro ⟨e, he⟩
    rw [mmtkArrayCopyPost_eq true hs hd hcount hsrc hdst hfuel] at he
    cases he
  rw [DetectsWrongCopy, iff_false_left hnever, not_not]
  constructor
  · rintro ⟨hdisj, -⟩
    by_cases h : RangesDisjoint src dst count
    · exact .inr (hdisj h)
    · exact .inl h
  · rintro (h | h)
    · exact ⟨fun hdisj => absurd hdisj h, fun _ => hnever⟩
    · exact ⟨fun _ => h, fun _ => hnever⟩

/-- Two slots that hold null were copied to two that hold null. -/
theorem detects_null :
    letI := MmtkCore.documented .android64
    letI := FromRawAddress.documented .android64
    DetectsWrongCopy .android64 3 (.ofWords []) 0x1000 0x2000 2 := by
  let _ := MmtkCore.documented .android64
  let _ := FromRawAddress.documented .android64
  exact (detects_iff (by decide) (by decide) (by decide) (by decide) (by decide)
    (by decide)).mpr (.inr fun _ _ => rfl)

/-- The source holds a reference, and the destination was left null. -/
theorem not_detects :
    letI := MmtkCore.documented .android64
    letI := FromRawAddress.documented .android64
    ¬ ∀ (m : Memory) (src dst count fuel : Nat), src ≠ 0 → 4 ∣ src → 4 ∣ dst → 1 ≤ count →
      src + 4 * count < Build.android64.usizeCard → dst + 4 * count < Build.android64.usizeCard →
      count < fuel → DetectsWrongCopy .android64 fuel m src dst count := by
  let _ := MmtkCore.documented .android64
  let _ := FromRawAddress.documented .android64
  intro h
  have hdetects := h (.ofWords [(0x1000, 0x5000)]) 0x1000 0x2000 1 2 (by decide) (by decide)
    (by decide) (by decide) (by decide) (by decide) (by decide)
  have hwrong : ¬ SlotsCopied .android64 (.ofWords [(0x1000, 0x5000)]) 0x1000 0x2000 1 :=
    fun hcopied => absurd (hcopied 0 (by decide)) (by decide +kernel)
  obtain ⟨e, he⟩ := (hdetects.1 (.inl (by decide))).mpr hwrong
  have heval : mmtkArrayCopyPost .android64 true 2 (.ofWords [(0x1000, 0x5000)]) 0x1000 0x2000 1 =
      some (.ok (.ofCount 0x1000 1, .ofCount 0x2000 1)) := by
    decide +kernel
  rw [heval] at he
  cases he

end MmtkArt
