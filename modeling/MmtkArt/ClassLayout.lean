import MmtkArt.ObjectScanning.Slots
import MmtkArt.Util.Placement

/-! # The layout of a Class object

`compute_class_size`, the offset of the first static reference and the place of the overflow bitmap
are computed apart from each other. They agree: between the static references and the bitmap there
is a naturally aligned placement of the primitive static fields (`computeClassSize_layout`). -/

namespace MmtkArt
namespace Class

/-! ### Filling the gap -/

section
variable {width n gap fuel : Nat}

theorem shuffleForward_eq (hw : 0 < width) : shuffleForward width n gap =
    (n - min n (gap / width), gap - width * min n (gap / width)) := by
  induction n generalizing gap with
  | zero => rw [shuffleForward, Nat.zero_min, Nat.mul_zero, Nat.zero_sub, Nat.sub_zero]
  | succ n ih =>
    rw [shuffleForward]
    split
    · next hge =>
      have hdiv : gap / width = (gap - width) / width + 1 := by
        rw [← Nat.add_div_right _ hw, Nat.sub_add_cancel hge]
      rw [ih, hdiv, Nat.add_min_add_right, Nat.mul_succ, Nat.add_sub_add_right, ← Nat.sub_sub,
        Nat.sub_right_comm]
    · next hlt =>
      rw [Nat.div_eq_of_lt (not_le.mp hlt), Nat.min_zero, Nat.mul_zero, Nat.sub_zero, Nat.sub_zero]

/-- The loop of `compute_class_size`, in at most `fuel` passes. The subtractions are checked. -/
def shuffleLoop (width : Nat) : Nat → Nat → Nat → Option (Nat × Nat)
  | 0, _, _ => none
  | fuel + 1, n, gap =>
    if gap ≥ width ∧ n ≠ 0 then do
      let n ← FixedWidth.sub true (2 ^ 32) n 1
      let gap ← FixedWidth.sub true (2 ^ 32) gap width
      shuffleLoop width fuel n gap
    else some (n, gap)

/-- The loop terminates and takes neither the fields nor the gap below zero. -/
theorem shuffleLoop_eq (hw : 0 < width) (hfuel : gap < fuel) :
    shuffleLoop width fuel n gap = some (shuffleForward width n gap) := by
  induction fuel generalizing n gap with
  | zero => exact absurd hfuel (Nat.not_lt_zero _)
  | succ fuel ih =>
    rw [shuffleLoop]
    cases n with
    | zero => rw [if_neg fun h => h.2 rfl, shuffleForward]
    | succ n =>
      rw [shuffleForward]
      by_cases hge : gap ≥ width
      · rw [if_pos ⟨hge, Nat.succ_ne_zero n⟩, if_pos hge, FixedWidth.sub_of_le (by omega),
          Option.bind_eq_bind, Option.bind_some, FixedWidth.sub_of_le hge, Option.bind_some,
          Nat.add_sub_cancel]
        exact ih (by omega)
      · rw [if_neg fun h => hge h.1, if_neg hge]

end

/-- Fields of falling widths follow each other without padding. -/
theorem placeable_falling {lo hi n8 n16 n32 n64 : Nat} (h4 : 4 ∣ lo) (h8 : 0 < n64 → 8 ∣ lo)
    (hend : lo + 8 * n64 + 4 * n32 + 2 * n16 + n8 ≤ hi) :
    Placeable lo hi (List.replicate n64 8 ++ List.replicate n32 4 ++ List.replicate n16 2 ++
      List.replicate n8 1) := by
  have p64 : Placeable lo (lo + 8 * n64) (List.replicate n64 8) := .replicate h8 (by omega)
  have p32 : Placeable (lo + 8 * n64) (lo + 8 * n64 + 4 * n32) (List.replicate n32 4) :=
    .replicate (fun _ => by omega) (by omega)
  have p16 : Placeable (lo + 8 * n64 + 4 * n32) (lo + 8 * n64 + 4 * n32 + 2 * n16)
      (List.replicate n16 2) := .replicate (fun _ => by omega) (by omega)
  have p8 : Placeable (lo + 8 * n64 + 4 * n32 + 2 * n16) hi (List.replicate n8 1) :=
    .replicate (fun _ => one_dvd _) (by omega)
  exact ((p64.append p32 (by omega) (by omega)).append p16 (by omega) (by omega)).append p8
    (by omega) (by omega)

section
variable {b : Build} [MmtkCore b] {n8 n16 n32 n64 : Nat}

/-- What padding can do: the gap, and how many fields of each width fill it. -/
theorem padStaticFields_eq {size : Nat} (n8 n16 n32 n64 : Nat) (hfit : size + 8 ≤ b.usizeCard) :
    ∃ gap k8 k16 k32, padStaticFields b size n8 n16 n32 n64 =
        some (size + gap, n8 - k8, n16 - k16, n32 - k32) ∧
      k8 ≤ n8 ∧ k16 ≤ n16 ∧ k32 ≤ n32 ∧ 4 * k32 + 2 * k16 + k8 ≤ gap ∧ gap < 8 ∧
      (gap = 0 ∨ 8 ∣ size + gap) ∧ (0 < n64 → 8 ∣ size + gap) := by
  have haligned : MmtkCore.rawIsAligned b size 8 = true ↔ 8 ∣ size :=
    MmtkCore.rawIsAligned_iff (k := 3) (by omega)
  have hpad : (!MmtkCore.rawIsAligned b size 8 && decide (n64 > 0)) = true ↔
      ¬ 8 ∣ size ∧ 0 < n64 := by
    rw [Bool.and_eq_true, Bool.not_eq_true', ← Bool.not_eq_true, haligned, decide_eq_true_iff]
  have hmod : size &&& 0x7 = size % 8 := Nat.and_two_pow_sub_one_eq_mod size 3
  rw [padStaticFields, hmod]
  split
  · next h =>
    have h := hpad.mp h
    dsimp only
    rw [FixedWidth.add_of_lt (by omega), Option.bind_eq_bind, Option.bind_some,
      shuffleForward_eq (by decide), shuffleForward_eq (by decide), shuffleForward_eq (by decide)]
    refine ⟨_, _, _, _, rfl, min_le_left _ _, min_le_left _ _, min_le_left _ _, ?_, by omega,
      .inr (by omega), fun _ => by omega⟩
    dsimp only
    omega
  · next h =>
    refine ⟨0, 0, 0, 0, rfl, Nat.zero_le _, Nat.zero_le _, Nat.zero_le _, le_rfl, by decide,
      .inl rfl, fun hpos => ?_⟩
    by_contra hna
    exact h (hpad.mpr ⟨hna, hpos⟩)

/-- The primitive static fields, by falling widths. -/
def primitiveStaticFields (n8 n16 n32 n64 : Nat) : List Nat :=
  List.replicate n64 8 ++ List.replicate n32 4 ++ List.replicate n16 2 ++ List.replicate n8 1

/-- The fields in the gap, and those after it. -/
theorem primitiveStaticFields_perm {k8 k16 k32 : Nat} (h8 : k8 ≤ n8) (h16 : k16 ≤ n16)
    (h32 : k32 ≤ n32) :
    (primitiveStaticFields k8 k16 k32 0 ++
      primitiveStaticFields (n8 - k8) (n16 - k16) (n32 - k32) n64).Perm
      (primitiveStaticFields n8 n16 n32 n64) := by
  rw [List.perm_iff_count]
  intro w
  simp only [primitiveStaticFields, List.count_append, List.count_replicate]
  split_ifs <;> omega

omit [MmtkCore b] in
theorem primitiveStaticFieldsSize_eq
    (hfit : n8 * 1 + n16 * 2 + n32 * 4 + n64 * 8 < b.usizeCard) :
    primitiveStaticFieldsSize b n8 n16 n32 n64 =
      some (n8 * 1 + n16 * 2 + n32 * 4 + n64 * 8) := by
  simp (disch := omega) only [primitiveStaticFieldsSize, FixedWidth.mul_of_lt,
    FixedWidth.add_of_lt, Option.bind_eq_bind, Option.bind_some]

/-- **The size of a class.** From the start of the static fields on come the references, the
primitive fields, and the words of the bitmap. -/
theorem computeClassSize_layout {hasEmbeddedVtable : Bool} {numVtableEntries first numRefs
    numBitmap ptrSize : Nat}
    (hfirst : (if hasEmbeddedVtable then embeddedVtableEnd b numVtableEntries ptrSize
      else some Class.size) = some first) (h4 : 4 ∣ first)
    (hsum : first + 4 * numRefs + n8 + 2 * n16 + 4 * n32 + 8 * n64 + 4 * numBitmap < 2 ^ 31) :
    ∃ size, computeClassSize b hasEmbeddedVtable numVtableEntries n8 n16 n32 n64 numRefs numBitmap
        ptrSize = some size ∧
      first + 4 * numRefs + 4 * numBitmap ≤ size ∧ (0 < numBitmap → 4 ∣ size - 4 * numBitmap) ∧
      Placeable (first + 4 * numRefs) (size - 4 * numBitmap)
        (primitiveStaticFields n8 n16 n32 n64) := by
  have h32 := b.two_pow_32_le_usizeCard
  obtain ⟨gap, k8, k16, k32, hpad, hk8, hk16, hk32, hfill, hgap, hdvd, hdvd8⟩ :=
    padStaticFields_eq n8 n16 n32 n64
      (show first + numRefs * 4 + 8 ≤ b.usizeCard by omega)
  have hfields := primitiveStaticFieldsSize_eq (show
    (n8 - k8) * 1 + (n16 - k16) * 2 + (n32 - k32) * 4 + n64 * 8 < b.usizeCard by omega)
  obtain ⟨fieldsEnd, hend⟩ : ∃ x, x = first + numRefs * 4 + gap +
    ((n8 - k8) * 1 + (n16 - k16) * 2 + (n32 - k32) * 4 + n64 * 8) := ⟨_, rfl⟩
  -- the primitive fields, in the gap and after it
  have hplace : Placeable (first + 4 * numRefs) fieldsEnd
      (primitiveStaticFields n8 n16 n32 n64) := by
    have hin : Placeable (first + 4 * numRefs) (first + 4 * numRefs + gap)
        (primitiveStaticFields k8 k16 k32 0) :=
      placeable_falling (by omega) (fun h => absurd h (lt_irrefl 0)) (by omega)
    have hout : Placeable (first + 4 * numRefs + gap) fieldsEnd
        (primitiveStaticFields (n8 - k8) (n16 - k16) (n32 - k32) n64) :=
      placeable_falling (by omega) (fun h => by have := hdvd8 h; omega) (by omega)
    exact (hin.append hout (by omega) (by omega)).perm (primitiveStaticFields_perm hk8 hk16 hk32)
  have hrefs : FixedWidth.mul b.overflowChecks b.usizeCard numRefs ART_HEAP_REFERENCE_SIZE =
      some (numRefs * 4) := FixedWidth.mul_of_lt (show numRefs * 4 < b.usizeCard by omega)
  have hstart : ∀ k : Nat → Option Nat, (if hasEmbeddedVtable = true then
      (embeddedVtableEnd b numVtableEntries ptrSize).bind k else (some Class.size).bind k) =
      k first := by
    intro k
    rw [← Option.bind_some first k, ← hfirst]
    split <;> rfl
  rw [computeClassSize, hrefs]
  simp only [Option.bind_eq_bind]
  rw [hstart, Option.bind_some, FixedWidth.add_of_lt (by omega), Option.bind_some, hpad,
    Option.bind_some, hfields, Option.bind_some, FixedWidth.add_of_lt (by omega),
    Option.bind_some, ← hend]
  split
  · have hup : MmtkCore.rawAlignUp b fieldsEnd 4 = alignUp 4 fieldsEnd :=
      MmtkCore.rawAlignUp_eq (k := 2) (by omega)
    have hle := le_alignUp (a := 4) (v := fieldsEnd) (by decide)
    have hlt := alignUp_lt (a := 4) (v := fieldsEnd) (by decide)
    have hdvd4 := dvd_alignUp (a := 4) (v := fieldsEnd)
    rw [hup, FixedWidth.mul_of_lt (by omega), Option.bind_some, FixedWidth.add_of_lt (by omega)]
    refine ⟨_, rfl, by omega, fun _ => by omega, hplace.mono le_rfl (by omega)⟩
  · refine ⟨_, rfl, by omega, fun h => absurd h ‹_›, hplace.mono le_rfl (by omega)⟩

/-! ### A class in memory -/

variable {m : Memory} {c ptrSize : Nat} {hasEmbeddedVtable : Bool}

omit [MmtkCore b] in
theorem firstStaticOffset_eq (he : shouldHaveEmbeddedVtable m c = some hasEmbeddedVtable) :
    firstStaticOffset b m c ptrSize = if hasEmbeddedVtable then
      alignUp ptrSize (Class.size + 4) + ptrSize + getEmbeddedVtableLength b m c * ptrSize
      else Class.size := by
  rw [firstStaticOffset, he]
  simp only [Option.some.injEq]

/-- The static fields start where the embedded vtable ends. -/
theorem embeddedVtableEnd_of_class (hptr : ptrSize = 4 ∨ ptrSize = 8)
    (he : shouldHaveEmbeddedVtable m c = some hasEmbeddedVtable)
    (hend : firstStaticOffset b m c ptrSize < b.usizeCard) :
    (if hasEmbeddedVtable then embeddedVtableEnd b (getEmbeddedVtableLength b m c) ptrSize
      else some Class.size) = some (firstStaticOffset b m c ptrSize) := by
  rw [firstStaticOffset_eq he] at hend ⊢
  split
  · next h =>
    rw [if_pos h] at hend
    exact embeddedVtableEnd_eq hptr hend
  · rfl

theorem getPrimitiveType_ne_none
    (he : shouldHaveEmbeddedVtable m c = some hasEmbeddedVtable) :
    getPrimitiveType m c ≠ none := by
  intro hnone
  rw [shouldHaveEmbeddedVtable, isInstantiable, isPrimitive, hnone] at he
  cases he

/-- **The layout of a Class object is consistent.** The static references start after everything
that is embedded, the bitmap ends the object, the primitive static fields fit in between, and the
loops that fill the gap terminate without a field too many. -/
theorem layout_consistent {numRefs numBitmap : Nat} (hptr : ptrSize = 4 ∨ ptrSize = 8)
    (he : shouldHaveEmbeddedVtable m c = some hasEmbeddedVtable)
    (hsum : firstStaticOffset b m c ptrSize + 4 * numRefs + n8 + 2 * n16 + 4 * n32 + 8 * n64 +
      4 * numBitmap < 2 ^ 31) :
    ∃ first size, getFirstReferenceStaticFieldsOffset b m c ptrSize = some first ∧
      computeClassSize b hasEmbeddedVtable (getEmbeddedVtableLength b m c) n8 n16 n32 n64 numRefs
        numBitmap ptrSize = some size ∧
      4 ∣ first ∧ Class.size ≤ first ∧
      (hasEmbeddedVtable = true → alignUp ptrSize (Class.size + 4) + ptrSize +
        getEmbeddedVtableLength b m c * ptrSize ≤ first) ∧
      first + 4 * numRefs + 4 * numBitmap ≤ size ∧ (0 < numBitmap → 4 ∣ size - 4 * numBitmap) ∧
      Placeable (first + 4 * numRefs) (size - 4 * numBitmap)
        (primitiveStaticFields n8 n16 n32 n64) ∧
      ∀ width n gap fuel, 0 < width → gap < fuel →
        shuffleLoop width fuel n gap = some (shuffleForward width n gap) := by
  have h32 := b.two_pow_32_le_usizeCard
  obtain ⟨hle, hdvd⟩ := size_le_firstStaticOffset (b := b) (m := m) (c := c) hptr
  obtain ⟨size, hsize, hend, hbitmap, hplace⟩ := computeClassSize_layout
    (embeddedVtableEnd_of_class hptr he (by omega)) hdvd hsum
  refine ⟨_, size, getFirstReferenceStaticFieldsOffset_eq hptr (getPrimitiveType_ne_none he)
    (by omega), hsize, hdvd, hle, fun h => ?_, hend, hbitmap, hplace,
    fun _ _ _ _ hw hfuel => shuffleLoop_eq hw hfuel⟩
  rw [firstStaticOffset_eq he, if_pos h]

/-- A class with five vtable entries, a static reference, one 64-bit, one 16-bit and three 8-bit
fields, and two words of bitmap: the 16-bit field and two 8-bit ones fill the gap. -/
theorem layout_consistent_five :
    letI := MmtkCore.documented .android64
    ∃ first size, getFirstReferenceStaticFieldsOffset .android64 (.ofWords [(0x2078, 5)]) 0x2000 8 =
        some first ∧
      computeClassSize .android64 true 5 3 1 0 1 1 2 8 = some size ∧ first + 4 + 8 ≤ size ∧
      Placeable (first + 4) (size - 8) [8, 2, 1, 1, 1] := by
  let _ := MmtkCore.documented .android64
  obtain ⟨first, size, hfirst, hsize, -, -, -, hend, -, hplace, -⟩ :=
    @layout_consistent .android64 _ 3 1 0 1 (.ofWords [(0x2078, 5)]) 0x2000 8 true 1 2 (.inr rfl)
      (by decide +kernel) (by decide +kernel)
  exact ⟨first, size, hfirst, hsize, hend, hplace⟩

end

end Class
end MmtkArt
