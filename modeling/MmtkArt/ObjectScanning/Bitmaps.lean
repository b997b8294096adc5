import Mathlib.Data.Nat.Bitwise
import MmtkArt.ObjectScanning.Slots

/-! # The two forms of the reference bitmap

A class marks a set of fields in one word, or in `k` words at its end. Scanning an instance visits
the same slots either way (`bitmaps_agree`), as long as the offsets that the words stand for are
computed without overflow: a word that marks nothing still has an offset. -/

namespace MmtkArt

/-- The class has the fields of `I` marked in `k` words at its end. -/
structure Class.StoresOverflow (m : Memory) (c k : Nat) (I : Finset Nat) : Prop where
  flag : referenceInstanceOffsets m c = kVisitReferencesSlowpathMask + k
  pos : 1 ≤ k
  le : 4 * k ≤ classSize m c
  covers : ∀ i ∈ I, i < 32 * k
  bit : ∀ w, w < k → ∀ β, β < 32 →
    ((m.load32 (c + classSize m c - 4 * k + 4 * w)).testBit β = true ↔ 32 * w + β ∈ I)

/-- The class has the fields of `I` marked in `reference_instance_offsets` itself. -/
structure Class.StoresInline (m : Memory) (c : Nat) (I : Finset Nat) : Prop where
  nonempty : I.Nonempty
  lt : ∀ i ∈ I, i < 31
  bit : ∀ β, β < 32 → ((referenceInstanceOffsets m c).testBit β = true ↔ β ∈ I)

/-- The visits of the fields of `I` that are not null, in increasing order. -/
def fieldVisits (m : Memory) (o : Nat) (I : Finset Nat) : List Visit :=
  ((I.sort.map fun i => o + (OBJECT_HEADER_SIZE + 4 * i)).filter (m.load32 · ≠ 0)).map .slot

variable {b : Build} {m : Memory} {o c k size : Nat} {I : Finset Nat}

theorem fieldVisits_eq :
    fieldVisits m o I = visitOffsets m o (I.sort.map (OBJECT_HEADER_SIZE + 4 * ·)) := by
  rw [fieldVisits, visitOffsets, List.flatMap_map]
  induction I.sort with
  | nil => rfl
  | cons i l ih =>
    rw [List.map_cons, List.filter_cons, List.flatMap_cons, ← ih, visitSlot]
    by_cases hi : m.load32 (o + (OBJECT_HEADER_SIZE + 4 * i)) = 0 <;> simp [hi]

namespace Class

namespace StoresOverflow

theorem lt (h : StoresOverflow m c k I) : k < 2 ^ 31 := by
  have hlt : referenceInstanceOffsets m c < 2 ^ 32 := Memory.load32_lt
  have hmask : kVisitReferencesSlowpathMask = 2 ^ 31 := rfl
  rw [h.flag, hmask] at hlt
  omega

theorem hasOverflowBitmap (h : StoresOverflow m c k I) : HasOverflowBitmap m c := by
  have hbit : (2 ^ 31 + k).testBit 31 = true := by
    rw [Nat.testBit_two_pow_add_eq, Nat.testBit_lt_two_pow h.lt]
    rfl
  have hmask : kVisitReferencesSlowpathMask = 2 ^ 31 := rfl
  rw [HasOverflowBitmap, h.flag, hmask, Nat.and_comm, Nat.two_pow_and, hbit]
  decide

theorem bitmapNumWords_eq (h : StoresOverflow m c k I) : bitmapNumWords m c = k := by
  have hmask : 2 ^ 32 - 1 - kVisitReferencesSlowpathMask = 2 ^ 31 - 1 := rfl
  have hflag : kVisitReferencesSlowpathMask = 2 ^ 31 := rfl
  rw [bitmapNumWords, if_pos h.hasOverflowBitmap, h.flag, hmask, Nat.and_two_pow_sub_one_eq_mod,
    hflag, Nat.add_mod_left, Nat.mod_eq_of_lt h.lt]

theorem bitmapWord_eq (h : StoresOverflow m c k I) (w : Nat) :
    bitmapWord m c w = m.load32 (c + classSize m c - 4 * k + 4 * w) := by
  rw [bitmapWord, if_pos h.hasOverflowBitmap, h.bitmapNumWords_eq]

theorem instanceOffsets_eq (h : StoresOverflow m c k I) :
    instanceOffsets m c = I.sort.map (OBJECT_HEADER_SIZE + 4 * ·) := by
  rw [instanceOffsets, bitmap_eq_sort (s := I)]
  intro i
  rw [h.bitmapNumWords_eq, h.bitmapWord_eq]
  constructor
  · intro hi
    have hlt := h.covers i hi
    refine ⟨hlt, (h.bit _ (by omega) _ (Nat.mod_lt i (by decide))).mpr ?_⟩
    rwa [Nat.div_add_mod]
  · rintro ⟨hlt, hi⟩
    have := (h.bit _ (by omega) _ (Nat.mod_lt i (by decide))).mp hi
    rwa [Nat.div_add_mod] at this

/-- A word that lies behind every field of an object marks nothing. -/
theorem bitmapWord_eq_zero (h : StoresOverflow m c k I) {w : Nat} (hw : w < k)
    (hI : ∀ i ∈ I, i < 32 * w) : bitmapWord m c w = 0 := by
  apply Nat.zero_of_testBit_eq_false
  intro β
  rw [h.bitmapWord_eq]
  by_cases hβ : β < 32
  · refine Bool.eq_false_iff.mpr fun hbit => ?_
    have := hI _ ((h.bit w hw β hβ).mp hbit)
    omega
  · exact Nat.testBit_lt_two_pow
      (Nat.lt_of_lt_of_le Memory.load32_lt (Nat.pow_le_pow_right (by decide) (by omega)))

end StoresOverflow

namespace StoresInline

/-- Bit 31, the flag, marks no field. -/
theorem not_hasOverflowBitmap (h : StoresInline m c I) : ¬ HasOverflowBitmap m c := by
  have hbit : (referenceInstanceOffsets m c).testBit 31 = false := by
    refine Bool.eq_false_iff.mpr fun hbit => ?_
    exact absurd (h.lt 31 ((h.bit 31 (by decide)).mp hbit)) (by decide)
  have hmask : kVisitReferencesSlowpathMask = 2 ^ 31 := rfl
  rw [HasOverflowBitmap, hmask, Nat.and_comm, Nat.two_pow_and, hbit]
  decide

theorem bitmapNumWords_eq (h : StoresInline m c I) : bitmapNumWords m c = 1 :=
  if_neg h.not_hasOverflowBitmap

theorem instanceOffsets_eq (h : StoresInline m c I) :
    instanceOffsets m c = I.sort.map (OBJECT_HEADER_SIZE + 4 * ·) := by
  rw [instanceOffsets, bitmap_eq_sort (s := I)]
  intro i
  rw [h.bitmapNumWords_eq, bitmapWord, if_neg h.not_hasOverflowBitmap]
  constructor
  · intro hi
    have hlt := h.lt i hi
    refine ⟨by omega, ?_⟩
    rw [Nat.mod_eq_of_lt (by omega)]
    exact (h.bit i (by omega)).mpr hi
  · rintro ⟨hlt, hi⟩
    rw [Nat.mod_eq_of_lt (by omega)] at hi
    exact (h.bit i (by omega)).mp hi

end StoresInline
end Class

/-! ### The words in turn -/

/-- The offset that a word starts at. It is exact for the words that can mark a field. -/
theorem fieldOffset_returns {i : Nat} (h : i < 2 ^ 25 ∨ b.overflowChecks = false) :
    ∃ x y off, FixedWidth.mul b.overflowChecks (2 ^ 32) i ART_HEAP_REFERENCE_SIZE = some x ∧
      FixedWidth.mul b.overflowChecks (2 ^ 32) x 32 = some y ∧
      FixedWidth.add b.overflowChecks (2 ^ 32) OBJECT_HEADER_SIZE y = some off ∧
      (i < 2 ^ 24 → off = OBJECT_HEADER_SIZE + i * 4 * 32) := by
  have h4 : ART_HEAP_REFERENCE_SIZE = 4 := rfl
  have h8 : OBJECT_HEADER_SIZE = 8 := rfl
  rw [h4]
  rcases h with h | h
  · exact ⟨_, _, _, FixedWidth.mul_of_lt (by omega), FixedWidth.mul_of_lt (by omega),
      FixedWidth.add_of_lt (by omega), fun _ => rfl⟩
  · exact ⟨_, _, _, FixedWidth.fit_of_unchecked h, FixedWidth.fit_of_unchecked h,
      FixedWidth.fit_of_unchecked h, fun hi => by omega⟩

/-- The loop over the words. Where the bitmap is involves no overflow. -/
theorem Class.StoresOverflow.visit_eq_forRange (h : Class.StoresOverflow m c k I)
    (hend : c + Class.classSize m c < b.usizeCard) :
    Object.visitInstanceFieldsReferences b m o c = forRange k (fun i => do
      let mul32 := FixedWidth.mul b.overflowChecks (2 ^ 32)
      let fieldOffset ← FixedWidth.add b.overflowChecks (2 ^ 32) OBJECT_HEADER_SIZE
        (← mul32 (← mul32 i ART_HEAP_REFERENCE_SIZE) 32)
      visitOneWord b m o fieldOffset (Class.bitmapWord m c i)) := by
  have hle := h.le
  have hsize : Class.classSize m c < 2 ^ 32 := Memory.load32_lt
  have hover : Class.referenceInstanceOffsets m c &&& Class.kVisitReferencesSlowpathMask ≠ 0 :=
    h.hasOverflowBitmap
  have hnum : Class.referenceInstanceOffsets m c &&&
      (2 ^ 32 - 1 - Class.kVisitReferencesSlowpathMask) = k :=
    (if_pos hover).symm.trans h.bitmapNumWords_eq
  rw [Object.visitInstanceFieldsReferences, if_pos hover, hnum]
  dsimp only
  rw [FixedWidth.add_of_lt hend, Option.bind_eq_bind, Option.bind_some,
    FixedWidth.mul_of_lt (by omega), Option.bind_some, FixedWidth.sub_of_le (by omega),
    Option.bind_some, Nat.mul_comm k]
  simp only [h.bitmapWord_eq]

theorem Class.StoresOverflow.visitInstanceFieldsReferences_eq (h : Class.StoresOverflow m c k I)
    (hend : c + Class.classSize m c < b.usizeCard)
    (hk : k ≤ 2 ^ 25 ∨ b.overflowChecks = false)
    (hI : ∀ i ∈ I, OBJECT_HEADER_SIZE + 4 * i + 4 ≤ 2 ^ 31)
    (hslot : ∀ f ∈ Class.instanceOffsets m c, Exact.getFieldSlot b o f = some (o + f)) :
    Object.visitInstanceFieldsReferences b m o c =
      some (visitOffsets m o (Class.instanceOffsets m c)) := by
  have h8 : OBJECT_HEADER_SIZE = 8 := rfl
  rw [h.visit_eq_forRange hend, visitOffsets_instanceOffsets, h.bitmapNumWords_eq]
  apply forRange_eq
  intro i hi
  obtain ⟨x, y, off, hx, hy, hoff, hexact⟩ := fieldOffset_returns (i := i) (hk.imp_left hi.trans_le)
  simp only [hx, hy, hoff, Option.bind_eq_bind, Option.bind_some]
  by_cases hsmall : i < 2 ^ 24
  · rw [hexact hsmall]
    apply Exact.visitOneWord_refines
    exact Exact.visitBitmapWord_eq (h.bitmapNumWords_eq ▸ hi) (by omega) hslot
  · -- the word is behind the object
    have hzero : Class.bitmapWord m c i = 0 := by
      apply h.bitmapWord_eq_zero hi
      intro j hj
      have := hI j hj
      omega
    rw [hzero, visitOneWord, setBits_zero_right]
    rfl

theorem Class.StoresInline.visitInstanceFieldsReferences_eq (h : Class.StoresInline m c I)
    (hslot : ∀ f ∈ Class.instanceOffsets m c, Exact.getFieldSlot b o f = some (o + f)) :
    Object.visitInstanceFieldsReferences b m o c =
      some (visitOffsets m o (Class.instanceOffsets m c)) := by
  apply Exact.visitInstanceFieldsReferences_refines
  apply Exact.visitInstanceFieldsReferences_eq
  · exact fun hover => absurd hover h.not_hasOverflowBitmap
  · exact fun hover => absurd hover h.not_hasOverflowBitmap
  · rw [h.bitmapNumWords_eq]
    decide
  · exact hslot

/-- **Both forms of the bitmap show the same fields**, in increasing order and each once, when the
bitmap has at most 2 ^ 25 words or overflow is not checked. -/
theorem bitmaps_agree (hfields : ∀ i ∈ I, OBJECT_HEADER_SIZE + 4 * i + 4 ≤ size)
    (hsize : size ≤ 2 ^ 31) (hobject : o + size ≤ b.usizeCard)
    (hclass : c + Class.classSize m c < b.usizeCard) (h : Class.StoresOverflow m c k I)
    (hk : k ≤ 2 ^ 25 ∨ b.overflowChecks = false) :
    Object.visitInstanceFieldsReferences b m o c = some (fieldVisits m o I) ∧
    ∀ m' c', Class.StoresInline m' c' I →
      (∀ i ∈ I, m'.load32 (o + (OBJECT_HEADER_SIZE + 4 * i)) =
        m.load32 (o + (OBJECT_HEADER_SIZE + 4 * i))) →
      Object.visitInstanceFieldsReferences b m' o c' = some (fieldVisits m o I) := by
  have hslot : ∀ f ∈ I.sort.map (OBJECT_HEADER_SIZE + 4 * ·),
      Exact.getFieldSlot b o f = some (o + f) := by
    intro f hf
    obtain ⟨i, hi, rfl⟩ := List.mem_map.mp hf
    have := hfields i ((Finset.mem_sort _).mp hi)
    exact Exact.getFieldSlot_of_lt (by omega) (by omega)
  constructor
  · rw [h.visitInstanceFieldsReferences_eq hclass hk
      (fun i hi => (hfields i hi).trans hsize) (h.instanceOffsets_eq ▸ hslot),
      h.instanceOffsets_eq, fieldVisits_eq]
  · intro m' c' h' hsame
    rw [h'.visitInstanceFieldsReferences_eq (h'.instanceOffsets_eq ▸ hslot), h'.instanceOffsets_eq,
      ← fieldVisits_eq, fieldVisits, fieldVisits]
    congr 2
    apply List.filter_congr
    intro s hs
    obtain ⟨i, hi, rfl⟩ := List.mem_map.mp hs
    rw [hsame i ((Finset.mem_sort _).mp hi)]

/-- `overflowInstance`, with the fields marked in one word of its class. -/
def inlineInstance : Memory := .ofWords [
  (0x2000, 0x4000), (0x2008, 0x5000), (0x2010, 0x6000),
  (0x4000, 0x7000), (0x4048, 120), (0x4060, 20), (0x406c, 0b101)]

/-- The fields 0 and 2, from one overflow word and from an inline one. -/
theorem bitmaps_agree_two :
    Object.visitInstanceFieldsReferences .android64 overflowInstance 0x2000 0x4000 =
      some [.slot 0x2008, .slot 0x2010] ∧
    Object.visitInstanceFieldsReferences .android64 inlineInstance 0x2000 0x4000 =
      some [.slot 0x2008, .slot 0x2010] := by
  have hsort : Finset.sort {0, 2} = [0, 2] := by
    rw [Finset.sort_insert _ (by decide) (by decide), Finset.sort_singleton]
  have hvisits : fieldVisits overflowInstance 0x2000 {0, 2} = [.slot 0x2008, .slot 0x2010] := by
    rw [fieldVisits, hsort]
    decide +kernel
  have hoverflow : Class.StoresOverflow overflowInstance 0x4000 1 {0, 2} :=
    ⟨by decide +kernel, by decide, by decide +kernel, by decide, by decide +kernel⟩
  have hinline : Class.StoresInline inlineInstance 0x4000 {0, 2} :=
    ⟨⟨0, by decide⟩, by decide, by decide +kernel⟩
  obtain ⟨hvisit, hagree⟩ := bitmaps_agree (b := .android64) (o := 0x2000) (by decide)
    (Nat.pow_le_pow_right (by decide) (by decide) : 2 ^ 5 ≤ 2 ^ 31) (by decide) (by decide +kernel)
    hoverflow (.inl (by decide))
  rw [hvisits] at hvisit hagree
  exact ⟨hvisit, hagree _ _ hinline (by decide +kernel)⟩

/-- A loop with a pass that fails. -/
theorem forRange_eq_none {α : Type} {n i : Nat} {f : Nat → Option (List α)} (hi : i < n)
    (h : f i = none) : forRange n f = none := by
  have hmap : ∀ l : List Nat, i ∈ l → l.mapM f = none := by
    intro l hl
    induction l with
    | nil => cases hl
    | cons j l ih =>
      rw [List.mapM_cons]
      rcases List.mem_cons.mp hl with rfl | hl
      · rw [h]
        rfl
      · rw [ih hl]
        cases f j <;> rfl
  rw [forRange, hmap _ (List.mem_range.mpr hi)]
  rfl

/-- A class at 0x4000 with 2 ^ 25 + 1 bitmap words that mark nothing. -/
def wideClass : Memory := .ofWords [
  (0x4048, 120 + 4 * (2 ^ 25 + 1)), (0x406c, 2 ^ 31 + (2 ^ 25 + 1))]

theorem wideClass_eq_zero {a : Nat} (h : 0x4070 ≤ a) : wideClass a = 0 := by
  have h₁ : ¬ a < 0x4048 + 4 := by omega
  have h₂ : ¬ a < 0x406c + 4 := by omega
  simp [wideClass, Memory.ofWords, h₁, h₂]

theorem wideClass_size : Class.classSize wideClass 0x4000 = 120 + 4 * (2 ^ 25 + 1) := by
  decide +kernel

theorem wideClass_storesOverflow : Class.StoresOverflow wideClass 0x4000 (2 ^ 25 + 1) ∅ where
  flag := by decide +kernel
  pos := by decide
  le := by
    rw [wideClass_size]
    decide
  covers i hi := absurd hi (Finset.notMem_empty i)
  bit w hw β hβ := by
    have hword : wideClass.load32
        (0x4000 + Class.classSize wideClass 0x4000 - 4 * (2 ^ 25 + 1) + 4 * w) = 0 := by
      rw [wideClass_size]
      simp only [Memory.load32, Memory.load]
      rw [wideClass_eq_zero (by omega), wideClass_eq_zero (by omega), wideClass_eq_zero (by omega),
        wideClass_eq_zero (by omega)]
      rfl
    rw [hword, Nat.zero_testBit]
    simp

/-- With overflow checks, the offset of the last of the words is computed and overflows. -/
theorem not_bitmaps_agree :
    ¬ ∀ (b : Build) (m : Memory) (o c k size : Nat) (I : Finset Nat),
      (∀ i ∈ I, OBJECT_HEADER_SIZE + 4 * i + 4 ≤ size) → size ≤ 2 ^ 31 →
      o + size ≤ b.usizeCard → c + Class.classSize m c < b.usizeCard →
      Class.StoresOverflow m c k I →
      Object.visitInstanceFieldsReferences b m o c = some (fieldVisits m o I) := by
  intro h
  have hvisit := h .android64 wideClass 0x2000 0x4000 (2 ^ 25 + 1) 8 ∅ (by decide) (by decide)
    (by decide) (by decide +kernel) wideClass_storesOverflow
  have hlast : FixedWidth.mul Build.android64.overflowChecks (2 ^ 32) (2 ^ 25)
      ART_HEAP_REFERENCE_SIZE = some (2 ^ 27) := by decide
  have hover : FixedWidth.mul Build.android64.overflowChecks (2 ^ 32) (2 ^ 27) 32 = none := by
    decide
  have hnone : Object.visitInstanceFieldsReferences .android64 wideClass 0x2000 0x4000 = none := by
    rw [wideClass_storesOverflow.visit_eq_forRange (by decide +kernel)]
    apply forRange_eq_none (Nat.lt_succ_self (2 ^ 25))
    simp only [hlast, hover, Option.bind_eq_bind, Option.bind_some, Option.bind_none]
  rw [hnone] at hvisit
  cases hvisit

end MmtkArt
