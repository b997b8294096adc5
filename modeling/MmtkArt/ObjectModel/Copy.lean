import MmtkArt.ObjectModel
import MmtkArt.ObjectScanning.Slots

/-! # Copying is transparent

Everything that the size and the references of an object depend on is in the bytes that `copy`
moves, outside the word with the forwarding bits, or in the metadata of its class. So the copy is
well formed with the same layout, and `getObjectSize_eq` and `scanObject_eq` give the rest. -/

namespace MmtkArt

variable {b : Build} {m m' : Memory} {c c' n o d ptrSize : Nat}

/-! ### Classes that hold the same words -/

namespace Class

/-- The classes at `c` and `c'` hold the same words in their first `n` bytes, the header aside. -/
def Agree (m m' : Memory) (c c' n : Nat) : Prop :=
  ∀ k, 8 ≤ k → k + 4 ≤ n → m'.load32 (c' + k) = m.load32 (c + k)

namespace Agree

/-- A field of the mirror. -/
theorem field_eq (h : Agree m m' c c' n) (hn : size ≤ n) {k : Nat}
    (hk : 8 ≤ k ∧ k + 4 ≤ size) : m'.load32 (c' + k) = m.load32 (c + k) :=
  h k hk.1 (hk.2.trans hn)

/-- A field that is read through its address. -/
theorem field_address_eq (h : Agree m m' c c' n) (hc : c + n < b.usizeCard)
    (hc' : c' + n < b.usizeCard) {k : Nat} (hk : 8 ≤ k ∧ k < 2 ^ 31) (hn : k + 4 ≤ n) :
    m'.load32 (getFieldAddress b c' (asI32 k)) = m.load32 (getFieldAddress b c (asI32 k)) := by
  have haddr : ∀ a, a + n < b.usizeCard → getFieldAddress b a (asI32 k) = a + k :=
    fun a ha => getFieldSlot_eq hk.2 (by omega)
  rw [haddr c hc, haddr c' hc']
  exact h k hk.1 hn

theorem componentType_eq (h : Agree m m' c c' n) (hn : size ≤ n) :
    componentType m' c' = componentType m c := h.field_eq hn (by decide)

theorem accessFlags_eq (h : Agree m m' c c' n) (hn : size ≤ n) :
    accessFlags m' c' = accessFlags m c := h.field_eq hn (by decide)

theorem classFlags_eq (h : Agree m m' c c' n) (hn : size ≤ n) :
    classFlags m' c' = classFlags m c := h.field_eq hn (by decide)

theorem classSize_eq (h : Agree m m' c c' n) (hn : size ≤ n) :
    classSize m' c' = classSize m c := h.field_eq hn (by decide)

theorem numReferenceStaticFields_eq (h : Agree m m' c c' n) (hn : size ≤ n) :
    numReferenceStaticFields m' c' = numReferenceStaticFields m c := h.field_eq hn (by decide)

theorem objectSize_eq (h : Agree m m' c c' n) (hn : size ≤ n) :
    objectSize m' c' = objectSize m c := h.field_eq hn (by decide)

theorem primitiveType_eq (h : Agree m m' c c' n) (hn : size ≤ n) :
    primitiveType m' c' = primitiveType m c := h.field_eq hn (by decide)

theorem referenceInstanceOffsets_eq (h : Agree m m' c c' n) (hn : size ≤ n) :
    referenceInstanceOffsets m' c' = referenceInstanceOffsets m c := h.field_eq hn (by decide)

theorem getPrimitiveType_eq (h : Agree m m' c c' n) (hn : size ≤ n) :
    getPrimitiveType m' c' = getPrimitiveType m c := by
  rw [getPrimitiveType, getPrimitiveType, h.primitiveType_eq hn]

theorem isArrayClass_eq (h : Agree m m' c c' n) (hn : size ≤ n) :
    isArrayClass m' c' = isArrayClass m c := by
  rw [isArrayClass, isArrayClass, h.componentType_eq hn]

theorem isStringClass_eq (h : Agree m m' c c' n) (hn : size ≤ n) :
    isStringClass m' c' = isStringClass m c := by
  rw [isStringClass, isStringClass, h.classFlags_eq hn]

theorem shouldHaveEmbeddedVtable_eq (h : Agree m m' c c' n) (hn : size ≤ n) :
    shouldHaveEmbeddedVtable m' c' = shouldHaveEmbeddedVtable m c := by
  simp only [shouldHaveEmbeddedVtable, isInstantiable, isPrimitive, isInterface, isAbstract,
    h.getPrimitiveType_eq hn, h.accessFlags_eq hn, h.isArrayClass_eq hn]

theorem isResolved_eq (h : Agree m m' c c' n) (hn : size ≤ n) (hc : c + n < b.usizeCard)
    (hc' : c' + n < b.usizeCard) : isResolved b m' c' = isResolved b m c := by
  have hstatus : status b m' c' = status b m c :=
    h.field_address_eq hc hc' (by decide) (Nat.le_trans (by decide) hn)
  rw [isResolved, isResolved, getStatus, getStatus, hstatus]

/-- The vtable length is read only when there is a vtable, and then it is before the fields. -/
theorem firstStaticOffset_eq (h : Agree m m' c c' n) (hptr : ptrSize = 4 ∨ ptrSize = 8)
    (hn : firstStaticOffset b m c ptrSize ≤ n) (hc : c + n < b.usizeCard)
    (hc' : c' + n < b.usizeCard) :
    firstStaticOffset b m' c' ptrSize = firstStaticOffset b m c ptrSize := by
  have hsize := (size_le_firstStaticOffset (b := b) (m := m) (c := c) hptr).1.trans hn
  rw [firstStaticOffset] at hn
  rw [firstStaticOffset, firstStaticOffset, h.shouldHaveEmbeddedVtable_eq hsize]
  split
  · next he =>
    rw [if_pos he] at hn
    have h120 : size = 120 := rfl
    have hup := le_alignUp (a := ptrSize) (v := size + 4) (by omega)
    have hlength : getEmbeddedVtableLength b m' c' = getEmbeddedVtableLength b m c :=
      h.field_address_eq hc hc' (by decide) (by omega)
    rw [hlength]
  · rfl

end Agree
end Class

/-! ### A moved object -/

/-- The `n` bytes at `d` overlap none of the class metadata that the object's size and references
depend on. -/
structure ApartFromClass (b : Build) (m : Memory) (o d n : Nat) : Prop where
  klass : d + n ≤ Object.getClass b m o ∨
    Object.getClass b m o + Class.classSize m (Object.getClass b m o) ≤ d
  component : Class.isArrayClass m (Object.getClass b m o) = true →
    d + n ≤ Class.componentType m (Object.getClass b m o) ∨
      Class.componentType m (Object.getClass b m o) + Class.size ≤ d

/-- The memory `m'` holds at `d` the `n` bytes that `m` holds at `o`, except for the byte with the
forwarding bits, and is the same outside. The class of the object lies outside. -/
structure Copied (b : Build) (m m' : Memory) (ptrSize o d n : Nat) : Prop
    extends ApartFromClass b m o d n where
  wellFormed : WellFormed b m ptrSize o
  size_le : objectSize b m o ≤ n
  aligned : 8 ∣ d
  end_lt : d + n < b.usizeCard
  bytes : ∀ k, k < n → k ≠ 7 → m' (d + k) = m (o + k)
  frame : ∀ a, a < d ∨ d + n ≤ a → m' a = m a

namespace Copied

theorem load32_eq (h : Copied b m m' ptrSize o d n) {k : Nat} (hk : k = 0 ∨ 8 ≤ k)
    (hn : k + 4 ≤ n) : m'.load32 (d + k) = m.load32 (o + k) := by
  apply Memory.load32_congr
  intro i hi
  rw [Nat.add_assoc, Nat.add_assoc]
  exact h.bytes (k + i) (by omega) (by omega)

theorem load32_frame (h : Copied b m m' ptrSize o d n) {a : Nat} (ha : a + 4 ≤ d ∨ d + n ≤ a) :
    m'.load32 a = m.load32 a :=
  Memory.load32_congr fun _ _ => h.frame _ (by omega)

theorem getClass_eq (h : Copied b m m' ptrSize o d n) :
    Object.getClass b m' d = Object.getClass b m o := by
  have hlt := h.end_lt
  have hle := h.wellFormed.header_le.trans h.size_le
  have h8 : OBJECT_HEADER_SIZE = 8 := rfl
  rw [h.wellFormed.getClass_eq, Object.getClass_eq (by omega)]
  exact h.load32_eq (k := 0) (.inl rfl) (by omega)

/-- The words of the object, the header aside. -/
theorem agree (h : Copied b m m' ptrSize o d n) : Class.Agree m m' o d n :=
  fun _ hk hn => h.load32_eq (.inr hk) hn

/-! The class stays as it is. -/

theorem klass_load32_eq (h : Copied b m m' ptrSize o d n) {k : Nat}
    (hk : k + 4 ≤ Class.classSize m (Object.getClass b m o)) :
    m'.load32 (Object.getClass b m o + k) = m.load32 (Object.getClass b m o + k) := by
  have := h.klass
  exact h.load32_frame (by omega)

theorem klass_agree (h : Copied b m m' ptrSize o d n) :
    Class.Agree m m' (Object.getClass b m o) (Object.getClass b m o)
      (Class.classSize m (Object.getClass b m o)) :=
  fun _ _ hn => h.klass_load32_eq hn

theorem isClassClass_eq (h : Copied b m m' ptrSize o d n) :
    Class.isClassClass b m' (Object.getClass b m o) =
      Class.isClassClass b m (Object.getClass b m o) := by
  have hlt := h.wellFormed.klass.end_lt
  have hsize := h.wellFormed.klass.size_le
  have h120 : Class.size = 120 := rfl
  have hload := h.klass_load32_eq (k := 0) (by omega)
  rw [Nat.add_zero] at hload
  rw [Class.isClassClass, Class.isClassClass, Object.getClass_eq (m := m') (by omega),
    Object.getClass_eq (m := m) (o := Object.getClass b m o) (by omega)]
  rw [hload]

theorem hasOverflowBitmap_iff (h : Copied b m m' ptrSize o d n) :
    Class.HasOverflowBitmap m' (Object.getClass b m o) ↔
      Class.HasOverflowBitmap m (Object.getClass b m o) := by
  rw [Class.HasOverflowBitmap, Class.HasOverflowBitmap,
    h.klass_agree.referenceInstanceOffsets_eq h.wellFormed.klass.size_le]

theorem bitmapNumWords_eq (h : Copied b m m' ptrSize o d n) :
    Class.bitmapNumWords m' (Object.getClass b m o) =
      Class.bitmapNumWords m (Object.getClass b m o) := by
  rw [Class.bitmapNumWords, Class.bitmapNumWords,
    h.klass_agree.referenceInstanceOffsets_eq h.wellFormed.klass.size_le]
  simp only [h.hasOverflowBitmap_iff]

theorem instanceOffsets_eq (h : Copied b m m' ptrSize o d n) :
    Class.instanceOffsets m' (Object.getClass b m o) =
      Class.instanceOffsets m (Object.getClass b m o) := by
  have hsize := h.wellFormed.klass.size_le
  rw [Class.instanceOffsets, Class.instanceOffsets, h.bitmapNumWords_eq]
  refine congrArg _ (bitmap_congr fun i hi => ?_)
  rw [Class.bitmapWord, Class.bitmapWord, h.bitmapNumWords_eq, h.klass_agree.classSize_eq hsize,
    h.klass_agree.referenceInstanceOffsets_eq hsize]
  simp only [h.hasOverflowBitmap_iff]
  split
  · next hover =>
    have hle := h.wellFormed.klass.bitmap_le hover
    have hbase : Object.getClass b m o + Class.classSize m (Object.getClass b m o) -
        4 * Class.bitmapNumWords m (Object.getClass b m o) + 4 * i =
        Object.getClass b m o + (Class.classSize m (Object.getClass b m o) -
          4 * Class.bitmapNumWords m (Object.getClass b m o) + 4 * i) := by omega
    rw [hbase]
    exact h.klass_load32_eq (by omega)
  · rfl

theorem componentType_eq (h : Copied b m m' ptrSize o d n) :
    Class.componentType m' (Object.getClass b m o) =
      Class.componentType m (Object.getClass b m o) :=
  h.klass_agree.componentType_eq h.wellFormed.klass.size_le

theorem isArrayClass_eq (h : Copied b m m' ptrSize o d n) :
    Class.isArrayClass m' (Object.getClass b m o) =
      Class.isArrayClass m (Object.getClass b m o) :=
  h.klass_agree.isArrayClass_eq h.wellFormed.klass.size_le

theorem component_primitiveType_eq (h : Copied b m m' ptrSize o d n)
    (ha : Class.isArrayClass m (Object.getClass b m o) = true) :
    Class.primitiveType m' (Class.componentType m (Object.getClass b m o)) =
      Class.primitiveType m (Class.componentType m (Object.getClass b m o)) := by
  have hcomp := h.component ha
  have h120 : Class.size = 120 := rfl
  exact h.load32_frame (by omega)

theorem isObjectArrayClass_eq (h : Copied b m m' ptrSize o d n) :
    Class.isObjectArrayClass m' (Object.getClass b m o) =
      Class.isObjectArrayClass m (Object.getClass b m o) := by
  rw [Class.isObjectArrayClass, Class.isObjectArrayClass, h.componentType_eq]
  split
  · next hne =>
    rw [Class.isPrimitive, Class.isPrimitive, Class.getPrimitiveType, Class.getPrimitiveType,
      h.component_primitiveType_eq (decide_eq_true hne)]
  · rfl

theorem klass_wellFormed (h : Copied b m m' ptrSize o d n) :
    Class.WellFormed b m' (Object.getClass b m o) := by
  have hc := h.wellFormed.klass
  have hagree := h.klass_agree
  have hflags := hagree.classFlags_eq hc.size_le
  have hsize := hagree.classSize_eq hc.size_le
  constructor
  · exact hsize ▸ hc.size_le
  · exact hsize ▸ hc.end_lt
  · exact hflags ▸ hc.dispatched
  · rw [hflags, h.isClassClass_eq]
    exact hc.flag_class
  · rw [hflags, h.isObjectArrayClass_eq]
    exact hc.flag_objectArray
  · rw [hflags, h.isArrayClass_eq, h.isObjectArrayClass_eq]
    exact hc.flag_primitiveArray
  · rw [hflags, h.instanceOffsets_eq, h.isObjectArrayClass_eq]
    exact hc.flag_noReferenceFields
  · rw [h.isObjectArrayClass_eq, h.instanceOffsets_eq]
    exact hc.objectArray_bitmap
  · rw [h.hasOverflowBitmap_iff, h.bitmapNumWords_eq, hsize]
    exact hc.bitmap_le
  · rw [h.bitmapNumWords_eq]
    exact hc.bitmap_lt
  · rw [h.isArrayClass_eq, h.componentType_eq]
    intro ha
    rw [Class.getPrimitiveType, Class.getPrimitiveTypeSizeShift, h.component_primitiveType_eq ha]
    exact hc.component ha

/-! The object has the same size and the same references. -/

theorem body_eq (h : Copied b m m' ptrSize o d n)
    (ha : Class.isArrayClass m (Object.getClass b m o) = true ∨
      Class.isStringClass m (Object.getClass b m o) = true) :
    m'.load32 (d + 8) = m.load32 (o + 8) :=
  h.agree 8 le_rfl ((h.wellFormed.body_le ha).trans h.size_le)

theorem length_eq (h : Copied b m m' ptrSize o d n)
    (ha : Class.isArrayClass m (Object.getClass b m o) = true) :
    Array.length b m' d = Array.length b m o := by
  rw [Array.length, Array.length, h.body_eq (.inl ha)]

theorem count_eq (h : Copied b m m' ptrSize o d n)
    (hs : Class.isStringClass m (Object.getClass b m o) = true) :
    ArtString.count m' d = ArtString.count m o := by
  rw [ArtString.count, ArtString.count, h.body_eq (.inr hs)]

/-- A Class object moves with its mirror. -/
theorem mirror_le (h : Copied b m m' ptrSize o d n)
    (hc : Class.isClassClass b m (Object.getClass b m o) = true) :
    Class.size ≤ n ∧ Class.classSize m o ≤ n := by
  have hle := h.size_le
  rw [h.wellFormed.objectSize_of_class hc] at hle
  exact ⟨(h.wellFormed.mirror_le hc).trans hle, hle⟩

theorem mirror_agree (h : Copied b m m' ptrSize o d n)
    (hc : Class.isClassClass b m (Object.getClass b m o) = true) :
    Class.Agree m m' o d (Class.classSize m o) :=
  fun k hk hn => h.agree k hk (hn.trans (h.mirror_le hc).2)

theorem mirror_end_lt (h : Copied b m m' ptrSize o d n)
    (hc : Class.isClassClass b m (Object.getClass b m o) = true) :
    o + Class.classSize m o < b.usizeCard ∧ d + Class.classSize m o < b.usizeCard :=
  ⟨h.wellFormed.objectSize_of_class hc ▸ h.wellFormed.end_lt,
    Nat.lt_of_le_of_lt (Nat.add_le_add_left (h.mirror_le hc).2 d) h.end_lt⟩

theorem objectSize_eq (h : Copied b m m' ptrSize o d n) :
    objectSize b m' d = objectSize b m o := by
  have hc := h.wellFormed.klass.size_le
  rw [objectSize, objectSize, h.getClass_eq, h.isArrayClass_eq, h.isClassClass_eq,
    h.klass_agree.isStringClass_eq hc]
  split
  · next ha =>
    rw [arraySize, arraySize, h.length_eq ha, h.componentType_eq,
      Class.getPrimitiveTypeSizeShift, h.component_primitiveType_eq ha]
    rfl
  split
  · next hcc => exact h.agree.classSize_eq (h.mirror_le hcc).1
  split
  · next hs =>
    have hcompressed : ArtString.isCompressed m' d = ArtString.isCompressed m o := by
      rw [ArtString.isCompressed, ArtString.isCompressed, h.body_eq (.inr hs)]
    have hlength : ArtString.getLength m' d = ArtString.getLength m o := by
      rw [ArtString.getLength, ArtString.getLength, h.count_eq hs]
    rw [stringSize, stringSize, hcompressed, hlength]
  · exact h.klass_agree.objectSize_eq hc

theorem isResolved_eq (h : Copied b m m' ptrSize o d n)
    (hc : Class.isClassClass b m (Object.getClass b m o) = true) :
    Class.isResolved b m' d = Class.isResolved b m o := by
  obtain ⟨hend, hend'⟩ := h.mirror_end_lt hc
  exact (h.mirror_agree hc).isResolved_eq (h.wellFormed.mirror_le hc) hend hend'

/-- Where the static fields start, for a class that has any. -/
theorem firstStaticOffset_eq (h : Copied b m m' ptrSize o d n)
    (hc : Class.isClassClass b m (Object.getClass b m o) = true)
    (hres : Class.isResolved b m o = some true) (hnum : 0 < Class.numReferenceStaticFields m o) :
    Class.firstStaticOffset b m' d ptrSize = Class.firstStaticOffset b m o ptrSize := by
  obtain ⟨hend, hend'⟩ := h.mirror_end_lt hc
  have hstatics := (h.wellFormed.statics hc hres hnum).2
  exact (h.mirror_agree hc).firstStaticOffset_eq h.wellFormed.ptrSize_eq (by omega) hend hend'

theorem staticOffsets_eq (h : Copied b m m' ptrSize o d n)
    (hc : Class.isClassClass b m (Object.getClass b m o) = true) :
    Class.staticOffsets b m' d ptrSize = Class.staticOffsets b m o ptrSize := by
  rw [Class.staticOffsets, Class.staticOffsets, h.isResolved_eq hc,
    h.agree.numReferenceStaticFields_eq (h.mirror_le hc).1]
  split
  · next hres =>
    rcases Nat.eq_zero_or_pos (Class.numReferenceStaticFields m o) with hnum | hnum
    · rw [hnum]
      rfl
    · rw [h.firstStaticOffset_eq hc hres hnum]
  · rfl

/-- **The copy is well formed.** -/
theorem copy_wellFormed (h : Copied b m m' ptrSize o d n) : WellFormed b m' ptrSize d := by
  have ho := h.wellFormed
  have hc := ho.klass.size_le
  constructor
  · exact ho.ptrSize_eq
  · exact h.aligned
  · rw [h.getClass_eq]
    exact ho.klass_ne
  · rw [h.getClass_eq]
    exact h.klass_wellFormed
  · rw [h.objectSize_eq]
    exact ho.header_le
  · rw [h.objectSize_eq]
    exact ho.size_le
  · rw [h.objectSize_eq]
    have := h.end_lt
    have := h.size_le
    omega
  · rw [h.getClass_eq, h.isArrayClass_eq]
    intro ha
    rw [h.body_eq (.inl ha)]
    exact ho.length_nonneg ha
  · rw [h.getClass_eq, h.klass_agree.isStringClass_eq hc]
    intro hs
    rw [h.count_eq hs]
    exact ho.count_nonneg hs
  · rw [h.getClass_eq, h.instanceOffsets_eq, h.isClassClass_eq, h.objectSize_eq]
    exact ho.instance_le
  · rw [h.getClass_eq, h.isClassClass_eq]
    intro hcc
    rw [h.agree.classSize_eq (h.mirror_le hcc).1]
    exact ho.mirror_le hcc
  · rw [h.getClass_eq, h.isClassClass_eq]
    intro hcc
    have hsize := (h.mirror_le hcc).1
    rw [h.isResolved_eq hcc, h.agree.numReferenceStaticFields_eq hsize,
      h.agree.getPrimitiveType_eq hsize, h.agree.classSize_eq hsize]
    intro hres hnum
    rw [h.firstStaticOffset_eq hcc hres hnum]
    exact ho.statics hcc hres hnum

theorem refOffsets_eq (h : Copied b m m' ptrSize o d n) :
    refOffsets b m' ptrSize d = refOffsets b m ptrSize o := by
  have hstatics : (if Class.isClassClass b m (Object.getClass b m o) = true then
      Class.staticOffsets b m' d ptrSize else []) =
      if Class.isClassClass b m (Object.getClass b m o) = true then
        Class.staticOffsets b m o ptrSize else [] := by
    split
    · next hc => exact h.staticOffsets_eq hc
    · rfl
  have helements : (if Class.isObjectArrayClass m (Object.getClass b m o) = some true then
      elementOffsets b m' d else []) =
      if Class.isObjectArrayClass m (Object.getClass b m o) = some true then
        elementOffsets b m o else [] := by
    split
    · next ha =>
      rw [elementOffsets, elementOffsets,
        h.length_eq (Class.isArrayClass_of_isObjectArrayClass ha)]
    · rfl
  rw [refOffsets, refOffsets, h.getClass_eq, h.instanceOffsets_eq, h.isClassClass_eq,
    h.isObjectArrayClass_eq, hstatics, helements]

/-- A slot of the object, moved. -/
theorem load32_slot (h : Copied b m m' ptrSize o d n) {s : Nat}
    (hs : s ∈ refSlots b m ptrSize o) : m'.load32 (s - o + d) = m.load32 s := by
  obtain ⟨-, hle, hend, -⟩ := h.wellFormed.of_mem_refSlots hs
  have hn := h.size_le
  have hk : s - o = 0 ∨ 8 ≤ s - o := by
    rcases List.mem_cons.mp hs with rfl | hs
    · exact .inl (Nat.sub_self s)
    · obtain ⟨f, hf, rfl⟩ := List.mem_map.mp (List.mem_of_mem_filter hs)
      have := (h.wellFormed.of_mem_refOffsets hf).1
      exact .inr (by omega)
  have hload := h.load32_eq hk (by omega)
  rwa [Nat.add_sub_cancel' hle, Nat.add_comm] at hload

/-- The slots move with the object. -/
theorem refSlots_eq (h : Copied b m m' ptrSize o d n) :
    refSlots b m' ptrSize d = (refSlots b m ptrSize o).map (fun s => s - o + d) := by
  rw [refSlots, refSlots, h.refOffsets_eq, List.map_cons, Nat.sub_self, Nat.zero_add,
    List.filter_map, List.filter_map, List.map_map]
  have hfilter : (refOffsets b m ptrSize o).filter ((m'.load32 · ≠ 0) ∘ (d + ·)) =
      (refOffsets b m ptrSize o).filter ((m.load32 · ≠ 0) ∘ (o + ·)) := by
    apply List.filter_congr
    intro f hf
    obtain ⟨hle, -, hend⟩ := h.wellFormed.of_mem_refOffsets hf
    have hload := h.agree f hle (hend.trans h.size_le)
    rw [Function.comp_apply, Function.comp_apply, hload]
  rw [hfilter]
  refine congrArg _ (List.map_congr_left fun f _ => ?_)
  rw [Function.comp_apply, Nat.add_sub_cancel_left, Nat.add_comm]

end Copied

/-! ### `copy` -/

section
variable [MmtkCore b] {CopySemantics : Type} {copyContext : CopyContext CopySemantics}
  {semantics : CopySemantics}

theorem WellFormed.getCurrentSize_eq (h : WellFormed b m ptrSize o) :
    ArtObjectModel.getCurrentSize b m o = some (alignedSize b m o) := by
  have hle := h.size_le
  have h32 := b.two_pow_32_le_usizeCard
  have hup : MmtkCore.rawAlignUp b (objectSize b m o) MIN_ALIGNMENT = alignedSize b m o :=
    MmtkCore.rawAlignUp_eq (k := 3) (by omega)
  rw [ArtObjectModel.getCurrentSize, h.getObjectSize_eq, Option.bind_eq_bind, Option.bind_some, hup]
  rfl

omit [MmtkCore b] in
/-- The object and the destination are aligned, so what is copied beyond the end of the object does
not reach the destination either. -/
theorem WellFormed.copyNonoverlapping_eq (h : WellFormed b m ptrSize o) (hd : 8 ∣ d)
    (hsrc : d + alignedSize b m o ≤ o ∨ o + objectSize b m o ≤ d) :
    copyNonoverlapping m o d (alignedSize b m o) = some (m.copy o d (alignedSize b m o)) := by
  refine if_pos (hsrc.symm.imp_left fun hle => ?_)
  have hdvd := h.aligned
  have hup : alignedSize b m o ≤ d - o :=
    alignUp_le_of_dvd (by decide) (Nat.dvd_sub hd hdvd) (by omega)
  omega

omit [MmtkCore b] in
theorem WellFormed.copied (h : WellFormed b m ptrSize o) (hd : 8 ∣ d)
    (hend : d + alignedSize b m o < b.usizeCard)
    (hapart : ApartFromClass b m o d (alignedSize b m o)) (hpost : copyContext.KeepsBytes)
    (semantics : CopySemantics) :
    Copied b m (copyContext.postCopy (m.copy o d (alignedSize b m o)) d (alignedSize b m o)
      semantics) ptrSize o d (alignedSize b m o) := by
  have hbits : ArtObjectModel.localForwardingBits / 8 = 7 := rfl
  have hheader := h.header_le
  have h8 : OBJECT_HEADER_SIZE = 8 := rfl
  have hup : objectSize b m o ≤ alignedSize b m o := le_alignUp (by decide)
  refine ⟨hapart, h, hup, hd, hend, ?_, ?_⟩
  · intro k hk hne
    rw [hpost _ _ _ _ _ (by omega)]
    exact Memory.copy_add hk
  · intro a ha
    rw [hpost _ _ _ _ _ (by omega)]
    exact Memory.copy_of_outside ha

/-- **Copying is transparent to sizing and scanning.** The copy has the size of the object and its
slots, moved with it and holding the same references, and nothing outside the copy changes. -/
theorem copy_transparent (h : WellFormed b m ptrSize o) (hpost : copyContext.KeepsBytes)
    (halloc : copyContext.allocCopy o (alignedSize b m o) MIN_ALIGNMENT 0 semantics = d)
    (hd : 8 ∣ d) (hend : d + alignedSize b m o < b.usizeCard)
    (hsrc : d + alignedSize b m o ≤ o ∨ o + objectSize b m o ≤ d)
    (hapart : ApartFromClass b m o d (alignedSize b m o)) (kVisitNativeRoots : Bool) :
    ∃ m' size bytes visits visits',
      ArtObjectModel.copy b m o semantics copyContext = some (d, m') ∧
      getObjectSize b m o = some size ∧ getObjectSize b m' d = some size ∧
      ArtObjectModel.getCurrentSize b m o = some bytes ∧
      ArtObjectModel.getCurrentSize b m' d = some bytes ∧
      8 ∣ bytes ∧ size ≤ bytes ∧ bytes < size + 8 ∧
      scanObject b m ptrSize kVisitNativeRoots o = some visits ∧
      scanObject b m' ptrSize kVisitNativeRoots d = some visits' ∧
      Visit.slots visits' = (Visit.slots visits).map (fun s => s - o + d) ∧
      (∀ s ∈ Visit.slots visits, m'.load32 (s - o + d) = m.load32 s) ∧
      ∀ a, a < d ∨ d + bytes ≤ a → m' a = m a := by
  have hcopy : ArtObjectModel.copy b m o semantics copyContext =
      some (d, copyContext.postCopy (m.copy o d (alignedSize b m o)) d (alignedSize b m o)
        semantics) := by
    rw [ArtObjectModel.copy, ArtObjectModel.getSizeWhenCopied, h.getCurrentSize_eq,
      Option.bind_eq_bind, Option.bind_some]
    dsimp only
    rw [halloc, h.copyNonoverlapping_eq hd hsrc]
    rfl
  have hcopied := h.copied hd hend hapart hpost semantics
  generalize copyContext.postCopy _ _ _ semantics = m' at hcopy hcopied
  have h' := hcopied.copy_wellFormed
  have hsize := hcopied.objectSize_eq
  have haligned : alignedSize b m' d = alignedSize b m o := by
    rw [alignedSize, hsize, alignedSize]
  obtain ⟨visits, hscan, hslots⟩ := h.scanObject_eq kVisitNativeRoots
  obtain ⟨visits', hscan', hslots'⟩ := h'.scanObject_eq kVisitNativeRoots
  refine ⟨m', _, _, visits, visits', hcopy, h.getObjectSize_eq, hsize ▸ h'.getObjectSize_eq,
    h.getCurrentSize_eq, haligned ▸ h'.getCurrentSize_eq, dvd_alignUp, le_alignUp (by decide),
    alignUp_lt (by decide), hscan, hscan', ?_, ?_, hcopied.frame⟩
  · rw [hslots, hslots', hcopied.refSlots_eq]
  · intro s hs
    exact hcopied.load32_slot (hslots ▸ hs)

end

/-- The class at 0x2000 is copied to 0x8000, and its slots move there. -/
theorem copy_resolvedClass :
    letI := MmtkCore.documented .android64
    ∃ m' visits, ArtObjectModel.copy .android64 resolvedClass 0x2000 ()
        (.allocatingAt 0x8000) = some (0x8000, m') ∧
      scanObject .android64 m' 8 true 0x8000 = some visits ∧
      Visit.slots visits = [0x8000, 0x8008, 0x8078] := by
  let _ := MmtkCore.documented .android64
  have halloc : (CopyContext.allocatingAt 0x8000).allocCopy 0x2000
      (alignedSize .android64 resolvedClass 0x2000) MIN_ALIGNMENT 0 () = 0x8000 := rfl
  have hapart : ApartFromClass .android64 resolvedClass 0x2000 0x8000
      (alignedSize .android64 resolvedClass 0x2000) :=
    ⟨by decide +kernel, by decide +kernel⟩
  obtain ⟨m', -, -, visits, visits', hcopy, -, -, -, -, -, -, -, hscan, hscan', hslots, -, -⟩ :=
    copy_transparent resolvedClass_wellFormed (CopyContext.allocatingAt_keepsBytes _) halloc
      (by decide) (by decide +kernel) (by decide +kernel) hapart true
  refine ⟨m', visits', hcopy, hscan', ?_⟩
  obtain ⟨visits₀, hscan₀, hslots₀⟩ := resolvedClass_wellFormed.scanObject_eq true
  cases hscan.symm.trans hscan₀
  rw [hslots, hslots₀]
  decide +kernel

end MmtkArt
