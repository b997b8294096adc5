import MmtkArt.Abi
import MmtkArt.Util.Bitmap

/-! # The layout of a well-formed object

Where the references of an object are and how large it is, in exact arithmetic and by what its class
is: `refOffsets` and `objectSize` go by the component type and by the class being java.lang.Class,
never by the flags that `scan_object` dispatches on. `WellFormed` is what the runtime keeps of every
object: its flags agree with its class, and everything that the layout names lies inside it. -/

namespace MmtkArt

/-! ### Where the references are -/

namespace Class

variable (b : Build) (m : Memory) (c : Nat)

/-- The class keeps its bitmap in words at its end. -/
def HasOverflowBitmap : Prop := referenceInstanceOffsets m c &&& kVisitReferencesSlowpathMask ≠ 0

instance : Decidable (HasOverflowBitmap m c) := inferInstanceAs (Decidable (_ ≠ _))

def bitmapNumWords : Nat :=
  if HasOverflowBitmap m c then
    referenceInstanceOffsets m c &&& (2 ^ 32 - 1 - kVisitReferencesSlowpathMask)
  else 1

def bitmapWord (i : Nat) : Nat :=
  if HasOverflowBitmap m c then m.load32 (c + classSize m c - 4 * bitmapNumWords m c + 4 * i)
  else referenceInstanceOffsets m c

/-- The offsets that the reference bitmap marks. -/
def instanceOffsets : List Nat :=
  (bitmap (bitmapWord m c) (bitmapNumWords m c)).map (OBJECT_HEADER_SIZE + 4 * ·)

/-- The static fields follow the mirror and what is embedded after it: the vtable length, the
pointer to the IMT, and the vtable. -/
def firstStaticOffset (ptrSize : Nat) : Nat :=
  if shouldHaveEmbeddedVtable m c = some true then
    alignUp ptrSize (size + 4) + ptrSize + getEmbeddedVtableLength b m c * ptrSize
  else size

def staticOffsets (ptrSize : Nat) : List Nat :=
  if isResolved b m c = some true then
    (List.range (numReferenceStaticFields m c)).map (firstStaticOffset b m c ptrSize + 4 * ·)
  else []

end Class

section
variable (b : Build) (m : Memory) (ptrSize o : Nat)

def elementOffsets : List Nat :=
  (List.range (Array.length b m o)).map (Array.firstElementOffset + 4 * ·)

/-- The offsets of the references of an object, the class aside. -/
def refOffsets : List Nat :=
  Class.instanceOffsets m (Object.getClass b m o) ++
    (if Class.isClassClass b m (Object.getClass b m o) then Class.staticOffsets b m o ptrSize
      else []) ++
    (if Class.isObjectArrayClass m (Object.getClass b m o) = some true then elementOffsets b m o
      else [])

/-- The klass slot, and the slots of the other references that are not null. -/
def refSlots : List Nat :=
  o :: ((refOffsets b m ptrSize o).map (o + ·)).filter (m.load32 · ≠ 0)

/-! ### How large an object is -/

def arraySize (shift : Nat) : Nat :=
  alignUp (2 ^ shift) Array.firstElementOffset + Array.length b m o * 2 ^ shift

def stringSize : Nat :=
  alignUp MIN_ALIGNMENT (ArtString.size +
    (if ArtString.isCompressed m o then 1 else 2) * (ArtString.getLength m o).toNat)

def objectSize : Nat :=
  let c := Object.getClass b m o
  if Class.isArrayClass m c then
    arraySize b m o (Class.getPrimitiveTypeSizeShift m (Class.componentType m c))
  else if Class.isClassClass b m c then Class.classSize m o
  else if Class.isStringClass m c then stringSize m o
  else Class.objectSize m c

/-- The size rounded up to the alignment of objects. -/
def alignedSize : Nat := alignUp MIN_ALIGNMENT (objectSize b m o)

end

theorem Array.sizeOf_eq {b : Build} [MmtkCore b] {m : Memory} {a shift : Nat}
    (hcomp : getComponentSizeShift b m a = some shift) (hshift : shift ≤ 3)
    (hle : arraySize b m a shift ≤ 2 ^ 31) : sizeOf b m a = some (arraySize b m a shift) := by
  have hpow : 2 ^ shift ≤ 8 := Nat.pow_le_pow_right Nat.two_pos hshift
  have hcard : b.usizeCard = 2 ^ b.targetPointerWidth.bits := rfl
  have h32 := b.two_pow_32_le_usizeCard
  have hbits : 32 ≤ b.targetPointerWidth.bits := by
    cases b.targetPointerWidth <;> decide
  rw [arraySize] at hle ⊢
  have hone : FixedWidth.shl b.overflowChecks b.targetPointerWidth.bits 1 shift =
      some (2 ^ shift) := by
    rw [FixedWidth.shl_of_lt (by omega) (by omega), Nat.one_mul]
  have hdata : FixedWidth.shl b.overflowChecks b.targetPointerWidth.bits (length b m a) shift =
      some (length b m a * 2 ^ shift) := FixedWidth.shl_of_lt (by omega) (by omega)
  have hheader : dataOffset b (2 ^ shift) = alignUp (2 ^ shift) firstElementOffset :=
    MmtkCore.rawAlignUp_eq (by unfold firstElementOffset; omega)
  rw [sizeOf, hcomp, Option.bind_eq_bind, Option.bind_some, hone, Option.bind_some, hdata,
    Option.bind_some, hheader]
  exact FixedWidth.add_of_lt (by omega)

theorem ArtString.sizeOf_eq {b : Build} [MmtkCore b] {m : Memory} {s : Nat} (hcount : 0 ≤ count m s)
    (hle : stringSize m s ≤ 2 ^ 31) : sizeOf b m s = some (stringSize m s) := by
  have h32 := b.two_pow_32_le_usizeCard
  obtain ⟨n, hlength⟩ := Int.eq_ofNat_of_zero_le (Int.le_shiftRight_of_nonneg hcount (s := 1))
  replace hlength : getLength m s = n := hlength
  generalize hw : (if isCompressed m s then 1 else 2) = width at *
  have hsize : stringSize m s = alignUp MIN_ALIGNMENT (size + width * n) := by
    rw [stringSize, hlength, hw, Int.toNat_natCast]
  have hup := le_alignUp (a := MIN_ALIGNMENT) (v := size + width * n) (by decide)
  have h16 : size = 16 := rfl
  have h8 : MIN_ALIGNMENT = 2 ^ 3 := rfl
  rw [hsize] at hle ⊢
  have hwidth : n ≤ width * n := Nat.le_mul_of_pos_left n (by rw [← hw]; split <;> decide)
  rw [sizeOf, hlength, asUsize_natCast (by omega), hw, FixedWidth.mul_of_lt (by omega),
    Option.bind_eq_bind, Option.bind_some, FixedWidth.add_of_lt (by omega), Option.bind_some, h8,
    MmtkCore.rawAlignUp_eq (by omega)]
  rfl

/-! ### Well-formed objects -/

/-- The flags belong to a kind of object that `scan_object` dispatches on. -/
def Class.Dispatched (classFlags : Nat) : Prop :=
  classFlags = kClassFlagNormal ∨ classFlags = kClassFlagRecord ∨
    classFlags &&& kClassFlagNoReferenceFields ≠ 0 ∨ classFlags = kClassFlagClass ∨
    classFlags &&& kClassFlagObjectArray ≠ 0 ∨ classFlags &&& kClassFlagReference ≠ 0 ∨
    classFlags &&& kClassFlagDexCache ≠ 0 ∨ classFlags &&& kClassFlagClassLoader ≠ 0

structure Class.WellFormed (b : Build) (m : Memory) (c : Nat) : Prop where
  size_le : size ≤ classSize m c
  end_lt : c + classSize m c < b.usizeCard
  dispatched : Dispatched (classFlags m c)
  flag_class : classFlags m c = kClassFlagClass ↔ isClassClass b m c = true
  flag_objectArray :
    classFlags m c &&& kClassFlagObjectArray ≠ 0 ↔ isObjectArrayClass m c = some true
  /-- A primitive array has no reference fields. -/
  flag_primitiveArray : isArrayClass m c = true → isObjectArrayClass m c ≠ some true →
    classFlags m c &&& kClassFlagNoReferenceFields ≠ 0
  flag_noReferenceFields : classFlags m c &&& kClassFlagNoReferenceFields ≠ 0 →
    instanceOffsets m c = [] ∧ isObjectArrayClass m c ≠ some true
  /-- The references of an object array are its elements. -/
  objectArray_bitmap : isObjectArrayClass m c = some true → instanceOffsets m c = []
  /-- The bitmap is inside the class, and the offsets it has bits for are `u32`s. -/
  bitmap_le : HasOverflowBitmap m c → 4 * bitmapNumWords m c ≤ classSize m c
  bitmap_lt : OBJECT_HEADER_SIZE + 128 * bitmapNumWords m c < 2 ^ 32
  /-- The primitive type of the component is one, with its size shift. -/
  component : isArrayClass m c = true →
    ∃ type, getPrimitiveType m (componentType m c) = some type ∧
      getPrimitiveTypeSizeShift m (componentType m c) = type.componentSizeShift

/-- An object that the runtime has built. No object is larger than a space of the heap (2 GiB, see
`log_space_extent` in `set_vm_layout`). -/
structure WellFormed (b : Build) (m : Memory) (ptrSize o : Nat) : Prop where
  ptrSize_eq : ptrSize = 4 ∨ ptrSize = 8
  aligned : 8 ∣ o
  klass_ne : Object.getClass b m o ≠ 0
  klass : Class.WellFormed b m (Object.getClass b m o)
  header_le : OBJECT_HEADER_SIZE ≤ objectSize b m o
  size_le : objectSize b m o ≤ 2 ^ 31
  end_lt : o + objectSize b m o < b.usizeCard
  length_nonneg : Class.isArrayClass m (Object.getClass b m o) = true →
    0 ≤ asI32 (m.load32 (o + 8))
  count_nonneg : Class.isStringClass m (Object.getClass b m o) = true → 0 ≤ ArtString.count m o
  /-- The bitmap marks fields inside the object; those of a Class object are inside the mirror. -/
  instance_le : ∀ f ∈ Class.instanceOffsets m (Object.getClass b m o),
    f + 4 ≤ if Class.isClassClass b m (Object.getClass b m o) then Class.size
      else objectSize b m o
  mirror_le : Class.isClassClass b m (Object.getClass b m o) = true →
    Class.size ≤ Class.classSize m o
  statics : Class.isClassClass b m (Object.getClass b m o) = true →
    Class.isResolved b m o = some true → 0 < Class.numReferenceStaticFields m o →
    Class.getPrimitiveType m o ≠ none ∧
      Class.firstStaticOffset b m o ptrSize + 4 * Class.numReferenceStaticFields m o ≤
        Class.classSize m o

namespace WellFormed

variable {b : Build} {m : Memory} {ptrSize o : Nat}

theorem lt_usizeCard (h : WellFormed b m ptrSize o) : o < b.usizeCard :=
  Nat.lt_of_le_of_lt (Nat.le_add_right _ _) h.end_lt

theorem getClass_eq (h : WellFormed b m ptrSize o) : Object.getClass b m o = m.load32 o :=
  Object.getClass_eq h.lt_usizeCard

theorem length_eq (h : WellFormed b m ptrSize o)
    (ha : Class.isArrayClass m (Object.getClass b m o) = true) :
    Array.length b m o = m.load32 (o + 8) := by
  have hlt := (asI32_nonneg_iff Memory.load32_lt).mp (h.length_nonneg ha)
  have := b.two_pow_32_le_usizeCard
  rw [Array.length, asI32_of_lt hlt]
  exact asUsize_natCast (by omega)

variable [MmtkCore b]

theorem arraySizeOf_eq (h : WellFormed b m ptrSize o)
    (ha : Class.isArrayClass m (Object.getClass b m o) = true) :
    Array.sizeOf b m o = some (objectSize b m o) := by
  obtain ⟨type, -, hshift⟩ := h.klass.component ha
  have hne : Class.componentType m (Object.getClass b m o) ≠ 0 := of_decide_eq_true ha
  have hobj : objectSize b m o = arraySize b m o type.componentSizeShift := by
    rw [objectSize, if_pos ha, hshift]
  rw [hobj]
  refine Array.sizeOf_eq ?_ type.componentSizeShift_le (hobj ▸ h.size_le)
  rw [Array.getComponentSizeShift, ArtHeapReference.deref_of_ne h.klass_ne, Option.bind_eq_bind,
    Option.bind_some, Class.getComponentSizeShift, ArtHeapReference.deref_of_ne hne,
    Option.bind_eq_bind, Option.bind_some, hshift]
  rfl

/-- **The size of a well-formed object.** -/
theorem getObjectSize_eq (h : WellFormed b m ptrSize o) :
    getObjectSize b m o = some (objectSize b m o) := by
  rw [getObjectSize, ArtHeapReference.deref_of_ne h.klass_ne]
  simp only [Option.bind_eq_bind, Option.bind_some]
  split
  · next ha => exact h.arraySizeOf_eq ha
  · next ha =>
    split
    · next hc => rw [objectSize, if_neg ha, if_pos hc]; rfl
    · next hc =>
      split
      · next hs =>
        have hobj : objectSize b m o = stringSize m o := by
          rw [objectSize, if_neg ha, if_neg hc, if_pos hs]
        rw [hobj]
        exact ArtString.sizeOf_eq (h.count_nonneg hs) (hobj ▸ h.size_le)
      · next hs => rw [objectSize, if_neg ha, if_neg hc, if_neg hs]; rfl

end WellFormed

/-! ### The references are in the object -/

theorem nodup_offsets {base : Nat} {l : List Nat} (h : l.Nodup) : (l.map (base + 4 * ·)).Nodup := by
  apply h.map
  intro i j hij
  have hij : base + 4 * i = base + 4 * j := hij
  omega

namespace Class

variable {b : Build} {m : Memory} {c o ptrSize : Nat}

theorem instanceOffsets_nodup : (instanceOffsets m c).Nodup := nodup_offsets bitmap_nodup

/-- The field `i` is marked by the bit `i % 32` of the word `i / 32`. -/
theorem mem_instanceOffsets {f : Nat} : f ∈ instanceOffsets m c ↔ ∃ i,
    (i < 32 * bitmapNumWords m c ∧ (bitmapWord m c (i / 32)).testBit (i % 32) = true) ∧
      OBJECT_HEADER_SIZE + 4 * i = f := by
  simp only [instanceOffsets, List.mem_map, mem_bitmap]

theorem of_mem_instanceOffsets {f : Nat} (h : f ∈ instanceOffsets m c) : 8 ≤ f ∧ 4 ∣ f := by
  obtain ⟨i, -, rfl⟩ := mem_instanceOffsets.mp h
  exact ⟨Nat.le_add_right 8 _, by unfold OBJECT_HEADER_SIZE; omega⟩

theorem size_le_firstStaticOffset (hptr : ptrSize = 4 ∨ ptrSize = 8) :
    size ≤ firstStaticOffset b m c ptrSize ∧ 4 ∣ firstStaticOffset b m c ptrSize := by
  unfold firstStaticOffset
  split
  · have hle := le_alignUp (a := ptrSize) (v := size + 4) (by omega)
    obtain ⟨k, hk⟩ := dvd_alignUp (a := ptrSize) (v := size + 4)
    refine ⟨by omega, ?_⟩
    rw [hk, Nat.mul_comm _ ptrSize, ← Nat.mul_add_one, ← Nat.mul_add]
    refine Dvd.dvd.mul_right ?_ _
    rcases hptr with rfl | rfl <;> decide
  · exact ⟨le_rfl, by decide⟩

theorem staticOffsets_nodup : (staticOffsets b m c ptrSize).Nodup := by
  unfold staticOffsets
  split
  · exact nodup_offsets List.nodup_range
  · exact List.nodup_nil

theorem isArrayClass_of_isObjectArrayClass (h : isObjectArrayClass m c = some true) :
    isArrayClass m c = true := by
  rw [isObjectArrayClass] at h
  split at h
  · next hne => exact decide_eq_true hne
  · cases h

/-- The elements of an object array are references. -/
theorem getPrimitiveType_of_isObjectArrayClass (h : isObjectArrayClass m c = some true) :
    getPrimitiveType m (componentType m c) = some .not := by
  rw [isObjectArrayClass] at h
  split at h
  · obtain ⟨primitive, hp, h⟩ := Option.bind_eq_some_iff.mp h
    obtain ⟨type, htype, hp⟩ := Option.bind_eq_some_iff.mp hp
    cases hp
    have h : (!decide (type ≠ .not)) = true := Option.some.inj h
    rw [htype]
    simpa using h
  · cases h

/-- java.lang.Class is no array class. -/
theorem WellFormed.not_isArrayClass (h : WellFormed b m c) (hc : isClassClass b m c = true) :
    isArrayClass m c ≠ true := by
  have hflags := h.flag_class.mpr hc
  intro ha
  by_cases hobj : isObjectArrayClass m c = some true
  · exact absurd (hflags ▸ h.flag_objectArray.mpr hobj) (by decide)
  · exact absurd (hflags ▸ h.flag_primitiveArray ha hobj) (by decide)

end Class

namespace WellFormed

variable {b : Build} {m : Memory} {ptrSize o f : Nat}

theorem objectSize_of_class (h : WellFormed b m ptrSize o)
    (hc : Class.isClassClass b m (Object.getClass b m o) = true) :
    objectSize b m o = Class.classSize m o := by
  rw [objectSize, if_neg (h.klass.not_isArrayClass hc), if_pos hc]

theorem objectSize_of_objectArray (h : WellFormed b m ptrSize o)
    (ha : Class.isObjectArrayClass m (Object.getClass b m o) = some true) :
    objectSize b m o = Array.firstElementOffset + 4 * Array.length b m o := by
  have harray := Class.isArrayClass_of_isObjectArrayClass ha
  obtain ⟨type, htype, hshift⟩ := h.klass.component harray
  rw [Class.getPrimitiveType_of_isObjectArrayClass ha] at htype
  cases htype
  rw [objectSize, if_pos harray, hshift, arraySize, Nat.mul_comm]
  rfl

theorem of_mem_staticOffsets (h : WellFormed b m ptrSize o)
    (hc : Class.isClassClass b m (Object.getClass b m o) = true)
    (hf : f ∈ Class.staticOffsets b m o ptrSize) :
    Class.size ≤ f ∧ 4 ∣ f ∧ f + 4 ≤ objectSize b m o := by
  unfold Class.staticOffsets at hf
  split at hf
  · next hres =>
    obtain ⟨i, hi, rfl⟩ := List.mem_map.mp hf
    have hi := List.mem_range.mp hi
    obtain ⟨hle, hdvd⟩ := Class.size_le_firstStaticOffset (b := b) (m := m) (c := o) h.ptrSize_eq
    have hend := (h.statics hc hres (by omega)).2
    rw [h.objectSize_of_class hc]
    exact ⟨by omega, by omega, by omega⟩
  · cases hf

theorem of_mem_elementOffsets (h : WellFormed b m ptrSize o)
    (ha : Class.isObjectArrayClass m (Object.getClass b m o) = some true)
    (hf : f ∈ elementOffsets b m o) : 8 ≤ f ∧ 4 ∣ f ∧ f + 4 ≤ objectSize b m o := by
  obtain ⟨i, hi, rfl⟩ := List.mem_map.mp hf
  have hi := List.mem_range.mp hi
  rw [h.objectSize_of_objectArray ha]
  unfold Array.firstElementOffset
  exact ⟨by omega, by omega, by omega⟩

/-- Arrays and strings have a word after the header. -/
theorem body_le (h : WellFormed b m ptrSize o)
    (ha : Class.isArrayClass m (Object.getClass b m o) = true ∨
      Class.isStringClass m (Object.getClass b m o) = true) : 12 ≤ objectSize b m o := by
  rw [objectSize]
  split
  · exact (le_alignUp (Nat.two_pow_pos _)).trans (Nat.le_add_right _ _)
  next harray =>
  split
  · next hc => exact Nat.le_trans (by decide) (h.mirror_le hc)
  · rw [if_pos (ha.resolve_left harray)]
    refine Nat.le_trans ?_ (le_alignUp (by decide))
    exact Nat.le_trans (by decide) (Nat.le_add_right ArtString.size _)

theorem refOffsets_of_objectArray (h : WellFormed b m ptrSize o)
    (ha : Class.isObjectArrayClass m (Object.getClass b m o) = some true) :
    refOffsets b m ptrSize o = elementOffsets b m o := by
  have hc : Class.isClassClass b m (Object.getClass b m o) ≠ true := fun hc =>
    h.klass.not_isArrayClass hc (Class.isArrayClass_of_isObjectArrayClass ha)
  rw [refOffsets, if_pos ha, if_neg hc, h.klass.objectArray_bitmap ha, List.append_nil,
    List.nil_append]

theorem refOffsets_of_class (h : WellFormed b m ptrSize o)
    (hc : Class.isClassClass b m (Object.getClass b m o) = true) :
    refOffsets b m ptrSize o = Class.instanceOffsets m (Object.getClass b m o) ++
      Class.staticOffsets b m o ptrSize := by
  have ha : Class.isObjectArrayClass m (Object.getClass b m o) ≠ some true := fun ha =>
    h.klass.not_isArrayClass hc (Class.isArrayClass_of_isObjectArrayClass ha)
  rw [refOffsets, if_pos hc, if_neg ha, List.append_nil]

theorem refOffsets_of_instance
    (ha : Class.isObjectArrayClass m (Object.getClass b m o) ≠ some true)
    (hc : Class.isClassClass b m (Object.getClass b m o) ≠ true) :
    refOffsets b m ptrSize o = Class.instanceOffsets m (Object.getClass b m o) := by
  rw [refOffsets, if_neg hc, if_neg ha, List.append_nil, List.append_nil]

/-- Every reference of an object is an aligned word inside it, after the header. -/
theorem of_mem_refOffsets (h : WellFormed b m ptrSize o) (hf : f ∈ refOffsets b m ptrSize o) :
    8 ≤ f ∧ 4 ∣ f ∧ f + 4 ≤ objectSize b m o := by
  rw [refOffsets, List.mem_append, List.mem_append] at hf
  rcases hf with (hf | hf) | hf
  · obtain ⟨hle, hdvd⟩ := Class.of_mem_instanceOffsets hf
    have hend := h.instance_le f hf
    split at hend
    · next hc =>
      have := h.mirror_le hc
      rw [h.objectSize_of_class hc]
      exact ⟨hle, hdvd, by omega⟩
    · exact ⟨hle, hdvd, hend⟩
  · split at hf
    · next hc =>
      obtain ⟨hle, hdvd, hend⟩ := h.of_mem_staticOffsets hc hf
      exact ⟨Nat.le_trans (by decide) hle, hdvd, hend⟩
    · cases hf
  · split at hf
    · next ha => exact h.of_mem_elementOffsets ha hf
    · cases hf

/-- No reference is named twice: the static fields follow the mirror, and the class of an object
array marks no instance fields. -/
theorem refOffsets_nodup (h : WellFormed b m ptrSize o) : (refOffsets b m ptrSize o).Nodup := by
  by_cases ha : Class.isObjectArrayClass m (Object.getClass b m o) = some true
  · rw [h.refOffsets_of_objectArray ha]
    exact nodup_offsets List.nodup_range
  · by_cases hc : Class.isClassClass b m (Object.getClass b m o) = true
    · rw [h.refOffsets_of_class hc]
      apply Class.instanceOffsets_nodup.append Class.staticOffsets_nodup
      intro f hi hs
      have hend := h.instance_le f hi
      rw [if_pos hc] at hend
      have := (h.of_mem_staticOffsets hc hs).1
      omega
    · rw [refOffsets_of_instance ha hc]
      exact Class.instanceOffsets_nodup

end WellFormed
end MmtkArt
