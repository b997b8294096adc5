import Mathlib.Order.Interval.Finset.Nat
import MmtkArt.ObjectScanning.Assertions
import MmtkArt.ObjectScanning.Slots
import MmtkArt.Util.Asserting
import MmtkArt.Util.Chain

/-! # What the debug assertions check

`Scannable` is what `scan_object` asserts of a well-formed object, and `Sizable` what
`get_object_size` asserts of it. A build with debug assertions returns what any other build returns
for the objects that meet them, and fails for all the others (`scanObject_asserting`,
`getObjectSize_asserting`). The loop over the superclasses returns if they end. -/

namespace MmtkArt
namespace Debug

section
variable (b : Build) (isObjectSane : Nat → Bool) (m : Memory)

/-- The next superclass, if there is one. -/
def Class.nextSuperClass (c : Nat) : Option Nat :=
  if superClass m c = 0 then none else some (superClass m c)

/-- The size shift next to the primitive type is the one of the type. -/
def Class.SizeShiftAgrees (c : Nat) : Prop :=
  ∃ type, MmtkArt.Class.getPrimitiveType m c = some type ∧
    MmtkArt.Class.getPrimitiveTypeSizeShift m c = type.componentSizeShift

/-- A class of objects that are no arrays, which is neither abstract nor an interface. -/
structure Class.Concrete (c : Nat) : Prop where
  type : MmtkArt.Class.getPrimitiveType m c = some .not
  sizeShift : MmtkArt.Class.getPrimitiveTypeSizeShift m c = ArtPrimitive.not.componentSizeShift
  interface : Class.isInterface m c = false
  abstract : Class.isAbstract m c = false
  array : Class.isArrayClass m c = false

/-- A class whose bitmap of instance fields is in place. -/
structure Class.Linked (c : Nat) : Prop where
  status : Class.isResolved b m c = some true ∨ isErroneous b m c = some true
  offsets : Class.referenceInstanceOffsets m c ≠ 0

/-- The superclasses end, and the class and they declare one reference field together. -/
def Class.OnlyClassField (c : Nat) : Prop :=
  ∃ supers, ChainTo (nextSuperClass m) c supers ∧ (∀ d ∈ supers, isObjectSane d = true) ∧
    ((c :: supers).map (numReferenceInstanceFields m)).sum = 1

/-- The class and its component type are valid. -/
structure Class.Valid (c : Nat) : Prop where
  sane : isObjectSane c = true
  component : Class.isArrayClass m c = true → isObjectSane (Class.componentType m c) = true

/-- What `scan_object` asserts of the class of a well-formed object. -/
structure Class.Scannable (c : Nat) : Prop extends Class.Valid isObjectSane m c where
  string : Class.isStringClass m c = true →
    Class.classFlags m c &&& Class.kClassFlagNoReferenceFields ≠ 0
  fields : Class.isArrayClass m c = false →
    Class.classFlags m c &&& Class.kClassFlagNoReferenceFields = 0 →
    Class.Concrete m c ∧ Class.Linked b m c
  noFields : Class.classFlags m c &&& Class.kClassFlagNoReferenceFields ≠ 0 →
    Class.isStringClass m c = false → Class.OnlyClassField isObjectSane m c

/-- What `get_object_size` asserts of a well-formed object. -/
structure Sizable (o : Nat) : Prop where
  sane : isObjectSane o = true
  klass : Class.Valid isObjectSane m (MmtkArt.Object.getClass b m o)

/-- What `scan_object` asserts of a well-formed object. -/
structure Scannable (o : Nat) : Prop where
  sane : isObjectSane o = true
  klass : Class.Scannable b isObjectSane m (MmtkArt.Object.getClass b m o)
  statics : MmtkArt.Class.isClassClass b m (MmtkArt.Object.getClass b m o) = true →
    Class.isResolved b m o = some true → 0 < Class.numReferenceStaticFields m o →
    Class.SizeShiftAgrees m o

end

variable {b : Build} {isObjectSane : Nat → Bool} {m : Memory} {c o : Nat}

/-! ### What is valid -/

theorem deref_eq (hne : c ≠ 0) (hc : isObjectSane c = true) :
    ArtHeapReference.deref isObjectSane c = some c := by
  rw [ArtHeapReference.deref, Asserting.guard_bind hne, Asserting.guard_bind hc]
  exact ArtHeapReference.deref_of_ne hne

theorem getClass_eq (ho : isObjectSane o = true) :
    Object.getClass b isObjectSane m o = some (MmtkArt.Object.getClass b m o) :=
  Asserting.guard_bind ho

theorem klass_eq (ho : isObjectSane o = true) (hne : MmtkArt.Object.getClass b m o ≠ 0)
    (hc : isObjectSane (MmtkArt.Object.getClass b m o) = true) :
    Object.klass b isObjectSane m o = some (MmtkArt.Object.getClass b m o) := by
  rw [Object.klass, getClass_eq ho]
  exact deref_eq hne hc

/-- A dereference asserts that there is something to refer to and that it is valid. -/
theorem deref_asserting (hne : c ≠ 0) :
    Asserting (isObjectSane c = true) (ArtHeapReference.deref isObjectSane c) (some c) :=
  (Asserting.of_guard fun _ => (Asserting.of_guard fun _ =>
    ArtHeapReference.deref_of_ne hne ▸ Asserting.refl _).congr (and_iff_left trivial)).congr
      (and_iff_right hne)

theorem klass_asserting (ho : isObjectSane o = true) (hne : MmtkArt.Object.getClass b m o ≠ 0) :
    Asserting (isObjectSane (MmtkArt.Object.getClass b m o) = true)
      (Object.klass b isObjectSane m o) (some (MmtkArt.Object.getClass b m o)) := by
  rw [Object.klass, getClass_eq ho]
  exact deref_asserting hne

/-! ### The superclasses -/

theorem nextSuperClass_of_eq (h : Class.superClass m c = 0) : Class.nextSuperClass m c = none :=
  if_pos h

theorem nextSuperClass_of_ne (h : Class.superClass m c ≠ 0) :
    Class.nextSuperClass m c = some (Class.superClass m c) := if_neg h

/-- References are 32 bits. -/
theorem superClasses_length_lt {supers : List Nat} (h : ChainTo (Class.nextSuperClass m) c supers) :
    supers.length < 2 ^ 32 := by
  have hle := h.length_le (Finset.Ioo 0 (2 ^ 32)) fun x y hy => by
    unfold Class.nextSuperClass at hy
    split at hy
    · cases hy
    · next hne =>
      cases hy
      exact Finset.mem_Ioo.mpr ⟨Nat.pos_of_ne_zero hne, Memory.load32_lt⟩
  rw [Nat.card_Ioo] at hle
  omega

/-- The loop follows the superclasses to their end, as long as the fuel lasts. -/
theorem totalReferenceInstanceFields_eq_some (hb : b.overflowChecks = true) {fuel total t : Nat} :
    Class.totalReferenceInstanceFields b isObjectSane m fuel c total = some t ↔
      ∃ supers, ChainTo (Class.nextSuperClass m) c supers ∧ supers.length < fuel ∧
        (∀ d ∈ supers, isObjectSane d = true) ∧ t < b.usizeCard ∧
        t = total + ((c :: supers).map (Class.numReferenceInstanceFields m)).sum := by
  induction fuel generalizing c total with
  | zero =>
    exact iff_of_false nofun fun ⟨_, _, hlt, _⟩ => Nat.not_lt_zero _ hlt
  | succ fuel ih =>
    rw [Class.totalReferenceInstanceFields, Option.bind_eq_bind, Option.bind_eq_some_iff]
    by_cases h0 : Class.superClass m c = 0
    · simp only [if_pos h0, ChainTo.of_none (nextSuperClass_of_eq h0)]
      constructor
      · rintro ⟨s, hs, hst⟩
        cases hst
        obtain ⟨rfl, hlt⟩ := FixedWidth.fit_exact (.inl hb) hs
        exact ⟨[], rfl, Nat.succ_pos _, nofun, hlt, by simp⟩
      · rintro ⟨_, rfl, -, -, hlt, rfl⟩
        refine ⟨_, FixedWidth.add_of_lt ?_, rfl⟩
        simpa using hlt
    · simp only [if_neg h0, ChainTo.of_some (nextSuperClass_of_ne h0)]
      constructor
      · rintro ⟨s, hs, hst⟩
        obtain ⟨d, hd, hst⟩ := Option.bind_eq_some_iff.mp hst
        obtain ⟨hsane, hd⟩ := (deref_asserting h0 d).mp hd
        cases hd
        obtain ⟨rfl, -⟩ := FixedWidth.fit_exact (.inl hb) hs
        obtain ⟨supers, hsupers, hlen, hall, hlt, rfl⟩ := ih.mp hst
        refine ⟨_, ⟨supers, rfl, hsupers⟩, Nat.succ_lt_succ hlen,
          List.forall_mem_cons.mpr ⟨hsane, hall⟩, hlt, ?_⟩
        simp only [List.map_cons, List.sum_cons, Nat.add_assoc]
      · rintro ⟨_, ⟨supers, rfl, hsupers⟩, hlen, hall, hlt, ht⟩
        obtain ⟨hsane, hall⟩ := List.forall_mem_cons.mp hall
        rw [List.map_cons, List.sum_cons, ← Nat.add_assoc] at ht
        refine ⟨_, FixedWidth.add_of_lt (by omega), ?_⟩
        rw [deref_eq h0 hsane]
        exact ih.mpr ⟨supers, hsupers, Nat.lt_of_succ_lt_succ hlen, hall, hlt, ht⟩

theorem checkedFields_eq_some (hb : b.overflowChecks = true) :
    (∃ t, Class.totalReferenceInstanceFields b isObjectSane m (2 ^ 32) c 0 = some t ∧ t = 1) ↔
      Class.OnlyClassField isObjectSane m c := by
  simp only [totalReferenceInstanceFields_eq_some hb, Nat.zero_add]
  constructor
  · rintro ⟨_, ⟨supers, hsupers, -, hall, -, ht⟩, rfl⟩
    exact ⟨supers, hsupers, hall, ht.symm⟩
  · rintro ⟨supers, hsupers, hall, hsum⟩
    have hcard := b.two_pow_32_le_usizeCard
    exact ⟨1, ⟨supers, hsupers, superClasses_length_lt hsupers, hall, by omega, hsum.symm⟩, rfl⟩

/-! ### Classes -/

theorem isClassClass_eq (hc : isObjectSane c = true) :
    Class.isClassClass b isObjectSane m c = some (MmtkArt.Class.isClassClass b m c) := by
  rw [Class.isClassClass, getClass_eq hc]
  rfl

theorem isVariableSize_eq (hc : isObjectSane c = true) :
    Class.isVariableSize b isObjectSane m c = some (MmtkArt.Class.isClassClass b m c ||
      Class.isArrayClass m c || Class.isStringClass m c) := by
  rw [Class.isVariableSize, isClassClass_eq hc]
  rfl

theorem getPrimitiveType_asserting : Asserting (Class.SizeShiftAgrees m c)
    (Class.getPrimitiveType m c) (MmtkArt.Class.getPrimitiveType m c) := by
  intro type
  rw [Class.getPrimitiveType, Option.bind_eq_bind, Option.bind_eq_some_iff]
  simp only [Asserting.guard_bind_eq_some]
  constructor
  · rintro ⟨type, htype, hshift, heq⟩
    cases heq
    exact ⟨⟨type, htype, hshift⟩, htype⟩
  · rintro ⟨⟨type', htype', hshift⟩, htype⟩
    cases htype.symm.trans htype'
    exact ⟨type, htype, hshift, rfl⟩

theorem isPrimitive_asserting : Asserting (Class.SizeShiftAgrees m c) (Class.isPrimitive m c)
    (MmtkArt.Class.isPrimitive m c) := getPrimitiveType_asserting.bind_left

theorem shouldHaveEmbeddedVtable_asserting : Asserting (Class.SizeShiftAgrees m c)
    (Class.shouldHaveEmbeddedVtable m c) (MmtkArt.Class.shouldHaveEmbeddedVtable m c) :=
  isPrimitive_asserting.bind_left

theorem isInstantiableNonArray_eq_true :
    Class.isInstantiableNonArray m c = some true ↔ Class.Concrete m c := by
  rw [Class.isInstantiableNonArray, Option.bind_eq_bind, Option.bind_eq_some_iff]
  constructor
  · rintro ⟨primitive, hprimitive, h⟩
    obtain ⟨⟨type, htype, hshift⟩, hprimitive⟩ := (isPrimitive_asserting _).mp hprimitive
    rw [MmtkArt.Class.isPrimitive, htype] at hprimitive
    cases hprimitive
    simp only [Option.pure_def, Option.some.injEq, Bool.and_eq_true, Bool.not_eq_true',
      decide_eq_false_iff_not, not_not] at h
    obtain ⟨⟨⟨rfl, hinterface⟩, habstract⟩, harray⟩ := h
    exact ⟨htype, hshift, hinterface, habstract, harray⟩
  · intro h
    refine ⟨false, (isPrimitive_asserting _).mpr ⟨⟨_, h.type, h.sizeShift⟩, ?_⟩, ?_⟩
    · rw [MmtkArt.Class.isPrimitive, h.type]
      rfl
    · rw [h.interface, h.abstract, h.array]
      rfl

/-- The component type of an array class is looked at. -/
theorem isObjectArrayClass_asserting (hk : Class.WellFormed b m c) :
    Asserting (Class.isArrayClass m c = true → isObjectSane (Class.componentType m c) = true)
      (Class.isObjectArrayClass isObjectSane m c) (MmtkArt.Class.isObjectArrayClass m c) := by
  rw [Class.isObjectArrayClass, MmtkArt.Class.isObjectArrayClass]
  by_cases hne : Class.componentType m c ≠ 0
  · have harray : Class.isArrayClass m c = true := decide_eq_true hne
    rw [if_pos hne, if_pos hne]
    refine ((deref_asserting hne).of_bind fun _ => isPrimitive_asserting.bind_left).congr ?_
    exact ⟨fun h _ => h.1, fun h => ⟨h harray, hk.component harray⟩⟩
  · have harray : ¬ Class.isArrayClass m c = true := fun h => hne (of_decide_eq_true h)
    rw [if_neg hne, if_neg hne]
    exact (Asserting.refl _).congr (iff_of_true trivial fun h => absurd h harray)

theorem isObjectArrayClass_eq_some (hk : Class.WellFormed b m c) :
    ∃ objectArray, MmtkArt.Class.isObjectArrayClass m c = some objectArray := by
  rw [MmtkArt.Class.isObjectArrayClass]
  split
  · next hne =>
    obtain ⟨type, htype, -⟩ := hk.component (decide_eq_true hne)
    rw [MmtkArt.Class.isPrimitive, htype]
    exact ⟨_, rfl⟩
  · exact ⟨_, rfl⟩

theorem isErroneous_eq_some (m : Memory) (c : Nat) : ∃ e, Class.isErroneous b m c = some e := by
  obtain ⟨resolved, hresolved⟩ := isResolved_eq_some (b := b) m c
  obtain ⟨status, hstatus, -⟩ := Option.bind_eq_some_iff.mp hresolved
  exact ⟨_, by rw [Class.isErroneous, hstatus]; rfl⟩

theorem getReferenceInstanceOffsets_eq_some :
    (∃ offsets, Class.getReferenceInstanceOffsets b m c = some offsets ∧ offsets ≠ 0) ↔
      Class.Linked b m c := by
  obtain ⟨resolved, hresolved⟩ := isResolved_eq_some (b := b) m c
  obtain ⟨erroneous, herroneous⟩ := isErroneous_eq_some (b := b) m c
  have heq : ∀ offsets, Class.getReferenceInstanceOffsets b m c = some offsets ↔
      (resolved || erroneous) = true ∧ Class.referenceInstanceOffsets m c = offsets := by
    intro offsets
    rw [Class.getReferenceInstanceOffsets, hresolved, herroneous]
    exact Asserting.guard_bind_eq_some.trans (and_congr_right fun _ => Option.some_inj)
  simp only [heq]
  constructor
  · rintro ⟨_, ⟨hstatus, rfl⟩, hne⟩
    refine ⟨?_, hne⟩
    rw [hresolved, herroneous]
    simpa using hstatus
  · rintro ⟨hstatus, hne⟩
    rw [hresolved, herroneous] at hstatus
    exact ⟨_, ⟨by simpa using hstatus, rfl⟩, hne⟩

/-! ### Fields -/

/-- The instance fields of any object: only the class is looked at. -/
theorem visitInstanceFields_asserting : Asserting (Class.Linked b m c)
    (Object.visitInstanceFieldsReferences b m o c)
    (MmtkArt.Object.visitInstanceFieldsReferences b m o c) :=
  (Asserting.of_check fun _ _ _ => Asserting.refl _).congr
    ((and_iff_left trivial).trans getReferenceInstanceOffsets_eq_some)

/-- Static fields do not start at the klass slot. -/
theorem visitStaticFields_eq {n off : Nat} (hoff : 0 < off) (hend : off + 4 * n < b.usizeCard) :
    Class.visitStaticFields b m o n off = MmtkArt.Class.visitStaticFields b m o n off := by
  induction n generalizing off with
  | zero => rfl
  | succ n ih =>
    have hadd : FixedWidth.add b.overflowChecks b.usizeCard off ART_HEAP_REFERENCE_SIZE =
        some (off + 4) := FixedWidth.add_of_lt (show off + 4 < b.usizeCard by omega)
    have hne : off ≠ Object.classOffset := hoff.ne'
    rw [Class.visitStaticFields, MmtkArt.Class.visitStaticFields, Asserting.guard_bind hne, hadd,
      Option.bind_eq_bind, Option.bind_some, Option.bind_eq_bind, Option.bind_some,
      ih (by omega) (by omega)]

/-- A class that is resolved is no placeholder. -/
theorem isTemp_of_isResolved (h : Class.isResolved b m o = some true) :
    Class.isTemp b m o = some false := by
  obtain ⟨status, hstatus, hresolved⟩ := Option.bind_eq_some_iff.mp h
  rw [Class.isTemp, hstatus]
  cases status <;> first | rfl | cases hresolved

variable [MmtkCore b] {ptrSize : Nat}

theorem visitStaticFieldsReferences_asserting (h : WellFormed b m ptrSize o)
    (hc : MmtkArt.Class.isClassClass b m (MmtkArt.Object.getClass b m o) = true)
    (hres : Class.isResolved b m o = some true) :
    Asserting (0 < Class.numReferenceStaticFields m o → Class.SizeShiftAgrees m o)
      (Class.visitStaticFieldsReferences b m ptrSize o)
      (MmtkArt.Class.visitStaticFieldsReferences b m ptrSize o) := by
  rw [Class.visitStaticFieldsReferences, MmtkArt.Class.visitStaticFieldsReferences,
    isTemp_of_isResolved hres, hres]
  by_cases hnum : Class.numReferenceStaticFields m o > 0
  · obtain ⟨htype, hend⟩ := h.statics hc hres hnum
    have hobj := h.objectSize_of_class hc
    have hle := h.size_le
    have hcard := b.two_pow_32_le_usizeCard
    have hmirror := (Class.size_le_firstStaticOffset (b := b) (m := m) (c := o) h.ptrSize_eq).1
    have hfirst := getFirstReferenceStaticFieldsOffset_eq (b := b) h.ptrSize_eq htype (by omega)
    have hoffset : Asserting (Class.SizeShiftAgrees m o)
        (Class.getFirstReferenceStaticFieldsOffset b m o ptrSize)
        (MmtkArt.Class.getFirstReferenceStaticFieldsOffset b m o ptrSize) := by
      rw [Class.getFirstReferenceStaticFieldsOffset, hres]
      exact shouldHaveEmbeddedVtable_asserting.bind_left
    rw [if_pos hnum, if_pos hnum]
    change Asserting _ (Class.getFirstReferenceStaticFieldsOffset b m o ptrSize >>= fun off =>
      Class.visitStaticFields b m o (Class.numReferenceStaticFields m o) off) _
    refine (hoffset.bind fun off hoff => ?_).congr
      ⟨fun h _ => h.1, fun h => ⟨h hnum, fun _ _ => trivial⟩⟩
    cases hfirst.symm.trans hoff
    rw [visitStaticFields_eq (by unfold Class.size at hmirror; omega) (by omega)]
    exact Asserting.refl _
  · rw [if_neg hnum, if_neg hnum]
    exact (Asserting.refl _).congr (iff_of_true trivial fun hpos => absurd hpos hnum)

theorem visitReferences_asserting (h : WellFormed b m ptrSize o)
    (hc : MmtkArt.Class.isClassClass b m (MmtkArt.Object.getClass b m o) = true)
    {kVisitNativeRoots : Bool} :
    Asserting (Class.isResolved b m o = some true → 0 < Class.numReferenceStaticFields m o →
        Class.SizeShiftAgrees m o)
      (Class.visitReferences b m ptrSize kVisitNativeRoots o)
      (MmtkArt.Class.visitReferences b m ptrSize kVisitNativeRoots o) := by
  obtain ⟨resolved, hres⟩ := isResolved_eq_some (b := b) m o
  rw [Class.visitReferences, MmtkArt.Class.visitReferences, hres]
  cases resolved with
  | false => exact (Asserting.refl _).congr (iff_of_true trivial nofun)
  | true =>
    exact (visitStaticFieldsReferences_asserting h hc hres).bind_left.congr
      (forall_prop_of_true (q := fun _ => _) rfl).symm

/-- The alignment of a component divides the offset of the data. -/
theorem dataOffset_eq {k : Nat} (hk : k ≤ 3) :
    Array.dataOffset b (2 ^ k) = some (MmtkArt.Array.dataOffset b (2 ^ k)) := by
  have h32 := b.two_pow_32_le_usizeCard
  have h12 : MmtkArt.Array.firstElementOffset = 12 := rfl
  have hpow : 2 ^ k ≤ 8 := Nat.pow_le_pow_right Nat.two_pos hk
  have hdata : MmtkArt.Array.dataOffset b (2 ^ k) = alignUp (2 ^ k) 12 :=
    MmtkCore.rawAlignUp_eq (by omega)
  have hlt := alignUp_lt (a := 2 ^ k) (v := 12) (Nat.two_pow_pos k)
  have hagain : MmtkCore.rawAlignUp b (MmtkArt.Array.dataOffset b (2 ^ k)) (2 ^ k) =
      MmtkArt.Array.dataOffset b (2 ^ k) := by
    rw [hdata, MmtkCore.rawAlignUp_eq (by omega)]
    exact Nat.le_antisymm (alignUp_le_of_dvd (Nat.two_pow_pos k) dvd_alignUp le_rfl)
      (le_alignUp (Nat.two_pow_pos k))
  rw [Array.dataOffset, Asserting.guard_bind (by rw [Nat.log2_two_pow])]
  exact Asserting.guard_bind hagain

theorem visitElements_eq :
    ObjectArray.visitReferences b m o = MmtkArt.ObjectArray.visitReferences b m o := by
  have hoffset : ∀ i,
      ObjectArray.offsetOfElement b i = MmtkArt.ObjectArray.offsetOfElement b i := by
    intro i
    rw [ObjectArray.offsetOfElement, show ART_HEAP_REFERENCE_SIZE = 2 ^ 2 from rfl,
      dataOffset_eq (by decide)]
    rfl
  simp only [ObjectArray.visitReferences, MmtkArt.ObjectArray.visitReferences, hoffset]

/-! ### The dispatch -/

omit [MmtkCore b] in
theorem checkNormalClass_eq (hc : isObjectSane c = true)
    (hclass : MmtkArt.Class.isClassClass b m c = false) (harray : Class.isArrayClass m c = false)
    (hstring : Class.isStringClass m c = false) (hloader : Class.isClassloaderClass m c = false) :
    Class.checkNormalClass b isObjectSane m c = some () := by
  rw [Class.checkNormalClass, isVariableSize_eq hc, isClassClass_eq hc, hclass, harray, hstring,
    hloader]
  rfl

omit [MmtkCore b] in
theorem checkNoReferenceFields_asserting (hb : b.overflowChecks = true)
    (hk : Class.WellFormed b m c) (hc : isObjectSane c = true)
    (hflag : Class.classFlags m c &&& Class.kClassFlagNoReferenceFields ≠ 0) :
    Asserting ((Class.isArrayClass m c = true → isObjectSane (Class.componentType m c) = true) ∧
        (Class.isStringClass m c = false → Class.OnlyClassField isObjectSane m c))
      (Class.checkNoReferenceFields b isObjectSane m c) (some ()) := by
  have hclass : MmtkArt.Class.isClassClass b m c = false := by
    refine Bool.eq_false_iff.mpr fun h => ?_
    rw [hk.flag_class.mpr h] at hflag
    exact hflag rfl
  rw [Class.checkNoReferenceFields, isClassClass_eq hc, hclass]
  change Asserting _ (Class.isObjectArrayClass isObjectSane m c >>= _) _
  obtain ⟨objectArray, hobj⟩ := isObjectArrayClass_eq_some hk
  cases objectArray with
  | true => exact absurd hobj (hk.flag_noReferenceFields hflag).2
  | false =>
    refine ((hobj ▸ isObjectArrayClass_asserting hk).of_bind fun _ => ?_).congr Iff.rfl
    change Asserting _ (if !Class.isStringClass m c then _ else _) _
    cases Class.isStringClass m c with
    | true => exact (Asserting.refl _).congr (iff_of_true trivial nofun)
    | false =>
      refine (Asserting.of_unit ?_).congr (forall_prop_of_true rfl).symm
      exact (Option.bind_eq_some_iff.trans (exists_congr fun t => and_congr_right fun _ =>
        Option.guard_eq_some' ())).trans (checkedFields_eq_some hb)

omit [MmtkCore b] in
theorem isClassClass_bind {α : Type} {f : Unit → Option α} (hc : isObjectSane c = true)
    (hclass : MmtkArt.Class.isClassClass b m c = true) :
    (Class.isClassClass b isObjectSane m c >>= fun isClass => guard (isClass = true) >>= f) =
      f () := by
  rw [isClassClass_eq hc, hclass]
  exact Asserting.guard_bind (p := true = true) rfl

omit [MmtkCore b] in
theorem instantiable_asserting {α : Type} {P : Prop} {f : Unit → Option α} {y : Option α}
    (h : Asserting P (f ()) y) : Asserting (Class.Concrete m c ∧ P)
      (Class.isInstantiableNonArray m c >>= fun instantiable =>
        guard (instantiable = true) >>= f) y :=
  (Asserting.of_check fun _ _ _ => h).congr <| and_congr_left fun _ => by
    rw [← isInstantiableNonArray_eq_true]
    exact exists_eq_right

omit [MmtkCore b] in
/-- Flags that belong to no array. -/
theorem isArrayClass_eq_false (hk : Class.WellFormed b m c)
    (hobj : Class.classFlags m c &&& Class.kClassFlagObjectArray = 0)
    (hflag : Class.classFlags m c &&& Class.kClassFlagNoReferenceFields = 0) :
    Class.isArrayClass m c = false :=
  Bool.eq_false_iff.mpr fun ha => hk.flag_primitiveArray ha
    (fun h => hk.flag_objectArray.mpr h hobj) hflag

/-- An object whose fields are found by the bitmap of its class. -/
structure VisitsFields (b : Build) (isObjectSane : Nat → Bool) (m : Memory) (o : Nat) : Prop where
  sane : isObjectSane o = true
  klass_sane : isObjectSane (MmtkArt.Object.getClass b m o) = true
  array : Class.isArrayClass m (MmtkArt.Object.getClass b m o) = false
  string : Class.isStringClass m (MmtkArt.Object.getClass b m o) = false
  flag : Class.classFlags m (MmtkArt.Object.getClass b m o) &&&
    Class.kClassFlagNoReferenceFields = 0

namespace VisitsFields

omit [MmtkCore b] in
theorem scannable_iff (h : VisitsFields b isObjectSane m o) :
    Scannable b isObjectSane m o ↔ Class.Concrete m (MmtkArt.Object.getClass b m o) ∧
      Class.Linked b m (MmtkArt.Object.getClass b m o) ∧
        (MmtkArt.Class.isClassClass b m (MmtkArt.Object.getClass b m o) = true →
          Class.isResolved b m o = some true → 0 < Class.numReferenceStaticFields m o →
          Class.SizeShiftAgrees m o) := by
  constructor
  · intro hS
    obtain ⟨hconcrete, hlinked⟩ := hS.klass.fields h.array h.flag
    exact ⟨hconcrete, hlinked, hS.statics⟩
  · rintro ⟨hconcrete, hlinked, hstatics⟩
    refine ⟨h.sane, ⟨⟨h.klass_sane, fun ha => ?_⟩, fun hs => ?_, fun _ _ => ⟨hconcrete, hlinked⟩,
      fun h1 => absurd h.flag h1⟩, hstatics⟩
    · rw [h.array] at ha
      cases ha
    · rw [h.string] at hs
      cases hs

omit [MmtkCore b] in
/-- Apart from Class objects, only the class is looked at. -/
theorem asserting (h : VisitsFields b isObjectSane m o)
    (hclass : MmtkArt.Class.isClassClass b m (MmtkArt.Object.getClass b m o) ≠ true) {α : Type}
    {f : Unit → Option α} {y : Option α}
    (hf : Asserting (Class.Linked b m (MmtkArt.Object.getClass b m o)) (f ()) y) :
    Asserting (Scannable b isObjectSane m o)
      (Class.isInstantiableNonArray m (MmtkArt.Object.getClass b m o) >>= fun instantiable =>
        guard (instantiable = true) >>= f) y := by
  refine (instantiable_asserting hf).congr ?_
  rw [h.scannable_iff, and_iff_left fun hcc => absurd hcc hclass]

/-- A Class object, which shows its fields and then its static fields. -/
theorem class_asserting (h : VisitsFields b isObjectSane m o) (hwf : WellFormed b m ptrSize o)
    (hclass : MmtkArt.Class.isClassClass b m (MmtkArt.Object.getClass b m o) = true)
    {kVisitNativeRoots : Bool} :
    Asserting (Scannable b isObjectSane m o)
      (do
        guard (← Class.isClassClass b isObjectSane m (MmtkArt.Object.getClass b m o))
        guard (← Class.isInstantiableNonArray m (MmtkArt.Object.getClass b m o))
        let fields ←
          Object.visitInstanceFieldsReferences b m o (MmtkArt.Object.getClass b m o)
        guard (← Class.isClassClass b isObjectSane m (← Object.klass b isObjectSane m o))
        return fields ++ (← Class.visitReferences b m ptrSize kVisitNativeRoots o))
      (do
        return (← MmtkArt.Object.visitInstanceFieldsReferences b m o
            (MmtkArt.Object.getClass b m o)) ++
          (← MmtkArt.Class.visitReferences b m ptrSize kVisitNativeRoots o)) := by
  have hfields := Exact.visitInstanceFieldsReferences_refines _
    hwf.visitInstanceFieldsReferences_eq
  rw [isClassClass_bind h.klass_sane hclass, hfields]
  refine (instantiable_asserting ((hfields ▸ visitInstanceFields_asserting).of_bind
    fun _ => ?_)).congr h.scannable_iff.symm
  rw [klass_eq h.sane hwf.klass_ne h.klass_sane, Option.bind_eq_bind, Option.bind_some,
    isClassClass_bind h.klass_sane hclass]
  exact (visitReferences_asserting hwf hclass).bind_left.congr
    (forall_prop_of_true (q := fun _ => _) hclass).symm

end VisitsFields

/-- An object array, whose elements are looked at without its class once it is one. -/
theorem visitArray_asserting (h : WellFormed b m ptrSize o) (ho : isObjectSane o = true)
    (hc : isObjectSane (MmtkArt.Object.getClass b m o) = true)
    (hobj : MmtkArt.Class.isObjectArrayClass m (MmtkArt.Object.getClass b m o) = some true)
    (hstring : Class.isStringClass m (MmtkArt.Object.getClass b m o) = false)
    (hnone : Class.classFlags m (MmtkArt.Object.getClass b m o) &&&
      Class.kClassFlagNoReferenceFields = 0) :
    Asserting (Scannable b isObjectSane m o)
      (do
        guard (← Class.isObjectArrayClass isObjectSane m (MmtkArt.Object.getClass b m o))
        guard (← Class.isObjectArrayClass isObjectSane m (← Object.klass b isObjectSane m o))
        ObjectArray.visitReferences b m o)
      (MmtkArt.ObjectArray.visitReferences b m o) := by
  have harray := Class.isArrayClass_of_isObjectArrayClass hobj
  have hclass := mt h.klass.not_isArrayClass (not_not.mpr harray)
  have hchecked : Asserting _ (Class.isObjectArrayClass isObjectSane m _) (some true) :=
    hobj ▸ isObjectArrayClass_asserting h.klass
  refine (Asserting.of_check (P := True) fun objectArray heq hq => ?_).congr ⟨?_, fun hS => ?_⟩
  · rw [klass_eq ho h.klass_ne hc, Option.bind_eq_bind, Option.bind_some, heq, Option.bind_eq_bind,
      Option.bind_some, Asserting.guard_bind hq, visitElements_eq]
    exact Asserting.refl _
  · rintro ⟨⟨objectArray, heq, -⟩, -⟩
    have hcomponent := ((hchecked objectArray).mp heq).1
    refine ⟨ho, ⟨⟨hc, hcomponent⟩, fun hs => ?_, fun ha => ?_, fun h1 => absurd hnone h1⟩,
      fun hcc => absurd hcc hclass⟩
    · rw [hstring] at hs
      cases hs
    · rw [harray] at ha
      cases ha
  · exact ⟨⟨true, (hchecked true).mpr ⟨hS.klass.component, rfl⟩, rfl⟩, trivial⟩

/-- What follows the klass slot. -/
theorem scanFields_asserting (hb : b.overflowChecks = true) (h : WellFormed b m ptrSize o)
    (ho : isObjectSane o = true) (hc : isObjectSane (MmtkArt.Object.getClass b m o) = true)
    {kVisitNativeRoots : Bool} :
    Asserting (Scannable b isObjectSane m o)
      (scanFields b isObjectSane m ptrSize kVisitNativeRoots o (MmtkArt.Object.getClass b m o))
      (MmtkArt.scanFields b m ptrSize kVisitNativeRoots o (MmtkArt.Object.getClass b m o)) := by
  have hk := h.klass
  rw [scanFields, MmtkArt.scanFields]
  by_cases hnormal : Class.classFlags m (MmtkArt.Object.getClass b m o) = Class.kClassFlagNormal ∨
      Class.classFlags m (MmtkArt.Object.getClass b m o) = Class.kClassFlagRecord
  · rw [if_pos hnormal, if_pos hnormal]
    have hclass : MmtkArt.Class.isClassClass b m (MmtkArt.Object.getClass b m o) ≠ true :=
      fun hcc => by
        rw [hk.flag_class.mpr hcc] at hnormal
        exact absurd hnormal (by decide)
    have hflags : ∀ flag ∈ [Class.kClassFlagNoReferenceFields, Class.kClassFlagString,
        Class.kClassFlagObjectArray, Class.kClassFlagClassLoader],
        Class.classFlags m (MmtkArt.Object.getClass b m o) &&& flag = 0 := by
      rcases hnormal with hf | hf <;> rw [hf] <;> decide
    have hnone := hflags Class.kClassFlagNoReferenceFields (by decide)
    have harray := isArrayClass_eq_false hk (hflags _ (by decide)) hnone
    have hstring : Class.isStringClass m (MmtkArt.Object.getClass b m o) = false :=
      decide_eq_false (not_not.mpr (hflags _ (by decide)))
    rw [checkNormalClass_eq hc (Bool.eq_false_iff.mpr hclass) harray hstring
      (decide_eq_false (not_not.mpr (hflags _ (by decide))))]
    exact VisitsFields.asserting ⟨ho, hc, harray, hstring, hnone⟩ hclass
      visitInstanceFields_asserting
  rw [if_neg hnormal, if_neg hnormal]
  by_cases hnone : Class.classFlags m (MmtkArt.Object.getClass b m o) &&&
      Class.kClassFlagNoReferenceFields ≠ 0
  · rw [if_pos hnone, if_pos hnone]
    refine (checkNoReferenceFields_asserting hb hk hc hnone).bind_left.congr ⟨?_, ?_⟩
    · rintro ⟨hcomponent, hno⟩
      refine ⟨ho, ⟨⟨hc, hcomponent⟩, fun _ => hnone, fun _ h1 => absurd h1 hnone, fun _ => hno⟩,
        fun hcc => ?_⟩
      rw [hk.flag_class.mpr hcc] at hnone
      exact absurd hnone (by decide)
    · exact fun hS => ⟨hS.klass.component, hS.klass.noFields hnone⟩
  rw [if_neg hnone, if_neg hnone]
  replace hnone := not_not.mp hnone
  refine (Asserting.of_guard (P := Scannable b isObjectSane m o) fun hstring => ?_).congr
    (and_iff_right_of_imp fun hS => ?_)
  · replace hstring := (Bool.not_eq_true' _).mp hstring
    by_cases h16 : Class.classFlags m (MmtkArt.Object.getClass b m o) = Class.kClassFlagClass
    · rw [if_pos h16, if_pos h16]
      have harray := isArrayClass_eq_false hk (by rw [h16]; rfl) hnone
      exact VisitsFields.class_asserting ⟨ho, hc, harray, hstring, hnone⟩ h
        (hk.flag_class.mp h16)
    rw [if_neg h16, if_neg h16]
    by_cases h8 : Class.classFlags m (MmtkArt.Object.getClass b m o) &&&
        Class.kClassFlagObjectArray ≠ 0
    · rw [if_pos h8, if_pos h8]
      exact visitArray_asserting h ho hc (hk.flag_objectArray.mp h8) hstring hnone
    rw [if_neg h8, if_neg h8]
    have hfields : VisitsFields b isObjectSane m o :=
      ⟨ho, hc, isArrayClass_eq_false hk (not_not.mp h8) hnone, hstring, hnone⟩
    have hclass := mt hk.flag_class.mpr h16
    split
    · exact hfields.asserting hclass visitInstanceFields_asserting.bind_left
    next href =>
    split
    · next hdexCache =>
      have hflag : Class.isDexcacheClass m (MmtkArt.Object.getClass b m o) = true :=
        decide_eq_true hdexCache
      refine hfields.asserting hclass ?_
      rw [Asserting.guard_bind hflag]
      exact visitInstanceFields_asserting.bind_left
    next hdexCache =>
    split
    · next hloader =>
      have hflag : Class.isClassloaderClass m (MmtkArt.Object.getClass b m o) = true :=
        decide_eq_true hloader
      refine hfields.asserting hclass ?_
      rw [Asserting.guard_bind hflag]
      exact visitInstanceFields_asserting.bind_left
    · next hloader =>
      -- no other flags are dispatched on
      rcases hk.dispatched with hf | hf | hf | hf | hf | hf | hf | hf
      · exact absurd (.inl hf) hnormal
      · exact absurd (.inr hf) hnormal
      · exact absurd hnone hf
      · exact absurd hf h16
      · exact absurd hf h8
      · exact absurd hf href
      · exact absurd hf hdexCache
      · exact absurd hf hloader
  · exact (Bool.not_eq_true' _).mpr (Bool.eq_false_iff.mpr fun hs => hS.klass.string hs hnone)

/-- **What `scan_object` asserts of a well-formed object.** -/
theorem scanObject_asserting (hb : b.overflowChecks = true) (h : WellFormed b m ptrSize o)
    (kVisitNativeRoots : Bool) :
    Asserting (Scannable b isObjectSane m o)
      (scanObject b isObjectSane m ptrSize kVisitNativeRoots o)
      (MmtkArt.scanObject b m ptrSize kVisitNativeRoots o) := by
  rw [scanObject, MmtkArt.scanObject, ArtHeapReference.deref_of_ne h.klass_ne]
  refine (Asserting.of_guard fun ho => (klass_asserting ho h.klass_ne).of_bind fun hc =>
    (scanFields_asserting hb h ho hc).bind_left).congr ⟨fun hS => hS.2.2, fun hS => ?_⟩
  exact ⟨hS.sane, hS.klass.sane, hS⟩

/-- **A build with debug assertions scans exactly the objects that meet them**, and finds every
reference there. -/
theorem scanObject_checked (hb : b.overflowChecks = true) (h : WellFormed b m ptrSize o)
    (kVisitNativeRoots : Bool) :
    ∃ visits, MmtkArt.scanObject b m ptrSize kVisitNativeRoots o = some visits ∧
      Visit.slots visits = refSlots b m ptrSize o ∧
      ∀ v, scanObject b isObjectSane m ptrSize kVisitNativeRoots o = some v ↔
        Scannable b isObjectSane m o ∧ v = visits := by
  obtain ⟨visits, hscan, hslots⟩ := h.scanObject_eq kVisitNativeRoots
  refine ⟨visits, hscan, hslots, fun v => (scanObject_asserting hb h kVisitNativeRoots v).trans ?_⟩
  rw [hscan, Option.some_inj]
  exact and_congr_right fun _ => eq_comm

/-- An instance at 0x2000 of a class that declares no reference field; its superclass at 0x6000
declares the class field. At 0x3000 is an array of three `int`s. -/
def noFields : Memory := .ofWords [
  (0x2000, 0x5000), (0x3000, 0x7000), (0x3008, 3),
  (0x4000, 0x4000), (0x4044, Class.kClassFlagClass), (0x4048, 120),
  (0x5000, 0x4000), (0x5020, 0x6000), (0x5044, Class.kClassFlagNoReferenceFields), (0x5048, 120),
  (0x5060, 8),
  (0x6000, 0x4000), (0x6044, Class.kClassFlagNoReferenceFields), (0x6048, 120), (0x6058, 1),
  (0x7000, 0x4000), (0x700c, 0x8000), (0x7044, Class.kClassFlagNoReferenceFields), (0x7048, 120),
  (0x8000, 0x4000), (0x8068, 0x20005)]

theorem noFields_wellFormed : ∀ o ∈ [0x2000, 0x3000], WellFormed .android64 noFields 8 o := by
  intro o ho
  refine ⟨.inr rfl, ?_, ?_, ?klass, ?_, ?_, ?_, ?_, ?_, ?_, ?_, ?_⟩
  case klass =>
    refine ⟨?_, ?_, ?dispatched, ?_, ?_, ?_, ?_, ?_, ?_, ?_, fun h => ⟨.int, ?_, ?_⟩⟩
    case dispatched => unfold Class.Dispatched; decide +revert +kernel
    all_goals decide +revert +kernel
  all_goals decide +revert +kernel

theorem noFields_scannable : Scannable .android64 (fun _ => true) noFields 0x2000 where
  sane := rfl
  klass :=
    { sane := rfl
      component := fun _ => rfl
      string := by decide +kernel
      fields := fun _ h => absurd h (by decide +kernel)
      noFields := fun _ _ => ⟨[0x6000], ⟨by decide +kernel,
        (by decide +kernel : Class.nextSuperClass noFields 0x6000 = none)⟩, fun _ _ => rfl,
        by decide +kernel⟩ }
  statics := fun h => absurd h (by decide +kernel)

theorem scanObject_checked_noFields :
    letI := MmtkCore.documented .android64
    scanObject .android64 (fun _ => true) noFields 8 true 0x2000 = some [.slot 0x2000] := by
  let _ := MmtkCore.documented .android64
  obtain ⟨visits, hscan, -, hchecked⟩ :=
    scanObject_checked rfl (noFields_wellFormed 0x2000 (by decide)) true
  have hvisits : MmtkArt.scanObject .android64 noFields 8 true 0x2000 = some [.slot 0x2000] := by
    decide +kernel
  exact (hchecked _).mpr ⟨noFields_scannable, Option.some.inj (hvisits.symm.trans hscan)⟩

/-! ### Sizes -/

omit [MmtkCore b] in
theorem getPrimitiveTypeSizeShift_eq (h : Class.SizeShiftAgrees m c) :
    Class.getPrimitiveTypeSizeShift m c =
      some (MmtkArt.Class.getPrimitiveTypeSizeShift m c) := by
  obtain ⟨type, htype, hshift⟩ := h
  rw [MmtkArt.Class.getPrimitiveType] at htype
  rw [Class.getPrimitiveTypeSizeShift, htype]
  exact Asserting.guard_bind hshift

omit [MmtkCore b] in
theorem getComponentSizeShift_asserting (h : WellFormed b m ptrSize o)
    (ho : isObjectSane o = true) (hc : isObjectSane (MmtkArt.Object.getClass b m o) = true)
    (ha : Class.isArrayClass m (MmtkArt.Object.getClass b m o) = true) :
    Asserting (isObjectSane (Class.componentType m (MmtkArt.Object.getClass b m o)) = true)
      (Array.getComponentSizeShift b isObjectSane m o)
      (some (MmtkArt.Class.getPrimitiveTypeSizeShift m
        (Class.componentType m (MmtkArt.Object.getClass b m o)))) := by
  rw [Array.getComponentSizeShift, klass_eq ho h.klass_ne hc, Option.bind_eq_bind,
    Option.bind_some, Class.getComponentSizeShift]
  refine ((deref_asserting (of_decide_eq_true ha)).of_bind fun _ => ?_).congr (and_iff_left trivial)
  rw [getPrimitiveTypeSizeShift_eq (h.klass.component ha)]
  exact Asserting.refl _

theorem arraySizeOf_asserting (h : WellFormed b m ptrSize o) (ho : isObjectSane o = true)
    (hc : isObjectSane (MmtkArt.Object.getClass b m o) = true)
    (ha : Class.isArrayClass m (MmtkArt.Object.getClass b m o) = true) :
    Asserting (isObjectSane (Class.componentType m (MmtkArt.Object.getClass b m o)) = true)
      (Array.sizeOf b isObjectSane m o) (MmtkArt.Array.sizeOf b m o) := by
  obtain ⟨type, -, hshift⟩ := h.klass.component ha
  have hcomponent := getComponentSizeShift_asserting h ho hc ha
  have hrelease : MmtkArt.Array.getComponentSizeShift b m o = some type.componentSizeShift := by
    rw [MmtkArt.Array.getComponentSizeShift, ArtHeapReference.deref_of_ne h.klass_ne,
      Option.bind_eq_bind, Option.bind_some, MmtkArt.Class.getComponentSizeShift,
      ArtHeapReference.deref_of_ne (of_decide_eq_true ha), Option.bind_eq_bind, Option.bind_some,
      hshift]
    rfl
  have hle := type.componentSizeShift_le
  rw [hshift] at hcomponent
  rw [Array.sizeOf, MmtkArt.Array.sizeOf, hrelease]
  generalize type.componentSizeShift = shift at *
  have hbits : 32 ≤ b.targetPointerWidth.bits := by
    cases b.targetPointerWidth <;> decide
  have hone : FixedWidth.shl b.overflowChecks b.targetPointerWidth.bits 1 shift =
      some (2 ^ shift) := by
    rw [FixedWidth.shl_of_lt (by omega) ?_, Nat.one_mul]
    rw [Nat.one_mul]
    exact Nat.pow_lt_pow_right (by decide) (by omega)
  refine (hcomponent.of_bind fun _ => ?_).congr (and_iff_left trivial)
  simp only [hone, dataOffset_eq hle, Option.bind_eq_bind, Option.bind_some]
  exact Asserting.refl _

/-- The kinds of object. Only an array is measured by what its class refers to. -/
theorem kindSize_asserting (h : WellFormed b m ptrSize o) (ho : isObjectSane o = true)
    (hc : isObjectSane (MmtkArt.Object.getClass b m o) = true) :
    Asserting (Class.isArrayClass m (MmtkArt.Object.getClass b m o) = true →
        isObjectSane (Class.componentType m (MmtkArt.Object.getClass b m o)) = true)
      (if Class.isArrayClass m (MmtkArt.Object.getClass b m o) then do
        guard (Class.isArrayClass m (← Object.klass b isObjectSane m o))
        Array.sizeOf b isObjectSane m o
      else do
        if ← Class.isClassClass b isObjectSane m (MmtkArt.Object.getClass b m o) then
          guard (← Class.isClassClass b isObjectSane m (← Object.klass b isObjectSane m o))
          return Class.classSize m o
        else if Class.isStringClass m (MmtkArt.Object.getClass b m o) then
          guard (Class.isStringClass m (← Object.klass b isObjectSane m o))
          ArtString.sizeOf b m o
        else
          Class.getObjectSize b isObjectSane m (MmtkArt.Object.getClass b m o))
      (if Class.isArrayClass m (MmtkArt.Object.getClass b m o) then MmtkArt.Array.sizeOf b m o
      else if MmtkArt.Class.isClassClass b m (MmtkArt.Object.getClass b m o) then
        some (Class.classSize m o)
      else if Class.isStringClass m (MmtkArt.Object.getClass b m o) then ArtString.sizeOf b m o
      else some (MmtkArt.Class.getObjectSize m (MmtkArt.Object.getClass b m o))) := by
  rw [klass_eq ho h.klass_ne hc]
  by_cases harray : Class.isArrayClass m (MmtkArt.Object.getClass b m o) = true
  · rw [if_pos harray, if_pos harray]
    refine (Asserting.of_guard (P := Class.isArrayClass m (MmtkArt.Object.getClass b m o) = true →
      _) fun _ => ?_).congr (and_iff_right harray)
    exact (arraySizeOf_asserting h ho hc harray).congr
      (forall_prop_of_true (q := fun _ => _) harray).symm
  rw [if_neg harray, if_neg harray]
  refine Asserting.congr (P := True) ?_ (iff_of_true trivial fun ha => absurd ha harray)
  rw [isClassClass_eq hc]
  change Asserting True (if MmtkArt.Class.isClassClass b m (MmtkArt.Object.getClass b m o) = true
    then _ else _) _
  split
  · next hclass =>
    change Asserting True (Class.isClassClass b isObjectSane m (MmtkArt.Object.getClass b m o) >>=
      fun isClass => guard (isClass = true) >>= fun _ => some (Class.classSize m o)) _
    rw [isClassClass_bind hc hclass]
    exact Asserting.refl _
  next hclass =>
  split
  · next hstring => exact (Asserting.of_guard fun _ => Asserting.refl _).congr (by simp [hstring])
  · next hstring =>
    rw [Class.getObjectSize, isVariableSize_eq hc, Bool.eq_false_iff.mpr hclass,
      Bool.eq_false_iff.mpr harray, Bool.eq_false_iff.mpr hstring]
    exact Asserting.refl _

/-- **What `get_object_size` asserts of a well-formed object.** -/
theorem getObjectSize_asserting (h : WellFormed b m ptrSize o) :
    Asserting (Sizable b isObjectSane m o) (getObjectSize b isObjectSane m o)
      (MmtkArt.getObjectSize b m o) := by
  have hsize := h.getObjectSize_eq
  have hheader : objectSize b m o ≥ OBJECT_HEADER_SIZE := h.header_le
  rw [hsize, getObjectSize]
  rw [MmtkArt.getObjectSize, ArtHeapReference.deref_of_ne h.klass_ne, Option.bind_eq_bind,
    Option.bind_some] at hsize
  refine (Asserting.of_guard fun ho => (klass_asserting ho h.klass_ne).of_bind fun hc =>
    (hsize ▸ kindSize_asserting h ho hc).of_bind (Q := True) fun _ => ?_).congr ?_
  · constructor
    · rintro ⟨ho, hc, hcomponent, -⟩
      exact ⟨ho, hc, hcomponent⟩
    · exact fun hS => ⟨hS.sane, hS.klass.sane, hS.klass.component, trivial⟩
  · rw [Asserting.guard_bind hheader]
    exact Asserting.refl _

/-- **A build with debug assertions measures exactly the objects that are valid**, with their classes
and component types. -/
theorem getObjectSize_checked (h : WellFormed b m ptrSize o) (size : Nat) :
    getObjectSize b isObjectSane m o = some size ↔
      Sizable b isObjectSane m o ∧ size = objectSize b m o := by
  rw [getObjectSize_asserting h size, h.getObjectSize_eq, Option.some_inj]
  exact and_congr_right fun _ => eq_comm

/-- The component type is not valid. -/
theorem getObjectSize_checked_noFields :
    letI := MmtkCore.documented .android64
    getObjectSize .android64 (fun _ => true) noFields 0x3000 = some 24 ∧
      ∀ size, getObjectSize .android64 (· ≠ 0x8000) noFields 0x3000 ≠ some size := by
  let _ := MmtkCore.documented .android64
  have h := noFields_wellFormed 0x3000 (by decide)
  refine ⟨(getObjectSize_checked h _).mpr ⟨⟨rfl, rfl, fun _ => rfl⟩, by decide +kernel⟩,
    fun size hsize => ?_⟩
  have hvalid := ((getObjectSize_checked h size).mp hsize).1.klass.component (by decide +kernel)
  exact absurd hvalid (by decide +kernel)

end Debug
end MmtkArt
