import MmtkArt.MmtkCore
import MmtkArt.Util.Memory

/-! # Objects in memory

The mirrors of `abi.rs` as addresses: a field is a little-endian word at its `repr(C)` offset from
the object. An operation is `none` when it panics. The debug assertions, which check that the heap
is well formed, are left out, and so are the fields that neither sizes nor scanning read. -/

namespace MmtkArt

def OBJECT_HEADER_SIZE : Nat := 8

def ART_HEAP_REFERENCE_SIZE : Nat := 4

/-- `Art::MIN_ALIGNMENT` -/
def MIN_ALIGNMENT : Nat := 8

/-- A cast to `i32`. -/
def asI32 (x : Nat) : Int := FixedWidth.toSigned (2 ^ 32) x

/-- A cast of a signed value to `usize`. -/
def asUsize (b : Build) (i : Int) : Nat := FixedWidth.ofSigned b.usizeCard i

/-- `Address::from_ref(o) + offset as isize` -/
def getFieldAddress (b : Build) (o : Nat) (offset : Int) : Nat := asUsize b (o + offset)

def getFieldSlot (b : Build) (o : Nat) (offset : Int) : Nat := getFieldAddress b o offset

theorem asI32_of_lt {x : Nat} (h : x < 2 ^ 31) : asI32 x = x :=
  FixedWidth.toSigned_of_lt (by omega)

/-- The sign of an `i32` is the top bit of its word. -/
theorem asI32_nonneg_iff {x : Nat} (h : x < 2 ^ 32) : 0 ≤ asI32 x ↔ x < 2 ^ 31 := by
  refine ⟨fun h0 => ?_, fun hx => asI32_of_lt hx ▸ Int.natCast_nonneg x⟩
  by_contra hx
  have hmod : (x : Int) % (2 ^ 32 : Nat) = x := Int.emod_eq_of_lt (by omega) (by omega)
  simp only [asI32, FixedWidth.toSigned, Int.bmod, hmod] at h0
  rw [if_neg (by omega)] at h0
  omega

theorem asUsize_natCast {b : Build} {x : Nat} (h : x < b.usizeCard) : asUsize b x = x :=
  FixedWidth.ofSigned_natCast h

/-- An offset that an `i32` holds, inside the address space. -/
theorem getFieldSlot_eq {b : Build} {o x : Nat} (hx : x < 2 ^ 31) (h : o + x < b.usizeCard) :
    getFieldSlot b o (asI32 x) = o + x := by
  rw [getFieldSlot, getFieldAddress, asI32_of_lt hx]
  exact asUsize_natCast h

/-- `Deref` of an `ArtHeapReference`, which unwraps it. -/
def ArtHeapReference.deref (reference : Nat) : Option Nat :=
  if reference = 0 then none else some reference

theorem ArtHeapReference.deref_of_ne {reference : Nat} (h : reference ≠ 0) :
    deref reference = some reference := if_neg h

namespace Object

/-- `class_offset()`; the monitor word follows at 4. -/
def classOffset : Nat := 0

def klassSlot (b : Build) (o : Nat) : Nat := getFieldSlot b o (asI32 classOffset)

/-- The reference in the klass slot. -/
def getClass (b : Build) (m : Memory) (o : Nat) : Nat := m.load32 (klassSlot b o)

theorem klassSlot_eq {b : Build} {o : Nat} (h : o < b.usizeCard) : klassSlot b o = o :=
  getFieldSlot_eq (by decide) h

theorem getClass_eq {b : Build} {m : Memory} {o : Nat} (h : o < b.usizeCard) :
    getClass b m o = m.load32 o := by
  rw [getClass, klassSlot_eq h]

end Object

/-! ### Enumerations -/

inductive ArtPrimitive
  | not | boolean | byte | char | short | int | long | float | double | void
  deriving DecidableEq, Repr

namespace ArtPrimitive

def fromU32 : Nat → Option ArtPrimitive
  | 0 => some not
  | 1 => some boolean
  | 2 => some byte
  | 3 => some char
  | 4 => some short
  | 5 => some int
  | 6 => some long
  | 7 => some float
  | 8 => some double
  | 9 => some void
  | _ => none

def componentSizeShift : ArtPrimitive → Nat
  | void | boolean | byte => 0
  | char | short => 1
  | int | float => 2
  | long | double => 3
  -- `component_size_shift_width(PRIM_OBJECT_REFERENCE_SIZE)`
  | not => 2

theorem componentSizeShift_le (type : ArtPrimitive) : type.componentSizeShift ≤ 3 := by
  cases type <;> decide

end ArtPrimitive

inductive ClassStatus
  | notReady | retired | errorResolved | errorUnresolved | idx | loaded | resolving | resolved
  | verifying | retryVerificationAtRuntime | verifiedNeedsAccessChecks | verified
  | superclassValidated | initializing | initialized | visiblyInitialized
  deriving DecidableEq, Repr

def ClassStatus.fromU32 : Nat → Option ClassStatus
  | 0 => some notReady
  | 1 => some retired
  | 2 => some errorResolved
  | 3 => some errorUnresolved
  | 4 => some idx
  | 5 => some loaded
  | 6 => some resolving
  | 7 => some resolved
  | 8 => some verifying
  | 9 => some retryVerificationAtRuntime
  | 10 => some verifiedNeedsAccessChecks
  | 11 => some verified
  | 12 => some superclassValidated
  | 13 => some initializing
  | 14 => some initialized
  | 15 => some visiblyInitialized
  | _ => none

/-- Four bits are always a status. -/
theorem ClassStatus.fromU32_isSome : ∀ status : Fin 16, (fromU32 status).isSome = true := by decide

/-! ### Classes -/

namespace Class

def kClassFlagNormal : Nat := 0x00000000
def kClassFlagNoReferenceFields : Nat := 0x00000001
def kClassFlagString : Nat := 0x00000004
def kClassFlagObjectArray : Nat := 0x00000008
def kClassFlagClass : Nat := 0x00000010
def kClassFlagClassLoader : Nat := 0x00000020
def kClassFlagDexCache : Nat := 0x00000040
def kClassFlagSoftReference : Nat := 0x00000080
def kClassFlagWeakReference : Nat := 0x00000100
def kClassFlagFinalizerReference : Nat := 0x00000200
def kClassFlagPhantomReference : Nat := 0x00000400
def kClassFlagRecord : Nat := 0x00000800
def kClassFlagReference : Nat :=
  kClassFlagSoftReference ||| kClassFlagWeakReference ||| kClassFlagFinalizerReference |||
    kClassFlagPhantomReference

def kAccInterface : Nat := 0x0200
def kAccAbstract : Nat := 0x0400

def kVisitReferencesSlowpathShift : Nat := 31
def kVisitReferencesSlowpathMask : Nat := 1 <<< kVisitReferencesSlowpathShift

def kPrimitiveTypeSizeShiftShift : Nat := 16
def kPrimitiveTypeMask : Nat := (1 <<< kPrimitiveTypeSizeShiftShift) - 1

/-- `size_of::<Class>()`. After the header come eight references, three `u64`s from 40 and twelve
`u32`s from 64, the last one in two halves. -/
def size : Nat := 120

section
variable (b : Build) (m : Memory) (c : Nat)

def componentType : Nat := m.load32 (c + 12)
def accessFlags : Nat := m.load32 (c + 64)
def classFlags : Nat := m.load32 (c + 68)
def classSize : Nat := m.load32 (c + 72)
def numReferenceStaticFields : Nat := m.load32 (c + 92)
def objectSize : Nat := m.load32 (c + 96)
def primitiveType : Nat := m.load32 (c + 104)
def referenceInstanceOffsets : Nat := m.load32 (c + 108)
def status : Nat := m.load32 (getFieldAddress b c (asI32 112))

def getStatus : Option ClassStatus := ClassStatus.fromU32 (status b m c >>> (32 - 4))

/-- `status >= ClassStatus::Resolved || status == ClassStatus::ErrorResolved` -/
def isResolved : Option Bool := do
  let status ← getStatus b m c
  return ClassStatus.resolved.ctorIdx ≤ status.ctorIdx || status = .errorResolved

def getPrimitiveType : Option ArtPrimitive :=
  ArtPrimitive.fromU32 (primitiveType m c &&& kPrimitiveTypeMask)

def getPrimitiveTypeSizeShift : Nat := primitiveType m c >>> kPrimitiveTypeSizeShiftShift

def isPrimitive : Option Bool := do return (← getPrimitiveType m c) ≠ .not

def isInterface : Bool := accessFlags m c &&& kAccInterface ≠ 0

def isAbstract : Bool := accessFlags m c &&& kAccAbstract ≠ 0

/-- java.lang.Class is its own class. -/
def isClassClass : Bool := c = Object.getClass b m c

def isStringClass : Bool := classFlags m c &&& kClassFlagString ≠ 0

def isArrayClass : Bool := componentType m c ≠ 0

def isObjectArrayClass : Option Bool :=
  if componentType m c ≠ 0 then do return !(← isPrimitive m (componentType m c)) else some false

def isInstantiable : Option Bool := do
  let primitive ← isPrimitive m c
  return (!primitive && !isInterface m c && !isAbstract m c) || (isAbstract m c && isArrayClass m c)

def shouldHaveEmbeddedVtable : Option Bool := isInstantiable m c

/-- The embedded vtable length follows the mirror. -/
def getEmbeddedVtableLength : Nat := m.load32 (getFieldAddress b c (asI32 size))

def getComponentSizeShift : Option Nat := do
  return getPrimitiveTypeSizeShift m (← ArtHeapReference.deref (componentType m c))

def getObjectSize : Nat := objectSize m c

end

/-- Shuffle fields of `width` bytes forward into the gap: what is left of the fields and the gap. -/
def shuffleForward (width : Nat) : Nat → Nat → Nat × Nat
  | 0, gap => (0, gap)
  | n + 1, gap => if gap ≥ width then shuffleForward width n (gap - width) else (n + 1, gap)

section
variable (b : Build) [MmtkCore b]

/-- Where the embedded vtable ends. -/
def embeddedVtableEnd (numVtableEntries ptrSize : Nat) : Option Nat := do
  let imt ← FixedWidth.add b.overflowChecks b.usizeCard Class.size 4
  let vtable ←
    FixedWidth.add b.overflowChecks b.usizeCard (MmtkCore.rawAlignUp b imt ptrSize) ptrSize
  FixedWidth.add b.overflowChecks b.usizeCard vtable
    (← FixedWidth.mul b.overflowChecks b.usizeCard numVtableEntries ptrSize)

/-- Pad before 64-bit fields, and shuffle smaller fields forward into the gap: the size, and the 8-,
16- and 32-bit fields left. -/
def padStaticFields (size num8 num16 num32 num64 : Nat) : Option (Nat × Nat × Nat × Nat) :=
  if !MmtkCore.rawIsAligned b size 8 && num64 > 0 then do
    let gap := 8 - (size &&& 0x7)
    let padded ← FixedWidth.add b.overflowChecks b.usizeCard size gap
    let shuffled32 := shuffleForward 4 num32 gap
    let shuffled16 := shuffleForward 2 num16 shuffled32.2
    let shuffled8 := shuffleForward 1 num8 shuffled16.2
    return (padded, shuffled8.1, shuffled16.1, shuffled32.1)
  else some (size, num8, num16, num32)

/-- Space used for primitive static fields. -/
def primitiveStaticFieldsSize (num8 num16 num32 num64 : Nat) : Option Nat := do
  let add := FixedWidth.add b.overflowChecks b.usizeCard
  let mul := FixedWidth.mul b.overflowChecks b.usizeCard
  add (← add (← add (← mul num8 1) (← mul num16 2)) (← mul num32 4)) (← mul num64 8)

def computeClassSize (hasEmbeddedVtable : Bool) (numVtableEntries num8bitStaticFields
    num16bitStaticFields num32bitStaticFields num64bitStaticFields numRefStaticFields
    numRefBitmapEntries ptrSize : Nat) : Option Nat := do
  let size ←
    if hasEmbeddedVtable then embeddedVtableEnd b numVtableEntries ptrSize else some Class.size
  -- Space used by reference statics.
  let size ← FixedWidth.add b.overflowChecks b.usizeCard size
    (← FixedWidth.mul b.overflowChecks b.usizeCard numRefStaticFields ART_HEAP_REFERENCE_SIZE)
  let (size, num8, num16, num32) ← padStaticFields b size num8bitStaticFields num16bitStaticFields
    num32bitStaticFields num64bitStaticFields
  let size ← FixedWidth.add b.overflowChecks b.usizeCard size
    (← primitiveStaticFieldsSize b num8 num16 num32 num64bitStaticFields)
  -- Space used by reference-offset bitmap.
  if numRefBitmapEntries > 0 then
    FixedWidth.add b.overflowChecks b.usizeCard (MmtkCore.rawAlignUp b size 4)
      (← FixedWidth.mul b.overflowChecks b.usizeCard numRefBitmapEntries 4)
  else some size

def getFirstReferenceStaticFieldsOffset (m : Memory) (c ptrSize : Nat) : Option Nat := do
  if ← shouldHaveEmbeddedVtable m c then
    computeClassSize b true (getEmbeddedVtableLength b m c) 0 0 0 0 0 0 ptrSize
  else some Class.size

end
end Class

/-! ### Arrays and strings -/

namespace Array

variable (b : Build) [MmtkCore b]

/-- `offset_of!(Array, first_element)` -/
def firstElementOffset : Nat := 12

/-- `length as usize`, from an `i32`. -/
def length (m : Memory) (a : Nat) : Nat := asUsize b (asI32 (m.load32 (a + 8)))

def dataOffset (componentSize : Nat) : Nat :=
  MmtkCore.rawAlignUp b firstElementOffset componentSize

def getComponentSizeShift (m : Memory) (a : Nat) : Option Nat := do
  Class.getComponentSizeShift m (← ArtHeapReference.deref (Object.getClass b m a))

def sizeOf (m : Memory) (a : Nat) : Option Nat := do
  let shl := FixedWidth.shl b.overflowChecks b.targetPointerWidth.bits
  let componentSizeShift ← getComponentSizeShift b m a
  let componentSize ← shl 1 componentSizeShift
  let dataSize ← shl (length b m a) componentSizeShift
  FixedWidth.add b.overflowChecks b.usizeCard (dataOffset b componentSize) dataSize

end Array

/-- `ObjectArray::offset_of_element` -/
def ObjectArray.offsetOfElement (b : Build) [MmtkCore b] (index : Nat) : Option Nat := do
  FixedWidth.add b.overflowChecks b.usizeCard (Array.dataOffset b ART_HEAP_REFERENCE_SIZE)
    (← FixedWidth.mul b.overflowChecks b.usizeCard index ART_HEAP_REFERENCE_SIZE)

namespace ArtString

variable (b : Build) [MmtkCore b] (m : Memory) (s : Nat)

/-- `size_of::<ArtString>()` -/
def size : Nat := 16

def count : Int := asI32 (m.load32 (s + 8))

def isCompressed : Bool := m.load32 (s + 8) &&& 0b1 = 0b0

def getLength : Int := count m s >>> (1 : Nat)

def sizeOf : Option Nat := do
  let length := asUsize b (getLength m s)
  let bytes ← FixedWidth.mul b.overflowChecks b.usizeCard (if isCompressed m s then 1 else 2) length
  let size ← FixedWidth.add b.overflowChecks b.usizeCard size bytes
  return MmtkCore.rawAlignUp b size MIN_ALIGNMENT

end ArtString

/-- Get the size of an object. -/
def getObjectSize (b : Build) [MmtkCore b] (m : Memory) (object : Nat) : Option Nat := do
  let klass ← ArtHeapReference.deref (Object.getClass b m object)
  if Class.isArrayClass m klass then
    Array.sizeOf b m object
  else if Class.isClassClass b m klass then
    return Class.classSize m object
  else if Class.isStringClass m klass then
    ArtString.sizeOf b m object
  else
    return Class.getObjectSize m klass

end MmtkArt
