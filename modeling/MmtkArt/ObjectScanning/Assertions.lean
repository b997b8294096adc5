import MmtkArt.ObjectScanning

/-! # The build with debug assertions

`Android.bp` builds the binding with `-C debug-assertions=true`. These are the functions of
`abi.rs` and `object_scanning.rs` once more, with the assertions that they make; a function that
makes none is the one of the other build. `isObjectSane` is the upcall `is_valid_object`, which
every dereference makes. -/

namespace MmtkArt
namespace Debug

section
variable (b : Build) (isObjectSane : Nat → Bool) (m : Memory)

/-- `Deref` of an `ArtHeapReference`. -/
def ArtHeapReference.deref (reference : Nat) : Option Nat := do
  guard (reference ≠ 0)
  guard (isObjectSane reference)
  MmtkArt.ArtHeapReference.deref reference

def Object.getClass (o : Nat) : Option Nat := do
  guard (isObjectSane o)
  return MmtkArt.Object.getClass b m o

/-- `&o.get_class()` as a `&Class` -/
def Object.klass (o : Nat) : Option Nat := do
  ArtHeapReference.deref isObjectSane (← Object.getClass b isObjectSane m o)

/-! ### Classes -/

section
variable (c : Nat)

def Class.superClass : Nat := m.load32 (c + 32)
def Class.numReferenceInstanceFields : Nat := m.load32 (c + 88)

def Class.isClassloaderClass : Bool := Class.classFlags m c &&& Class.kClassFlagClassLoader ≠ 0

def Class.isDexcacheClass : Bool := Class.classFlags m c &&& Class.kClassFlagDexCache ≠ 0

def Class.isClassClass : Option Bool := do return c = (← Object.getClass b isObjectSane m c)

def Class.getPrimitiveType : Option ArtPrimitive := do
  let type ← MmtkArt.Class.getPrimitiveType m c
  guard (Class.primitiveType m c >>> Class.kPrimitiveTypeSizeShiftShift = type.componentSizeShift)
  return type

def Class.getPrimitiveTypeSizeShift : Option Nat := do
  let sizeShift := Class.primitiveType m c >>> Class.kPrimitiveTypeSizeShiftShift
  let type ← ArtPrimitive.fromU32 (Class.primitiveType m c &&& Class.kPrimitiveTypeMask)
  guard (sizeShift = type.componentSizeShift)
  return sizeShift

def Class.isPrimitive : Option Bool := do return (← Class.getPrimitiveType m c) ≠ .not

def Class.isObjectArrayClass : Option Bool :=
  if Class.componentType m c ≠ 0 then do
    let component ← ArtHeapReference.deref isObjectSane (Class.componentType m c)
    return !(← Class.isPrimitive m component)
  else some false

def Class.isInstantiable : Option Bool := do
  let primitive ← Class.isPrimitive m c
  return (!primitive && !Class.isInterface m c && !Class.isAbstract m c) ||
    (Class.isAbstract m c && Class.isArrayClass m c)

def Class.shouldHaveEmbeddedVtable : Option Bool := Class.isInstantiable m c

def Class.isInstantiableNonArray : Option Bool := do
  return !(← Class.isPrimitive m c) && !Class.isInterface m c && !Class.isAbstract m c &&
    !Class.isArrayClass m c

/-- The placeholder that a class with room for the embedded vtable replaces -/
def Class.isTemp : Option Bool := do
  let status ← Class.getStatus b m c
  if status.ctorIdx < ClassStatus.resolving.ctorIdx ∧ status ≠ .errorResolved then
    Class.shouldHaveEmbeddedVtable m c
  else some false

def Class.isErroneous : Option Bool := do
  let status ← Class.getStatus b m c
  return status = .errorResolved || status = .errorUnresolved

def Class.isVariableSize : Option Bool := do
  return (← Class.isClassClass b isObjectSane m c) || Class.isArrayClass m c ||
    Class.isStringClass m c

def Class.checkNormalClass : Option Unit := do
  guard (!(← Class.isVariableSize b isObjectSane m c))
  guard (!(← Class.isClassClass b isObjectSane m c))
  guard (!Class.isStringClass m c)
  guard (!Class.isClassloaderClass m c)
  guard (!Class.isArrayClass m c)

end

/-- The loop over the superclasses. References are 32 bits, so one that is not left after 2 ^ 32
classes runs in a cycle. -/
def Class.totalReferenceInstanceFields : Nat → Nat → Nat → Option Nat
  | 0, _, _ => none
  | fuel + 1, c, total => do
    let total ← FixedWidth.add b.overflowChecks b.usizeCard total
      (Class.numReferenceInstanceFields m c)
    if Class.superClass m c = 0 then
      return total
    else
      let superClass ← ArtHeapReference.deref isObjectSane (Class.superClass m c)
      Class.totalReferenceInstanceFields fuel superClass total

section
variable (c : Nat)

def Class.checkNoReferenceFields : Option Unit := do
  guard (!(← Class.isClassClass b isObjectSane m c))
  guard (!(← Class.isObjectArrayClass isObjectSane m c))
  -- String still has instance fields for reflection purposes
  if !Class.isStringClass m c then
    -- The only reference field should be the object's class.
    guard ((← Class.totalReferenceInstanceFields b isObjectSane m (2 ^ 32) c 0) = 1)

def Class.getReferenceInstanceOffsets : Option Nat := do
  guard ((← Class.isResolved b m c) || (← Class.isErroneous b m c))
  return Class.referenceInstanceOffsets m c

def Class.getComponentSizeShift : Option Nat := do
  let component ← ArtHeapReference.deref isObjectSane (Class.componentType m c)
  Class.getPrimitiveTypeSizeShift m component

def Class.getObjectSize : Option Nat := do
  guard (!(← Class.isVariableSize b isObjectSane m c))
  return MmtkArt.Class.getObjectSize m c

def Class.getFirstReferenceStaticFieldsOffset [MmtkCore b] (ptrSize : Nat) : Option Nat := do
  guard (← Class.isResolved b m c)
  if ← Class.shouldHaveEmbeddedVtable m c then
    Class.computeClassSize b true (Class.getEmbeddedVtableLength b m c) 0 0 0 0 0 0 ptrSize
  else some Class.size

end

/-! ### Sizes -/

section
variable [MmtkCore b]

def Array.dataOffset (componentSize : Nat) : Option Nat := do
  guard (2 ^ componentSize.log2 = componentSize)
  let dataOffset := MmtkArt.Array.dataOffset b componentSize
  guard (MmtkCore.rawAlignUp b dataOffset componentSize = dataOffset)
  return dataOffset

def Array.getComponentSizeShift (a : Nat) : Option Nat := do
  Class.getComponentSizeShift isObjectSane m (← Object.klass b isObjectSane m a)

def Array.sizeOf (a : Nat) : Option Nat := do
  let shl := FixedWidth.shl b.overflowChecks b.targetPointerWidth.bits
  let componentSizeShift ← Array.getComponentSizeShift b isObjectSane m a
  let componentSize ← shl 1 componentSizeShift
  let headerSize ← Array.dataOffset b componentSize
  let dataSize ← shl (Array.length b m a) componentSizeShift
  FixedWidth.add b.overflowChecks b.usizeCard headerSize dataSize

def ObjectArray.offsetOfElement (index : Nat) : Option Nat := do
  FixedWidth.add b.overflowChecks b.usizeCard (← Array.dataOffset b ART_HEAP_REFERENCE_SIZE)
    (← FixedWidth.mul b.overflowChecks b.usizeCard index ART_HEAP_REFERENCE_SIZE)

def getObjectSize (object : Nat) : Option Nat := do
  guard (isObjectSane object)
  let klass ← Object.klass b isObjectSane m object
  let result ← (
    if Class.isArrayClass m klass then do
      -- `&Array`
      guard (Class.isArrayClass m (← Object.klass b isObjectSane m object))
      Array.sizeOf b isObjectSane m object
    else do
      if ← Class.isClassClass b isObjectSane m klass then
        -- `&Class`
        guard (← Class.isClassClass b isObjectSane m (← Object.klass b isObjectSane m object))
        return Class.classSize m object
      else if Class.isStringClass m klass then
        -- `&ArtString`
        guard (Class.isStringClass m (← Object.klass b isObjectSane m object))
        ArtString.sizeOf b m object
      else
        Class.getObjectSize b isObjectSane m klass)
  guard (result ≥ OBJECT_HEADER_SIZE)
  return result

/-! ### Scanning -/

omit [MmtkCore b] in
def Object.visitInstanceFieldsReferences (o klass : Nat) : Option (List Visit) := do
  guard ((← Class.getReferenceInstanceOffsets b m klass) ≠ 0)
  MmtkArt.Object.visitInstanceFieldsReferences b m o klass

def Class.visitStaticFields (o : Nat) : Nat → Nat → Option (List Visit)
  | 0, _ => some []
  | n + 1, fieldOffset => do
    guard (fieldOffset ≠ Object.classOffset)
    let here := visitSlot m (getFieldSlot b o (asI32 fieldOffset))
    let nextOffset ←
      FixedWidth.add b.overflowChecks b.usizeCard fieldOffset ART_HEAP_REFERENCE_SIZE
    return here ++ (← Class.visitStaticFields o n nextOffset)

def Class.visitStaticFieldsReferences (artPointerSize o : Nat) : Option (List Visit) := do
  guard (!(← Class.isTemp b m o))
  guard (← Class.isResolved b m o)
  let numReferenceFields := Class.numReferenceStaticFields m o
  if numReferenceFields > 0 then
    Class.visitStaticFields b m o numReferenceFields
      (← Class.getFirstReferenceStaticFieldsOffset b m o artPointerSize)
  else some []

def Class.visitReferences (artPointerSize : Nat) (kVisitNativeRoots : Bool) (o : Nat) :
    Option (List Visit) := do
  let statics ←
    if ← Class.isResolved b m o then Class.visitStaticFieldsReferences b m artPointerSize o
    else some []
  return statics ++ if kVisitNativeRoots then [.scanNativeRoots o .cls] else []

def ObjectArray.visitReferences (o : Nat) : Option (List Visit) :=
  forRange (Array.length b m o) fun i => do
    return visitSlot m (getFieldSlot b o (asI32 (← ObjectArray.offsetOfElement b i)))

/-- What follows the klass slot. -/
def scanFields (artPointerSize : Nat) (kVisitNativeRoots : Bool) (object klass : Nat) :
    Option (List Visit) :=
  let classFlags := Class.classFlags m klass
  if classFlags = Class.kClassFlagNormal ∨ classFlags = Class.kClassFlagRecord then do
    Class.checkNormalClass b isObjectSane m klass
    guard (← Class.isInstantiableNonArray m klass)
    Object.visitInstanceFieldsReferences b m object klass
  else if classFlags &&& Class.kClassFlagNoReferenceFields ≠ 0 then do
    Class.checkNoReferenceFields b isObjectSane m klass
    return []
  else do
    -- We should have processed the java.lang.String class already
    guard (!Class.isStringClass m klass)
    if classFlags = Class.kClassFlagClass then
      guard (← Class.isClassClass b isObjectSane m klass)
      guard (← Class.isInstantiableNonArray m klass)
      let fields ← Object.visitInstanceFieldsReferences b m object klass
      -- `&Class`
      guard (← Class.isClassClass b isObjectSane m (← Object.klass b isObjectSane m object))
      return fields ++ (← Class.visitReferences b m artPointerSize kVisitNativeRoots object)
    else if classFlags &&& Class.kClassFlagObjectArray ≠ 0 then
      guard (← Class.isObjectArrayClass isObjectSane m klass)
      -- `&ObjectArray`
      guard (← Class.isObjectArrayClass isObjectSane m (← Object.klass b isObjectSane m object))
      ObjectArray.visitReferences b m object
    else if classFlags &&& Class.kClassFlagReference ≠ 0 then
      guard (← Class.isInstantiableNonArray m klass)
      return (← Object.visitInstanceFieldsReferences b m object klass) ++
        [.processReferent klass object]
    else if classFlags &&& Class.kClassFlagDexCache ≠ 0 then
      guard (← Class.isInstantiableNonArray m klass)
      guard (Class.isDexcacheClass m klass)
      return (← Object.visitInstanceFieldsReferences b m object klass) ++
        if kVisitNativeRoots then [.scanNativeRoots object .dexCache] else []
    else if classFlags &&& Class.kClassFlagClassLoader ≠ 0 then
      guard (← Class.isInstantiableNonArray m klass)
      guard (Class.isClassloaderClass m klass)
      return (← Object.visitInstanceFieldsReferences b m object klass) ++
        if kVisitNativeRoots then [.scanNativeRoots object .classLoader] else []
    else
      none

def scanObject (artPointerSize : Nat) (kVisitNativeRoots : Bool) (object : Nat) :
    Option (List Visit) := do
  guard (isObjectSane object)
  let klass ← Object.klass b isObjectSane m object
  -- Visit the klass slot
  return .slot (Object.klassSlot b object) ::
    (← scanFields b isObjectSane m artPointerSize kVisitNativeRoots object klass)

end
end
end Debug
end MmtkArt
