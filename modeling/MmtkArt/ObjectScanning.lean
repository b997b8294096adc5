import MmtkArt.Abi

/-! # Scanning an object

`scan_object` as the list of what it reports: the slots that it gives to the visitor, and the
upcalls that report the others. `kVisitNativeRoots` is the source's const parameter. -/

namespace MmtkArt

inductive ArtObjectWithNativeRootsType
  | cls | dexCache | classLoader
  deriving DecidableEq, Repr

/-- What `scan_object` reports, in order. -/
inductive Visit
  | slot (address : Nat)
  | scanNativeRoots (object : Nat) (type : ArtObjectWithNativeRootsType)
  | processReferent (klass object : Nat)
  deriving DecidableEq, Repr

/-- The slots given to the visitor, leaving the upcalls aside. -/
def Visit.slots (visits : List Visit) : List Nat :=
  visits.filterMap fun
    | .slot address => some address
    | _ => none

/-- A slot is visited unless it holds null. -/
def visitSlot (m : Memory) (slot : Nat) : List Visit :=
  if m.load32 slot ≠ 0 then [.slot slot] else []

/-- `for i in 0..n` -/
def forRange {α : Type} (n : Nat) (f : Nat → Option (List α)) : Option (List α) := do
  return (← (List.range n).mapM f).flatten

section
variable (b : Build) (m : Memory)

/-- The `while` loop over the bits of one word. -/
def visitOneWord (o fieldOffset refOffsets : Nat) : Option (List Visit) :=
  if refOffsets ≠ 0 then do
    let here :=
      if refOffsets &&& 0b1 ≠ 0 then visitSlot m (getFieldSlot b o (asI32 fieldOffset)) else []
    let nextOffset ← FixedWidth.add b.overflowChecks (2 ^ 32) fieldOffset ART_HEAP_REFERENCE_SIZE
    return here ++ (← visitOneWord o nextOffset (refOffsets >>> 1))
  else some []
termination_by refOffsets
decreasing_by
  rw [Nat.shiftRight_one]
  omega

def Object.visitInstanceFieldsReferences (o klass : Nat) : Option (List Visit) := do
  let refOffsets := Class.referenceInstanceOffsets m klass
  if refOffsets &&& Class.kVisitReferencesSlowpathMask ≠ 0 then
    let mul32 := FixedWidth.mul b.overflowChecks (2 ^ 32)
    let bitmapNumWords := refOffsets &&& (2 ^ 32 - 1 - Class.kVisitReferencesSlowpathMask)
    let classEnd ← FixedWidth.add b.overflowChecks b.usizeCard klass (Class.classSize m klass)
    let overflowBitmap ←
      FixedWidth.sub b.overflowChecks b.usizeCard classEnd (← mul32 bitmapNumWords 4)
    forRange bitmapNumWords fun i => do
      let fieldOffset ← FixedWidth.add b.overflowChecks (2 ^ 32) OBJECT_HEADER_SIZE
        (← mul32 (← mul32 i ART_HEAP_REFERENCE_SIZE) 32)
      visitOneWord b m o fieldOffset (m.load32 (overflowBitmap + 4 * i))
  else
    visitOneWord b m o OBJECT_HEADER_SIZE refOffsets

/-- The loop over the static fields, from `field_offset` on. -/
def Class.visitStaticFields (o : Nat) : Nat → Nat → Option (List Visit)
  | 0, _ => some []
  | n + 1, fieldOffset => do
    let here := visitSlot m (getFieldSlot b o (asI32 fieldOffset))
    let nextOffset ←
      FixedWidth.add b.overflowChecks b.usizeCard fieldOffset ART_HEAP_REFERENCE_SIZE
    return here ++ (← Class.visitStaticFields o n nextOffset)

variable [MmtkCore b]

def Class.visitStaticFieldsReferences (artPointerSize o : Nat) : Option (List Visit) := do
  let numReferenceFields := Class.numReferenceStaticFields m o
  if numReferenceFields > 0 then
    Class.visitStaticFields b m o numReferenceFields
      (← Class.getFirstReferenceStaticFieldsOffset b m o artPointerSize)
  else some []

def Class.visitReferences (artPointerSize : Nat) (kVisitNativeRoots : Bool) (o : Nat) :
    Option (List Visit) := do
  let statics ←
    if ← Class.isResolved b m o then Class.visitStaticFieldsReferences b m artPointerSize o
    else some []
  return statics ++ if kVisitNativeRoots then [.scanNativeRoots o .cls] else []

def ObjectArray.visitReferences (o : Nat) : Option (List Visit) :=
  forRange (Array.length b m o) fun i => do
    return visitSlot m (getFieldSlot b o (asI32 (← ObjectArray.offsetOfElement b i)))

/-- What follows the klass slot. -/
def scanFields (artPointerSize : Nat) (kVisitNativeRoots : Bool) (object klass : Nat) :
    Option (List Visit) :=
  let classFlags := Class.classFlags m klass
  -- Visit instance fields if the object is an instance of a normal class or a record class
  if classFlags = Class.kClassFlagNormal ∨ classFlags = Class.kClassFlagRecord then
    Object.visitInstanceFieldsReferences b m object klass
  -- Return early if the object has no reference fields
  else if classFlags &&& Class.kClassFlagNoReferenceFields ≠ 0 then
    some []
  else if classFlags = Class.kClassFlagClass then do
    return (← Object.visitInstanceFieldsReferences b m object klass) ++
      (← Class.visitReferences b m artPointerSize kVisitNativeRoots object)
  else if classFlags &&& Class.kClassFlagObjectArray ≠ 0 then
    ObjectArray.visitReferences b m object
  else if classFlags &&& Class.kClassFlagReference ≠ 0 then do
    return (← Object.visitInstanceFieldsReferences b m object klass) ++
      [.processReferent klass object]
  else if classFlags &&& Class.kClassFlagDexCache ≠ 0 then do
    return (← Object.visitInstanceFieldsReferences b m object klass) ++
      if kVisitNativeRoots then [.scanNativeRoots object .dexCache] else []
  else if classFlags &&& Class.kClassFlagClassLoader ≠ 0 then do
    return (← Object.visitInstanceFieldsReferences b m object klass) ++
      if kVisitNativeRoots then [.scanNativeRoots object .classLoader] else []
  else
    -- Unexpected class flags
    none

def scanObject (artPointerSize : Nat) (kVisitNativeRoots : Bool) (object : Nat) :
    Option (List Visit) := do
  let klass ← ArtHeapReference.deref (Object.getClass b m object)
  -- Visit the klass slot
  return .slot (Object.klassSlot b object) ::
    (← scanFields b m artPointerSize kVisitNativeRoots object klass)

end
end MmtkArt
