import MmtkArt.ObjectScanning

/-! # Scanning in exact arithmetic

`scan_object` once more, where every operation on machine words is `none` unless its result is the
exact one: an addition, a product or a difference that does not fit, a cast that changes the value,
an offset from an object that leaves the address space. What it reports, the code reports in every
build (`Exact.scanObject_refines`). -/

namespace MmtkArt
namespace Exact

/-! ### Casts and offsets -/

/-- A cast to `i32`. -/
def toI32 (x : Nat) : Option Int := if x < 2 ^ 31 then some x else none

/-- A cast of a signed value to `usize`. -/
def toUsize (b : Build) (i : Int) : Option Nat :=
  if 0 ≤ i ∧ i < b.usizeCard then some i.toNat else none

/-- The address of an offset that is cast to `i32` first. -/
def getFieldAddress (b : Build) (o offset : Nat) : Option Nat := do
  toUsize b (o + (← toI32 offset))

def getFieldSlot (b : Build) (o offset : Nat) : Option Nat := getFieldAddress b o offset

theorem toUsize_natCast {b : Build} {x : Nat} (h : x < b.usizeCard) : toUsize b x = some x := by
  rw [toUsize, if_pos ⟨Int.natCast_nonneg x, Int.ofNat_lt.mpr h⟩, Int.toNat_natCast]

theorem asUsize_of_toUsize {b : Build} {i : Int} {x : Nat} (h : toUsize b i = some x) :
    asUsize b i = x := by
  rw [toUsize] at h
  split at h
  · next hi =>
    cases h
    obtain ⟨n, rfl⟩ := Int.eq_ofNat_of_zero_le hi.1
    exact asUsize_natCast (Int.ofNat_lt.mp hi.2)
  · cases h

theorem getFieldSlot_of_lt {b : Build} {o x : Nat} (hx : x < 2 ^ 31) (h : o + x < b.usizeCard) :
    getFieldSlot b o x = some (o + x) := by
  rw [getFieldSlot, getFieldAddress, toI32, if_pos hx, Option.bind_eq_bind, Option.bind_some]
  exact toUsize_natCast h

theorem getFieldAddress_eq {b : Build} {o x a : Nat} (h : getFieldAddress b o x = some a) :
    MmtkArt.getFieldAddress b o (asI32 x) = a := by
  obtain ⟨i, hi, h⟩ := Option.bind_eq_some_iff.mp h
  rw [toI32] at hi
  split at hi
  · next hx =>
    cases hi
    rw [MmtkArt.getFieldAddress, asI32_of_lt hx]
    exact asUsize_of_toUsize h
  · cases hi

theorem getFieldSlot_eq {b : Build} {o x s : Nat} (h : getFieldSlot b o x = some s) :
    MmtkArt.getFieldSlot b o (asI32 x) = s := getFieldAddress_eq h

/-! ### The functions of the source -/

section
variable (b : Build) (m : Memory)

def Object.klassSlot (o : Nat) : Option Nat := getFieldSlot b o Object.classOffset

def Object.getClass (o : Nat) : Option Nat := do return m.load32 (← Object.klassSlot b o)

def visitOneWord (o fieldOffset refOffsets : Nat) : Option (List Visit) :=
  if refOffsets ≠ 0 then do
    let here ← (
      if refOffsets &&& 0b1 ≠ 0 then (getFieldSlot b o fieldOffset).map (visitSlot m) else some [])
    let nextOffset ← FixedWidth.add true (2 ^ 32) fieldOffset ART_HEAP_REFERENCE_SIZE
    return here ++ (← visitOneWord o nextOffset (refOffsets >>> 1))
  else some []
termination_by refOffsets
decreasing_by
  rw [Nat.shiftRight_one]
  omega

def Object.visitInstanceFieldsReferences (o klass : Nat) : Option (List Visit) := do
  let refOffsets := Class.referenceInstanceOffsets m klass
  if refOffsets &&& Class.kVisitReferencesSlowpathMask ≠ 0 then
    let mul32 := FixedWidth.mul true (2 ^ 32)
    let bitmapNumWords := refOffsets &&& (2 ^ 32 - 1 - Class.kVisitReferencesSlowpathMask)
    let classEnd ← FixedWidth.add true b.usizeCard klass (Class.classSize m klass)
    let overflowBitmap ← FixedWidth.sub true b.usizeCard classEnd (← mul32 bitmapNumWords 4)
    forRange bitmapNumWords fun i => do
      let fieldOffset ← FixedWidth.add true (2 ^ 32) OBJECT_HEADER_SIZE
        (← mul32 (← mul32 i ART_HEAP_REFERENCE_SIZE) 32)
      let word ← FixedWidth.add true b.usizeCard overflowBitmap
        (← FixedWidth.mul true b.usizeCard 4 i)
      visitOneWord b m o fieldOffset (m.load32 word)
  else
    visitOneWord b m o OBJECT_HEADER_SIZE refOffsets

def Class.visitStaticFields (o : Nat) : Nat → Nat → Option (List Visit)
  | 0, _ => some []
  | n + 1, fieldOffset => do
    let here := visitSlot m (← getFieldSlot b o fieldOffset)
    let nextOffset ← FixedWidth.add true b.usizeCard fieldOffset ART_HEAP_REFERENCE_SIZE
    return here ++ (← Class.visitStaticFields o n nextOffset)

def Class.isResolved (c : Nat) : Option Bool := do
  let status ← ClassStatus.fromU32 (m.load32 (← getFieldAddress b c 112) >>> (32 - 4))
  return ClassStatus.resolved.ctorIdx ≤ status.ctorIdx || status = .errorResolved

def Array.length (a : Nat) : Option Nat := toUsize b (asI32 (m.load32 (a + 8)))

variable [MmtkCore b]

def Class.getFirstReferenceStaticFieldsOffset (c ptrSize : Nat) : Option Nat := do
  if ← Class.shouldHaveEmbeddedVtable m c then
    let embeddedVtableLength := m.load32 (← getFieldAddress b c Class.size)
    Class.computeClassSize b.checked true embeddedVtableLength 0 0 0 0 0 0 ptrSize
  else some Class.size

def Class.visitStaticFieldsReferences (artPointerSize o : Nat) : Option (List Visit) := do
  let numReferenceFields := Class.numReferenceStaticFields m o
  if numReferenceFields > 0 then
    Class.visitStaticFields b m o numReferenceFields
      (← Class.getFirstReferenceStaticFieldsOffset b m o artPointerSize)
  else some []

def Class.visitReferences (artPointerSize : Nat) (kVisitNativeRoots : Bool) (o : Nat) :
    Option (List Visit) := do
  let statics ←
    if ← Class.isResolved b m o then Class.visitStaticFieldsReferences b m artPointerSize o
    else some []
  return statics ++ if kVisitNativeRoots then [.scanNativeRoots o .cls] else []

def ObjectArray.visitReferences (o : Nat) : Option (List Visit) := do
  forRange (← Array.length b m o) fun i => do
    return visitSlot m (← getFieldSlot b o (← ObjectArray.offsetOfElement b.checked i))

def scanFields (artPointerSize : Nat) (kVisitNativeRoots : Bool) (object klass : Nat) :
    Option (List Visit) :=
  let classFlags := Class.classFlags m klass
  if classFlags = Class.kClassFlagNormal ∨ classFlags = Class.kClassFlagRecord then
    Object.visitInstanceFieldsReferences b m object klass
  else if classFlags &&& Class.kClassFlagNoReferenceFields ≠ 0 then
    some []
  else if classFlags = Class.kClassFlagClass then do
    return (← Object.visitInstanceFieldsReferences b m object klass) ++
      (← Class.visitReferences b m artPointerSize kVisitNativeRoots object)
  else if classFlags &&& Class.kClassFlagObjectArray ≠ 0 then
    ObjectArray.visitReferences b m object
  else if classFlags &&& Class.kClassFlagReference ≠ 0 then do
    return (← Object.visitInstanceFieldsReferences b m object klass) ++
      [.processReferent klass object]
  else if classFlags &&& Class.kClassFlagDexCache ≠ 0 then do
    return (← Object.visitInstanceFieldsReferences b m object klass) ++
      if kVisitNativeRoots then [.scanNativeRoots object .dexCache] else []
  else if classFlags &&& Class.kClassFlagClassLoader ≠ 0 then do
    return (← Object.visitInstanceFieldsReferences b m object klass) ++
      if kVisitNativeRoots then [.scanNativeRoots object .classLoader] else []
  else
    none

def scanObject (artPointerSize : Nat) (kVisitNativeRoots : Bool) (object : Nat) :
    Option (List Visit) := do
  let klass ← ArtHeapReference.deref (← Object.getClass b m object)
  return .slot (← Object.klassSlot b object) ::
    (← scanFields b m artPointerSize kVisitNativeRoots object klass)

end

/-! ### The code reports the same -/

section
variable {b : Build} {m : Memory}

theorem forRange_refines {α : Type} {n : Nat} {f g : Nat → Option (List α)}
    (h : ∀ i, Refines (f i) (g i)) : Refines (forRange n f) (forRange n g) :=
  (Refines.mapM h _).bind fun _ => .refl _

theorem klassSlot_refines {o s : Nat} (h : Object.klassSlot b o = some s) :
    MmtkArt.Object.klassSlot b o = s := getFieldSlot_eq h

theorem getClass_refines {o c : Nat} (h : Object.getClass b m o = some c) :
    MmtkArt.Object.getClass b m o = c := by
  obtain ⟨s, hs, h⟩ := Option.bind_eq_some_iff.mp h
  cases h
  rw [MmtkArt.Object.getClass, klassSlot_refines hs]

theorem visitOneWord_refines {o off w : Nat} :
    Refines (visitOneWord b m o off w) (MmtkArt.visitOneWord b m o off w) := by
  induction w using Nat.strongRecOn generalizing off with
  | ind w ih =>
    rw [visitOneWord, MmtkArt.visitOneWord]
    refine .ite (fun hw => ?_) fun _ => .refl _
    apply Refines.bind_left
    intro here hhere
    have hsame : here =
        if w &&& 0b1 ≠ 0 then visitSlot m (MmtkArt.getFieldSlot b o (asI32 off)) else [] := by
      split at hhere
      · next hbit =>
        obtain ⟨s, hs, rfl⟩ := Option.map_eq_some_iff.mp hhere
        rw [if_pos hbit, getFieldSlot_eq hs]
      · next hbit =>
        cases hhere
        rw [if_neg hbit]
    have hshift : w >>> 1 < w := by
      rw [Nat.shiftRight_one]
      omega
    subst hsame
    exact FixedWidth.add_refines.bind fun _ => (ih _ hshift).bind fun _ => .refl _

theorem visitInstanceFieldsReferences_refines {o c : Nat} :
    Refines (Object.visitInstanceFieldsReferences b m o c)
      (MmtkArt.Object.visitInstanceFieldsReferences b m o c) := by
  refine .ite (fun _ => ?_) (fun _ => visitOneWord_refines)
  refine FixedWidth.add_refines.bind fun classEnd => ?_
  refine FixedWidth.mul_refines.bind fun bytes => ?_
  refine FixedWidth.sub_refines.bind fun overflowBitmap => forRange_refines fun i => ?_
  refine FixedWidth.mul_refines.bind fun x => FixedWidth.mul_refines.bind fun y => ?_
  refine FixedWidth.add_refines.bind fun fieldOffset => ?_
  apply Refines.bind_left
  intro z hz
  apply Refines.bind_left
  intro word hword
  -- the address of the word
  obtain ⟨rfl, -⟩ := FixedWidth.fit_exact (.inl rfl) hz
  obtain ⟨rfl, -⟩ := FixedWidth.fit_exact (.inl rfl) hword
  exact visitOneWord_refines

theorem visitStaticFields_refines {o n off : Nat} :
    Refines (Class.visitStaticFields b m o n off)
      (MmtkArt.Class.visitStaticFields b m o n off) := by
  induction n generalizing off with
  | zero => exact .refl _
  | succ n ih =>
    apply Refines.bind_left
    intro s hs
    rw [MmtkArt.Class.visitStaticFields, getFieldSlot_eq hs]
    exact FixedWidth.add_refines.bind fun _ => ih.bind fun _ => .refl _

theorem isResolved_refines {c : Nat} :
    Refines (Class.isResolved b m c) (MmtkArt.Class.isResolved b m c) := by
  apply Refines.bind_left
  intro a ha
  rw [MmtkArt.Class.isResolved, MmtkArt.Class.getStatus, MmtkArt.Class.status,
    getFieldAddress_eq ha]
  exact .refl _

variable [MmtkCore b]

theorem embeddedVtableEnd_refines {n ptrSize : Nat} :
    Refines (Class.embeddedVtableEnd b.checked n ptrSize) (Class.embeddedVtableEnd b n ptrSize) :=
  FixedWidth.add_refines.bind fun _ => FixedWidth.add_refines.bind fun _ =>
    FixedWidth.mul_refines.bind fun _ => FixedWidth.add_refines

theorem padStaticFields_refines {size num8 num16 num32 num64 : Nat} :
    Refines (Class.padStaticFields b.checked size num8 num16 num32 num64)
      (Class.padStaticFields b size num8 num16 num32 num64) :=
  .ite (fun _ => FixedWidth.add_refines.bind fun _ => .refl _) fun _ => .refl _

omit [MmtkCore b] in
theorem primitiveStaticFieldsSize_refines {num8 num16 num32 num64 : Nat} :
    Refines (Class.primitiveStaticFieldsSize b.checked num8 num16 num32 num64)
      (Class.primitiveStaticFieldsSize b num8 num16 num32 num64) :=
  FixedWidth.mul_refines.bind fun _ => FixedWidth.mul_refines.bind fun _ =>
    FixedWidth.add_refines.bind fun _ => FixedWidth.mul_refines.bind fun _ =>
    FixedWidth.add_refines.bind fun _ => FixedWidth.mul_refines.bind fun _ =>
    FixedWidth.add_refines

theorem computeClassSize_refines {hasEmbeddedVtable : Bool}
    {numVtableEntries num8 num16 num32 num64 numRef numBitmap ptrSize : Nat} :
    Refines
      (Class.computeClassSize b.checked hasEmbeddedVtable numVtableEntries num8 num16 num32 num64
        numRef numBitmap ptrSize)
      (Class.computeClassSize b hasEmbeddedVtable numVtableEntries num8 num16 num32 num64 numRef
        numBitmap ptrSize) := by
  refine .ite (fun _ => embeddedVtableEnd_refines.bind fun _ => ?_)
    fun _ => (Refines.refl _).bind fun _ => ?_
  all_goals
    refine FixedWidth.mul_refines.bind fun _ => FixedWidth.add_refines.bind fun _ => ?_
    refine padStaticFields_refines.bind fun padded => ?_
    refine primitiveStaticFieldsSize_refines.bind fun _ => ?_
    refine FixedWidth.add_refines.bind fun _ => .ite (fun _ => ?_) fun _ => .refl _
    exact FixedWidth.mul_refines.bind fun _ => FixedWidth.add_refines

theorem getFirstReferenceStaticFieldsOffset_refines {c ptrSize : Nat} :
    Refines (Class.getFirstReferenceStaticFieldsOffset b m c ptrSize)
      (MmtkArt.Class.getFirstReferenceStaticFieldsOffset b m c ptrSize) := by
  refine (Refines.refl _).bind fun _ => .ite (fun _ => ?_) fun _ => .refl _
  apply Refines.bind_left
  intro a ha
  rw [Class.getEmbeddedVtableLength, getFieldAddress_eq ha]
  exact computeClassSize_refines

theorem visitStaticFieldsReferences_refines {ptrSize o : Nat} :
    Refines (Class.visitStaticFieldsReferences b m ptrSize o)
      (MmtkArt.Class.visitStaticFieldsReferences b m ptrSize o) :=
  .ite (fun _ => getFirstReferenceStaticFieldsOffset_refines.bind fun _ =>
    visitStaticFields_refines) fun _ => .refl _

theorem visitReferences_refines {ptrSize : Nat} {kVisitNativeRoots : Bool} {o : Nat} :
    Refines (Class.visitReferences b m ptrSize kVisitNativeRoots o)
      (MmtkArt.Class.visitReferences b m ptrSize kVisitNativeRoots o) :=
  isResolved_refines.bind fun _ =>
    .ite (fun _ => visitStaticFieldsReferences_refines.bind fun _ => .refl _) fun _ => .refl _

theorem visitElements_refines {o : Nat} :
    Refines (ObjectArray.visitReferences b m o) (MmtkArt.ObjectArray.visitReferences b m o) := by
  apply Refines.bind_left
  intro length hlength
  rw [MmtkArt.ObjectArray.visitReferences, MmtkArt.Array.length, asUsize_of_toUsize hlength]
  apply forRange_refines
  intro i
  refine Refines.bind (FixedWidth.mul_refines.bind fun _ => FixedWidth.add_refines) fun off => ?_
  apply Refines.bind_left
  intro s hs
  rw [getFieldSlot_eq hs]
  exact .refl _

theorem scanFields_refines {ptrSize : Nat} {kVisitNativeRoots : Bool} {o c : Nat} :
    Refines (scanFields b m ptrSize kVisitNativeRoots o c)
      (MmtkArt.scanFields b m ptrSize kVisitNativeRoots o c) := by
  have hfields := visitInstanceFieldsReferences_refines (b := b) (m := m) (o := o) (c := c)
  refine .ite (fun _ => hfields) fun _ => .ite (fun _ => .refl _) fun _ => ?_
  refine .ite (fun _ => ?_) fun _ => .ite (fun _ => visitElements_refines) fun _ => ?_
  · exact hfields.bind fun _ => visitReferences_refines.bind fun _ => .refl _
  · have hthen := fun upcalls : List Visit =>
      hfields.bind fun visits => Refines.refl (some (visits ++ upcalls))
    exact .ite (fun _ => hthen _) fun _ => .ite (fun _ => hthen _) fun _ =>
      .ite (fun _ => hthen _) fun _ => .refl _

/-- **What exact arithmetic reports is what every build reports.** -/
theorem scanObject_refines {ptrSize : Nat} {kVisitNativeRoots : Bool} {o : Nat} :
    Refines (scanObject b m ptrSize kVisitNativeRoots o)
      (MmtkArt.scanObject b m ptrSize kVisitNativeRoots o) := by
  apply Refines.bind_left
  intro c hc
  rw [MmtkArt.scanObject, getClass_refines hc]
  refine (Refines.refl _).bind fun klass => ?_
  apply Refines.bind_left
  intro s hs
  rw [klassSlot_refines hs]
  exact scanFields_refines.bind fun _ => .refl _

end
end Exact
end MmtkArt
