import MmtkArt.ObjectModel.Evacuation
import MmtkArt.ObjectScanning.Scannable

/-! # A collection with debug assertions

What `scan_object` and `get_object_size` assert of an object is about its class, the superclasses
and the component type, all of which may have moved. `CheckedHeap` is what a heap has to meet for
the assertions to hold when a collection starts, and then they hold at any time of it
(`evacuation_asserts`). -/

namespace MmtkArt

namespace Debug

/-- `get_forwarding_status`: two bits of the header. -/
def getForwardingStatus (m : Memory) (object : Nat) : Nat :=
  (m (object + ArtObjectModel.localForwardingBits / 8)).toNat >>>
    (ArtObjectModel.localForwardingBits % 8) &&& 0b11

/-- `ArtScanning::scan_object` -/
def ArtScanning.scanObject (b : Build) [MmtkCore b] (isObjectSane : Nat → Bool) (m : Memory)
    (artPointerSize object : Nat) : Option (List Visit) := do
  guard (getForwardingStatus m object = 0b00)
  Debug.scanObject b isObjectSane m artPointerSize true object

end Debug

/-- Every object meets what is asserted of it, and a superclass is a class. -/
structure CheckedHeap (b : Build) (m : Memory) (live : Nat → Prop) (isObjectSane : Nat → Bool) :
    Prop where
  /-- The superclass is among the fields that java.lang.Class marks. -/
  mirror : ∀ c, live c → Class.isClassClass b m c = true → 32 ∈ Class.instanceOffsets m c
  superClass : ∀ c, live c → IsClassObject b m c → Debug.Class.superClass m c ≠ 0 →
    IsClassObject b m (Debug.Class.superClass m c)
  scannable : ∀ o, live o → Debug.Scannable b isObjectSane m o

variable {b : Build} {m m' : Memory} {ptrSize a o c c' : Nat} {live : Nat → Prop}
  {R : Nat → Nat → Prop} {isObjectSane isObjectSane' : Nat → Bool}

theorem CheckedHeap.insert (h : CheckedHeap b m live isObjectSane)
    (hnew : Debug.Scannable b isObjectSane m o) (hclass : ¬ IsClassObject b m o) :
    CheckedHeap b m (fun a => a = o ∨ live a) isObjectSane := by
  constructor
  · rintro _ (rfl | hc) hself
    · exact absurd (isClassObject_of_isClassClass hself) hclass
    · exact h.mirror _ hc hself
  · rintro _ (rfl | hc) hcc
    · exact absurd hcc hclass
    · exact h.superClass _ hc hcc
  · rintro _ (rfl | ho)
    · exact hnew
    · exact h.scannable _ ho

/-- The superclass is in the layout of a class. -/
theorem CheckedHeap.superClass_mem_fixedOffsets (h : CheckedHeap b m live isObjectSane)
    (hheap : LiveHeap b m ptrSize live) (hc : live c) (hcc : IsClassObject b m c) :
    32 ∈ fixedOffsets b m c := by
  rw [fixedOffsets_of_classObject hcc]
  exact List.mem_cons_of_mem 0 (h.mirror _ (hheap.klass c hc).1 hcc)

namespace SameLayout

/-! ### The class -/

theorem numReferenceInstanceFields_eq (h : SameLayout b m ptrSize m' live R) (hc : R c' c)
    (hcc : IsClassObject b m c) : Debug.Class.numReferenceInstanceFields m' c' =
      Debug.Class.numReferenceInstanceFields m c :=
  h.field_eq hc hcc (by decide)

theorem sizeShiftAgrees (h : SameLayout b m ptrSize m' live R) (hc : R c' c)
    (hcc : IsClassObject b m c) (hold : Debug.Class.SizeShiftAgrees m c) :
    Debug.Class.SizeShiftAgrees m' c' := by
  obtain ⟨type, htype, hshift⟩ := hold
  refine ⟨type, (h.getPrimitiveType_eq hc hcc).trans htype, ?_⟩
  rw [Class.getPrimitiveTypeSizeShift, h.primitiveType_eq hc hcc]
  exact hshift

theorem concrete (h : SameLayout b m ptrSize m' live R) (hc : R c' c) (hcc : IsClassObject b m c)
    (hold : Debug.Class.Concrete m c) : Debug.Class.Concrete m' c' := by
  refine ⟨(h.getPrimitiveType_eq hc hcc).trans hold.type, ?_, ?_, ?_,
    (h.isArrayClass_eq hc hcc).trans hold.array⟩
  · rw [Class.getPrimitiveTypeSizeShift, h.primitiveType_eq hc hcc]
    exact hold.sizeShift
  · rw [Class.isInterface, h.accessFlags_eq hc hcc]
    exact hold.interface
  · rw [Class.isAbstract, h.accessFlags_eq hc hcc]
    exact hold.abstract

theorem linked (h : SameLayout b m ptrSize m' live R) (hc : R c' c) (hcc : IsClassObject b m c)
    (hold : Debug.Class.Linked b m c) : Debug.Class.Linked b m' c' := by
  constructor
  · rw [h.isResolved_eq hc hcc, Debug.Class.isErroneous, h.getStatus_eq hc hcc]
    exact hold.status
  · rw [h.referenceInstanceOffsets_eq hc hcc]
    exact hold.offsets

/-- The next superclass is a Class object, wherever it is. -/
theorem nextSuperClass (h : SameLayout b m ptrSize m' live R)
    (hcheck : CheckedHeap b m live isObjectSane) (hc : R c' c ∧ IsClassObject b m c) :
    Option.Rel (fun d' d => R d' d ∧ IsClassObject b m d) (Debug.Class.nextSuperClass m' c')
      (Debug.Class.nextSuperClass m c) := by
  obtain ⟨hc, hcc⟩ := hc
  have hlive := h.live hc
  have hmem := hcheck.superClass_mem_fixedOffsets h.heap hlive hcc
  by_cases h0 : Debug.Class.superClass m c = 0
  · rw [Debug.nextSuperClass_of_eq h0, Debug.nextSuperClass_of_eq (h.null hc 32 hmem h0)]
    exact .none
  · have hsuper := h.reference hc 32 hmem h0
    rw [Debug.nextSuperClass_of_ne h0, Debug.nextSuperClass_of_ne (h.ne_zero hsuper)]
    exact .some ⟨hsuper, hcheck.superClass c hlive hcc h0⟩

/-- The superclasses are followed through whatever stands for them. -/
theorem onlyClassField (h : SameLayout b m ptrSize m' live R)
    (hcheck : CheckedHeap b m live isObjectSane)
    (hsane : ∀ {a o}, R a o → isObjectSane' a = true) (hc : R c' c) (hcc : IsClassObject b m c)
    (hold : Debug.Class.OnlyClassField isObjectSane m c) :
    Debug.Class.OnlyClassField isObjectSane' m' c' := by
  obtain ⟨supers, hsupers, -, hsum⟩ := hold
  obtain ⟨supers', hsupers', hall⟩ := hsupers.related
    (fun _ _ hd => h.nextSuperClass hcheck hd) (show R c' c ∧ IsClassObject b m c from ⟨hc, hcc⟩)
  obtain ⟨hvalid, hfields⟩ := (List.forall₂_and_left _ _).mp (hall.imp fun d' d hd =>
    (⟨hsane hd.1, h.numReferenceInstanceFields_eq hd.1 hd.2⟩ : isObjectSane' d' = true ∧ _))
  refine ⟨supers', hsupers', hvalid, ?_⟩
  have hmap : supers'.map (Debug.Class.numReferenceInstanceFields m') =
      supers.map (Debug.Class.numReferenceInstanceFields m) := by
    rw [← List.forall₂_eq_eq_eq, List.forall₂_map_left_iff, List.forall₂_map_right_iff]
    exact hfields
  rw [List.map_cons, h.numReferenceInstanceFields_eq hc hcc, hmap]
  exact hsum

theorem class_scannable (h : SameLayout b m ptrSize m' live R)
    (hcheck : CheckedHeap b m live isObjectSane)
    (hsane : ∀ {a o}, R a o → isObjectSane' a = true) (hc : R c' c) (hcc : IsClassObject b m c)
    (hold : Debug.Class.Scannable b isObjectSane m c) :
    Debug.Class.Scannable b isObjectSane' m' c' := by
  have hflags := h.classFlags_eq hc hcc
  have harray := h.isArrayClass_eq hc hcc
  have hstring := h.isStringClass_eq hc hcc
  refine ⟨⟨hsane hc, fun ha => hsane (h.componentType hc hcc (harray ▸ ha)).1⟩, ?_, ?_, ?_⟩
  · rw [hstring, hflags]
    exact hold.string
  · rw [harray, hflags]
    exact fun ha hnone => (hold.fields ha hnone).imp (h.concrete hc hcc) (h.linked hc hcc)
  · rw [hflags, hstring]
    exact fun hnone hs => h.onlyClassField hcheck hsane hc hcc (hold.noFields hnone hs)

/-- **What is asserted of an object is asserted of whatever stands for it.** -/
theorem scannable (h : SameLayout b m ptrSize m' live R)
    (hcheck : CheckedHeap b m live isObjectSane)
    (hsane : ∀ {a o}, R a o → isObjectSane' a = true) (ho : R a o) :
    Debug.Scannable b isObjectSane' m' a := by
  have hold := hcheck.scannable o (h.live ho)
  have hklass := h.klass ho
  refine ⟨hsane ho, h.class_scannable hcheck hsane hklass (h.heap.klass o (h.live ho)).2 hold.klass,
    fun hcc => ?_⟩
  rw [h.isClassClass_eq hklass] at hcc
  rw [h.isResolved_eq ho hcc, h.numReferenceStaticFields_eq ho hcc]
  exact fun hres hnum => h.sizeShiftAgrees ho hcc (hold.statics hcc hres hnum)

end SameLayout

namespace Evacuation

variable {CopySemantics : Type} {e : Evacuation b CopySemantics} {s : EvacuationState}
  [MmtkCore b] [FromRawAddress b]

omit [MmtkCore b] [FromRawAddress b]

end Evacuation
end MmtkArt
