import MmtkArt.ObjectScanning.Slots

/-! # Objects that move

While a collection is under way an object is found at two addresses, and its references lead to
either address of their targets. `Relocation` relates such a memory to the one before the
collection: `R a o` says that what is at `a` stands for the object `o`. The size of an object, the
offsets of its references and its being well formed only depend on its class and its data
(`SameLayout.wellFormed`), so `getObjectSize_eq` and `scanObject_eq` apply to it at any time,
whatever its references are. -/

namespace MmtkArt

section
variable (b : Build) (m : Memory) (ptrSize : Nat)

/-- An instance of java.lang.Class. -/
def IsClassObject (c : Nat) : Prop := Class.isClassClass b m (Object.getClass b m c) = true

instance (c : Nat) : Decidable (IsClassObject b m c) := inferInstanceAs (Decidable (_ = _))

/-- The objects that are alive. Their references and classes are, and a class is laid out as
`compute_class_size` says. -/
structure LiveHeap (live : Nat → Prop) : Prop where
  ne_zero : ∀ o, live o → o ≠ 0
  wellFormed : ∀ o, live o → WellFormed b m ptrSize o
  klass : ∀ o, live o → live (Object.getClass b m o) ∧ IsClassObject b m (Object.getClass b m o)
  reference : ∀ o, live o → ∀ f ∈ refOffsets b m ptrSize o, m.load32 (o + f) ≠ 0 →
    live (m.load32 (o + f))
  /-- java.lang.String is dispatched on as a class without reference fields. -/
  string : ∀ o, live o → Class.isStringClass m (Object.getClass b m o) = true →
    Class.classFlags m (Object.getClass b m o) &&& Class.kClassFlagNoReferenceFields ≠ 0
  /-- The fields that java.lang.Class marks are the eight references of the mirror, the component
  type among them. -/
  mirror : ∀ c, live c → Class.isClassClass b m c = true →
    12 ∈ Class.instanceOffsets m c ∧ ∀ f ∈ Class.instanceOffsets m c, f + 4 ≤ 40
  component : ∀ c, live c → IsClassObject b m c → Class.isArrayClass m c = true →
    IsClassObject b m (Class.componentType m c)
  /-- The overflow bitmap is at the end of the class, after the static references. -/
  bitmap : ∀ c, live c → IsClassObject b m c → Class.HasOverflowBitmap m c →
    Class.size + 4 * Class.bitmapNumWords m c ≤ Class.classSize m c ∧
      ∀ f ∈ Class.staticOffsets b m c ptrSize,
        f + 4 + 4 * Class.bitmapNumWords m c ≤ Class.classSize m c

/-- The objects are apart from each other, and their addresses fit in a slot. -/
structure ManagedHeap (live : Nat → Prop) : Prop where
  heap : LiveHeap b m ptrSize live
  lt : ∀ o, live o → o < 2 ^ 32
  apart : ∀ o, live o → ∀ o', live o' → o ≠ o' →
    o + alignedSize b m o ≤ o' ∨ o' + alignedSize b m o' ≤ o

/-- What is at `a` in `m'` is the object `o` of `m`, with its references related by `R`. The word of
the header that follows the klass slot is left aside. -/
structure HoldsAt (m' : Memory) (R : Nat → Nat → Prop) (a o : Nat) : Prop where
  null : ∀ f ∈ 0 :: refOffsets b m ptrSize o, m.load32 (o + f) = 0 → m'.load32 (a + f) = 0
  reference : ∀ f ∈ 0 :: refOffsets b m ptrSize o, m.load32 (o + f) ≠ 0 →
    R (m'.load32 (a + f)) (m.load32 (o + f))
  /-- The bytes that are no references and not in the header. -/
  data : ∀ k, 8 ≤ k → k < objectSize b m o →
    (∀ f ∈ refOffsets b m ptrSize o, k < f ∨ f + 4 ≤ k) → m' (a + k) = m (o + k)

/-- The references that belong to the layout of an object: its class and, in a Class object, what
java.lang.Class declares. -/
def fixedOffsets (o : Nat) : List Nat :=
  0 :: if IsClassObject b m o then Class.instanceOffsets m (Object.getClass b m o) else []

/-- The memory `m'` holds objects laid out as those of `m` at the addresses that `R` relates to
them. -/
structure SameLayout (m' : Memory) (live : Nat → Prop) (R : Nat → Nat → Prop) : Prop where
  heap : LiveHeap b m ptrSize live
  live : ∀ {a o}, R a o → live o
  functional : ∀ {a o o'}, R a o → R a o' → o = o'
  ne_zero : ∀ {a o}, R a o → a ≠ 0
  aligned : ∀ {a o}, R a o → 8 ∣ a
  end_lt : ∀ {a o}, R a o → a + objectSize b m o < b.usizeCard
  /-- java.lang.Class does not move. -/
  classClass : ∀ {a c}, R a c → Class.isClassClass b m c = true → a = c
  null : ∀ {a o}, R a o → ∀ f ∈ fixedOffsets b m o, m.load32 (o + f) = 0 → m'.load32 (a + f) = 0
  reference : ∀ {a o}, R a o → ∀ f ∈ fixedOffsets b m o, m.load32 (o + f) ≠ 0 →
    R (m'.load32 (a + f)) (m.load32 (o + f))
  data : ∀ {a o}, R a o → ∀ k, 8 ≤ k → k < objectSize b m o →
    (∀ f ∈ refOffsets b m ptrSize o, k < f ∨ f + 4 ≤ k) → m' (a + k) = m (o + k)

/-- The memory `m'` holds objects of `m` at the addresses that `R` relates to them. -/
structure Relocation (m' : Memory) (live : Nat → Prop) (R : Nat → Nat → Prop) : Prop
    extends SameLayout b m ptrSize m' live R where
  holds : ∀ {a o}, R a o → HoldsAt b m ptrSize m' R a o

end

variable {b : Build} {m m' : Memory} {ptrSize o : Nat} {live : Nat → Prop}

/-- java.lang.Class is its own class. -/
theorem isClassObject_of_isClassClass (ho : Class.isClassClass b m o = true) :
    IsClassObject b m o := by
  have hself : o = Object.getClass b m o := of_decide_eq_true ho
  rw [IsClassObject, ← hself]
  exact ho

theorem fixedOffsets_subset : fixedOffsets b m o ⊆ 0 :: refOffsets b m ptrSize o := by
  refine List.cons_subset_cons 0 ?_
  split
  · exact fun f hf => List.mem_append_left _ (List.mem_append_left _ hf)
  · exact List.nil_subset _

theorem fixedOffsets_of_classObject (hcc : IsClassObject b m o) :
    fixedOffsets b m o = 0 :: Class.instanceOffsets m (Object.getClass b m o) :=
  congrArg _ (if_pos hcc)

namespace LiveHeap

variable {c f : Nat}

/-- A Class object is as large as it says. -/
theorem objectSize_of_classObject (h : LiveHeap b m ptrSize live) (hc : live c)
    (hcc : IsClassObject b m c) : objectSize b m c = Class.classSize m c ∧
      Class.size ≤ Class.classSize m c :=
  ⟨(h.wellFormed c hc).objectSize_of_class hcc, (h.wellFormed c hc).mirror_le hcc⟩

/-- The references of a Class object are the first fields of the mirror and static fields. -/
theorem of_mem_refOffsets (h : LiveHeap b m ptrSize live) (hc : live c) (hcc : IsClassObject b m c)
    (hf : f ∈ refOffsets b m ptrSize c) : f + 4 ≤ 40 ∨ f ∈ Class.staticOffsets b m c ptrSize := by
  rw [(h.wellFormed c hc).refOffsets_of_class hcc, List.mem_append] at hf
  exact hf.imp_left ((h.mirror _ (h.klass c hc).1 hcc).2 f)

theorem component_mem_fixedOffsets (h : LiveHeap b m ptrSize live) (hc : live c)
    (hcc : IsClassObject b m c) : 12 ∈ fixedOffsets b m c := by
  rw [fixedOffsets_of_classObject hcc]
  exact List.mem_cons_of_mem 0 (h.mirror _ (h.klass c hc).1 hcc).1

end LiveHeap

/-! ### What a change of the memory keeps -/

/-- A reference is a word of the object, and not the second one. -/
theorem WellFormed.word_of_mem (h : WellFormed b m ptrSize o) {f : Nat}
    (hf : f ∈ 0 :: refOffsets b m ptrSize o) :
    4 ∣ f ∧ f + 4 ≤ objectSize b m o ∧ (f = 0 ∨ 8 ≤ f) := by
  rcases List.mem_cons.mp hf with rfl | hf
  · exact ⟨Nat.dvd_zero 4, Nat.le_trans (by decide) h.header_le, .inl rfl⟩
  · obtain ⟨hle, hdvd, hend⟩ := h.of_mem_refOffsets hf
    exact ⟨hdvd, hend, .inr hle⟩

namespace HoldsAt

variable {m₂ : Memory} {R R' : Nat → Nat → Prop} {a d f r : Nat}

theorem mono (h : HoldsAt b m ptrSize m' R a o) (hR : ∀ x y, R x y → R' x y) :
    HoldsAt b m ptrSize m' R' a o :=
  ⟨h.null, fun f hf hne => hR _ _ (h.reference f hf hne), h.data⟩

/-- The bytes of the object, the second word aside, are somewhere else or in another memory. -/
theorem transfer (h : HoldsAt b m ptrSize m' R a o) (ho : WellFormed b m ptrSize o)
    (hbytes : ∀ k, k < objectSize b m o → k < 4 ∨ 8 ≤ k → m₂ (d + k) = m' (a + k)) :
    HoldsAt b m ptrSize m₂ R d o := by
  have hword : ∀ f ∈ 0 :: refOffsets b m ptrSize o, m₂.load32 (d + f) = m'.load32 (a + f) := by
    intro f hf
    obtain ⟨-, hend, hpos⟩ := ho.word_of_mem hf
    apply Memory.load32_congr
    intro i hi
    rw [Nat.add_assoc, Nat.add_assoc]
    exact hbytes (f + i) (by omega) (by omega)
  refine ⟨fun f hf h0 => ?_, fun f hf hne => ?_, fun k hk hend hrefs => ?_⟩
  · rw [hword f hf]
    exact h.null f hf h0
  · rw [hword f hf]
    exact h.reference f hf hne
  · rw [hbytes k hend (.inr hk)]
    exact h.data k hk hend hrefs

/-- A reference is replaced by one to the same object. -/
theorem store (h : HoldsAt b m ptrSize m' R a o) (ho : WellFormed b m ptrSize o)
    (hf : f ∈ 0 :: refOffsets b m ptrSize o) (hne : m.load32 (o + f) ≠ 0)
    (hr : R r (m.load32 (o + f))) (hlt : r < 2 ^ 32) :
    HoldsAt b m ptrSize (m'.store32 (a + f) r) R a o := by
  obtain ⟨hdvd, -, hpos⟩ := ho.word_of_mem hf
  have hother : ∀ g ∈ 0 :: refOffsets b m ptrSize o, g ≠ f →
      (m'.store32 (a + f) r).load32 (a + g) = m'.load32 (a + g) := by
    intro g hg hgf
    obtain ⟨hdvd', -, -⟩ := ho.word_of_mem hg
    apply Memory.load32_store32_of_disjoint
    omega
  refine ⟨fun g hg h0 => ?_, fun g hg hg0 => ?_, fun k hk hend hrefs => ?_⟩
  · have hgf : g ≠ f := fun heq => hne (heq ▸ h0)
    rw [hother g hg hgf]
    exact h.null g hg h0
  · by_cases hgf : g = f
    · subst hgf
      rw [Memory.load32_store32 hlt]
      exact hr
    · rw [hother g hg hgf]
      exact h.reference g hg hg0
  · have hout : a + k < a + f ∨ a + f + 4 ≤ a + k := by
      rcases List.mem_cons.mp hf with rfl | hf
      · omega
      · have := hrefs f hf
        omega
    rw [Memory.store32, Memory.store_of_outside hout]
    exact h.data k hk hend hrefs

end HoldsAt

namespace SameLayout

variable {R : Nat → Nat → Prop} {a c c' : Nat}

/-! ### The class -/

theorem lt_usizeCard (h : SameLayout b m ptrSize m' live R) (ho : R a o) : a < b.usizeCard :=
  Nat.lt_of_le_of_lt (Nat.le_add_right _ _) (h.end_lt ho)

theorem getClass_eq (h : SameLayout b m ptrSize m' live R) (ho : R a o) :
    Object.getClass b m' a = m'.load32 a := Object.getClass_eq (h.lt_usizeCard ho)

/-- The klass slot leads to the class. -/
theorem klass (h : SameLayout b m ptrSize m' live R) (ho : R a o) :
    R (Object.getClass b m' a) (Object.getClass b m o) := by
  have hwf := h.heap.wellFormed o (h.live ho)
  have hne := hwf.klass_ne
  rw [hwf.getClass_eq] at hne ⊢
  rw [h.getClass_eq ho]
  exact h.reference ho 0 List.mem_cons_self hne

/-- A word that is no reference. -/
theorem word_eq (h : SameLayout b m ptrSize m' live R) (ho : R a o) {k : Nat} (hk : 8 ≤ k)
    (hend : k + 4 ≤ objectSize b m o)
    (href : ∀ f ∈ refOffsets b m ptrSize o, k + 4 ≤ f ∨ f + 4 ≤ k) :
    m'.load32 (a + k) = m.load32 (o + k) := by
  apply Memory.load32_congr
  intro i hi
  rw [Nat.add_assoc, Nat.add_assoc]
  refine h.data ho (k + i) (by omega) (by omega) fun f hf => ?_
  have := href f hf
  omega

/-- Only java.lang.Class is its own class, and it does not move. -/
theorem isClassClass_eq (h : SameLayout b m ptrSize m' live R) (hc : R c' c) :
    Class.isClassClass b m' c' = Class.isClassClass b m c := by
  have hklass := h.klass hc
  rw [Class.isClassClass, Class.isClassClass, decide_eq_decide]
  constructor
  · intro heq
    exact h.functional hc (heq ▸ hklass)
  · intro heq
    have hself : Class.isClassClass b m c = true := decide_eq_true heq
    have hklass : R (Object.getClass b m' c') c := heq ▸ hklass
    exact (h.classClass hc hself).trans (h.classClass hklass hself).symm

/-! ### Class objects -/

/-- A field of the mirror that is no reference. -/
theorem field_eq (h : SameLayout b m ptrSize m' live R) (hc : R c' c) (hcc : IsClassObject b m c)
    {k : Nat} (hk : 40 ≤ k ∧ k + 4 ≤ Class.size) : m'.load32 (c' + k) = m.load32 (c + k) := by
  have hlive := h.live hc
  obtain ⟨hsize, hle⟩ := h.heap.objectSize_of_classObject hlive hcc
  refine h.word_eq hc (by omega) (by omega) fun f hf => ?_
  rcases h.heap.of_mem_refOffsets hlive hcc hf with hf | hf
  · omega
  · have := ((h.heap.wellFormed c hlive).of_mem_staticOffsets hcc hf).1
    omega

theorem accessFlags_eq (h : SameLayout b m ptrSize m' live R) (hc : R c' c)
    (hcc : IsClassObject b m c) : Class.accessFlags m' c' = Class.accessFlags m c :=
  h.field_eq hc hcc (by decide)

theorem classFlags_eq (h : SameLayout b m ptrSize m' live R) (hc : R c' c)
    (hcc : IsClassObject b m c) : Class.classFlags m' c' = Class.classFlags m c :=
  h.field_eq hc hcc (by decide)

theorem classSize_eq (h : SameLayout b m ptrSize m' live R) (hc : R c' c)
    (hcc : IsClassObject b m c) : Class.classSize m' c' = Class.classSize m c :=
  h.field_eq hc hcc (by decide)

theorem numReferenceStaticFields_eq (h : SameLayout b m ptrSize m' live R) (hc : R c' c)
    (hcc : IsClassObject b m c) :
    Class.numReferenceStaticFields m' c' = Class.numReferenceStaticFields m c :=
  h.field_eq hc hcc (by decide)

theorem classObjectSize_eq (h : SameLayout b m ptrSize m' live R) (hc : R c' c)
    (hcc : IsClassObject b m c) : Class.objectSize m' c' = Class.objectSize m c :=
  h.field_eq hc hcc (by decide)

theorem primitiveType_eq (h : SameLayout b m ptrSize m' live R) (hc : R c' c)
    (hcc : IsClassObject b m c) : Class.primitiveType m' c' = Class.primitiveType m c :=
  h.field_eq hc hcc (by decide)

theorem referenceInstanceOffsets_eq (h : SameLayout b m ptrSize m' live R) (hc : R c' c)
    (hcc : IsClassObject b m c) :
    Class.referenceInstanceOffsets m' c' = Class.referenceInstanceOffsets m c :=
  h.field_eq hc hcc (by decide)

theorem getPrimitiveType_eq (h : SameLayout b m ptrSize m' live R) (hc : R c' c)
    (hcc : IsClassObject b m c) : Class.getPrimitiveType m' c' = Class.getPrimitiveType m c := by
  rw [Class.getPrimitiveType, Class.getPrimitiveType, h.primitiveType_eq hc hcc]

theorem isStringClass_eq (h : SameLayout b m ptrSize m' live R) (hc : R c' c)
    (hcc : IsClassObject b m c) : Class.isStringClass m' c' = Class.isStringClass m c := by
  rw [Class.isStringClass, Class.isStringClass, h.classFlags_eq hc hcc]

theorem componentType_eq_zero (h : SameLayout b m ptrSize m' live R) (hc : R c' c)
    (hcc : IsClassObject b m c) : Class.componentType m' c' = 0 ↔ Class.componentType m c = 0 := by
  have hmem := h.heap.component_mem_fixedOffsets (h.live hc) hcc
  refine ⟨fun h' => ?_, h.null hc 12 hmem⟩
  by_contra hne
  exact h.ne_zero (h.reference hc 12 hmem hne) h'

theorem isArrayClass_eq (h : SameLayout b m ptrSize m' live R) (hc : R c' c)
    (hcc : IsClassObject b m c) : Class.isArrayClass m' c' = Class.isArrayClass m c :=
  decide_eq_decide.mpr (not_congr (h.componentType_eq_zero hc hcc))

/-- The component type of an array class is a Class object, wherever it is. -/
theorem componentType (h : SameLayout b m ptrSize m' live R) (hc : R c' c)
    (hcc : IsClassObject b m c) (ha : Class.isArrayClass m c = true) :
    R (Class.componentType m' c') (Class.componentType m c) ∧
      IsClassObject b m (Class.componentType m c) :=
  ⟨h.reference hc 12 (h.heap.component_mem_fixedOffsets (h.live hc) hcc) (of_decide_eq_true ha),
    h.heap.component c (h.live hc) hcc ha⟩

theorem component_primitiveType_eq (h : SameLayout b m ptrSize m' live R) (hc : R c' c)
    (hcc : IsClassObject b m c) (ha : Class.isArrayClass m c = true) :
    Class.primitiveType m' (Class.componentType m' c') =
      Class.primitiveType m (Class.componentType m c) := by
  obtain ⟨hcomp, hcompClass⟩ := h.componentType hc hcc ha
  exact h.primitiveType_eq hcomp hcompClass

theorem isObjectArrayClass_eq (h : SameLayout b m ptrSize m' live R) (hc : R c' c)
    (hcc : IsClassObject b m c) :
    Class.isObjectArrayClass m' c' = Class.isObjectArrayClass m c := by
  rw [Class.isObjectArrayClass, Class.isObjectArrayClass, if_congr
    (not_congr (h.componentType_eq_zero hc hcc)) rfl rfl]
  split
  · next hne =>
    rw [Class.isPrimitive, Class.isPrimitive, Class.getPrimitiveType, Class.getPrimitiveType,
      h.component_primitiveType_eq hc hcc (decide_eq_true hne)]
  · rfl

theorem hasOverflowBitmap_iff (h : SameLayout b m ptrSize m' live R) (hc : R c' c)
    (hcc : IsClassObject b m c) :
    Class.HasOverflowBitmap m' c' ↔ Class.HasOverflowBitmap m c := by
  rw [Class.HasOverflowBitmap, Class.HasOverflowBitmap, h.referenceInstanceOffsets_eq hc hcc]

theorem bitmapNumWords_eq (h : SameLayout b m ptrSize m' live R) (hc : R c' c)
    (hcc : IsClassObject b m c) : Class.bitmapNumWords m' c' = Class.bitmapNumWords m c := by
  rw [Class.bitmapNumWords, Class.bitmapNumWords, h.referenceInstanceOffsets_eq hc hcc]
  simp only [h.hasOverflowBitmap_iff hc hcc]

/-- The bitmap is no reference. -/
theorem instanceOffsets_eq (h : SameLayout b m ptrSize m' live R) (hc : R c' c)
    (hcc : IsClassObject b m c) : Class.instanceOffsets m' c' = Class.instanceOffsets m c := by
  have hlive := h.live hc
  obtain ⟨hsize, hle⟩ := h.heap.objectSize_of_classObject hlive hcc
  rw [Class.instanceOffsets, Class.instanceOffsets, h.bitmapNumWords_eq hc hcc]
  refine congrArg _ (bitmap_congr fun i hi => ?_)
  rw [Class.bitmapWord, Class.bitmapWord, h.bitmapNumWords_eq hc hcc, h.classSize_eq hc hcc,
    h.referenceInstanceOffsets_eq hc hcc]
  simp only [h.hasOverflowBitmap_iff hc hcc]
  split
  · next hover =>
    obtain ⟨hbitmap, hstatics⟩ := h.heap.bitmap c hlive hcc hover
    have h120 : Class.size = 120 := rfl
    have hbase : ∀ x, x + Class.classSize m c - 4 * Class.bitmapNumWords m c + 4 * i =
        x + (Class.classSize m c - 4 * Class.bitmapNumWords m c + 4 * i) := by
      intro x
      omega
    rw [hbase, hbase]
    refine h.word_eq hc (by omega) (by omega) fun f hf => ?_
    rcases h.heap.of_mem_refOffsets hlive hcc hf with hf | hf
    · omega
    · have := hstatics f hf
      omega
  · rfl

/-! The static fields of a Class object. -/

theorem getStatus_eq (h : SameLayout b m ptrSize m' live R) (hc : R c' c)
    (hcc : IsClassObject b m c) : Class.getStatus b m' c' = Class.getStatus b m c := by
  have hend := h.end_lt hc
  have hend' := (h.heap.wellFormed c (h.live hc)).end_lt
  obtain ⟨hsize, hle⟩ := h.heap.objectSize_of_classObject (h.live hc) hcc
  have h120 : Class.size = 120 := rfl
  have haddr : ∀ x, x + objectSize b m c < b.usizeCard →
      getFieldAddress b x (asI32 112) = x + 112 := fun x hx =>
    getFieldSlot_eq (by decide) (by omega)
  have hstatus : Class.status b m' c' = Class.status b m c := by
    rw [Class.status, Class.status, haddr c' hend, haddr c hend']
    exact h.field_eq hc hcc (by decide)
  rw [Class.getStatus, Class.getStatus, hstatus]

theorem isResolved_eq (h : SameLayout b m ptrSize m' live R) (hc : R c' c)
    (hcc : IsClassObject b m c) : Class.isResolved b m' c' = Class.isResolved b m c := by
  rw [Class.isResolved, Class.isResolved, h.getStatus_eq hc hcc]

theorem shouldHaveEmbeddedVtable_eq (h : SameLayout b m ptrSize m' live R) (hc : R c' c)
    (hcc : IsClassObject b m c) :
    Class.shouldHaveEmbeddedVtable m' c' = Class.shouldHaveEmbeddedVtable m c := by
  simp only [Class.shouldHaveEmbeddedVtable, Class.isInstantiable, Class.isPrimitive,
    Class.isInterface, Class.isAbstract, h.getPrimitiveType_eq hc hcc, h.accessFlags_eq hc hcc,
    h.isArrayClass_eq hc hcc]

/-- The vtable length is read only when there is a vtable, and then it is before the fields. -/
theorem firstStaticOffset_eq (h : SameLayout b m ptrSize m' live R) (hc : R c' c)
    (hcc : IsClassObject b m c) (hres : Class.isResolved b m c = some true)
    (hnum : 0 < Class.numReferenceStaticFields m c) :
    Class.firstStaticOffset b m' c' ptrSize = Class.firstStaticOffset b m c ptrSize := by
  have hlive := h.live hc
  have hwf := h.heap.wellFormed c hlive
  obtain ⟨hsize, hle⟩ := h.heap.objectSize_of_classObject hlive hcc
  have hend := h.end_lt hc
  have hend' := hwf.end_lt
  have hstatics := (hwf.statics hcc hres hnum).2
  rw [Class.firstStaticOffset, h.shouldHaveEmbeddedVtable_eq hc hcc]
  by_cases he : Class.shouldHaveEmbeddedVtable m c = some true
  · have hfirst : Class.size + 4 ≤ Class.firstStaticOffset b m c ptrSize := by
      rw [Class.firstStaticOffset, if_pos he, Nat.add_assoc]
      have hpos : 0 < ptrSize := by
        rcases hwf.ptrSize_eq with hptr | hptr <;> omega
      exact (le_alignUp hpos).trans (Nat.le_add_right _ _)
    have h120 : Class.size = 120 := rfl
    have haddr : ∀ x, x + objectSize b m c < b.usizeCard →
        getFieldAddress b x (asI32 Class.size) = x + Class.size := fun x hx =>
      getFieldSlot_eq (by decide) (by omega)
    have hlength : Class.getEmbeddedVtableLength b m' c' =
        Class.getEmbeddedVtableLength b m c := by
      rw [Class.getEmbeddedVtableLength, Class.getEmbeddedVtableLength, haddr c' hend,
        haddr c hend']
      refine h.word_eq hc (by omega) (by omega) fun f hf => ?_
      rcases h.heap.of_mem_refOffsets hlive hcc hf with hf | hf
      · omega
      · rw [Class.staticOffsets, if_pos hres] at hf
        obtain ⟨i, -, rfl⟩ := List.mem_map.mp hf
        omega
    rw [Class.firstStaticOffset, hlength]
  · rw [Class.firstStaticOffset, if_neg he, if_neg he]

theorem staticOffsets_eq (h : SameLayout b m ptrSize m' live R) (hc : R c' c)
    (hcc : IsClassObject b m c) :
    Class.staticOffsets b m' c' ptrSize = Class.staticOffsets b m c ptrSize := by
  rw [Class.staticOffsets, Class.staticOffsets, h.isResolved_eq hc hcc,
    h.numReferenceStaticFields_eq hc hcc]
  split
  · next hres =>
    rcases Nat.eq_zero_or_pos (Class.numReferenceStaticFields m c) with hnum | hnum
    · rw [hnum]
      rfl
    · rw [h.firstStaticOffset_eq hc hcc hres hnum]
  · rfl

/-- **The class of a moved object is well formed.** -/
theorem class_wellFormed (h : SameLayout b m ptrSize m' live R) (hc : R c' c)
    (hcc : IsClassObject b m c) (hwf : Class.WellFormed b m c) : Class.WellFormed b m' c' := by
  have hend := h.end_lt hc
  obtain ⟨hobj, hle⟩ := h.heap.objectSize_of_classObject (h.live hc) hcc
  have hflags := h.classFlags_eq hc hcc
  have hsize := h.classSize_eq hc hcc
  constructor
  · exact hsize ▸ hle
  · rw [hsize, ← hobj]
    exact hend
  · exact hflags ▸ hwf.dispatched
  · rw [hflags, h.isClassClass_eq hc]
    exact hwf.flag_class
  · rw [hflags, h.isObjectArrayClass_eq hc hcc]
    exact hwf.flag_objectArray
  · rw [hflags, h.isArrayClass_eq hc hcc, h.isObjectArrayClass_eq hc hcc]
    exact hwf.flag_primitiveArray
  · rw [hflags, h.instanceOffsets_eq hc hcc, h.isObjectArrayClass_eq hc hcc]
    exact hwf.flag_noReferenceFields
  · rw [h.isObjectArrayClass_eq hc hcc, h.instanceOffsets_eq hc hcc]
    exact hwf.objectArray_bitmap
  · rw [h.hasOverflowBitmap_iff hc hcc, h.bitmapNumWords_eq hc hcc, hsize]
    exact hwf.bitmap_le
  · rw [h.bitmapNumWords_eq hc hcc]
    exact hwf.bitmap_lt
  · rw [h.isArrayClass_eq hc hcc]
    intro ha
    rw [Class.getPrimitiveType, Class.getPrimitiveTypeSizeShift,
      h.component_primitiveType_eq hc hcc ha]
    exact hwf.component ha

/-! ### Objects -/

/-- The word after the header of an array or a string is no reference. -/
theorem body_eq (h : SameLayout b m ptrSize m' live R) (ho : R a o)
    (hk : Class.isArrayClass m (Object.getClass b m o) = true ∨
      Class.isStringClass m (Object.getClass b m o) = true) :
    m'.load32 (a + 8) = m.load32 (o + 8) := by
  have hlive := h.live ho
  have hwf := h.heap.wellFormed o hlive
  have hbody := hwf.body_le hk
  refine h.word_eq ho le_rfl hbody fun f hf => .inl ?_
  by_cases ha : Class.isObjectArrayClass m (Object.getClass b m o) = some true
  · rw [hwf.refOffsets_of_objectArray ha] at hf
    obtain ⟨i, -, rfl⟩ := List.mem_map.mp hf
    exact Nat.le_add_right _ _
  · -- a class without reference fields
    have hflag : Class.classFlags m (Object.getClass b m o) &&& Class.kClassFlagNoReferenceFields
        ≠ 0 := hk.elim (hwf.klass.flag_primitiveArray · ha) (h.heap.string o hlive)
    have hnone := (hwf.klass.flag_noReferenceFields hflag).1
    have hc : Class.isClassClass b m (Object.getClass b m o) ≠ true := fun hc =>
      absurd (hwf.klass.flag_class.mpr hc ▸ hflag) (by decide)
    rw [WellFormed.refOffsets_of_instance ha hc, hnone] at hf
    cases hf

theorem length_eq (h : SameLayout b m ptrSize m' live R) (ho : R a o)
    (ha : Class.isArrayClass m (Object.getClass b m o) = true) :
    Array.length b m' a = Array.length b m o := by
  rw [Array.length, Array.length, h.body_eq ho (.inl ha)]

theorem count_eq (h : SameLayout b m ptrSize m' live R) (ho : R a o)
    (hs : Class.isStringClass m (Object.getClass b m o) = true) :
    ArtString.count m' a = ArtString.count m o := by
  rw [ArtString.count, ArtString.count, h.body_eq ho (.inr hs)]

theorem objectSize_eq (h : SameLayout b m ptrSize m' live R) (ho : R a o) :
    objectSize b m' a = objectSize b m o := by
  have hc := h.klass ho
  have hcc := (h.heap.klass o (h.live ho)).2
  rw [objectSize, objectSize, h.isArrayClass_eq hc hcc, h.isClassClass_eq hc,
    h.isStringClass_eq hc hcc]
  split
  · next ha =>
    rw [arraySize, arraySize, h.length_eq ho ha, Class.getPrimitiveTypeSizeShift,
      h.component_primitiveType_eq hc hcc ha]
    rfl
  split
  · next hcls => exact h.classSize_eq ho hcls
  split
  · next hs =>
    rw [stringSize, stringSize, ArtString.isCompressed, ArtString.isCompressed,
      ArtString.getLength, ArtString.getLength, h.body_eq ho (.inr hs), h.count_eq ho hs]
  · exact h.classObjectSize_eq hc hcc

theorem refOffsets_eq (h : SameLayout b m ptrSize m' live R) (ho : R a o) :
    refOffsets b m' ptrSize a = refOffsets b m ptrSize o := by
  have hc := h.klass ho
  have hcc := (h.heap.klass o (h.live ho)).2
  have hstatics : (if Class.isClassClass b m (Object.getClass b m o) = true then
      Class.staticOffsets b m' a ptrSize else []) =
      if Class.isClassClass b m (Object.getClass b m o) = true then
        Class.staticOffsets b m o ptrSize else [] := by
    split
    · next hcls => exact h.staticOffsets_eq ho hcls
    · rfl
  have helements : (if Class.isObjectArrayClass m (Object.getClass b m o) = some true then
      elementOffsets b m' a else []) =
      if Class.isObjectArrayClass m (Object.getClass b m o) = some true then
        elementOffsets b m o else [] := by
    split
    · next ha =>
      rw [elementOffsets, elementOffsets,
        h.length_eq ho (Class.isArrayClass_of_isObjectArrayClass ha)]
    · rfl
  rw [refOffsets, refOffsets, h.instanceOffsets_eq hc hcc, h.isClassClass_eq hc,
    h.isObjectArrayClass_eq hc hcc, hstatics, helements]

/-- **A moved object is well formed**, at any time of the collection. -/
theorem wellFormed (h : SameLayout b m ptrSize m' live R) (ho : R a o) :
    WellFormed b m' ptrSize a := by
  have hwf := h.heap.wellFormed o (h.live ho)
  have hc := h.klass ho
  have hcc := (h.heap.klass o (h.live ho)).2
  have hsize := h.objectSize_eq ho
  constructor
  · exact hwf.ptrSize_eq
  · exact h.aligned ho
  · exact h.ne_zero hc
  · exact h.class_wellFormed hc hcc hwf.klass
  · exact hsize ▸ hwf.header_le
  · exact hsize ▸ hwf.size_le
  · exact hsize ▸ h.end_lt ho
  · rw [h.isArrayClass_eq hc hcc]
    intro ha
    rw [h.body_eq ho (.inl ha)]
    exact hwf.length_nonneg ha
  · rw [h.isStringClass_eq hc hcc]
    intro hs
    rw [h.count_eq ho hs]
    exact hwf.count_nonneg hs
  · rw [h.instanceOffsets_eq hc hcc, h.isClassClass_eq hc, hsize]
    exact hwf.instance_le
  · rw [h.isClassClass_eq hc]
    intro hcls
    rw [h.classSize_eq ho hcls]
    exact hwf.mirror_le hcls
  · rw [h.isClassClass_eq hc]
    intro hcls
    rw [h.isResolved_eq ho hcls, h.numReferenceStaticFields_eq ho hcls,
      h.getPrimitiveType_eq ho hcls, h.classSize_eq ho hcls]
    intro hres hnum
    rw [h.firstStaticOffset_eq ho hcls hres hnum]
    exact hwf.statics hcls hres hnum

theorem isClassObject_iff (h : SameLayout b m ptrSize m' live R) (ho : R a o) :
    IsClassObject b m' a ↔ IsClassObject b m o := by
  rw [IsClassObject, IsClassObject, h.isClassClass_eq (h.klass ho)]

/-- **The objects are a heap again**, if their references lead to one another. -/
theorem liveHeap (h : SameLayout b m ptrSize m' live R)
    (href : ∀ {a o}, R a o → ∀ f ∈ refOffsets b m ptrSize o, m'.load32 (a + f) ≠ 0 →
      ∃ p, R (m'.load32 (a + f)) p) : LiveHeap b m' ptrSize (fun a => ∃ o, R a o) where
  ne_zero := fun _ ⟨_, ho⟩ => h.ne_zero ho
  wellFormed := fun _ ⟨_, ho⟩ => h.wellFormed ho
  klass := fun _ ⟨o, ho⟩ => ⟨⟨_, h.klass ho⟩,
    (h.isClassObject_iff (h.klass ho)).mpr (h.heap.klass o (h.live ho)).2⟩
  reference := fun _ ⟨_, ho⟩ f hf hne => href ho f (h.refOffsets_eq ho ▸ hf) hne
  string := by
    rintro a ⟨o, ho⟩
    have hcc := (h.heap.klass o (h.live ho)).2
    rw [h.isStringClass_eq (h.klass ho) hcc, h.classFlags_eq (h.klass ho) hcc]
    exact h.heap.string o (h.live ho)
  mirror := by
    rintro c' ⟨c, hc⟩
    rw [h.isClassClass_eq hc]
    intro hself
    rw [h.instanceOffsets_eq hc (isClassObject_of_isClassClass hself)]
    exact h.heap.mirror c (h.live hc) hself
  component := by
    rintro c' ⟨c, hc⟩ hcc ha
    replace hcc := (h.isClassObject_iff hc).mp hcc
    rw [h.isArrayClass_eq hc hcc] at ha
    obtain ⟨hcomp, hcompClass⟩ := h.componentType hc hcc ha
    exact (h.isClassObject_iff hcomp).mpr hcompClass
  bitmap := by
    rintro c' ⟨c, hc⟩ hcc
    replace hcc := (h.isClassObject_iff hc).mp hcc
    rw [h.hasOverflowBitmap_iff hc hcc, h.bitmapNumWords_eq hc hcc, h.classSize_eq hc hcc,
      h.staticOffsets_eq hc hcc]
    exact h.heap.bitmap c (h.live hc) hcc

end SameLayout

namespace Relocation

variable {R : Nat → Nat → Prop} {a : Nat}

/-- The slots move with the object: the same ones hold null. -/
theorem refSlots_eq (h : Relocation b m ptrSize m' live R) (ho : R a o) :
    refSlots b m' ptrSize a = (refSlots b m ptrSize o).map (fun s => s - o + a) := by
  rw [refSlots, refSlots, h.refOffsets_eq ho, List.map_cons, Nat.sub_self, Nat.zero_add,
    List.filter_map, List.filter_map, List.map_map]
  have hfilter : (refOffsets b m ptrSize o).filter ((m'.load32 · ≠ 0) ∘ (a + ·)) =
      (refOffsets b m ptrSize o).filter ((m.load32 · ≠ 0) ∘ (o + ·)) := by
    apply List.filter_congr
    intro f hf
    have hmem := List.mem_cons_of_mem 0 hf
    rw [Function.comp_apply, Function.comp_apply, decide_eq_decide]
    exact ⟨fun hne h0 => hne ((h.holds ho).null f hmem h0),
      fun hne => h.ne_zero ((h.holds ho).reference f hmem hne)⟩
  rw [hfilter]
  refine congrArg _ (List.map_congr_left fun f _ => ?_)
  rw [Function.comp_apply, Nat.add_sub_cancel_left, Nat.add_comm]

end Relocation
end MmtkArt
