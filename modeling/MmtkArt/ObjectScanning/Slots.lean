import MmtkArt.Layout
import MmtkArt.ObjectScanning.Exact

/-! # Scanning is exact

Each loop of `scan_object` visits the offsets that `Layout.lean` names, and the dispatch on the
flags chooses the loops that the class calls for. The loops are followed in exact arithmetic, and
the code reports what exact arithmetic does. -/

namespace MmtkArt

/-! ### Visits -/

namespace Visit

@[simp] theorem slots_nil : slots [] = [] := rfl

@[simp] theorem slots_slot (s : Nat) (visits : List Visit) :
    slots (.slot s :: visits) = s :: slots visits := rfl

@[simp] theorem slots_append (visits visits' : List Visit) :
    slots (visits ++ visits') = slots visits ++ slots visits' := List.filterMap_append

/-- An upcall gives no slot to the visitor. -/
theorem slots_append_upcall {visits upcalls : List Visit} (h : slots upcalls = []) :
    slots (visits ++ upcalls) = slots visits := by
  rw [slots_append, h, List.append_nil]

end Visit

variable {b : Build} {m : Memory} {o : Nat}

/-- The visits of the slots at the offsets of an object. -/
def visitOffsets (m : Memory) (o : Nat) (offsets : List Nat) : List Visit :=
  offsets.flatMap fun f => visitSlot m (o + f)

theorem slots_visitOffsets (offsets : List Nat) :
    Visit.slots (visitOffsets m o offsets) =
      (offsets.map (o + ·)).filter (m.load32 · ≠ 0) := by
  induction offsets with
  | nil => rfl
  | cons f offsets ih =>
    rw [visitOffsets, List.flatMap_cons, Visit.slots_append, List.map_cons, List.filter_cons]
    rw [visitOffsets] at ih
    rw [ih, visitSlot]
    by_cases hf : m.load32 (o + f) = 0 <;> simp [hf]

theorem visitOffsets_append (l l' : List Nat) :
    visitOffsets m o (l ++ l') = visitOffsets m o l ++ visitOffsets m o l' :=
  List.flatMap_append

/-- A loop whose passes all return. -/
theorem forRange_eq {α : Type} {n : Nat} {f : Nat → Option (List α)} {g : Nat → List α}
    (h : ∀ i, i < n → f i = some (g i)) :
    forRange n f = some ((List.range n).flatMap g) := by
  have hmap : (List.range n).mapM f = some ((List.range n).map g) := by
    induction n with
    | zero => rfl
    | succ n ih =>
      rw [List.range_succ, List.mapM_append, ih fun i hi => h i (Nat.lt_succ_of_lt hi),
        List.mapM_cons, h n n.lt_succ_self, List.mapM_nil, List.map_append]
      rfl
  rw [forRange, hmap]
  rfl

/-! ### The loops -/

/-- One word. The induction is on the bits that can be left in it. -/
theorem Exact.visitOneWord_eq {k w off : Nat} (hw : w < 2 ^ k) (hoff : off + 4 * k < 2 ^ 32)
    (hslot : ∀ i ∈ setBits k w, getFieldSlot b o (off + 4 * i) = some (o + (off + 4 * i))) :
    visitOneWord b m o off w =
      some (visitOffsets m o ((setBits k w).map (off + 4 * ·))) := by
  induction k generalizing off w with
  | zero =>
    rw [visitOneWord, if_neg (by omega)]
    rfl
  | succ k ih =>
    rw [visitOneWord]
    by_cases hw0 : w = 0
    · rw [if_neg (by omega), hw0, setBits_zero_right]
      rfl
    · have hshift : w >>> 1 < 2 ^ k := by
        rw [Nat.shiftRight_one]
        omega
      have hadd : FixedWidth.add true (2 ^ 32) off ART_HEAP_REFERENCE_SIZE = some (off + 4) :=
        FixedWidth.add_of_lt (show off + 4 < 2 ^ 32 by omega)
      have hoffset : ∀ i, off + 4 + 4 * i = off + 4 * (i + 1) := fun i => by omega
      have hslot' : ∀ i ∈ setBits k (w >>> 1),
          getFieldSlot b o (off + 4 + 4 * i) = some (o + (off + 4 + 4 * i)) := by
        intro i hi
        rw [hoffset]
        apply hslot (i + 1)
        rw [setBits_succ]
        exact List.mem_append_right _ (List.mem_map_of_mem hi)
      have hrest := ih hshift (by omega) hslot'
      have hhere : (if w &&& 0b1 ≠ 0 then (getFieldSlot b o off).map (visitSlot m) else some []) =
          some (visitOffsets m o ((if w &&& 1 ≠ 0 then [0] else []).map (off + 4 * ·))) := by
        by_cases hbit : w &&& 1 ≠ 0
        · have hmem : 0 ∈ setBits (k + 1) w := by
            rw [setBits_succ, if_pos hbit]
            exact List.mem_append_left _ (List.mem_singleton_self 0)
          have h0 : getFieldSlot b o off = some (o + off) := hslot 0 hmem
          rw [if_pos hbit, if_pos hbit, visitOffsets, List.map_singleton, List.flatMap_singleton,
            h0]
          rfl
        · rw [if_neg hbit, if_neg hbit]
          rfl
      rw [if_pos hw0, hhere, Option.bind_eq_bind, Option.bind_some, hadd, Option.bind_eq_bind,
        Option.bind_some, hrest, Option.bind_some, setBits_succ, List.map_append,
        visitOffsets_append, List.map_map]
      simp only [Function.comp_def, hoffset]
      rfl

section
variable {c : Nat}

theorem Class.bitmapWord_lt {i : Nat} : bitmapWord m c i < 2 ^ 32 := by
  unfold bitmapWord
  split <;> exact Memory.load32_lt

/-- The marked offsets, word by word. -/
theorem Class.instanceOffsets_eq_flatMap : instanceOffsets m c =
    (List.range (bitmapNumWords m c)).flatMap fun i =>
      (setBits 32 (bitmapWord m c i)).map (OBJECT_HEADER_SIZE + i * 4 * 32 + 4 * ·) := by
  rw [instanceOffsets, bitmap_eq_flatMap, List.map_flatMap]
  refine congrArg (fun g => List.flatMap g _) (funext fun i => ?_)
  rw [List.map_map]
  apply List.map_congr_left
  intro j _
  change OBJECT_HEADER_SIZE + 4 * (32 * i + j) = OBJECT_HEADER_SIZE + i * 4 * 32 + 4 * j
  omega

theorem visitOffsets_instanceOffsets : visitOffsets m o (Class.instanceOffsets m c) =
    (List.range (Class.bitmapNumWords m c)).flatMap fun i =>
      visitOffsets m o ((setBits 32 (Class.bitmapWord m c i)).map
        (OBJECT_HEADER_SIZE + i * 4 * 32 + 4 * ·)) := by
  rw [Class.instanceOffsets_eq_flatMap, visitOffsets, List.flatMap_assoc]
  rfl

/-- A word of the bitmap, where its offsets are `u32`s. -/
theorem Exact.visitBitmapWord_eq {i : Nat} (hi : i < Class.bitmapNumWords m c)
    (hoff : OBJECT_HEADER_SIZE + i * 4 * 32 + 4 * 32 < 2 ^ 32)
    (hslot : ∀ f ∈ Class.instanceOffsets m c, getFieldSlot b o f = some (o + f)) :
    visitOneWord b m o (OBJECT_HEADER_SIZE + i * 4 * 32) (Class.bitmapWord m c i) =
      some (visitOffsets m o ((setBits 32 (Class.bitmapWord m c i)).map
        (OBJECT_HEADER_SIZE + i * 4 * 32 + 4 * ·))) := by
  apply visitOneWord_eq Class.bitmapWord_lt hoff
  intro j hj
  apply hslot
  rw [Class.instanceOffsets_eq_flatMap]
  exact List.mem_flatMap.mpr ⟨i, List.mem_range.mpr hi, List.mem_map_of_mem hj⟩

theorem Exact.visitInstanceFieldsReferences_eq
    (hend : Class.HasOverflowBitmap m c → c + Class.classSize m c < b.usizeCard)
    (hle : Class.HasOverflowBitmap m c → 4 * Class.bitmapNumWords m c ≤ Class.classSize m c)
    (hlt : OBJECT_HEADER_SIZE + 128 * Class.bitmapNumWords m c < 2 ^ 32)
    (hslot : ∀ f ∈ Class.instanceOffsets m c, getFieldSlot b o f = some (o + f)) :
    Object.visitInstanceFieldsReferences b m o c =
      some (visitOffsets m o (Class.instanceOffsets m c)) := by
  have h8 : OBJECT_HEADER_SIZE = 8 := rfl
  have h4 : ART_HEAP_REFERENCE_SIZE = 4 := rfl
  have h32 := b.two_pow_32_le_usizeCard
  have hpass := fun i hi => visitBitmapWord_eq (b := b) (o := o) (i := i) hi (by omega) hslot
  rw [Object.visitInstanceFieldsReferences, visitOffsets_instanceOffsets]
  by_cases hover : Class.referenceInstanceOffsets m c &&& Class.kVisitReferencesSlowpathMask ≠ 0
  · have hnum : Class.referenceInstanceOffsets m c &&&
        (2 ^ 32 - 1 - Class.kVisitReferencesSlowpathMask) = Class.bitmapNumWords m c :=
      (if_pos hover).symm
    have hend := hend hover
    have hle := hle hover
    have hsize : Class.classSize m c < 2 ^ 32 := Memory.load32_lt
    have hword : ∀ i, Class.bitmapWord m c i = m.load32
        (c + Class.classSize m c - Class.bitmapNumWords m c * 4 + 4 * i) := by
      intro i
      rw [Nat.mul_comm _ 4]
      exact if_pos hover
    rw [if_pos hover, hnum, h4]
    dsimp only
    generalize Class.bitmapNumWords m c = n at *
    rw [FixedWidth.add_of_lt hend, Option.bind_eq_bind, Option.bind_some,
      FixedWidth.mul_of_lt (by omega), Option.bind_some, FixedWidth.sub_of_le (by omega),
      Option.bind_some]
    apply forRange_eq
    intro i hi
    rw [FixedWidth.mul_of_lt (by omega), Option.bind_some, FixedWidth.mul_of_lt (by omega),
      Option.bind_some, FixedWidth.add_of_lt (by omega), Option.bind_some,
      FixedWidth.mul_of_lt (by omega), Option.bind_some, FixedWidth.add_of_lt (by omega),
      Option.bind_some, ← hword]
    exact hpass i hi
  · have hnum : Class.bitmapNumWords m c = 1 := if_neg hover
    have hword : Class.bitmapWord m c 0 = Class.referenceInstanceOffsets m c := if_neg hover
    rw [if_neg hover, hnum, List.range_one, List.flatMap_singleton, ← hword]
    exact hpass 0 (by omega)

end

theorem Exact.visitStaticFields_eq {n off : Nat} (hend : off + 4 * n < b.usizeCard)
    (hslot : ∀ i, i < n → getFieldSlot b o (off + 4 * i) = some (o + (off + 4 * i))) :
    Class.visitStaticFields b m o n off =
      some (visitOffsets m o ((List.range n).map (off + 4 * ·))) := by
  induction n generalizing off with
  | zero => rfl
  | succ n ih =>
    have hadd : FixedWidth.add true b.usizeCard off ART_HEAP_REFERENCE_SIZE = some (off + 4) :=
      FixedWidth.add_of_lt (show off + 4 < b.usizeCard by omega)
    have hoffset : ∀ i, off + 4 + 4 * i = off + 4 * (i + 1) := fun i => by omega
    have hslot' : ∀ i, i < n →
        getFieldSlot b o (off + 4 + 4 * i) = some (o + (off + 4 + 4 * i)) := by
      intro i hi
      rw [hoffset]
      exact hslot (i + 1) (Nat.succ_lt_succ hi)
    have hrest := ih (by omega) hslot'
    have h0 : getFieldSlot b o off = some (o + off) := hslot 0 n.succ_pos
    have hhere : visitSlot m (o + off) = visitOffsets m o [off] := by
      rw [visitOffsets, List.flatMap_singleton]
    rw [Class.visitStaticFields, h0, Option.bind_eq_bind, Option.bind_some, hadd,
      Option.bind_eq_bind, Option.bind_some, hrest, Option.bind_some, hhere, List.range_succ_eq_map,
      List.map_cons, List.map_map]
    simp only [Function.comp_def, hoffset]
    exact congrArg some (visitOffsets_append [off] _).symm

section
variable [MmtkCore b] {c ptrSize : Nat}

theorem embeddedVtableEnd_eq {n : Nat} (hptr : ptrSize = 4 ∨ ptrSize = 8)
    (hend : alignUp ptrSize (Class.size + 4) + ptrSize + n * ptrSize < b.usizeCard) :
    Class.embeddedVtableEnd b n ptrSize =
      some (alignUp ptrSize (Class.size + 4) + ptrSize + n * ptrSize) := by
  have h120 : Class.size = 120 := rfl
  have h32 := b.two_pow_32_le_usizeCard
  have hup : MmtkCore.rawAlignUp b (Class.size + 4) ptrSize = alignUp ptrSize (Class.size + 4) := by
    rcases hptr with rfl | rfl
    · exact MmtkCore.rawAlignUp_eq (k := 2) (by omega)
    · exact MmtkCore.rawAlignUp_eq (k := 3) (by omega)
  rw [Class.embeddedVtableEnd, FixedWidth.add_of_lt (by omega), Option.bind_eq_bind,
    Option.bind_some, hup, FixedWidth.add_of_lt (by omega), Option.bind_some,
    FixedWidth.mul_of_lt (by omega), Option.bind_some, FixedWidth.add_of_lt hend]

/-- The start of the static fields: the size of a class that has none of what follows. -/
theorem computeClassSize_vtable {n : Nat} (hptr : ptrSize = 4 ∨ ptrSize = 8)
    (hend : alignUp ptrSize (Class.size + 4) + ptrSize + n * ptrSize < b.usizeCard) :
    Class.computeClassSize b true n 0 0 0 0 0 0 ptrSize =
      some (alignUp ptrSize (Class.size + 4) + ptrSize + n * ptrSize) := by
  have hzero : ∀ k, FixedWidth.mul b.overflowChecks b.usizeCard 0 k = some 0 := fun k => by
    rw [FixedWidth.mul_of_lt (by rw [Nat.zero_mul]; exact b.usizeCard_pos), Nat.zero_mul]
  have hadd : ∀ x, x < b.usizeCard →
      FixedWidth.add b.overflowChecks b.usizeCard x 0 = some x := fun x hx =>
    FixedWidth.add_of_lt hx
  have hpad : ∀ x, Class.padStaticFields b x 0 0 0 0 = some (x, 0, 0, 0) := fun x => by
    rw [Class.padStaticFields, if_neg (by simp)]
  have hfields : Class.primitiveStaticFieldsSize b 0 0 0 0 = some 0 := by
    simp only [Class.primitiveStaticFieldsSize, hzero, hadd 0 b.usizeCard_pos, Option.bind_eq_bind,
      Option.bind_some]
  have hvtable := embeddedVtableEnd_eq hptr hend
  generalize alignUp ptrSize (Class.size + 4) + ptrSize + n * ptrSize = size at *
  simp only [Class.computeClassSize, hvtable, hzero, hadd size hend, hpad, hfields, if_true,
    Option.bind_eq_bind, Option.bind_some, gt_iff_lt, Nat.lt_irrefl, if_false]

omit [MmtkCore b] in
theorem shouldHaveEmbeddedVtable_eq_some (htype : Class.getPrimitiveType m c ≠ none) :
    ∃ embedded, Class.shouldHaveEmbeddedVtable m c = some embedded := by
  obtain ⟨type, htype⟩ := Option.ne_none_iff_exists'.mp htype
  rw [Class.shouldHaveEmbeddedVtable, Class.isInstantiable, Class.isPrimitive, htype]
  exact ⟨_, rfl⟩

theorem getFirstReferenceStaticFieldsOffset_eq (hptr : ptrSize = 4 ∨ ptrSize = 8)
    (htype : Class.getPrimitiveType m c ≠ none)
    (hend : Class.firstStaticOffset b m c ptrSize < b.usizeCard) :
    Class.getFirstReferenceStaticFieldsOffset b m c ptrSize =
      some (Class.firstStaticOffset b m c ptrSize) := by
  obtain ⟨embedded, he⟩ := shouldHaveEmbeddedVtable_eq_some htype
  rw [Class.getFirstReferenceStaticFieldsOffset, he, Option.bind_eq_bind, Option.bind_some]
  rw [Class.firstStaticOffset, he] at hend ⊢
  cases embedded with
  | true => exact computeClassSize_vtable hptr hend
  | false => rfl

theorem Exact.getFirstReferenceStaticFieldsOffset_eq (hptr : ptrSize = 4 ∨ ptrSize = 8)
    (htype : Class.getPrimitiveType m c ≠ none) (hc : c + Class.size < b.usizeCard)
    (hend : Class.firstStaticOffset b m c ptrSize < b.usizeCard) :
    Class.getFirstReferenceStaticFieldsOffset b m c ptrSize =
      some (Class.firstStaticOffset b m c ptrSize) := by
  obtain ⟨embedded, he⟩ := shouldHaveEmbeddedVtable_eq_some htype
  have haddress : getFieldAddress b c Class.size = some (c + Class.size) :=
    getFieldSlot_of_lt (by decide) hc
  have hlength : m.load32 (c + Class.size) = Class.getEmbeddedVtableLength b m c := by
    rw [Class.getEmbeddedVtableLength, getFieldAddress_eq haddress]
  rw [Class.getFirstReferenceStaticFieldsOffset, he, Option.bind_eq_bind, Option.bind_some]
  rw [Class.firstStaticOffset, he] at hend ⊢
  cases embedded with
  | true =>
    rw [if_pos rfl, haddress, Option.bind_eq_bind, Option.bind_some, hlength]
    exact computeClassSize_vtable (b := b.checked) hptr hend
  | false => rfl

omit [MmtkCore b] in
theorem isResolved_eq_some (m : Memory) (c : Nat) : ∃ r, Class.isResolved b m c = some r := by
  have hlt : Class.status b m c >>> (32 - 4) < 16 := by
    have : Class.status b m c < 2 ^ 32 := Memory.load32_lt
    rw [Nat.shiftRight_eq_div_pow]
    omega
  obtain ⟨status, hstatus⟩ :=
    Option.isSome_iff_exists.mp (ClassStatus.fromU32_isSome ⟨_, hlt⟩)
  rw [Class.isResolved, Class.getStatus, hstatus]
  exact ⟨_, rfl⟩

omit [MmtkCore b] in
theorem Exact.isResolved_eq (hc : c + Class.size < b.usizeCard) :
    Class.isResolved b m c = MmtkArt.Class.isResolved b m c := by
  have haddress : getFieldAddress b c 112 = some (c + 112) :=
    getFieldSlot_of_lt (by decide) (by unfold Class.size at hc; omega)
  rw [Class.isResolved, haddress, MmtkArt.Class.isResolved, Class.getStatus, Class.status,
    getFieldAddress_eq haddress, Option.bind_eq_bind, Option.bind_some]

/-! ### The dispatch -/

namespace WellFormed

omit [MmtkCore b] in
/-- The slot of an offset inside the object. -/
theorem exact_getFieldSlot (h : WellFormed b m ptrSize o) {f : Nat}
    (hf : f + 4 ≤ objectSize b m o) : Exact.getFieldSlot b o f = some (o + f) := by
  have := h.size_le
  have := h.end_lt
  exact Exact.getFieldSlot_of_lt (by omega) (by omega)

omit [MmtkCore b] in
/-- The fields that a bitmap marks, in a well-formed object. -/
theorem visitInstanceFieldsReferences_eq (h : WellFormed b m ptrSize o) :
    Exact.Object.visitInstanceFieldsReferences b m o (Object.getClass b m o) =
      some (visitOffsets m o (Class.instanceOffsets m (Object.getClass b m o))) := by
  refine Exact.visitInstanceFieldsReferences_eq (fun _ => h.klass.end_lt) h.klass.bitmap_le
    h.klass.bitmap_lt fun f hf => h.exact_getFieldSlot ?_
  exact (h.of_mem_refOffsets (List.mem_append_left _ (List.mem_append_left _ hf))).2.2

/-- A Class object shows its static fields once it is resolved. -/
theorem visitReferences_eq (h : WellFormed b m ptrSize o)
    (hc : Class.isClassClass b m (Object.getClass b m o) = true) (kVisitNativeRoots : Bool) :
    Exact.Class.visitReferences b m ptrSize kVisitNativeRoots o =
      some (visitOffsets m o (Class.staticOffsets b m o ptrSize) ++
        if kVisitNativeRoots then [.scanNativeRoots o .cls] else []) := by
  have hobj := h.objectSize_of_class hc
  have hlt := h.end_lt
  have hle := h.size_le
  have hmirror := h.mirror_le hc
  obtain ⟨resolved, hres⟩ := isResolved_eq_some (b := b) m o
  rw [Exact.Class.visitReferences, Exact.isResolved_eq (by omega), hres, Option.bind_eq_bind,
    Option.bind_some]
  cases resolved with
  | false => rw [Class.staticOffsets, hres]; rfl
  | true =>
    have hstatic : Exact.Class.visitStaticFieldsReferences b m ptrSize o =
        some (visitOffsets m o (Class.staticOffsets b m o ptrSize)) := by
      rw [Exact.Class.visitStaticFieldsReferences, Class.staticOffsets, if_pos hres]
      by_cases hnum : Class.numReferenceStaticFields m o > 0
      · obtain ⟨htype, hend⟩ := h.statics hc hres hnum
        rw [if_pos hnum, Exact.getFirstReferenceStaticFieldsOffset_eq h.ptrSize_eq htype (by omega)
          (by omega), Option.bind_eq_bind, Option.bind_some]
        exact Exact.visitStaticFields_eq (by omega) fun i hi => h.exact_getFieldSlot (by omega)
      · rw [if_neg hnum, Nat.eq_zero_of_not_pos hnum]
        rfl
    rw [if_pos rfl, hstatic]
    rfl

/-- The elements of an object array. -/
theorem visitElements_eq (h : WellFormed b m ptrSize o)
    (ha : Class.isObjectArrayClass m (Object.getClass b m o) = some true) :
    Exact.ObjectArray.visitReferences b m o = some (visitOffsets m o (elementOffsets b m o)) := by
  have hsize := h.objectSize_of_objectArray ha
  have hle := h.size_le
  have hlt := h.end_lt
  have h32 := b.two_pow_32_le_usizeCard
  have h12 : Array.firstElementOffset = 12 := rfl
  have hcard : b.checked.usizeCard = b.usizeCard := rfl
  have harray := Class.isArrayClass_of_isObjectArrayClass ha
  have hword := (asI32_nonneg_iff Memory.load32_lt).mp (h.length_nonneg harray)
  have hlength : Exact.Array.length b m o = some (Array.length b m o) := by
    rw [Exact.Array.length, h.length_eq harray, asI32_of_lt hword]
    exact Exact.toUsize_natCast (by omega)
  have hdata : Array.dataOffset b.checked ART_HEAP_REFERENCE_SIZE = Array.firstElementOffset :=
    MmtkCore.rawAlignUp_eq (b := b.checked) (k := 2) (by omega)
  rw [Exact.ObjectArray.visitReferences, hlength, Option.bind_eq_bind, Option.bind_some,
    elementOffsets, visitOffsets, List.flatMap_map]
  apply forRange_eq
  intro i hi
  have hoffset : ObjectArray.offsetOfElement b.checked i =
      some (Array.firstElementOffset + 4 * i) := by
    have hmul : FixedWidth.mul b.checked.overflowChecks b.checked.usizeCard i
        ART_HEAP_REFERENCE_SIZE = some (4 * i) := by
      rw [Nat.mul_comm 4]
      exact FixedWidth.mul_of_lt (show i * 4 < b.checked.usizeCard by omega)
    rw [ObjectArray.offsetOfElement, hdata, hmul, Option.bind_eq_bind, Option.bind_some,
      FixedWidth.add_of_lt (by omega)]
  rw [hoffset, Option.bind_some, h.exact_getFieldSlot (by omega)]
  rfl

/-- **The dispatch finds every reference and nothing else.** -/
theorem scanFields_eq (h : WellFormed b m ptrSize o) (kVisitNativeRoots : Bool) :
    ∃ visits,
      Exact.scanFields b m ptrSize kVisitNativeRoots o (Object.getClass b m o) = some visits ∧
      Visit.slots visits = Visit.slots (visitOffsets m o (refOffsets b m ptrSize o)) := by
  have hk := h.klass
  have hfields := h.visitInstanceFieldsReferences_eq
  -- neither java.lang.Class nor an object array
  have hinst : Class.classFlags m (Object.getClass b m o) &&& Class.kClassFlagObjectArray = 0 →
      Class.classFlags m (Object.getClass b m o) ≠ Class.kClassFlagClass →
      refOffsets b m ptrSize o = Class.instanceOffsets m (Object.getClass b m o) := fun h8 h16 =>
    WellFormed.refOffsets_of_instance (fun ha => hk.flag_objectArray.mpr ha h8)
      (fun hc => h16 (hk.flag_class.mpr hc))
  have hnative : ∀ type, Visit.slots
      (if kVisitNativeRoots then [.scanNativeRoots o type] else []) = [] := fun type => by
    cases kVisitNativeRoots <;> rfl
  rw [Exact.scanFields]
  by_cases hnormal : Class.classFlags m (Object.getClass b m o) = Class.kClassFlagNormal ∨
      Class.classFlags m (Object.getClass b m o) = Class.kClassFlagRecord
  · rw [if_pos hnormal]
    refine ⟨_, hfields, ?_⟩
    rw [hinst]
    · rcases hnormal with hflags | hflags <;> rw [hflags] <;> rfl
    · rcases hnormal with hflags | hflags <;> rw [hflags] <;> decide
  rw [if_neg hnormal]
  by_cases hnone : Class.classFlags m (Object.getClass b m o) &&&
      Class.kClassFlagNoReferenceFields ≠ 0
  · obtain ⟨hempty, hobj⟩ := hk.flag_noReferenceFields hnone
    rw [if_pos hnone]
    refine ⟨_, rfl, ?_⟩
    rw [hinst, hempty]
    · rfl
    · exact not_not.mp (mt hk.flag_objectArray.mp hobj)
    · intro h16
      rw [h16] at hnone
      exact absurd hnone (by decide)
  rw [if_neg hnone]
  by_cases h16 : Class.classFlags m (Object.getClass b m o) = Class.kClassFlagClass
  · have hc := hk.flag_class.mp h16
    rw [if_pos h16, hfields, h.visitReferences_eq hc, Option.bind_eq_bind, Option.bind_some,
      Option.bind_some]
    refine ⟨_, rfl, ?_⟩
    rw [h.refOffsets_of_class hc, visitOffsets_append, ← List.append_assoc,
      Visit.slots_append_upcall (hnative _)]
  rw [if_neg h16]
  by_cases h8 : Class.classFlags m (Object.getClass b m o) &&& Class.kClassFlagObjectArray ≠ 0
  · have ha := hk.flag_objectArray.mp h8
    rw [if_pos h8]
    exact ⟨_, h.visitElements_eq ha, by rw [h.refOffsets_of_objectArray ha]⟩
  rw [if_neg h8, hfields, hinst (not_not.mp h8) h16]
  split
  · exact ⟨_, rfl, Visit.slots_append_upcall rfl⟩
  next href =>
  split
  · exact ⟨_, rfl, Visit.slots_append_upcall (hnative _)⟩
  next hdexCache =>
  split
  · exact ⟨_, rfl, Visit.slots_append_upcall (hnative _)⟩
  · next hloader =>
    -- no other flags are dispatched on
    rcases hk.dispatched with hf | hf | hf | hf | hf | hf | hf | hf
    · exact absurd (.inl hf) hnormal
    · exact absurd (.inr hf) hnormal
    · exact absurd hf hnone
    · exact absurd hf h16
    · exact absurd hf h8
    · exact absurd hf href
    · exact absurd hf hdexCache
    · exact absurd hf hloader

theorem exact_scanObject (h : WellFormed b m ptrSize o) (kVisitNativeRoots : Bool) :
    ∃ visits, Exact.scanObject b m ptrSize kVisitNativeRoots o = some visits ∧
      Visit.slots visits = refSlots b m ptrSize o := by
  obtain ⟨visits, hscan, hslots⟩ := h.scanFields_eq kVisitNativeRoots
  have hheader := h.header_le
  have hslot : Exact.Object.klassSlot b o = some o := h.exact_getFieldSlot (f := 0) (by
    unfold OBJECT_HEADER_SIZE at hheader
    omega)
  have hclass : Exact.Object.getClass b m o = some (Object.getClass b m o) := by
    rw [Exact.Object.getClass, hslot, h.getClass_eq]
    rfl
  rw [Exact.scanObject, hclass, Option.bind_eq_bind, Option.bind_some,
    ArtHeapReference.deref_of_ne h.klass_ne, Option.bind_some, hslot, Option.bind_some, hscan]
  refine ⟨_, rfl, ?_⟩
  rw [Visit.slots_slot, hslots, slots_visitOffsets, refSlots]

theorem scanObject_eq (h : WellFormed b m ptrSize o) (kVisitNativeRoots : Bool) :
    ∃ visits, scanObject b m ptrSize kVisitNativeRoots o = some visits ∧
      Visit.slots visits = refSlots b m ptrSize o := by
  obtain ⟨visits, hscan, hslots⟩ := h.exact_scanObject kVisitNativeRoots
  exact ⟨visits, Exact.scanObject_refines _ hscan, hslots⟩

end WellFormed
end

theorem WellFormed.refSlots_nodup {ptrSize : Nat} (h : WellFormed b m ptrSize o) :
    (refSlots b m ptrSize o).Nodup := by
  refine List.nodup_cons.mpr ⟨fun ho => ?_, ?_⟩
  · obtain ⟨f, hf, heq⟩ := List.mem_map.mp (List.mem_of_mem_filter ho)
    have := (h.of_mem_refOffsets hf).1
    omega
  · refine List.Nodup.filter _ (h.refOffsets_nodup.map fun f g hfg => ?_)
    exact Nat.add_left_cancel hfg

theorem WellFormed.of_mem_refSlots {ptrSize s : Nat} (h : WellFormed b m ptrSize o)
    (hs : s ∈ refSlots b m ptrSize o) :
    4 ∣ s ∧ o ≤ s ∧ s + 4 ≤ o + objectSize b m o ∧ s ≠ o + 4 := by
  have hdvd := h.aligned
  have hheader := h.header_le
  have h8 : OBJECT_HEADER_SIZE = 8 := rfl
  rcases List.mem_cons.mp hs with rfl | hs
  · exact ⟨by omega, by omega, by omega, by omega⟩
  · obtain ⟨f, hf, rfl⟩ := List.mem_map.mp (List.mem_of_mem_filter hs)
    obtain ⟨hle, hdvd, hend⟩ := h.of_mem_refOffsets hf
    exact ⟨by omega, by omega, by omega, by omega⟩

/-- **Exact object scanning.** Upcalls aside, the visitor is given the klass slot and every
reference of the object that is not null, each once; they are aligned words inside the object, and
none is the monitor. -/
theorem scanObject_exact [MmtkCore b] {ptrSize : Nat} (h : WellFormed b m ptrSize o)
    (kVisitNativeRoots : Bool) :
    ∃ visits size, scanObject b m ptrSize kVisitNativeRoots o = some visits ∧
      getObjectSize b m o = some size ∧
      Visit.slots visits = refSlots b m ptrSize o ∧ (Visit.slots visits).Nodup ∧
      ∀ s ∈ Visit.slots visits, 4 ∣ s ∧ o ≤ s ∧ s < o + size ∧ s ≠ o + 4 := by
  obtain ⟨visits, hscan, hslots⟩ := h.scanObject_eq kVisitNativeRoots
  refine ⟨visits, _, hscan, h.getObjectSize_eq, hslots, hslots ▸ h.refSlots_nodup, ?_⟩
  intro s hs
  obtain ⟨hdvd, hle, hend, hne⟩ := h.of_mem_refSlots (hslots ▸ hs)
  exact ⟨hdvd, hle, by omega, hne⟩

/-- A resolved interface at 0x2000 with a class loader and one static reference; java.lang.Class is
at 0x4000. -/
def resolvedClass : Memory := .ofWords [
  (0x2000, 0x4000), (0x2008, 0x5000), (0x2040, 0x200), (0x2048, 124), (0x205c, 1),
  (0x2070, 0xf0000000), (0x2078, 0x6000),
  (0x4000, 0x4000), (0x4044, Class.kClassFlagClass), (0x4048, 120), (0x406c, 0b1)]

theorem resolvedClass_wellFormed : WellFormed .android64 resolvedClass 8 0x2000 where
  ptrSize_eq := .inr rfl
  aligned := by decide
  klass_ne := by decide +kernel
  klass :=
    { size_le := by decide +kernel
      end_lt := by decide +kernel
      dispatched := .inr (.inr (.inr (.inl (by decide +kernel))))
      flag_class := by decide +kernel
      flag_objectArray := by decide +kernel
      flag_primitiveArray := by decide +kernel
      flag_noReferenceFields := by decide +kernel
      objectArray_bitmap := by decide +kernel
      bitmap_le := by decide +kernel
      bitmap_lt := by decide +kernel
      component := fun h => absurd h (by decide +kernel) }
  header_le := by decide +kernel
  size_le := by decide +kernel
  end_lt := by decide +kernel
  length_nonneg := by decide +kernel
  count_nonneg := by decide +kernel
  instance_le := by decide +kernel
  mirror_le := by decide +kernel
  statics := by decide +kernel

/-- The klass slot, the class loader and the static field. -/
theorem scanObject_resolvedClass :
    letI := MmtkCore.documented .android64
    ∃ visits, scanObject .android64 resolvedClass 8 true 0x2000 = some visits ∧
      Visit.slots visits = [0x2000, 0x2008, 0x2078] := by
  let _ := MmtkCore.documented .android64
  obtain ⟨visits, -, hscan, -, hslots, -, -⟩ := scanObject_exact resolvedClass_wellFormed true
  exact ⟨visits, hscan, hslots.trans (by decide +kernel)⟩

/-! ### No operation overflows -/

/-- An instance at 0x2000 whose class, at 0x4000, ends with one bitmap word. -/
def overflowInstance : Memory := .ofWords [
  (0x2000, 0x4000), (0x2008, 0x5000), (0x2010, 0x6000),
  (0x4000, 0x7000), (0x4048, 124), (0x4060, 20), (0x406c, 0x80000001), (0x4078, 0b101)]

end MmtkArt
