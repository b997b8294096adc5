import MmtkArt.ObjectModel.Relocation

/-! # What mutators do to the heap

A mutator allocates an object, stores a reference or null in a field, and forgets objects. No layout
depends on a field (`ManagedHeap.store_sameLayout`) or on what is outside the objects, so the heap
stays one: `ManagedHeap.store`, `ManagedHeap.allocate`, `ManagedHeap.restrict`. -/

namespace MmtkArt

/-- The offsets of the references that mutators store to. The runtime alone stores to the class of
an object and to what java.lang.Class declares. -/
def fieldOffsets (b : Build) (m : Memory) (ptrSize o : Nat) : List Nat :=
  if IsClassObject b m o then Class.staticOffsets b m o ptrSize else refOffsets b m ptrSize o

/-- A new object at `o` in `m'`, whose memory was free in `m`. Its references are null, and it is no
Class object. -/
structure Allocated (b : Build) (m m' : Memory) (ptrSize o : Nat) (live : Nat → Prop) : Prop where
  ne_zero : o ≠ 0
  lt : o < 2 ^ 32
  apart : ∀ p, live p → o + alignedSize b m' o ≤ p ∨ p + alignedSize b m p ≤ o
  wellFormed : WellFormed b m' ptrSize o
  klass : live (Object.getClass b m' o) ∧ IsClassObject b m (Object.getClass b m' o)
  not_class : ¬ IsClassObject b m' o
  string : Class.isStringClass m' (Object.getClass b m' o) = true →
    Class.classFlags m' (Object.getClass b m' o) &&& Class.kClassFlagNoReferenceFields ≠ 0
  null : ∀ f ∈ refOffsets b m' ptrSize o, m'.load32 (o + f) = 0
  /-- The other objects are what they were, the word with the forwarding bits aside. -/
  frame : ∀ p, live p → ∀ k, k < objectSize b m p → k < 4 ∨ 8 ≤ k → m' (p + k) = m (p + k)

variable {b : Build} {m m' : Memory} {ptrSize o f r : Nat} {live live' : Nat → Prop}
  {R : Nat → Nat → Prop}

theorem fieldOffsets_subset : fieldOffsets b m ptrSize o ⊆ refOffsets b m ptrSize o := by
  unfold fieldOffsets
  split
  · next hcc =>
    intro f hf
    rw [refOffsets, if_pos (show Class.isClassClass b m (Object.getClass b m o) = true from hcc)]
    exact List.mem_append_left _ (List.mem_append_right _ hf)
  · exact List.Subset.refl _

/-! ### Where nothing moves -/

namespace LiveHeap

/-- A reference leads to an object. -/
theorem live_of_ne (h : LiveHeap b m ptrSize live) (ho : live o)
    (hf : f ∈ 0 :: refOffsets b m ptrSize o) (hne : m.load32 (o + f) ≠ 0) :
    live (m.load32 (o + f)) := by
  rcases List.mem_cons.mp hf with rfl | hf
  · have hklass := (h.klass o ho).1
    rwa [(h.wellFormed o ho).getClass_eq] at hklass
  · exact h.reference o ho f hf hne

/-- Objects keep their layout with their class and their data. -/
theorem sameLayout (h : LiveHeap b m ptrSize live)
    (hfixed : ∀ p, live p → ∀ f ∈ fixedOffsets b m p, m'.load32 (p + f) = m.load32 (p + f))
    (hdata : ∀ p, live p → ∀ k, 8 ≤ k → k < objectSize b m p →
      (∀ f ∈ refOffsets b m ptrSize p, k < f ∨ f + 4 ≤ k) → m' (p + k) = m (p + k)) :
    SameLayout b m ptrSize m' live (fun a p => live p ∧ a = p) := by
  constructor
  · exact h
  · exact fun hp => hp.1
  · rintro a p q ⟨-, rfl⟩ ⟨-, rfl⟩
    rfl
  · rintro p _ ⟨hp, rfl⟩
    exact h.ne_zero p hp
  · rintro p _ ⟨hp, rfl⟩
    exact (h.wellFormed p hp).aligned
  · rintro p _ ⟨hp, rfl⟩
    exact (h.wellFormed p hp).end_lt
  · exact fun hp _ => hp.2
  · rintro p _ ⟨hp, rfl⟩ f hf h0
    exact (hfixed p hp f hf).trans h0
  · rintro p _ ⟨hp, rfl⟩ f hf hne
    exact ⟨h.live_of_ne hp (fixedOffsets_subset hf) hne, hfixed p hp f hf⟩
  · rintro p _ ⟨hp, rfl⟩
    exact hdata p hp

end LiveHeap

/-- The objects stay apart from each other where they are laid out. -/
theorem SameLayout.managedHeap (h : SameLayout b m ptrSize m' live R)
    (hlive : ∀ a, live' a ↔ ∃ o, R a o) (hlt : ∀ {a o}, R a o → a < 2 ^ 32)
    (hapart : ∀ {a o a' o'}, R a o → R a' o' → a ≠ a' →
      a + alignedSize b m o ≤ a' ∨ a' + alignedSize b m o' ≤ a)
    (href : ∀ {a o}, R a o → ∀ f ∈ refOffsets b m ptrSize o, m'.load32 (a + f) ≠ 0 →
      ∃ p, R (m'.load32 (a + f)) p) : ManagedHeap b m' ptrSize live' := by
  obtain rfl : live' = fun a => ∃ o, R a o := funext fun a => propext (hlive a)
  refine ⟨h.liveHeap href, fun _ ⟨_, ho⟩ => hlt ho, ?_⟩
  rintro a ⟨o, ho⟩ a' ⟨o', ho'⟩ hne
  rw [alignedSize, alignedSize, h.objectSize_eq ho, h.objectSize_eq ho']
  exact hapart ho ho' hne

namespace ManagedHeap

theorem managedHeap_of_sameLayout (h : ManagedHeap b m ptrSize live)
    (hlayout : SameLayout b m ptrSize m' live (fun a p => live p ∧ a = p))
    (href : ∀ p, live p → ∀ f ∈ refOffsets b m ptrSize p, m'.load32 (p + f) ≠ 0 →
      live (m'.load32 (p + f))) : ManagedHeap b m' ptrSize live := by
  refine hlayout.managedHeap (fun a => ⟨fun ha => ⟨a, ha, rfl⟩, ?_⟩) ?_ ?_ ?_
  · rintro ⟨_, ha, rfl⟩
    exact ha
  · rintro p _ ⟨hp, rfl⟩
    exact h.lt p hp
  · rintro p _ p' _ ⟨hp, rfl⟩ ⟨hp', rfl⟩
    exact h.apart p hp p' hp'
  · rintro p _ ⟨hp, rfl⟩ f hf hne
    exact ⟨_, href p hp f hf hne, rfl⟩

/-- A field is no part of the layout. -/
theorem ne_of_mem_fixedOffsets (h : ManagedHeap b m ptrSize live) (ho : live o)
    (hf : f ∈ fieldOffsets b m ptrSize o) {g : Nat} (hg : g ∈ fixedOffsets b m o) : g ≠ f := by
  have hwf := h.heap.wellFormed o ho
  have hpos := (hwf.of_mem_refOffsets (fieldOffsets_subset hf)).1
  rcases List.mem_cons.mp hg with rfl | hg
  · omega
  · by_cases hcc : IsClassObject b m o
    · rw [if_pos hcc] at hg
      rw [fieldOffsets, if_pos hcc] at hf
      have hmirror := (h.heap.mirror _ (h.heap.klass o ho).1 hcc).2 g hg
      have hstatic := (hwf.of_mem_staticOffsets hcc hf).1
      have h120 : Class.size = 120 := rfl
      omega
    · rw [if_neg hcc] at hg
      cases hg

/-- The word at a field is in no other object. -/
theorem word_apart (h : ManagedHeap b m ptrSize live) (ho : live o)
    (hf : f ∈ refOffsets b m ptrSize o) {p : Nat} (hp : live p) (hne : p ≠ o) :
    o + f + 4 ≤ p ∨ p + objectSize b m p ≤ o + f := by
  have hend := ((h.heap.wellFormed o ho).of_mem_refOffsets hf).2.2
  have hapart := h.apart o ho p hp hne.symm
  have hle : ∀ q, objectSize b m q ≤ alignedSize b m q := fun q => le_alignUp (by decide)
  have := hle o
  have := hle p
  omega

/-- Every other reference is what it was. -/
theorem store_load32_eq (h : ManagedHeap b m ptrSize live) (ho : live o)
    (hf : f ∈ refOffsets b m ptrSize o) {p g : Nat} (hp : live p)
    (hg : g ∈ 0 :: refOffsets b m ptrSize p) (hne : p = o → g ≠ f) :
    (m.store32 (o + f) r).load32 (p + g) = m.load32 (p + g) := by
  obtain ⟨hdvd, hend, -⟩ := (h.heap.wellFormed p hp).word_of_mem hg
  obtain ⟨-, hdvd', -⟩ := (h.heap.wellFormed o ho).of_mem_refOffsets hf
  apply Memory.load32_store32_of_disjoint
  by_cases heq : p = o
  · subst heq
    have := hne rfl
    omega
  · have := h.word_apart ho hf hp heq
    omega

/-- **No layout depends on a field.** -/
theorem store_sameLayout (h : ManagedHeap b m ptrSize live) (ho : live o)
    (hf : f ∈ fieldOffsets b m ptrSize o) :
    SameLayout b m ptrSize (m.store32 (o + f) r) live (fun a p => live p ∧ a = p) := by
  have hmem := fieldOffsets_subset hf
  refine h.heap.sameLayout (fun p hp g hg => ?_) fun p hp k hk hend hrefs => ?_
  · refine h.store_load32_eq ho hmem hp (fixedOffsets_subset hg) fun heq => ?_
    exact h.ne_of_mem_fixedOffsets ho hf (heq ▸ hg)
  · apply Memory.store_of_outside
    by_cases heq : p = o
    · subst heq
      have := hrefs f hmem
      omega
    · have := h.word_apart ho hmem hp heq
      omega

/-- **A store of a reference to an object, or of null, leaves a heap.** -/
theorem store (h : ManagedHeap b m ptrSize live) (ho : live o)
    (hf : f ∈ fieldOffsets b m ptrSize o) (hr : r = 0 ∨ live r) :
    ManagedHeap b (m.store32 (o + f) r) ptrSize live := by
  have hlt : r < 2 ^ 32 := hr.elim (fun h0 => h0 ▸ by decide) (h.lt r)
  refine h.managedHeap_of_sameLayout (h.store_sameLayout ho hf) fun p hp g hg hne => ?_
  by_cases heq : p = o ∧ g = f
  · obtain ⟨rfl, rfl⟩ := heq
    rw [Memory.load32_store32 hlt] at hne ⊢
    exact hr.resolve_left hne
  · have hword := h.store_load32_eq (r := r) ho (fieldOffsets_subset hf) hp
      (List.mem_cons_of_mem 0 hg) fun hpo hgf => heq ⟨hpo, hgf⟩
    rw [hword] at hne ⊢
    exact h.heap.reference p hp g hg hne

/-! ### Allocation -/

/-- The references of the other objects are what they were. -/
theorem allocate_load32_eq (h : ManagedHeap b m ptrSize live)
    (hnew : Allocated b m m' ptrSize o live) {p : Nat} (hp : live p)
    (hf : f ∈ 0 :: refOffsets b m ptrSize p) : m'.load32 (p + f) = m.load32 (p + f) := by
  obtain ⟨-, hend, hpos⟩ := (h.heap.wellFormed p hp).word_of_mem hf
  apply Memory.load32_congr
  intro i hi
  rw [Nat.add_assoc]
  exact hnew.frame p hp (f + i) (by omega) (by omega)

/-- No other layout depends on the memory of the new object. -/
theorem allocate_sameLayout (h : ManagedHeap b m ptrSize live)
    (hnew : Allocated b m m' ptrSize o live) :
    SameLayout b m ptrSize m' live (fun a p => live p ∧ a = p) :=
  h.heap.sameLayout (fun _ hp _ hf => h.allocate_load32_eq hnew hp (fixedOffsets_subset hf))
    fun p hp k hk hend _ => hnew.frame p hp k hend (.inr hk)

/-- **A new object joins the heap.** -/
theorem allocate (h : ManagedHeap b m ptrSize live) (hnew : Allocated b m m' ptrSize o live) :
    ManagedHeap b m' ptrSize (fun a => a = o ∨ live a) := by
  have hlayout := h.allocate_sameLayout hnew
  have hold : ManagedHeap b m' ptrSize live := by
    refine h.managedHeap_of_sameLayout hlayout fun p hp f hf hne => ?_
    have hword := h.allocate_load32_eq hnew hp (List.mem_cons_of_mem 0 hf)
    rw [hword] at hne ⊢
    exact h.heap.reference p hp f hf hne
  have hsize : ∀ p, live p → alignedSize b m' p = alignedSize b m p := fun p hp => by
    rw [alignedSize, hlayout.objectSize_eq ⟨hp, rfl⟩, alignedSize]
  refine ⟨?_, ?_, ?_⟩
  · constructor
    · rintro _ (rfl | hp)
      · exact hnew.ne_zero
      · exact hold.heap.ne_zero _ hp
    · rintro _ (rfl | hp)
      · exact hnew.wellFormed
      · exact hold.heap.wellFormed _ hp
    · rintro _ (rfl | hp)
      · exact ⟨.inr hnew.klass.1, (hlayout.isClassObject_iff ⟨hnew.klass.1, rfl⟩).mpr hnew.klass.2⟩
      · exact ⟨.inr (hold.heap.klass _ hp).1, (hold.heap.klass _ hp).2⟩
    · rintro _ (rfl | hp) f hf hne
      · exact absurd (hnew.null f hf) hne
      · exact .inr (hold.heap.reference _ hp f hf hne)
    · rintro _ (rfl | hp)
      · exact hnew.string
      · exact hold.heap.string _ hp
    · rintro _ (rfl | hp) hself
      · exact absurd (isClassObject_of_isClassClass hself) hnew.not_class
      · exact hold.heap.mirror _ hp hself
    · rintro _ (rfl | hp) hcc
      · exact absurd hcc hnew.not_class
      · exact hold.heap.component _ hp hcc
    · rintro _ (rfl | hp) hcc
      · exact absurd hcc hnew.not_class
      · exact hold.heap.bitmap _ hp hcc
  · rintro _ (rfl | hp)
    · exact hnew.lt
    · exact hold.lt _ hp
  · rintro p (rfl | hp) q (rfl | hq) hne
    · exact absurd rfl hne
    · rw [hsize q hq]
      exact hnew.apart q hq
    · rw [hsize p hp]
      exact (hnew.apart p hp).symm
    · exact hold.apart p hp q hq hne

end ManagedHeap
end MmtkArt
