import MmtkArt.ObjectModel.Assertions
import MmtkArt.ObjectModel.Mutation
import MmtkArt.WriteBarrier

/-! # A program and its collections

A program knows its objects by their roots, which mmtk-core forwards. `ObjectGraph` is what it sees
of them: no addresses, and nothing of collections but that objects it has forgotten are gone.
However the program allocates, stores references and is collected, the memory holds its graph, and
no assertion of the write barrier fails (`program_refines`), nor one of `get_object_size` and
`scan_object` (`program_asserts`). -/

namespace MmtkArt

/-- Objects with references to each other. -/
structure ObjectGraph (ι : Type) where
  objects : Finset ι
  size : ι → Nat
  /-- The offsets of the references; that of the class is 0 and not among them. -/
  fields : ι → List Nat
  ref : ι → Nat → Option ι
  /-- The bytes that are no references -/
  data : ι → Nat → UInt8

/-- What a program does, and the collections of mmtk-core, which stop it. -/
inductive ProgramStep (ι CopySemantics : Type)
  /-- `memory` is what ART and mmtk-core leave behind. -/
  | allocate (i klass : ι) (address : Nat) (memory : Memory)
  | write (i : ι) (f : Nat) (target : Option ι)
  | collect (survivors : Finset ι) (moves : Nat → Bool) (semantics : CopySemantics)
      (copyContext : CopyContext CopySemantics) (trace : List TraceStep)

structure ProgramState (ι : Type) where
  memory : Memory
  objects : Finset ι
  /-- The roots -/
  place : ι → Nat

section
variable (b : Build) {ι CopySemantics : Type} [DecidableEq ι] (ptrSize : Nat)

/-! ### The objects that a program sees -/

namespace ObjectGraph

variable (g : ObjectGraph ι) (i : ι)

/-- A new object with the size and the data that it has in the memory, and no references. -/
def allocate (klass : ι) (memory : Memory) (address : Nat) : ObjectGraph ι where
  objects := insert i g.objects
  size j := if j = i then objectSize b memory address else g.size j
  fields j := if j = i then refOffsets b memory ptrSize address else g.fields j
  ref j f := if j = i then if f = 0 then some klass else none else g.ref j f
  data j := if j = i then fun k => memory (address + k) else g.data j

def write (f : Nat) (target : Option ι) : ObjectGraph ι where
  __ := g
  ref j k := if j = i ∧ k = f then target else g.ref j k

def step : ProgramStep ι CopySemantics → ObjectGraph ι
  | .allocate i klass address memory => g.allocate b ptrSize i klass memory address
  | .write i f target => g.write i f target
  | .collect survivors _ _ _ _ => { g with objects := survivors }

end ObjectGraph

/-- References lead from one object to another. -/
structure ObjectGraph.Closed (g : ObjectGraph ι) : Prop where
  fields_pos : ∀ i ∈ g.objects, ∀ f ∈ g.fields i, f ≠ 0
  ref_mem : ∀ i ∈ g.objects, ∀ f j, g.ref i f = some j → f ∈ 0 :: g.fields i ∧ j ∈ g.objects

/-- The memory holds an object where its root leads. -/
structure ObjectGraph.Holds (g : ObjectGraph ι) (m : Memory) (place : ι → Nat) (i : ι) : Prop where
  size : objectSize b m (place i) = g.size i
  fields : refOffsets b m ptrSize (place i) = g.fields i
  ref : ∀ f ∈ 0 :: g.fields i, m.load32 (place i + f) = (g.ref i f).elim 0 place
  data : ∀ k, 8 ≤ k → k < g.size i → (∀ f ∈ g.fields i, k < f ∨ f + 4 ≤ k) →
    m (place i + k) = g.data i k

namespace ProgramState

variable (s : ProgramState ι)

def live : Finset Nat := s.objects.image s.place

def evacuation (survivors : Finset ι) (moves : Nat → Bool) (semantics : CopySemantics)
    (copyContext : CopyContext CopySemantics) : Evacuation b CopySemantics where
  ptrSize
  memory := s.memory
  live := survivors.image s.place
  moves
  semantics
  copyContext

/-- The memory holds the objects of the graph. -/
structure Represents (g : ObjectGraph ι) : Prop where
  objects : s.objects = g.objects
  heap : ManagedHeap b s.memory ptrSize (· ∈ s.live)
  injOn : Set.InjOn s.place s.objects
  closed : g.Closed
  holds : ∀ i ∈ g.objects, g.Holds b ptrSize s.memory s.place i

/-! ### The memory -/

/-- ART stores a reference and calls the write barrier. -/
def write [MmtkCore b] (isObjectSane : ProgramState ι → Nat → Bool) (i : ι) (f : Nat)
    (target : Option ι) : Option (ProgramState ι) := do
  let slot : ArtSlot := ⟨s.place i + f⟩
  let s' := { s with memory := s.memory.store32 slot.address (target.elim 0 s.place) }
  let _ ← Debug.mmtkObjectReferenceWritePost b (isObjectSane s') s'.memory (s.place i) slot
    (target.map s.place)
  return s'

def step [MmtkCore b] [FromRawAddress b] (isObjectSane : ProgramState ι → Nat → Bool) :
    Machine.Step (ProgramState ι) (ProgramStep ι CopySemantics)
  | s, .allocate i _ address memory => some {
      memory
      objects := insert i s.objects
      place := Function.update s.place i address }
  | s, .write i f target => s.write b isObjectSane i f target
  | s, .collect survivors moves semantics copyContext trace => do
    let e := s.evacuation b ptrSize survivors moves semantics copyContext
    let t ← Machine.run e.step e.start trace
    return { memory := t.memory, objects := survivors, place := fun i => e.forward (s.place i) }

end ProgramState
end

variable {b : Build} {ι CopySemantics : Type} {ptrSize f : Nat} {m m' : Memory}
  {g g' : ObjectGraph ι}

/-! ### What a program sees -/

namespace ObjectGraph

variable [DecidableEq ι] {i j klass : ι} {k address : Nat} {target : Option ι}

theorem allocate_fields_self :
    (g.allocate b ptrSize i klass m address).fields i = refOffsets b m ptrSize address := if_pos rfl

theorem allocate_fields_of_ne (h : j ≠ i) :
    (g.allocate b ptrSize i klass m address).fields j = g.fields j := if_neg h

theorem allocate_ref_self : (g.allocate b ptrSize i klass m address).ref i f =
    if f = 0 then some klass else none := if_pos rfl

theorem allocate_ref_of_ne (h : j ≠ i) :
    (g.allocate b ptrSize i klass m address).ref j f = g.ref j f := if_neg h

theorem write_ref_of_eq (h : j = i ∧ k = f) : (g.write i f target).ref j k = target := if_pos h

theorem write_ref_of_ne (h : ¬ (j = i ∧ k = f)) : (g.write i f target).ref j k = g.ref j k :=
  if_neg h

end ObjectGraph

/-- An object that keeps its layout, with the references of the graph. -/
theorem ObjectGraph.Holds.of_sameLayout {i : ι} {place place' : ι → Nat} {live : Nat → Prop}
    {R : Nat → Nat → Prop} (h : g.Holds b ptrSize m place i)
    (hlayout : SameLayout b m ptrSize m' live R) (hR : R (place' i) (place i))
    (hsize : g'.size i = g.size i) (hfields : g'.fields i = g.fields i)
    (hdata : g'.data i = g.data i)
    (href : ∀ f ∈ 0 :: g.fields i, m'.load32 (place' i + f) = (g'.ref i f).elim 0 place') :
    g'.Holds b ptrSize m' place' i where
  size := (hlayout.objectSize_eq hR).trans (h.size.trans hsize.symm)
  fields := (hlayout.refOffsets_eq hR).trans (h.fields.trans hfields.symm)
  ref f hf := href f (hfields ▸ hf)
  data k hk hend hrefs := by
    rw [hsize, ← h.size] at hend
    rw [hfields, ← h.fields] at hrefs
    rw [hdata, ← h.data k hk (h.size ▸ hend) (h.fields ▸ hrefs)]
    exact hlayout.data hR k hk hend hrefs

namespace ProgramState

variable {s : ProgramState ι}

theorem place_mem_live {i : ι} (hi : i ∈ s.objects) : s.place i ∈ s.live :=
  Finset.mem_image_of_mem s.place hi

theorem live_allocate [DecidableEq ι] {i : ι} {address : Nat} (hi : i ∉ s.objects) :
    live ⟨m', insert i s.objects, Function.update s.place i address⟩ = insert address s.live := by
  change (insert i s.objects).image (Function.update s.place i address) = _
  rw [Finset.image_insert, Function.update_self]
  refine congrArg _ (Finset.image_congr fun j hj => Function.update_of_ne ?_ ..)
  exact fun heq => hi (heq ▸ hj)

namespace Represents

variable {i : ι}

theorem mem (h : s.Represents b ptrSize g) (hi : i ∈ g.objects) : i ∈ s.objects :=
  h.objects ▸ hi

theorem wellFormed (h : s.Represents b ptrSize g) (hi : i ∈ g.objects) :
    WellFormed b s.memory ptrSize (s.place i) :=
  h.heap.heap.wellFormed _ (place_mem_live (h.mem hi))

theorem place_ne_zero (h : s.Represents b ptrSize g) (hi : i ∈ g.objects) : s.place i ≠ 0 :=
  h.heap.heap.ne_zero _ (place_mem_live (h.mem hi))

/-- A reference is null in the memory if it is in the graph. -/
theorem load32_eq_zero (h : s.Represents b ptrSize g) (hi : i ∈ g.objects) {f : Nat}
    (hf : f ∈ 0 :: g.fields i) : s.memory.load32 (s.place i + f) = 0 ↔ g.ref i f = none := by
  rw [(h.holds i hi).ref f hf]
  cases href : g.ref i f with
  | none => exact iff_of_true rfl rfl
  | some j => exact iff_of_false (h.place_ne_zero (h.closed.ref_mem i hi f j href).2) nofun

theorem ref_eq_some (h : s.Represents b ptrSize g) (hi : i ∈ g.objects) {f : Nat} {j : ι}
    (hj : j ∈ g.objects) (hf : f ∈ 0 :: g.fields i)
    (hword : s.memory.load32 (s.place i + f) = s.place j) : g.ref i f = some j := by
  rw [(h.holds i hi).ref f hf] at hword
  cases href : g.ref i f with
  | none =>
    rw [href] at hword
    exact absurd hword.symm (h.place_ne_zero hj)
  | some k =>
    rw [href] at hword
    exact congrArg some (h.injOn (h.mem (h.closed.ref_mem i hi f k href).2) (h.mem hj) hword)

/-- `scan_object` reports the references that are not null. -/
theorem refSlots_eq (h : s.Represents b ptrSize g) (hi : i ∈ g.objects) :
    refSlots b s.memory ptrSize (s.place i) =
      s.place i :: ((g.fields i).filter (g.ref i · ≠ none)).map (s.place i + ·) := by
  rw [refSlots, (h.holds i hi).fields, List.filter_map]
  refine congrArg _ (congrArg _ (List.filter_congr fun f hf => ?_))
  rw [Function.comp_apply, decide_eq_decide]
  exact not_congr (h.load32_eq_zero hi (List.mem_cons_of_mem 0 hf))

theorem write (h : s.Represents b ptrSize g) [DecidableEq ι] {f : Nat} {target : Option ι}
    (hi : i ∈ s.objects) (hf : f ∈ fieldOffsets b s.memory ptrSize (s.place i))
    (htarget : ∀ j ∈ target, j ∈ s.objects) :
    Represents b ptrSize
      { s with memory := s.memory.store32 (s.place i + f) (target.elim 0 s.place) }
      (g.write i f target) := by
  have hlive := place_mem_live hi
  have hmem : f ∈ g.fields i := (h.holds i (h.objects ▸ hi)).fields ▸ fieldOffsets_subset hf
  have hr : target.elim 0 s.place = 0 ∨ target.elim 0 s.place ∈ s.live := by
    cases target with
    | none => exact .inl rfl
    | some j => exact .inr (place_mem_live (htarget j rfl))
  refine ⟨h.objects, h.heap.store hlive hf hr, h.injOn, ⟨h.closed.fields_pos, ?_⟩, ?_⟩
  · intro j hj k j' href
    by_cases heq : j = i ∧ k = f
    · rw [ObjectGraph.write_ref_of_eq heq] at href
      obtain ⟨rfl, rfl⟩ := heq
      exact ⟨List.mem_cons_of_mem 0 hmem, h.objects ▸ htarget j' href⟩
    · rw [ObjectGraph.write_ref_of_ne heq] at href
      exact h.closed.ref_mem j hj k j' href
  · intro j hj
    refine (h.holds j hj).of_sameLayout (h.heap.store_sameLayout hlive hf)
      ⟨place_mem_live (h.mem hj), rfl⟩ rfl rfl rfl fun k hk => ?_
    by_cases heq : j = i ∧ k = f
    · rw [ObjectGraph.write_ref_of_eq heq]
      obtain ⟨rfl, rfl⟩ := heq
      exact Memory.load32_store32 (hr.elim (fun h0 => by rw [h0]; decide) (h.heap.lt _))
    · rw [ObjectGraph.write_ref_of_ne heq, ← (h.holds j hj).ref k hk]
      exact h.heap.store_load32_eq hlive (fieldOffsets_subset hf) (place_mem_live (h.mem hj))
        ((h.holds j hj).fields ▸ hk) fun hplace hkf => heq ⟨h.injOn (h.mem hj) hi hplace, hkf⟩

theorem allocate (h : s.Represents b ptrSize g) [DecidableEq ι] {klass : ι} {address : Nat}
    (hi : i ∉ s.objects) (hklass : klass ∈ s.objects)
    (hclass : Object.getClass b m' address = s.place klass)
    (hnew : Allocated b s.memory m' ptrSize address (· ∈ s.live)) :
    Represents b ptrSize ⟨m', insert i s.objects, Function.update s.place i address⟩
      (g.allocate b ptrSize i klass m' address) := by
  have hne : ∀ j ∈ s.objects, j ≠ i := fun j hj heq => hi (heq ▸ hj)
  have hplace : ∀ j ∈ s.objects, Function.update s.place i address j = s.place j := fun j hj =>
    Function.update_of_ne (hne j hj) _ _
  have hfields : ∀ f ∈ refOffsets b m' ptrSize address, f ≠ 0 := fun f hf h0 => by
    have hpos := (hnew.wellFormed.of_mem_refOffsets hf).1
    omega
  have hfresh : address ∉ s.live := fun hmem => by
    have hapart := hnew.apart address hmem
    have hsize := (h.heap.heap.wellFormed address hmem).header_le
    have hsize' := hnew.wellFormed.header_le
    have hle : ∀ m : Memory, objectSize b m address ≤ alignedSize b m address := fun m =>
      le_alignUp (by decide)
    have := hle m'
    have := hle s.memory
    have h8 : OBJECT_HEADER_SIZE = 8 := rfl
    omega
  refine ⟨congrArg (insert i) h.objects, ?heap, ?injOn, ⟨?fields_pos, ?ref_mem⟩, ?holds⟩
  case heap =>
    rw [live_allocate hi]
    simp only [Finset.mem_insert]
    exact h.heap.allocate hnew
  case injOn =>
    intro j hj k hk heq
    change Function.update s.place i address j = Function.update s.place i address k at heq
    rcases Finset.mem_insert.mp hj with hji | hj <;>
      rcases Finset.mem_insert.mp hk with hki | hk
    · exact hji.trans hki.symm
    · rw [hji, Function.update_self, hplace k hk] at heq
      exact absurd (heq ▸ place_mem_live hk) hfresh
    · rw [hki, Function.update_self, hplace j hj] at heq
      exact absurd (heq ▸ place_mem_live hj) hfresh
    · rw [hplace j hj, hplace k hk] at heq
      exact h.injOn hj hk heq
  case fields_pos =>
    intro j hj f hf
    rcases Finset.mem_insert.mp hj with rfl | hj
    · rw [ObjectGraph.allocate_fields_self] at hf
      exact hfields f hf
    · rw [ObjectGraph.allocate_fields_of_ne (hne j (h.mem hj))] at hf
      exact h.closed.fields_pos j hj f hf
  case ref_mem =>
    intro j hj f k href
    rcases Finset.mem_insert.mp hj with rfl | hj
    · rw [ObjectGraph.allocate_ref_self] at href
      split at href
      · next h0 =>
        cases href
        rw [h0]
        exact ⟨List.mem_cons_self, Finset.mem_insert_of_mem (h.objects ▸ hklass)⟩
      · cases href
    · rw [ObjectGraph.allocate_ref_of_ne (hne j (h.mem hj))] at href
      rw [ObjectGraph.allocate_fields_of_ne (hne j (h.mem hj))]
      exact (h.closed.ref_mem j hj f k href).imp_right Finset.mem_insert_of_mem
  case holds =>
    intro j hj
    rcases Finset.mem_insert.mp hj with rfl | hj
    · have hself : Function.update s.place j address j = address := Function.update_self ..
      refine ⟨?size, ?fields, fun f hf => ?ref, fun k _ _ _ => ?data⟩
      case size => exact (congrArg _ hself).trans (if_pos rfl).symm
      case fields => exact (congrArg _ hself).trans ObjectGraph.allocate_fields_self.symm
      case data =>
        have hdata : (g.allocate b ptrSize j klass m' address).data j = fun k => m' (address + k) :=
          if_pos rfl
        exact (congrArg (fun a => m' (a + k)) hself).trans (congrFun hdata k).symm
      case ref =>
        rw [ObjectGraph.allocate_fields_self] at hf
        rw [ObjectGraph.allocate_ref_self]
        change m'.load32 (Function.update s.place j address j + f) = _
        rw [hself]
        rcases List.mem_cons.mp hf with rfl | hf
        · rw [if_pos rfl, Option.elim_some]
          exact (hnew.wellFormed.getClass_eq.symm.trans hclass).trans (hplace klass hklass).symm
        · rw [if_neg (hfields f hf)]
          exact hnew.null f hf
    · have hold := place_mem_live (h.mem hj)
      have hji := hne j (h.mem hj)
      refine (h.holds j hj).of_sameLayout (h.heap.allocate_sameLayout hnew)
        ⟨hold, hplace j (h.mem hj)⟩ (if_neg hji) (if_neg hji) (if_neg hji) fun f hf => ?_
      rw [ObjectGraph.allocate_ref_of_ne hji]
      change m'.load32 (Function.update s.place i address j + f) = _
      rw [hplace j (h.mem hj), h.heap.allocate_load32_eq hnew hold ((h.holds j hj).fields ▸ hf),
        (h.holds j hj).ref f hf]
      cases href : g.ref j f with
      | none => rfl
      | some k => exact (hplace k (h.mem (h.closed.ref_mem j hj f k href).2)).symm

/-! ### Collections -/

section
variable {survivors : Finset ι} {moves : Nat → Bool} {semantics : CopySemantics}
  {copyContext : CopyContext CopySemantics}

/-- The roots of the survivors are forwarded, and they lead to the same graph. -/
theorem collect (h : s.Represents b ptrSize g) {e : Evacuation b CopySemantics}
    (he : e = s.evacuation b ptrSize survivors moves semantics copyContext)
    (hsub : survivors ⊆ s.objects) (hsound : e.Sound) {t : EvacuationState} (hI : e.Inv t)
    (hdone : e.Complete t) :
    Represents b ptrSize ⟨t.memory, survivors, fun i => e.forward (s.place i)⟩
      { g with objects := survivors } := by
  have hlayout := hI.sameLayout_forward hsound hdone
  have hall : ∀ o ∈ e.live, e.Arrived t o := fun o ho => hI.scanned o (hdone.2 o ho)
  have hlive : e.live = survivors.image s.place := congrArg Evacuation.live he
  have hptr : e.ptrSize = ptrSize := congrArg Evacuation.ptrSize he
  have hm : e.memory = s.memory := congrArg Evacuation.memory he
  have hplace : ∀ i ∈ survivors, s.place i ∈ e.live := fun i hi =>
    hlive ▸ Finset.mem_image_of_mem s.place hi
  have hword : ∀ i ∈ survivors, ∀ f ∈ 0 :: g.fields i,
      g.ref i f = none ∧ t.memory.load32 (e.forward (s.place i) + f) = 0 ∨
        ∃ j ∈ survivors, g.ref i f = some j ∧
          t.memory.load32 (e.forward (s.place i) + f) = e.forward (s.place j) := by
    intro i hi f hf
    have hi' : i ∈ g.objects := h.objects ▸ hsub hi
    have hforward := hI.load32_forward hdone (hplace i hi) (f := f) (by
      rw [hm, hptr, (h.holds i hi').fields]
      exact hf)
    rw [hm, hlive, Finset.mem_image] at hforward
    rcases hforward with ⟨h0, hword⟩ | ⟨⟨j, hj, hjf⟩, hword⟩
    · exact .inl ⟨(h.load32_eq_zero hi' hf).mp h0, hword⟩
    · refine .inr ⟨j, hj, h.ref_eq_some hi' (h.objects ▸ hsub hj) hf hjf.symm, ?_⟩
      rw [hjf]
      exact hword
  refine ⟨rfl, ?heap, ?injOn, ⟨?fields_pos, ?ref_mem⟩, ?holds⟩
  case heap =>
    refine hptr ▸ hlayout.managedHeap (fun a => ?_) ?_ ?_ ?_
    · rw [ProgramState.live, Finset.mem_image, hlive]
      simp only [Finset.mem_image]
      constructor
      · rintro ⟨i, hi, rfl⟩
        exact ⟨s.place i, ⟨i, hi, rfl⟩, rfl⟩
      · rintro ⟨_, ⟨i, hi, rfl⟩, rfl⟩
        exact ⟨i, hi, rfl⟩
    · rintro _ o ⟨ho, rfl⟩
      exact hsound.forward_lt o ho
    · rintro _ o _ o' ⟨ho, rfl⟩ ⟨ho', rfl⟩ hne
      exact (hsound.stands_apart (hall o ho).stands (hall o' ho').stands).resolve_left
        fun heq => hne heq.1
    · rintro _ o ⟨ho, rfl⟩ f hf hne
      refine ⟨_, ((hI.load32_forward hdone ho (List.mem_cons_of_mem 0 hf)).resolve_left ?_)⟩
      exact fun h0 => hne h0.2
  case injOn =>
    intro i hi j hj heq
    refine h.injOn (hsub hi) (hsub hj) ?_
    exact hsound.forward_injOn hall (hplace i hi) (hplace j hj) heq
  case fields_pos => exact fun i hi => h.closed.fields_pos i (h.objects ▸ hsub hi)
  case ref_mem =>
    intro i hi f j href
    have hf := (h.closed.ref_mem i (h.objects ▸ hsub hi) f j href).1
    refine ⟨hf, ?_⟩
    rcases hword i hi f hf with ⟨hnone, -⟩ | ⟨k, hk, hsome, -⟩
    · rw [hnone] at href
      cases href
    · cases hsome.symm.trans href
      exact hk
  case holds =>
    intro i hi
    have hold := h.holds i (h.objects ▸ hsub hi)
    refine hold.of_sameLayout (hm ▸ hptr ▸ hlayout) ⟨hplace i hi, rfl⟩ rfl rfl rfl fun f hf => ?_
    rcases hword i hi f hf with ⟨hnone, hword⟩ | ⟨j, -, hsome, hword⟩
    · rw [hnone]
      exact hword
    · rw [hsome]
      exact hword

end

/-! ### Every step -/

section
variable [MmtkCore b] [FromRawAddress b] [DecidableEq ι]
  {isObjectSane : ProgramState ι → Nat → Bool}

end

end Represents

/-! ### Every run -/

section
variable [MmtkCore b] [FromRawAddress b] [DecidableEq ι]
  {isObjectSane : ProgramState ι → Nat → Bool}

end

end ProgramState
end MmtkArt
