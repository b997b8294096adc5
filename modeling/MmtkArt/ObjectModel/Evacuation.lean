import MmtkArt.ObjectModel.Copy
import MmtkArt.ObjectModel.Relocation
import MmtkArt.Slot
import MmtkArt.Util.Machine

/-! # A collection that moves objects

mmtk-core traces the heap in an order of its own: it copies an object with `copy`, has it scanned
with `scan_object`, and loads and stores the slots that were reported. `Evacuation.step` leaves this
order open. At any time every object is found, unchanged, wherever it stands (`evacuation_stands`),
and once every reported slot is processed the heap is the one before with all addresses forwarded
(`evacuation_forwards`). -/

namespace MmtkArt

/-- A collection: the heap that it starts with, and what mmtk-core has decided about the objects. -/
structure Evacuation (b : Build) (CopySemantics : Type) where
  ptrSize : Nat
  memory : Memory
  live : Finset Nat
  /-- The objects that are copied; the others stay. -/
  moves : Nat → Bool
  semantics : CopySemantics
  copyContext : CopyContext CopySemantics

/-- A call of the binding, or a write of mmtk-core to the header. -/
inductive TraceStep
  | copy (object : Nat)
  | scanObject (object : Nat)
  | processSlot (slot : ArtSlot)
  /-- The forwarding pointer and the forwarding bits are in the word after the klass slot. -/
  | setForwarding (address word : Nat)

structure EvacuationState where
  memory : Memory
  copied : Finset Nat
  scanned : Finset Nat
  /-- The slots that were reported and are not processed yet -/
  pending : List ArtSlot

namespace Evacuation

variable {b : Build} {CopySemantics : Type}

section
variable (e : Evacuation b CopySemantics)

/-- Where the object is after the collection. -/
def forward (o : Nat) : Nat :=
  if e.moves o then
    e.copyContext.allocCopy o (alignedSize b e.memory o) MIN_ALIGNMENT 0 e.semantics
  else o

def start : EvacuationState := ⟨e.memory, ∅, ∅, []⟩

/-- The object is where it stays. -/
def Arrived (s : EvacuationState) (o : Nat) : Prop :=
  o ∈ e.live ∧ (e.moves o = true → o ∈ s.copied)

/-- The object `o` is found at `a`. -/
def Stands (s : EvacuationState) (a o : Nat) : Prop :=
  o ∈ e.live ∧ (a = o ∨ e.Arrived s o ∧ a = e.forward o)

instance (s : EvacuationState) (o : Nat) : Decidable (e.Arrived s o) :=
  inferInstanceAs (Decidable (_ ∧ _))

instance (s : EvacuationState) (a o : Nat) : Decidable (e.Stands s a o) :=
  inferInstanceAs (Decidable (_ ∧ _))

/-- mmtk-core's `trace_object` of an object that it has reached: the new address of one that was
copied, and any other address as it is. -/
def traceObject [FromRawAddress b] (s : EvacuationState) (object : ObjectReference b) :
    Option (ObjectReference b) :=
  let o := object.toRawAddress.val
  if o ∈ e.live then
    if e.Arrived s o then FromRawAddress.fromRawAddress (Fin.ofNat b.usizeCard (e.forward o))
    else none
  else some object

def processSlot [FromRawAddress b] (s : EvacuationState) (slot : ArtSlot) : Option Memory :=
  match ArtSlot.load b s.memory slot with
  | none => some s.memory
  | some object => do return slot.store s.memory (← e.traceObject s object)

def step [MmtkCore b] [FromRawAddress b] : Machine.Step EvacuationState TraceStep
  | s, .copy o =>
    if o ∈ e.live ∧ e.moves o = true ∧ o ∉ s.copied then do
      let (_, memory) ← ArtObjectModel.copy b s.memory o e.semantics e.copyContext
      return { s with memory, copied := insert o s.copied }
    else none
  | s, .scanObject o =>
    if e.Arrived s o then do
      let visits ← scanObject b s.memory e.ptrSize true (e.forward o)
      return { s with
        scanned := insert o s.scanned
        pending := s.pending ++ (Visit.slots visits).map ArtSlot.mk }
    else none
  | s, .processSlot slot =>
    if slot ∈ s.pending then do
      return { s with memory := ← e.processSlot s slot, pending := s.pending.erase slot }
    else none
  | s, .setForwarding address word =>
    if ∃ o ∈ e.live, e.Stands s address o then
      some { s with memory := s.memory.store32 (address + 4) word }
    else none

/-- Copies are allocated apart from every object, java.lang.Class is not moved, and every new address
fits in a slot. -/
structure Placed : Prop where
  keepsBytes : e.copyContext.KeepsBytes
  classClass : ∀ c ∈ e.live, Class.isClassClass b e.memory c = true → e.moves c = false
  forward_lt : ∀ o ∈ e.live, e.forward o < 2 ^ 32
  forward_ne_zero : ∀ o ∈ e.live, e.forward o ≠ 0
  aligned : ∀ o ∈ e.live, 8 ∣ e.forward o
  end_lt : ∀ o ∈ e.live, e.forward o + alignedSize b e.memory o < b.usizeCard
  forward_apart : ∀ o ∈ e.live, ∀ o' ∈ e.live, e.moves o = true →
    e.forward o + alignedSize b e.memory o ≤ o' ∨ o' + alignedSize b e.memory o' ≤ e.forward o
  forwards_apart : ∀ o ∈ e.live, ∀ o' ∈ e.live, e.moves o = true → e.moves o' = true → o ≠ o' →
    e.forward o + alignedSize b e.memory o ≤ e.forward o' ∨
      e.forward o' + alignedSize b e.memory o' ≤ e.forward o

/-- What the collection relies on. -/
structure Sound : Prop
    extends ManagedHeap b e.memory e.ptrSize (· ∈ e.live), e.Placed

end

variable {e : Evacuation b CopySemantics} {s s' : EvacuationState} {a a' o o' : Nat}

theorem forward_of_not_moves (h : ¬ e.moves o = true) : e.forward o = o := if_neg h

theorem Arrived.stands (h : e.Arrived s o) : e.Stands s (e.forward o) o := ⟨h.1, .inr ⟨h, rfl⟩⟩

theorem stands_self (h : o ∈ e.live) : e.Stands s o o := ⟨h, .inl rfl⟩

/-- An object that moves stands in two places at most. -/
theorem Stands.cases (h : e.Stands s a o) :
    a = o ∨ e.moves o = true ∧ o ∈ s.copied ∧ a = e.forward o := by
  obtain ⟨-, h | ⟨⟨-, hcopied⟩, rfl⟩⟩ := h
  · exact .inl h
  · by_cases hmoves : e.moves o = true
    · exact .inr ⟨hmoves, hcopied hmoves, rfl⟩
    · exact .inl (forward_of_not_moves hmoves)

namespace Sound

/-- Objects do not overlap, wherever they stand. -/
theorem stands_apart (h : e.Sound) (ho : e.Stands s a o) (ho' : e.Stands s a' o') :
    a = a' ∧ o = o' ∨ a + alignedSize b e.memory o ≤ a' ∨ a' + alignedSize b e.memory o' ≤ a := by
  rcases ho.cases with rfl | ⟨hm, -, rfl⟩ <;> rcases ho'.cases with rfl | ⟨hm', -, rfl⟩
  · by_cases heq : a = a'
    · exact .inl ⟨heq, heq⟩
    · exact .inr (h.apart _ ho.1 _ ho'.1 heq)
  · exact .inr (h.forward_apart _ ho'.1 _ ho.1 hm').symm
  · exact .inr (h.forward_apart _ ho.1 _ ho'.1 hm)
  · by_cases heq : o = o'
    · exact .inl ⟨congrArg _ heq, heq⟩
    · exact .inr (h.forwards_apart _ ho.1 _ ho'.1 hm hm' heq)

theorem wellFormed (h : e.Sound) (ho : o ∈ e.live) : WellFormed b e.memory e.ptrSize o :=
  h.heap.wellFormed o ho

theorem size_le (h : e.Sound) (ho : o ∈ e.live) :
    8 ≤ objectSize b e.memory o ∧ objectSize b e.memory o ≤ alignedSize b e.memory o :=
  ⟨(h.wellFormed ho).header_le, le_alignUp (by decide)⟩

theorem lt_of_stands (h : e.Sound) (ho : e.Stands s a o) : a < 2 ^ 32 := by
  rcases ho.cases with rfl | ⟨-, -, rfl⟩
  · exact h.lt _ ho.1
  · exact h.forward_lt _ ho.1

/-- The places of the objects are as a relocation needs them. -/
theorem relocation (h : e.Sound)
    (hholds : ∀ {a o}, e.Stands s a o → HoldsAt b e.memory e.ptrSize s.memory (e.Stands s) a o) :
    Relocation b e.memory e.ptrSize s.memory (· ∈ e.live) (e.Stands s) where
  heap := h.heap
  live ho := ho.1
  functional {a o o'} ho ho' := by
    rcases h.stands_apart ho ho' with ⟨-, heq⟩ | hapart
    · exact heq
    · have := h.size_le ho.1
      have := h.size_le ho'.1
      omega
  ne_zero ho := by
    rcases ho.cases with rfl | ⟨-, -, rfl⟩
    · exact h.heap.ne_zero _ ho.1
    · exact h.forward_ne_zero _ ho.1
  aligned ho := by
    rcases ho.cases with rfl | ⟨-, -, rfl⟩
    · exact (h.wellFormed ho.1).aligned
    · exact h.aligned _ ho.1
  end_lt ho := by
    rcases ho.cases with rfl | ⟨-, -, rfl⟩
    · exact (h.wellFormed ho.1).end_lt
    · have := h.size_le ho.1
      have := h.end_lt _ ho.1
      omega
  classClass {a c} hc hself := by
    rcases hc.cases with rfl | ⟨hmoves, -, -⟩
    · rfl
    · rw [h.classClass c hc.1 hself] at hmoves
      cases hmoves
  null ho f hf := (hholds ho).null f (fixedOffsets_subset hf)
  reference ho f hf := (hholds ho).reference f (fixedOffsets_subset hf)
  data ho := (hholds ho).data
  holds := hholds

end Sound

/-! ### An example -/

/-- The field at the offset `f` of the object holds a reference when the collection starts. -/
def IsReference (e : Evacuation b CopySemantics) (o f : Nat) : Prop :=
  f ∈ 0 :: refOffsets b e.memory e.ptrSize o ∧ e.memory.load32 (o + f) ≠ 0

theorem mem_refSlots_iff (h : e.Sound) (ho : o ∈ e.live) {x : Nat} :
    x ∈ refSlots b e.memory e.ptrSize o ↔ ∃ f, e.IsReference o f ∧ o + f = x := by
  have hklass := (h.wellFormed ho).klass_ne
  rw [(h.wellFormed ho).getClass_eq] at hklass
  rw [refSlots, List.mem_cons, List.mem_filter, List.mem_map, decide_eq_true_iff]
  constructor
  · rintro (rfl | ⟨⟨f, hf, rfl⟩, hne⟩)
    · exact ⟨0, ⟨List.mem_cons_self, hklass⟩, rfl⟩
    · exact ⟨f, ⟨List.mem_cons_of_mem 0 hf, hne⟩, rfl⟩
  · rintro ⟨f, ⟨hf, hne⟩, rfl⟩
    rcases List.mem_cons.mp hf with rfl | hf
    · exact .inl rfl
    · exact .inr ⟨⟨f, hf, rfl⟩, hne⟩

/-- Every object is found wherever it stands. A slot that was reported belongs to an object that
stays where it is, and until the slot is processed it is pending. -/
structure Inv (e : Evacuation b CopySemantics) (s : EvacuationState) : Prop where
  holds : ∀ {a o}, e.Stands s a o → HoldsAt b e.memory e.ptrSize s.memory (e.Stands s) a o
  scanned : ∀ o ∈ s.scanned, e.Arrived s o
  pending : ∀ slot ∈ s.pending, ∃ o f, e.Arrived s o ∧ e.IsReference o f ∧
    slot = ⟨e.forward o + f⟩
  processed : ∀ o ∈ s.scanned, ∀ f, e.IsReference o f → ⟨e.forward o + f⟩ ∈ s.pending ∨
    s.memory.load32 (e.forward o + f) = e.forward (e.memory.load32 (o + f))

theorem Arrived.mono (h : e.Arrived s o) (hsub : s.copied ⊆ s'.copied) : e.Arrived s' o :=
  ⟨h.1, fun hmoves => hsub (h.2 hmoves)⟩

theorem Stands.mono (h : e.Stands s a o) (hsub : s.copied ⊆ s'.copied) : e.Stands s' a o :=
  ⟨h.1, h.2.imp_right (And.imp_left fun ha => ha.mono hsub)⟩

namespace Inv

variable {m' : Memory} {f : Nat}

/-- The slot of a reference is in the object, and not in the second word. -/
theorem word_of_isReference (h : e.Sound) (ho : o ∈ e.live) (hf : e.IsReference o f) :
    4 ∣ f ∧ f + 4 ≤ objectSize b e.memory o ∧ (f = 0 ∨ 8 ≤ f) :=
  (h.wellFormed ho).word_of_mem hf.1

/-- A change outside the objects, or in the second word of one. -/
theorem frame (hI : e.Inv s) (h : e.Sound)
    (hm : ∀ {a o}, e.Stands s a o → ∀ k, k < objectSize b e.memory o → k < 4 ∨ 8 ≤ k →
      m' (a + k) = s.memory (a + k)) : e.Inv { s with memory := m' } where
  holds ho := (hI.holds ho).transfer (h.wellFormed ho.1) (hm ho)
  scanned := hI.scanned
  pending := hI.pending
  processed o ho f hf := by
    have harrived := hI.scanned o ho
    obtain ⟨-, hend, hpos⟩ := word_of_isReference h harrived.1 hf
    have hword : m'.load32 (e.forward o + f) = s.memory.load32 (e.forward o + f) := by
      apply Memory.load32_congr
      intro i hi
      rw [Nat.add_assoc]
      exact hm harrived.stands (f + i) (by omega) (by omega)
    exact (hI.processed o ho f hf).imp_right hword.trans

/-- A copy that holds the object is one more place where it stands. -/
theorem insert_copied (hI : e.Inv s)
    (hcopy : HoldsAt b e.memory e.ptrSize s.memory (e.Stands s) (e.forward o) o) :
    e.Inv { s with copied := insert o s.copied } := by
  have hsub : s.copied ⊆ insert o s.copied := Finset.subset_insert o s.copied
  constructor
  · intro a p hp
    have hold : HoldsAt b e.memory e.ptrSize s.memory (e.Stands s) a p := by
      rcases hp.cases with rfl | ⟨-, hcopied, rfl⟩
      · exact hI.holds (stands_self hp.1)
      · rcases Finset.mem_insert.mp hcopied with rfl | hcopied
        · exact hcopy
        · exact hI.holds ⟨hp.1, .inr ⟨⟨hp.1, fun _ => hcopied⟩, rfl⟩⟩
    exact hold.mono fun _ _ hx => hx.mono hsub
  · exact fun p hp => (hI.scanned p hp).mono hsub
  · intro slot hslot
    obtain ⟨p, f, hp, hf, heq⟩ := hI.pending slot hslot
    exact ⟨p, f, hp.mono hsub, hf, heq⟩
  · exact hI.processed

end Inv

/-! ### One step -/

section
variable [MmtkCore b]

/-- `copy` moves an object to where it is forwarded, and writes nothing else. -/
theorem Inv.copy_eq (hI : e.Inv s) (h : e.Sound) (ho : o ∈ e.live) (hm : e.moves o = true) :
    ∃ m', ArtObjectModel.copy b s.memory o e.semantics e.copyContext = some (e.forward o, m') ∧
      (∀ k, k < alignedSize b e.memory o → k ≠ 7 →
        m' (e.forward o + k) = s.memory (o + k)) ∧
      ∀ x, x < e.forward o ∨ e.forward o + alignedSize b e.memory o ≤ x →
        m' x = s.memory x := by
  have hreloc := h.relocation hI.holds
  have hwf := hreloc.wellFormed (stands_self (s := s) ho)
  have hsize : alignedSize b s.memory o = alignedSize b e.memory o := by
    rw [alignedSize, hreloc.objectSize_eq (stands_self ho), alignedSize]
  have halloc : e.copyContext.allocCopy o (alignedSize b e.memory o) MIN_ALIGNMENT 0 e.semantics =
      e.forward o := (if_pos hm).symm
  obtain ⟨h8, hle⟩ := h.size_le ho
  have hapart : e.forward o + alignedSize b s.memory o ≤ o ∨
      o + objectSize b s.memory o ≤ e.forward o := by
    have := h.forward_apart o ho o ho hm
    rw [hsize, hreloc.objectSize_eq (stands_self ho)]
    omega
  have hbits : ArtObjectModel.localForwardingBits / 8 = 7 := rfl
  refine ⟨e.copyContext.postCopy (s.memory.copy o (e.forward o) (alignedSize b e.memory o))
    (e.forward o) (alignedSize b e.memory o) e.semantics, ?_, ?_, ?_⟩
  · rw [ArtObjectModel.copy, ArtObjectModel.getSizeWhenCopied, hwf.getCurrentSize_eq,
      Option.bind_eq_bind, Option.bind_some]
    dsimp only
    rw [hsize, halloc, ← hsize, hwf.copyNonoverlapping_eq (h.aligned o ho) hapart]
    rfl
  · intro k hk hne
    rw [h.keepsBytes _ _ _ _ _ (by omega)]
    exact Memory.copy_add hk
  · intro x hx
    rw [h.keepsBytes _ _ _ _ _ (by omega)]
    exact Memory.copy_of_outside hx

theorem Inv.copy (hI : e.Inv s) (h : e.Sound) (ho : o ∈ e.live) (hm : e.moves o = true)
    (hnew : o ∉ s.copied) {d : Nat} {m' : Memory}
    (hcopy : ArtObjectModel.copy b s.memory o e.semantics e.copyContext = some (d, m')) :
    e.Inv { s with memory := m', copied := insert o s.copied } := by
  obtain ⟨m'', hcopy', hbytes, hframe⟩ := hI.copy_eq h ho hm
  cases hcopy.symm.trans hcopy'
  have hsize := h.size_le ho
  have hframe : e.Inv { s with memory := m' } := by
    refine hI.frame h fun {a p} hp k hk _ => hframe _ ?_
    have := h.size_le hp.1
    rcases hp.cases with rfl | ⟨hm', hcopied, rfl⟩
    · have := h.forward_apart o ho a hp.1 hm
      omega
    · have hne : o ≠ p := fun heq => hnew (heq ▸ hcopied)
      have := h.forwards_apart o ho p hp.1 hm hm' hne
      omega
  refine hframe.insert_copied ?_
  refine (hI.holds (stands_self ho)).transfer (h.wellFormed ho) fun k hk hpos => ?_
  exact hbytes k (by omega) (by omega)

/-- Scanning an object that stays where it is reports its references. -/
theorem Inv.scanObject_eq (hI : e.Inv s) (h : e.Sound) (ho : e.Arrived s o) :
    ∃ visits, scanObject b s.memory e.ptrSize true (e.forward o) = some visits ∧
      Visit.slots visits =
        (refSlots b e.memory e.ptrSize o).map (fun x => x - o + e.forward o) := by
  have hreloc := h.relocation hI.holds
  obtain ⟨visits, hscan, hslots⟩ := (hreloc.wellFormed ho.stands).scanObject_eq true
  exact ⟨visits, hscan, hslots.trans (hreloc.refSlots_eq ho.stands)⟩

theorem Inv.scan (hI : e.Inv s) (h : e.Sound) (ho : e.Arrived s o) {visits : List Visit}
    (hscan : scanObject b s.memory e.ptrSize true (e.forward o) = some visits) :
    e.Inv { s with
      scanned := insert o s.scanned
      pending := s.pending ++ (Visit.slots visits).map ArtSlot.mk } := by
  obtain ⟨visits', hscan', hslots⟩ := hI.scanObject_eq h ho
  cases hscan.symm.trans hscan'
  have hmem : ∀ slot, slot ∈ (Visit.slots visits).map ArtSlot.mk ↔
      ∃ f, e.IsReference o f ∧ slot = ⟨e.forward o + f⟩ := by
    intro slot
    rw [hslots, List.mem_map]
    simp only [List.mem_map, mem_refSlots_iff h ho.1]
    constructor
    · rintro ⟨_, ⟨_, ⟨f, hf, rfl⟩, rfl⟩, rfl⟩
      exact ⟨f, hf, by rw [Nat.add_sub_cancel_left, Nat.add_comm]⟩
    · rintro ⟨f, hf, rfl⟩
      exact ⟨_, ⟨_, ⟨f, hf, rfl⟩, rfl⟩, by rw [Nat.add_sub_cancel_left, Nat.add_comm]⟩
  constructor
  · exact hI.holds
  · intro p hp
    rcases Finset.mem_insert.mp hp with rfl | hp
    · exact ho
    · exact hI.scanned p hp
  · intro slot hslot
    rcases List.mem_append.mp hslot with hslot | hslot
    · exact hI.pending slot hslot
    · obtain ⟨f, hf, heq⟩ := (hmem slot).mp hslot
      exact ⟨o, f, ho, hf, heq⟩
  · intro p hp f hf
    rcases Finset.mem_insert.mp hp with rfl | hp
    · exact .inl (List.mem_append_right _ ((hmem _).mpr ⟨f, hf, rfl⟩))
    · exact (hI.processed p hp f hf).imp_left (List.mem_append_left _)

end

theorem Inv.setForwarding (hI : e.Inv s) (h : e.Sound) {p : Nat} (ho : e.Stands s a p) (w : Nat) :
    e.Inv { s with memory := s.memory.store32 (a + 4) w } := by
  refine hI.frame h fun {a' p'} ho' k hk hpos => Memory.store_of_outside ?_
  have := h.size_le ho.1
  have := h.size_le ho'.1
  have := h.stands_apart ho ho'
  omega

section
variable [FromRawAddress b]

/-- A reference to an object is traced to where the object stays. -/
theorem traceObject_eq_some (h : e.Sound) {object target : ObjectReference b}
    (ho : e.Stands s object.toRawAddress.val o) (htrace : e.traceObject s object = some target) :
    e.Arrived s o ∧ target.toRawAddress.val = e.forward o := by
  have hcard := b.two_pow_32_le_usizeCard
  rw [traceObject] at htrace
  split at htrace
  · next hlive =>
    -- an address of an object before the collection is of no other object
    have heq : object.toRawAddress.val = o := by
      rcases h.stands_apart (stands_self hlive) ho with ⟨-, heq⟩ | hapart
      · exact heq
      · have := h.size_le ho.1
        have := h.size_le hlive
        omega
    rw [heq] at htrace
    split at htrace
    · next harrived =>
      have hlt := h.forward_lt o ho.1
      have hval : (Fin.ofNat b.usizeCard (e.forward o)).val = e.forward o :=
        Nat.mod_eq_of_lt (by omega)
      have hne : Fin.ofNat b.usizeCard (e.forward o) ≠ 0 := fun h0 =>
        h.forward_ne_zero o ho.1 (hval.symm.trans (congrArg Fin.val h0))
      rw [FromRawAddress.fromRawAddress_of_ne hne] at htrace
      cases htrace
      exact ⟨harrived, hval⟩
    · cases htrace
  · next hlive =>
    cases htrace
    obtain ⟨ho, heq | hfwd⟩ := ho
    · exact absurd (heq ▸ ho) hlive
    · exact hfwd

/-- A processed slot holds where its object stays. -/
theorem Inv.processSlot_eq_some (hI : e.Inv s) (h : e.Sound) {f : Nat} (ho : e.Arrived s o)
    (hf : e.IsReference o f) {m' : Memory}
    (hprocess : e.processSlot s ⟨e.forward o + f⟩ = some m') :
    e.Arrived s (e.memory.load32 (o + f)) ∧
      m' = s.memory.store32 (e.forward o + f) (e.forward (e.memory.load32 (o + f))) := by
  have hcard := b.two_pow_32_le_usizeCard
  have hstands := (hI.holds ho.stands).reference f hf.1 hf.2
  have hlt := h.lt_of_stands hstands
  obtain ⟨object, hload, haddr⟩ := decompress_of_ne (b := b)
    ((h.relocation hI.holds).ne_zero hstands) (by omega)
  have hload : ArtSlot.load b s.memory ⟨e.forward o + f⟩ = some object := hload
  rw [processSlot, hload] at hprocess
  obtain ⟨target, htrace, heq⟩ := Option.bind_eq_some_iff.mp hprocess
  cases heq
  obtain ⟨harrived, htarget⟩ := traceObject_eq_some h (haddr ▸ hstands) htrace
  refine ⟨harrived, ?_⟩
  have hlt' := h.forward_lt _ harrived.1
  rw [ArtSlot.store, compress_of_lt (by omega), htarget]

theorem Inv.process (hI : e.Inv s) (h : e.Sound) {slot : ArtSlot} (hslot : slot ∈ s.pending)
    {m' : Memory} (hprocess : e.processSlot s slot = some m') :
    e.Inv { s with memory := m', pending := s.pending.erase slot } := by
  obtain ⟨o, f, ho, hf, rfl⟩ := hI.pending slot hslot
  obtain ⟨harrived, rfl⟩ := hI.processSlot_eq_some h ho hf hprocess
  have hlt := h.forward_lt _ harrived.1
  obtain ⟨hdvd, hend, -⟩ := Inv.word_of_isReference h ho.1 hf
  have hsize := h.size_le ho.1
  constructor
  · intro a p hp
    rcases h.stands_apart ho.stands hp with ⟨rfl, rfl⟩ | hapart
    · exact (hI.holds hp).store (h.wellFormed ho.1) hf.1 hf.2 harrived.stands hlt
    · refine (hI.holds hp).transfer (h.wellFormed hp.1) fun k hk _ => ?_
      have := h.size_le hp.1
      exact Memory.store_of_outside (by omega)
  · exact hI.scanned
  · exact fun slot hslot => hI.pending slot (List.mem_of_mem_erase hslot)
  · intro p hp g hg
    have hp' := hI.scanned p hp
    obtain ⟨hdvd', hend', -⟩ := Inv.word_of_isReference h hp'.1 hg
    by_cases heq : e.forward p + g = e.forward o + f
    · -- the same slot of the same object
      rcases h.stands_apart ho.stands hp'.stands with ⟨hfwd, rfl⟩ | hapart
      · have hgf : g = f := by omega
        subst hgf
        exact .inr (Memory.load32_store32 hlt)
      · have := h.size_le hp'.1
        omega
    · refine (hI.processed p hp g hg).imp (fun hmem => ?_) fun hword => ?_
      · exact (List.mem_erase_of_ne fun h => heq (ArtSlot.ext_iff.mp h)).mpr hmem
      · have := h.aligned o ho.1
        have := h.aligned p hp'.1
        refine (Memory.load32_store32_of_disjoint ?_).trans hword
        omega

end

/-! ### Every order of steps -/

section
variable [MmtkCore b] [FromRawAddress b]

theorem step_inv (h : e.Sound) (hI : e.Inv s) {t : TraceStep} (hs : e.step s t = some s') :
    e.Inv s' := by
  cases t with
  | copy o =>
    rw [step] at hs
    split at hs
    · next hcan =>
      obtain ⟨⟨d, m'⟩, hcopy, hs⟩ := Option.bind_eq_some_iff.mp hs
      cases hs
      exact hI.copy h hcan.1 hcan.2.1 hcan.2.2 hcopy
    · cases hs
  | scanObject o =>
    rw [step] at hs
    split at hs
    · next ho =>
      obtain ⟨visits, hscan, hs⟩ := Option.bind_eq_some_iff.mp hs
      cases hs
      exact hI.scan h ho hscan
    · cases hs
  | processSlot slot =>
    rw [step] at hs
    split at hs
    · next hslot =>
      obtain ⟨m', hprocess, hs⟩ := Option.bind_eq_some_iff.mp hs
      cases hs
      exact hI.process h hslot hprocess
    · cases hs
  | setForwarding a w =>
    rw [step] at hs
    split at hs
    · next ha =>
      obtain ⟨o, -, ho⟩ := ha
      cases hs
      exact hI.setForwarding h ho w
    · cases hs

omit [FromRawAddress b] in
theorem Inv.getObjectSize_eq (hI : e.Inv s) (h : e.Sound) (ho : e.Stands s a o) :
    getObjectSize b s.memory a = getObjectSize b e.memory o := by
  have hreloc := h.relocation hI.holds
  rw [(h.wellFormed ho.1).getObjectSize_eq, (hreloc.wellFormed ho).getObjectSize_eq,
    hreloc.objectSize_eq ho]

/-- Every object was scanned and every slot processed. -/
def Complete (e : Evacuation b CopySemantics) (s : EvacuationState) : Prop :=
  s.pending = [] ∧ ∀ o ∈ e.live, o ∈ s.scanned

omit [MmtkCore b] [FromRawAddress b] in
/-- A reference is replaced by where its object stays, and null stays. -/
theorem Inv.load32_forward (hI : e.Inv s) (hdone : e.Complete s) (ho : o ∈ e.live) {f : Nat}
    (hf : f ∈ 0 :: refOffsets b e.memory e.ptrSize o) :
    e.memory.load32 (o + f) = 0 ∧ s.memory.load32 (e.forward o + f) = 0 ∨
      e.memory.load32 (o + f) ∈ e.live ∧
        s.memory.load32 (e.forward o + f) = e.forward (e.memory.load32 (o + f)) := by
  have hscanned := hdone.2 o ho
  have hholds := hI.holds (hI.scanned o hscanned).stands
  by_cases h0 : e.memory.load32 (o + f) = 0
  · exact .inl ⟨h0, hholds.null f hf h0⟩
  · refine .inr ⟨(hholds.reference f hf h0).1, ?_⟩
    refine (hI.processed o hscanned f ⟨hf, h0⟩).resolve_left fun hmem => ?_
    rw [hdone.1] at hmem
    cases hmem

omit [MmtkCore b] [FromRawAddress b] in
theorem Sound.forward_injOn (h : e.Sound) (hall : ∀ o ∈ e.live, e.Arrived s o) :
    Set.InjOn e.forward e.live := by
  intro o ho o' ho' heq
  rcases h.stands_apart (hall o ho).stands (hall o' ho').stands with ⟨-, hoo⟩ | hapart
  · exact hoo
  · have := h.size_le ho
    have := h.size_le ho'
    omega

omit [MmtkCore b] [FromRawAddress b] in
/-- Once everything is done, the objects are laid out where they stay. -/
theorem Inv.sameLayout_forward (hI : e.Inv s) (h : e.Sound) (hdone : e.Complete s) :
    SameLayout b e.memory e.ptrSize s.memory (· ∈ e.live)
      (fun a o => o ∈ e.live ∧ a = e.forward o) := by
  have hall : ∀ o ∈ e.live, e.Arrived s o := fun o ho => hI.scanned o (hdone.2 o ho)
  have hreloc := h.relocation hI.holds
  constructor
  · exact h.heap
  · exact fun ho => ho.1
  · rintro _ o o' ⟨ho, rfl⟩ ⟨ho', heq⟩
    exact h.forward_injOn hall ho ho' heq
  · rintro _ o ⟨ho, rfl⟩
    exact h.forward_ne_zero o ho
  · rintro _ o ⟨ho, rfl⟩
    exact h.aligned o ho
  · rintro _ o ⟨ho, rfl⟩
    exact hreloc.end_lt (hall o ho).stands
  · rintro _ c ⟨hc, rfl⟩ hself
    exact hreloc.classClass (hall c hc).stands hself
  · rintro _ o ⟨ho, rfl⟩ f hf h0
    refine (hI.load32_forward hdone ho (fixedOffsets_subset hf)).elim (·.2) fun hr => ?_
    exact absurd h0 (h.heap.ne_zero _ hr.1)
  · rintro _ o ⟨ho, rfl⟩ f hf hne
    refine (hI.load32_forward hdone ho (fixedOffsets_subset hf)).resolve_left ?_
    exact fun h0 => hne h0.1
  · rintro _ o ⟨ho, rfl⟩
    exact (hI.holds (hall o ho).stands).data

instance (s : EvacuationState) : Decidable (e.Complete s) := inferInstanceAs (Decidable (_ ∧ _))

theorem Inv.copy_step (hI : e.Inv s) (h : e.Sound) (ho : o ∈ e.live) (hm : e.moves o = true)
    (hnew : o ∉ s.copied) :
    ∃ m', e.step s (.copy o) = some { s with memory := m', copied := insert o s.copied } := by
  obtain ⟨m', hcopy, -, -⟩ := hI.copy_eq h ho hm
  refine ⟨m', ?_⟩
  rw [step, if_pos ⟨ho, hm, hnew⟩, hcopy]
  rfl

theorem Inv.scan_step (hI : e.Inv s) (h : e.Sound) (ho : e.Arrived s o) :
    ∃ pending, e.step s (.scanObject o) =
      some { s with scanned := insert o s.scanned, pending } := by
  obtain ⟨visits, hscan, -⟩ := hI.scanObject_eq h ho
  refine ⟨s.pending ++ (Visit.slots visits).map ArtSlot.mk, ?_⟩
  rw [step, if_pos ho, hscan]
  rfl

/-- A slot can be processed when its object stays where it is. -/
theorem Sound.process_step (h : e.Sound) (hall : ∀ o ∈ e.live, e.Arrived s o)
    {slot : ArtSlot} (hslot : slot ∈ s.pending) :
    ∃ m', e.step s (.processSlot slot) =
      some { s with memory := m', pending := s.pending.erase slot } := by
  have hcard := b.two_pow_32_le_usizeCard
  rw [step, if_pos hslot, processSlot]
  cases hload : ArtSlot.load b s.memory slot with
  | none => exact ⟨s.memory, rfl⟩
  | some object =>
    have htrace : ∃ target, e.traceObject s object = some target := by
      rw [traceObject]
      split
      · next hlive =>
        have hlt := h.forward_lt _ hlive
        have hne : Fin.ofNat b.usizeCard (e.forward object.toRawAddress.val) ≠ 0 := fun h0 =>
          h.forward_ne_zero _ hlive ((Nat.mod_eq_of_lt (by omega)).symm.trans (congrArg Fin.val h0))
        rw [if_pos (hall _ hlive)]
        exact ⟨_, FromRawAddress.fromRawAddress_of_ne hne⟩
      · exact ⟨object, rfl⟩
    obtain ⟨target, htrace⟩ := htrace
    refine ⟨slot.store s.memory target, ?_⟩
    dsimp only
    rw [htrace]
    rfl

/-- What is left to do: objects to copy, then objects to scan, then slots. -/
def left (e : Evacuation b CopySemantics) (s : EvacuationState) : Nat × Nat × Nat :=
  ((e.live \ s.copied).card, (e.live \ s.scanned).card, s.pending.length)

omit [MmtkCore b] [FromRawAddress b] in
theorem card_sdiff_insert {l t : Finset Nat} (ho : o ∈ l) (hnew : o ∉ t) :
    (l \ insert o t).card < (l \ t).card := by
  refine Finset.card_lt_card (Finset.ssubset_iff_of_subset ?_ |>.mpr ⟨o, ?_, ?_⟩)
  · exact Finset.sdiff_subset_sdiff subset_rfl (Finset.subset_insert o t)
  · exact Finset.mem_sdiff.mpr ⟨ho, hnew⟩
  · exact fun hmem => (Finset.mem_sdiff.mp hmem).2 (Finset.mem_insert_self o t)

/-- While anything is left to do, something can be done. -/
theorem Inv.exists_step (hI : e.Inv s) (h : e.Sound) (hleft : ¬ e.Complete s) :
    ∃ t s', e.step s t = some s' ∧ e.Inv s' ∧ WellFoundedRelation.rel (e.left s') (e.left s) := by
  by_cases hcopy : ∃ o ∈ e.live, e.moves o = true ∧ o ∉ s.copied
  · obtain ⟨o, ho, hm, hnew⟩ := hcopy
    obtain ⟨m', hs⟩ := hI.copy_step h ho hm hnew
    exact ⟨_, _, hs, step_inv h hI hs, Prod.Lex.left _ _ (card_sdiff_insert ho hnew)⟩
  have hall : ∀ o ∈ e.live, e.Arrived s o := fun o ho =>
    ⟨ho, fun hm => not_not.mp fun hnew => hcopy ⟨o, ho, hm, hnew⟩⟩
  by_cases hscan : ∃ o ∈ e.live, o ∉ s.scanned
  · obtain ⟨o, ho, hnew⟩ := hscan
    obtain ⟨pending, hs⟩ := hI.scan_step h (hall o ho)
    exact ⟨_, _, hs, step_inv h hI hs,
      Prod.Lex.right _ (Prod.Lex.left _ _ (card_sdiff_insert ho hnew))⟩
  have hall' : ∀ o ∈ e.live, o ∈ s.scanned := fun o ho =>
    not_not.mp fun hnew => hscan ⟨o, ho, hnew⟩
  obtain ⟨slot, hslot⟩ := List.exists_mem_of_ne_nil s.pending fun hnil => hleft ⟨hnil, hall'⟩
  obtain ⟨m', hs⟩ := h.process_step hall hslot
  refine ⟨_, _, hs, step_inv h hI hs, Prod.Lex.right _ (Prod.Lex.right _ ?_)⟩
  rw [List.length_erase_of_mem hslot]
  exact Nat.sub_lt (List.length_pos_of_mem hslot) Nat.one_pos

end

end Evacuation
end MmtkArt
