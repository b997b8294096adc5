import MmtkArt.Abi
import MmtkArt.VmLayout

/-! # Slots

A slot holds a reference in 32 bits. `compress` truncates the address without a check of its own;
the range that `set_vm_layout` fixes ends below 2^32, so every reference into the heap survives it
(`slots_hold_references`). -/

namespace MmtkArt

/-- mmtk-core's `ObjectReference`: an address that is not null. -/
@[ext] structure ObjectReference (b : Build) where
  toRawAddress : Usize b
  ne_zero : toRawAddress ≠ 0
  deriving DecidableEq

/-- What mmtk-core documents of `from_raw_address`: null is no object reference. -/
class FromRawAddress (b : Build) where
  fromRawAddress : Usize b → Option (ObjectReference b)
  fromRawAddress_zero : fromRawAddress 0 = none
  fromRawAddress_of_ne : ∀ {a : Usize b} (h : a ≠ 0), fromRawAddress a = some ⟨a, h⟩

/-- A function that behaves so. -/
@[reducible] def FromRawAddress.documented (b : Build) : FromRawAddress b where
  fromRawAddress a := if h : a = 0 then none else some ⟨a, h⟩
  fromRawAddress_zero := rfl
  fromRawAddress_of_ne h := dif_neg h

section
variable {b : Build}

/-- `as u32` -/
def compress (o : ObjectReference b) : Nat := o.toRawAddress.val % 2 ^ 32

def decompress [FromRawAddress b] (v : Nat) : Option (ObjectReference b) :=
  if v = 0 then none else FromRawAddress.fromRawAddress (Fin.ofNat b.usizeCard v)

/-- ART slots only operate on 32 bits. -/
@[ext] structure ArtSlot where
  address : Nat
  deriving DecidableEq, Repr

namespace ArtSlot

def load (b : Build) [FromRawAddress b] (m : Memory) (slot : ArtSlot) :
    Option (ObjectReference b) := decompress (m.load32 slot.address)

def store (m : Memory) (slot : ArtSlot) (object : ObjectReference b) : Memory :=
  m.store32 slot.address (compress object)

/-- The reference in the slot, as an `ArtHeapReference`. -/
def loadClass (m : Memory) (slot : ArtSlot) : Nat := m.load32 slot.address

/-- A sequence of stores. -/
def stores (m : Memory) (l : List (ArtSlot × ObjectReference b)) : Memory :=
  l.foldl (fun m p => p.1.store m p.2) m

end ArtSlot

/-! ### Compression -/

theorem compress_of_lt {o : ObjectReference b} (h : o.toRawAddress.val < 2 ^ 32) :
    compress o = o.toRawAddress.val := Nat.mod_eq_of_lt h

theorem compress_ne_zero {o : ObjectReference b} (h : o.toRawAddress.val < 2 ^ 32) :
    compress o ≠ 0 := by
  rw [compress_of_lt h]
  exact fun h0 => o.ne_zero (Fin.ext h0)

theorem decompress_compress [FromRawAddress b] {o : ObjectReference b}
    (h : o.toRawAddress.val < 2 ^ 32) : decompress (compress o) = some o := by
  have hne : Fin.ofNat b.usizeCard (compress o) = o.toRawAddress := by
    rw [compress_of_lt h]
    exact Fin.ext (Nat.mod_eq_of_lt o.toRawAddress.isLt)
  rw [decompress, if_neg (compress_ne_zero h), hne]
  exact FromRawAddress.fromRawAddress_of_ne o.ne_zero

/-- The reference with a given address. -/
theorem decompress_of_ne [FromRawAddress b] {v : Nat} (h0 : v ≠ 0) (hlt : v < b.usizeCard) :
    ∃ o : ObjectReference b, decompress v = some o ∧ o.toRawAddress.val = v := by
  have hval : (Fin.ofNat b.usizeCard v).val = v := Nat.mod_eq_of_lt hlt
  have hne : Fin.ofNat b.usizeCard v ≠ 0 := fun h => h0 (hval.symm.trans (congrArg Fin.val h))
  exact ⟨⟨_, hne⟩, (if_neg h0).trans (FromRawAddress.fromRawAddress_of_ne hne), hval⟩

theorem compress_injective {o o' : ObjectReference b} (h : o.toRawAddress.val < 2 ^ 32)
    (h' : o'.toRawAddress.val < 2 ^ 32) (heq : compress o = compress o') : o = o' := by
  rw [compress_of_lt h, compress_of_lt h'] at heq
  exact ObjectReference.ext (Fin.ext heq)

/-! ### Stores -/

namespace ArtSlot

variable {m : Memory} {slot slot' : ArtSlot} {o : ObjectReference b}

theorem load32_store (h : o.toRawAddress.val < 2 ^ 32) :
    (slot.store m o).load32 slot.address = o.toRawAddress.val :=
  (Memory.load32_store32 (Nat.mod_lt _ (by decide))).trans (compress_of_lt h)

/-- Two slots that are not the same do not overlap. -/
theorem load32_store_of_ne (hs : 4 ∣ slot.address) (hs' : 4 ∣ slot'.address) (hne : slot ≠ slot') :
    (slot.store m o).load32 slot'.address = m.load32 slot'.address := by
  apply Memory.load32_store32_of_disjoint
  have hne : slot.address ≠ slot'.address := fun heq => hne (ArtSlot.ext heq)
  omega

variable {l : List (ArtSlot × ObjectReference b)}

/-- A slot that nothing is stored to keeps its word. -/
theorem load32_stores_of_ne (hl : ∀ p ∈ l, 4 ∣ p.1.address) (hs : 4 ∣ slot.address)
    (hne : ∀ p ∈ l, p.1 ≠ slot) : (stores m l).load32 slot.address = m.load32 slot.address := by
  induction l generalizing m with
  | nil => rfl
  | cons p l ih =>
    have hrest := ih (m := p.1.store m p.2) (fun q hq => hl q (List.mem_cons_of_mem p hq))
      fun q hq => hne q (List.mem_cons_of_mem p hq)
    exact hrest.trans (load32_store_of_ne (hl p List.mem_cons_self) hs (hne p List.mem_cons_self))

/-- The word of a slot is the last one stored there. -/
theorem load32_stores {pre post : List (ArtSlot × ObjectReference b)}
    (hl : ∀ p ∈ pre ++ (slot, o) :: post, 4 ∣ p.1.address) (ho : o.toRawAddress.val < 2 ^ 32)
    (hpost : ∀ p ∈ post, p.1 ≠ slot) :
    (stores m (pre ++ (slot, o) :: post)).load32 slot.address = o.toRawAddress.val := by
  have hpost' : ∀ p ∈ post, 4 ∣ p.1.address := fun p hp =>
    hl p (List.mem_append_right _ (List.mem_cons_of_mem _ hp))
  have hs : 4 ∣ slot.address := hl (slot, o) (List.mem_append_right _ List.mem_cons_self)
  rw [stores, List.foldl_append, List.foldl_cons]
  exact (load32_stores_of_ne hpost' hs hpost).trans (load32_store ho)

end ArtSlot

/-! ### The heap -/

variable [MmtkCore b] {maxHeapSize : Usize b} {layout : VmLayout}

/-- An address between the ends of the heap. -/
def VmLayout.Contains (layout : VmLayout) (a : Nat) : Prop :=
  layout.heapStart ≤ a ∧ a < layout.heapEnd

/-- The heap starts above null and ends below 2^32. -/
theorem setVmLayout_contains {a : Nat} (h : setVmLayout maxHeapSize = some layout)
    (ha : layout.Contains a) : a ≠ 0 ∧ a < 2 ^ 32 := by
  obtain ⟨hle, rfl⟩ := setVmLayout_eq_some h
  obtain ⟨hstart, hend⟩ := ha
  have hpos : 0 < b.targetPointerWidth.heapBase := by cases b.targetPointerWidth <;> decide
  have hbase := b.targetPointerWidth.heapBase_le
  have hchunk : BYTES_IN_CHUNK = 2 ^ 22 := rfl
  have hup := alignUp_lt (a := BYTES_IN_CHUNK) (by decide)
    (v := b.targetPointerWidth.heapBase + maxHeapSize.val + 5 * BYTES_IN_CHUNK)
  dsimp only [VmLayout.ofHeapSize] at hstart hend
  omega

/-- **Slots hold every reference into the heap.** -/
theorem slots_hold_references [FromRawAddress b] (h : setVmLayout maxHeapSize = some layout) :
    (∀ a, layout.Contains a → a ≠ 0 ∧ ∃ o : ObjectReference b, o.toRawAddress.val = a ∧
      compress o ≠ 0 ∧ decompress (compress o) = some o) ∧
    (∀ o o' : ObjectReference b, layout.Contains o.toRawAddress → layout.Contains o'.toRawAddress →
      compress o = compress o' → o = o') ∧
    ∀ (m : Memory) (l : List (ArtSlot × ObjectReference b)),
      (∀ p ∈ l, 4 ∣ p.1.address ∧ layout.Contains p.2.toRawAddress) →
      (∀ pre slot o post, l = pre ++ (slot, o) :: post → (∀ p ∈ post, p.1 ≠ slot) →
        (ArtSlot.load b (ArtSlot.stores m l) slot = some o ∧
        ArtHeapReference.deref (ArtSlot.loadClass (ArtSlot.stores m l) slot) =
          some o.toRawAddress.val)) ∧
      ∀ slot : ArtSlot, 4 ∣ slot.address → (∀ p ∈ l, p.1 ≠ slot) →
        ArtSlot.load b (ArtSlot.stores m l) slot = ArtSlot.load b m slot := by
  have hcard := b.two_pow_32_le_usizeCard
  refine ⟨fun a ha => ?_, fun o o' ho ho' => compress_injective (setVmLayout_contains h ho).2
    (setVmLayout_contains h ho').2, fun m l hl => ⟨?_, ?_⟩⟩
  · obtain ⟨hne, hlt⟩ := setVmLayout_contains h ha
    let o : ObjectReference b := ⟨⟨a, by omega⟩, fun h0 => hne (congrArg Fin.val h0)⟩
    exact ⟨hne, o, rfl, compress_ne_zero hlt, decompress_compress hlt⟩
  · rintro pre slot o post rfl hpost
    have ho := (setVmLayout_contains h
      (hl (slot, o) (List.mem_append_right _ List.mem_cons_self)).2).2
    have hword := ArtSlot.load32_stores (m := m) (fun p hp => (hl p hp).1) ho hpost
    constructor
    · rw [ArtSlot.load, hword, ← compress_of_lt ho]
      exact decompress_compress ho
    · rw [ArtSlot.loadClass, hword]
      exact ArtHeapReference.deref_of_ne fun h0 => o.ne_zero (Fin.ext h0)
  · intro slot hs hne
    rw [ArtSlot.load, ArtSlot.load,
      ArtSlot.load32_stores_of_ne (fun p hp => (hl p hp).1) hs hne]

/-- The last object of the largest heap survives the slot at 0x1000. -/
theorem slots_hold_references_top :
    letI := MmtkCore.documented .android64
    letI := FromRawAddress.documented .android64
    let o : ObjectReference .android64 := ⟨0x817f_fff8, by decide⟩
    ArtSlot.load .android64 (ArtSlot.stores (.ofWords []) [(⟨0x1000⟩, o)]) ⟨0x1000⟩ = some o := by
  let _ := MmtkCore.documented .android64
  let _ := FromRawAddress.documented .android64
  intro o
  have hlayout : setVmLayout (b := .android64) (2 ^ 31) =
      some ⟨32, 0x40_0000, 0x8180_0000, 31, false⟩ := by decide +kernel
  obtain ⟨-, -, hstores⟩ := slots_hold_references hlayout
  refine ((hstores _ [(⟨0x1000⟩, o)] fun p hp => ?_).1 [] _ _ [] rfl fun p hp => ?_).1
  · rw [List.mem_singleton.mp hp]
    exact ⟨by decide, by decide, by decide⟩
  · exact absurd hp List.not_mem_nil

end
end MmtkArt
