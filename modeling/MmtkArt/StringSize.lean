import MmtkArt.Layout

/-! # The size of a string

The length of a string and its encoding share the word `count`, which `get_length` shifts as an
`i32`. A length from 2^30 on has the sign bit set there, and a compressed string that long fits in
the heap; below, lengths and sizes are exact (`sizeExact_iff`). -/

namespace MmtkArt
namespace ArtString

variable {b : Build} {m : Memory} {s n : Nat} {compressed : Bool}

/-- The bytes of a string object, before they are rounded up. -/
def trueSize (compressed : Bool) (n : Nat) : Nat := size + (if compressed then 1 else 2) * n

/-- The object `s` is a string of `n` characters. -/
structure IsString (b : Build) (m : Memory) (s : Nat) (compressed : Bool) (n : Nat) : Prop where
  klass_ne : Object.getClass b m s ≠ 0
  not_array : Class.isArrayClass m (Object.getClass b m s) = false
  not_class : Class.isClassClass b m (Object.getClass b m s) = false
  string : Class.isStringClass m (Object.getClass b m s) = true
  count : m.load32 (s + 8) = n <<< 1 ||| if compressed then 0 else 1

/-- The encoding and the length come out, and the size is the true one rounded up. -/
def SizeExact (b : Build) [MmtkCore b] (m : Memory) (s : Nat) (compressed : Bool) (n : Nat) :
    Prop :=
  isCompressed m s = compressed ∧ getLength m s = n ∧
    ∃ extent, getObjectSize b m s = some extent ∧
      extent = alignUp MIN_ALIGNMENT (trueSize compressed n) ∧
      trueSize compressed n ≤ extent ∧ extent < trueSize compressed n + 8

namespace IsString

theorem count_eq (h : IsString b m s compressed n) :
    m.load32 (s + 8) = 2 * n + if compressed then 0 else 1 := by
  have hflag : (if compressed then 0 else 1) < 2 ^ 1 := by cases compressed <;> decide
  rw [h.count, ← Nat.shiftLeft_add_eq_or_of_lt hflag, Nat.shiftLeft_eq, Nat.mul_comm]

theorem isCompressed_eq (h : IsString b m s compressed n) : isCompressed m s = compressed := by
  rw [isCompressed, h.count_eq, Nat.and_one_is_mod]
  cases compressed <;> simp

/-- A length from 2^30 on comes out negative. -/
theorem getLength_eq_iff (h : IsString b m s compressed n) : getLength m s = n ↔ n < 2 ^ 30 := by
  have hlt := Memory.load32_lt (m := m) (a := s + 8)
  have hcount := h.count_eq
  rw [getLength, ArtString.count, Int.shiftRight_eq_div_pow]
  constructor
  · intro heq
    by_contra hn
    have hneg : ¬ 0 ≤ asI32 (m.load32 (s + 8)) := fun h0 => by
      have := (asI32_nonneg_iff hlt).mp h0
      omega
    omega
  · intro hn
    rw [asI32_of_lt (by split at hcount <;> omega)]
    split at hcount <;> omega

theorem getObjectSize_eq [MmtkCore b] (h : IsString b m s compressed n) (hn : n < 2 ^ 30)
    (hle : trueSize compressed n ≤ 2 ^ 31) :
    getObjectSize b m s = some (alignUp MIN_ALIGNMENT (trueSize compressed n)) := by
  have hlength := h.getLength_eq_iff.mpr hn
  have hsize : stringSize m s = alignUp MIN_ALIGNMENT (trueSize compressed n) := by
    rw [stringSize, h.isCompressed_eq, hlength, Int.toNat_natCast]
    rfl
  have hcount : 0 ≤ ArtString.count m s :=
    (asI32_nonneg_iff Memory.load32_lt).mpr (by rw [h.count_eq]; split <;> omega)
  have hbound : stringSize m s ≤ 2 ^ 31 :=
    hsize ▸ alignUp_le_of_dvd (by decide) (by decide) hle
  rw [getObjectSize, ArtHeapReference.deref_of_ne h.klass_ne, Option.bind_eq_bind,
    Option.bind_some, h.not_array, h.not_class, h.string, ← hsize]
  exact sizeOf_eq hcount hbound

end IsString

/-- **The size of a string is exact up to 2^30 characters**, and from there on the length is
wrong. -/
theorem sizeExact_iff [MmtkCore b] (h : IsString b m s compressed n)
    (hle : trueSize compressed n ≤ 2 ^ 31) : SizeExact b m s compressed n ↔ n < 2 ^ 30 := by
  constructor
  · rintro ⟨-, hlength, -⟩
    exact h.getLength_eq_iff.mp hlength
  · intro hn
    exact ⟨h.isCompressed_eq, h.getLength_eq_iff.mpr hn, _, h.getObjectSize_eq hn hle, rfl,
      le_alignUp (by decide), alignUp_lt (by decide)⟩

/-- A string at 0x3000 with this count; its class is at 0x4000. -/
def stringOfCount (count : Nat) : Memory := .ofWords [
  (0x3000, 0x4000), (0x3008, count), (0x4000, 0x5000), (0x4044, Class.kClassFlagString)]

/-- Five characters of two bytes. -/
theorem sizeExact_five :
    letI := MmtkCore.documented .android64
    SizeExact .android64 (stringOfCount 11) 0x3000 false 5 := by
  let _ := MmtkCore.documented .android64
  have h : IsString .android64 (stringOfCount 11) 0x3000 false 5 := by
    constructor <;> decide +kernel
  exact (sizeExact_iff h (by decide)).mpr (by decide)

/-- The length of a compressed string of 2^30 characters comes out as -2^30. -/
theorem not_sizeExact :
    letI := MmtkCore.documented .android64
    ¬ ∀ (m : Memory) (s : Nat) (compressed : Bool) (n : Nat),
      IsString .android64 m s compressed n → trueSize compressed n ≤ 2 ^ 31 →
      SizeExact .android64 m s compressed n := by
  intro h
  have hs : IsString .android64 (stringOfCount (2 ^ 31)) 0x3000 true (2 ^ 30) := by
    constructor <;> decide +kernel
  have hlength := (h _ _ _ _ hs (by decide)).2.1
  exact absurd hlength (by decide +kernel)

end ArtString
end MmtkArt
