import Mathlib.Data.Finset.Sort
import Mathlib.Data.List.Nodup
import Mathlib.Data.List.Range

/-! # The set bits of a bitmap

`setBits k w` lists the positions of the set bits among the `k` low bits of a word, the least
first. `bitmap words n` does so for `n` words of 32 bits in sequence. -/

def setBits (k w : Nat) : List Nat := (List.range k).filter w.testBit

def bitmap (words : Nat → Nat) (n : Nat) : List Nat :=
  (List.range (32 * n)).filter fun i => (words (i / 32)).testBit (i % 32)

section
variable {k w i n : Nat} {words : Nat → Nat}

@[simp] theorem setBits_zero_right : setBits k 0 = [] := by
  simp [setBits]

/-- The lowest bit, and the bits of the word shifted by one. -/
theorem setBits_succ : setBits (k + 1) w =
    (if w &&& 1 ≠ 0 then [0] else []) ++ (setBits k (w >>> 1)).map (· + 1) := by
  rw [setBits, List.range_succ_eq_map, List.filter_cons, List.filter_map]
  have hshift : (Nat.testBit w ∘ Nat.succ) = (w >>> 1).testBit := by
    funext i
    rw [Function.comp_apply, Nat.testBit_shiftRight, Nat.add_comm]
  have hlow : w.testBit 0 = decide (w &&& 1 ≠ 0) := by
    rw [Nat.testBit_zero, Nat.and_one_is_mod]
    simp
  rw [hshift, hlow]
  split
  · next h => rw [if_pos (of_decide_eq_true h)]; rfl
  · next h => rw [if_neg (of_decide_eq_false (eq_false_of_ne_true h))]; rfl

theorem mem_bitmap : i ∈ bitmap words n ↔
    i < 32 * n ∧ (words (i / 32)).testBit (i % 32) = true := by
  rw [bitmap, List.mem_filter, List.mem_range]

theorem bitmap_congr {words' : Nat → Nat} (h : ∀ i, i < n → words i = words' i) :
    bitmap words n = bitmap words' n := by
  apply List.filter_congr
  intro i hi
  have hi := List.mem_range.mp hi
  rw [h (i / 32) (by omega)]

theorem bitmap_nodup : (bitmap words n).Nodup := List.nodup_range.filter _

/-- The positions are in increasing order. -/
theorem bitmap_eq_sort {s : Finset Nat}
    (h : ∀ i, i ∈ s ↔ i < 32 * n ∧ (words (i / 32)).testBit (i % 32) = true) :
    bitmap words n = s.sort := by
  refine List.Pairwise.eq_of_mem_iff (List.pairwise_lt_range.filter _) s.sortedLT_sort.pairwise ?_
  intro i
  rw [mem_bitmap, Finset.mem_sort, h]

/-- Word by word. -/
theorem bitmap_eq_flatMap : bitmap words n =
    (List.range n).flatMap fun j => (setBits 32 (words j)).map (32 * j + ·) := by
  induction n with
  | zero => rfl
  | succ n ih =>
    rw [List.range_succ, List.flatMap_append, ← ih, bitmap, Nat.mul_succ, List.range_add,
      List.filter_append, List.filter_map]
    have hword : ((fun i => (words (i / 32)).testBit (i % 32)) ∘ (32 * n + ·)) =
        fun i => (words ((32 * n + i) / 32)).testBit ((32 * n + i) % 32) := rfl
    rw [hword, List.flatMap_singleton, setBits]
    congr 2
    apply List.filter_congr
    intro i hi
    have hi := List.mem_range.mp hi
    rw [show (32 * n + i) / 32 = n by omega, show (32 * n + i) % 32 = i by omega]

end
