import Mathlib.Data.Nat.Init

/-! # Locks that threads hold

`Exclusive` relates what the shared state says of the locks to what the local states say: a lock is
taken exactly when a thread holds it, and then by one thread. A step that takes free locks and
releases its own keeps it. Threads that take their locks in the order of a rank are not in deadlock:
where one waits, another one holds a lock and does not wait (`exists_not_waiting`). -/

namespace Locks

universe u v

variable {ι : Type u} {R : Type v}

/-- A lock is taken exactly when a thread holds it, and no two threads hold it. -/
structure Exclusive (locked : R → Bool) (holds : ι → R → Prop) : Prop where
  locked_iff : ∀ r, locked r = true ↔ ∃ i, holds i r
  unique : ∀ r i j, holds i r → holds j r → i = j

/-- What a step can do to a lock: leave it, take it while it is free, release it while the thread
holds it. -/
inductive Change (locked locked' : Bool) (held held' : Prop) : Prop
  | keep (hl : locked' = locked) (hh : held' ↔ held)
  | acquire (hl : locked = false) (hl' : locked' = true) (hh : held')
  | release (hh : held) (hl' : locked' = false) (hh' : ¬ held')

variable {locked locked' : R → Bool} {holds holds' : ι → R → Prop} {i j : ι} {r : R}

namespace Exclusive

theorem not_holds (h : Exclusive locked holds) (hr : locked r = false) (i : ι) : ¬ holds i r :=
  fun hi => Bool.false_ne_true (hr.symm.trans ((h.locked_iff r).mpr ⟨i, hi⟩))

/-- A lock that one thread holds is not changed by the step of another. -/
theorem change_of_ne {lockedAfter : Bool} {heldAfter : Prop} (h : Exclusive locked holds)
    (hij : i ≠ j) (hj : holds j r)
    (hc : Change (locked r) lockedAfter (holds i r) heldAfter) : ¬ holds i r ∧ ¬ heldAfter := by
  have hi : ¬ holds i r := fun hi => hij (h.unique r i j hi hj)
  cases hc with
  | keep _ hh => exact ⟨hi, fun h' => hi (hh.mp h')⟩
  | acquire hl => exact absurd hj (h.not_holds hl j)
  | release hh => exact absurd hh hi

/-- The step of one thread. -/
theorem step (h : Exclusive locked holds) (hother : ∀ j, j ≠ i → ∀ r, holds' j r ↔ holds j r)
    (hi : ∀ r, Change (locked r) (locked' r) (holds i r) (holds' i r)) :
    Exclusive locked' holds' := by
  have hkeep : ∀ r, (∃ j, j ≠ i ∧ holds' j r) → locked r = true ∧ ¬ holds' i r := by
    rintro r ⟨j, hj, hr⟩
    have hr := (hother j hj r).mp hr
    exact ⟨(h.locked_iff r).mpr ⟨j, hr⟩, (h.change_of_ne hj.symm hr (hi r)).2⟩
  constructor
  · intro r
    cases hi r with
    | keep hl hh =>
      rw [hl, h.locked_iff]
      refine exists_congr fun j => ?_
      by_cases hj : j = i
      · exact hj ▸ hh.symm
      · exact (hother j hj r).symm
    | acquire _ hl' hh => exact iff_of_true hl' ⟨i, hh⟩
    | release hh hl' hh' =>
      refine iff_of_false (by simp [hl']) ?_
      rintro ⟨j, hj⟩
      by_cases hne : j = i
      · exact hh' (hne ▸ hj)
      · exact hne (h.unique r j i ((hother j hne r).mp hj) hh)
  · intro r j k hj hk
    by_cases hji : j = i
    · by_cases hki : k = i
      · exact hji.trans hki.symm
      · exact absurd (hji ▸ hj) (hkeep r ⟨k, hki, hk⟩).2
    · by_cases hki : k = i
      · exact absurd (hki ▸ hk) (hkeep r ⟨j, hji, hj⟩).2
      · exact h.unique r j k ((hother j hji r).mp hj) ((hother k hki r).mp hk)

end Exclusive

/-- **Lock order.** Every thread waits for a lock that another one holds, and only for one of
greater rank than those it holds itself. Then where a thread waits, some thread holds a lock and
does not wait. -/
theorem exists_not_waiting {waits : ι → R → Prop} (rank : R → Nat) {bound : Nat}
    (hbound : ∀ r, rank r ≤ bound) (hheld : ∀ i r, waits i r → ∃ j, holds j r)
    (horder : ∀ i r r', holds i r → waits i r' → rank r < rank r') (h : waits i r) :
    ∃ j, (∃ r, holds j r) ∧ ∀ r, ¬ waits j r := by
  induction hn : bound - rank r using Nat.strong_induction_on generalizing i r with
  | _ n ih =>
    obtain ⟨j, hj⟩ := hheld i r h
    by_cases hw : ∃ r', waits j r'
    · obtain ⟨r', hr'⟩ := hw
      have hlt := horder j r r' hj hr'
      have hle := hbound r'
      exact ih (bound - rank r') (by omega) hr' rfl
    · exact ⟨j, ⟨r, hj⟩, fun r' hr' => hw ⟨r', hr'⟩⟩

end Locks
