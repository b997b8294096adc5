import Mathlib.Logic.Function.Basic
import MmtkArt.Util.Machine

/-! # Threads that interleave on a shared state

Each thread has a local state and takes one atomic step at a time on the shared state. The machine
of all threads picks in each action the thread that steps. `Interleaving.local_of_stable` is the
rely/guarantee rule: if every step of a thread changes the shared state only as `R` allows, and a
local property survives what `R` allows, then it holds of every thread. -/

namespace Interleaving

universe u v w x

variable {ι : Type u} {σ : Type v} {l : Type w} {α : Type x} [DecidableEq ι]

/-- One thread's atomic step. -/
abbrev Thread (σ : Type v) (l : Type w) (α : Type x) := σ → l → α → Option (σ × l)

def step (thread : Thread σ l α) : Machine.Step (σ × (ι → l)) (ι × α) := fun s a =>
  (thread s.1 (s.2 a.1) a.2).map fun r => (r.1, Function.update s.2 a.1 r.2)

variable {thread : Thread σ l α} {s t : σ × (ι → l)} {i : ι} {a : α}

/-- A step is a step of the chosen thread, and the other threads stay where they are. -/
theorem step_eq_some (h : step thread s (i, a) = some t) :
    thread s.1 (s.2 i) a = some (t.1, t.2 i) ∧ ∀ j, j ≠ i → t.2 j = s.2 j := by
  obtain ⟨⟨x, y⟩, hr, rfl⟩ := Option.map_eq_some_iff.mp h
  refine ⟨?_, fun j hj => Function.update_of_ne hj _ _⟩
  dsimp only at hr ⊢
  rw [hr, Function.update_self]

/-- **Rely/guarantee.** A property of the shared state and one thread's local state holds of every
thread after a step, if the step keeps it for the thread that takes it and changes the shared state
as `R` allows, and what `R` allows keeps it for the others. -/
theorem local_of_stable {R : σ → σ → Prop} {L : ι → σ → l → Prop}
    (hstable : ∀ j x x' y, R x x' → L j x y → L j x' y)
    (hL : ∀ j, L j s.1 (s.2 j)) (h : step thread s (i, a) = some t)
    (hthread : thread s.1 (s.2 i) a = some (t.1, t.2 i) → R s.1 t.1 ∧ L i t.1 (t.2 i)) :
    R s.1 t.1 ∧ ∀ j, L j t.1 (t.2 j) := by
  obtain ⟨hi, hother⟩ := step_eq_some h
  obtain ⟨hR, hLi⟩ := hthread hi
  refine ⟨hR, fun j => ?_⟩
  by_cases hj : j = i
  · exact hj ▸ hLi
  · rw [hother j hj]
    exact hstable j _ _ _ hR (hL j)

end Interleaving
