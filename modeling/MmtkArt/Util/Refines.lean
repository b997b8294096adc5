import Mathlib.Control.Basic

/-! # Partial computations that agree where they are defined

A computation refines another one when the other returns whatever it returns. A computation that
checks more than another one refines it, and one rule for each construct shows it. -/

/-- `y` returns whatever `x` returns. -/
def Refines {α : Type} (x y : Option α) : Prop := ∀ v, x = some v → y = some v

namespace Refines

variable {α β : Type} {x y : Option α}

theorem refl (x : Option α) : Refines x x := fun _ => id

theorem bind {f g : α → Option β} (h : Refines x y) (hf : ∀ v, Refines (f v) (g v)) :
    Refines (x >>= f) (y >>= g) := by
  intro z hz
  obtain ⟨v, hv, hz⟩ := Option.bind_eq_some_iff.mp hz
  exact Option.bind_eq_some_iff.mpr ⟨v, h v hv, hf v z hz⟩

/-- A step that the other computation does not take, or that cannot fail there. -/
theorem bind_left {f : α → Option β} {z : Option β} (hf : ∀ v, x = some v → Refines (f v) z) :
    Refines (x >>= f) z := by
  intro w hw
  obtain ⟨v, hv, hw⟩ := Option.bind_eq_some_iff.mp hw
  exact hf v hv w hw

theorem ite {p : Prop} [Decidable p] {x' y' : Option α} (h : p → Refines x y)
    (h' : ¬ p → Refines x' y') : Refines (if p then x else x') (if p then y else y') := by
  split
  · next hp => exact h hp
  · next hp => exact h' hp

theorem mapM {f g : α → Option β} (h : ∀ a, Refines (f a) (g a)) (l : List α) :
    Refines (l.mapM f) (l.mapM g) := by
  induction l with
  | nil => exact refl _
  | cons a l ih =>
    rw [List.mapM_cons, List.mapM_cons]
    exact (h a).bind fun _ => ih.bind fun _ => refl _

end Refines
