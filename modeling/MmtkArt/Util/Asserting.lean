import MmtkArt.Util.Refines

/-! # Computations that assert

`Asserting P x y` says that `x` is `y` with assertions, which hold when `P` does: `x` returns what
`y` returns under `P`, and fails otherwise. One rule for each construct collects what is
asserted. -/

/-- `x` returns what `y` returns if `P` holds, and fails otherwise. -/
def Asserting {α : Type} (P : Prop) (x y : Option α) : Prop := ∀ v, x = some v ↔ P ∧ y = some v

namespace Asserting

variable {α β : Type} {P Q : Prop} {x y : Option α}

theorem refl (x : Option α) : Asserting True x x := fun _ => (iff_of_eq (true_and _)).symm

theorem congr (h : Asserting P x y) (hPQ : P ↔ Q) : Asserting Q x y := fun v =>
  (h v).trans (and_congr_left fun _ => hPQ)

theorem refines (h : Asserting P x y) : Refines x y := fun v hv => ((h v).mp hv).2

theorem guard_bind {p : Prop} [Decidable p] {f : Unit → Option α} (hp : p) :
    (guard p >>= f) = f () := by
  unfold guard
  rw [if_pos hp]
  rfl

theorem guard_bind_eq_some {p : Prop} [Decidable p] {f : Unit → Option α} {v : α} :
    (guard p >>= f) = some v ↔ p ∧ f () = some v := by
  by_cases hp : p
  · rw [guard_bind hp]
    exact (and_iff_right hp).symm
  · unfold guard
    rw [if_neg hp]
    exact iff_of_false nofun fun h => hp h.1

/-- A computation that only asserts. -/
theorem of_unit {x : Option Unit} (h : x = some () ↔ P) : Asserting P x (some ()) := fun _ =>
  h.trans (and_iff_left rfl).symm

/-- An assertion. -/
theorem of_guard {p : Prop} [Decidable p] {f : Unit → Option α} (h : p → Asserting P (f ()) y) :
    Asserting (p ∧ P) (guard p >>= f) y := by
  intro v
  rw [guard_bind_eq_some, and_assoc]
  exact and_congr_right fun hp => h hp v

/-- An assertion about something computed. -/
theorem of_check {c : Option β} {q : β → Prop} [DecidablePred q] {f : Unit → Option α}
    (h : ∀ v, c = some v → q v → Asserting P (f ()) y) :
    Asserting ((∃ v, c = some v ∧ q v) ∧ P) (c >>= fun v => guard (q v) >>= f) y := by
  cases c with
  | none => exact fun v => iff_of_false nofun fun ⟨⟨⟨_, hc, _⟩, _⟩, _⟩ => nomatch hc
  | some v =>
    refine (of_guard (h v rfl)).congr (and_congr_left fun _ => ?_)
    constructor
    · exact fun hq => ⟨v, rfl, hq⟩
    · rintro ⟨_, hc, hq⟩
      cases hc
      exact hq

theorem bind {f g : α → Option β} {R : α → Prop} (h : Asserting P x y)
    (hf : ∀ v, y = some v → Asserting (R v) (f v) (g v)) :
    Asserting (P ∧ ∀ v, y = some v → R v) (x >>= f) (y >>= g) := by
  intro w
  constructor
  · intro hw
    obtain ⟨v, hx, hw⟩ := Option.bind_eq_some_iff.mp hw
    obtain ⟨hP, hy⟩ := (h v).mp hx
    obtain ⟨hR, hw⟩ := (hf v hy w).mp hw
    refine ⟨⟨hP, fun v' hy' => ?_⟩, Option.bind_eq_some_iff.mpr ⟨v, hy, hw⟩⟩
    cases hy.symm.trans hy'
    exact hR
  · rintro ⟨⟨hP, hR⟩, hw⟩
    obtain ⟨v, hy, hw⟩ := Option.bind_eq_some_iff.mp hw
    exact Option.bind_eq_some_iff.mpr ⟨v, (h v).mpr ⟨hP, hy⟩, (hf v hy w).mpr ⟨hR v hy, hw⟩⟩

/-- A value that the other computation has at hand. -/
theorem of_bind {c : Option β} {f : β → Option α} {w : β} (hc : Asserting P c (some w))
    (hf : P → Asserting Q (f w) y) : Asserting (P ∧ Q) (c >>= f) y := by
  intro v
  rw [Option.bind_eq_bind, Option.bind_eq_some_iff]
  constructor
  · rintro ⟨w', hw, hv⟩
    obtain ⟨hP, heq⟩ := (hc w').mp hw
    cases heq
    obtain ⟨hQ, hv⟩ := (hf hP v).mp hv
    exact ⟨⟨hP, hQ⟩, hv⟩
  · rintro ⟨⟨hP, hQ⟩, hv⟩
    exact ⟨w, (hc w).mpr ⟨hP, rfl⟩, (hf hP v).mpr ⟨hQ, hv⟩⟩

/-- What follows asserts nothing. -/
theorem bind_left {f : α → Option β} (h : Asserting P x y) : Asserting P (x >>= f) (y >>= f) :=
  (h.bind fun v _ => refl (f v)).congr (and_iff_left fun _ _ => trivial)

/-- Only what follows a value asserts. -/
theorem bind_right {f g : α → Option β} {v : α} (hy : y = some v)
    (hf : Asserting P (f v) (g v)) : Asserting P (y >>= f) (y >>= g) := by
  rw [hy]
  exact hf

end Asserting
