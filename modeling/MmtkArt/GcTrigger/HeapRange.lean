import MmtkArt.GcTrigger.Runs
import MmtkArt.VmLayout

/-! # The limits and the address range of the heap

`set_vm_layout` fixes the range from the start-up capacity and no operation looks at it again. Of
the operations only `clamp_max_heap_size` can write a limit above the capacity, so the limits stay
inside the range exactly as long as its arguments do (`limits_in_range_iff`), and no clamp raises
a limit exactly as long as they stay below the growth limit (`clamp_lowers_iff`). -/

namespace MmtkArt
namespace ArtTrigger

variable {b : Build} {F : Type} {SpaceStats : Type}

/-- Neither limit exceeds `pages`. -/
structure LimitsBelow (pages : Usize b) (t : ArtTrigger b F) : Prop where
  capacity : t.capacity ≤ pages
  growth : t.growthLimit ≤ pages

/-- The argument of `clamp_max_heap_size` is at most `pages`. -/
def ClampBelow (pages : Usize b) : Op b F SpaceStats → Prop
  | .clampMaxHeapSize maxHeapSize => maxHeapSize.toPages ≤ pages
  | _ => True

def IsClamp : Op b F SpaceStats → Prop
  | .clampMaxHeapSize _ | .clampGrowthLimit => True
  | _ => False

variable [F64 F] {t t' : ArtTrigger b F} {op : Op b F SpaceStats} {pages : Usize b}

theorem step_limitsBelow (hI : t.LimitsBelow pages) (hc : ClampBelow pages op)
    (h : t.step op = some t') : t'.LimitsBelow pages := by
  rcases step_limits h with ⟨hg, hC⟩ | ⟨-, hg, hC⟩ | ⟨-, hg, hC⟩ | ⟨m, rfl, hg, hC⟩
  · exact ⟨hC ▸ hI.capacity, hg ▸ hI.growth⟩
  · exact ⟨hC ▸ hI.growth, hg ▸ hI.growth⟩
  · exact ⟨hC ▸ hI.capacity, hg ▸ hI.capacity⟩
  · exact ⟨hC ▸ hc, hg ▸ hc⟩

theorem clampBelow_of_limitsBelow (h : t.step op = some t') (hI : t'.LimitsBelow pages) :
    ClampBelow pages op := by
  cases op with
  | clampMaxHeapSize m => cases h; exact hI.growth
  | _ => trivial

/-- The growth limit never passes the capacity, whatever is clamped. -/
theorem step_growthLimit_le (hI : t.growthLimit ≤ t.capacity) (h : t.step op = some t') :
    t'.growthLimit ≤ t'.capacity := by
  rcases step_limits h with ⟨hg, hC⟩ | ⟨-, hg, hC⟩ | ⟨-, hg, hC⟩ | ⟨m, -, hg, hC⟩ <;>
    rw [hg, hC]
  exact hI

/-- The limits stay inside the range exactly when every argument of `clamp_max_heap_size` does. -/
theorem limits_in_range_iff {minFree maxFree initialSize capacity growthLimit : Usize b}
    {targetUtilization multiplier : F} (hg : growthLimit ≤ capacity)
    (ops : List (Op b F SpaceStats)) :
    let t := new minFree maxFree initialSize capacity growthLimit targetUtilization multiplier
    Machine.Along step (LimitsBelow capacity.toPages) t ops ↔
      Machine.EachStep step (fun _ op _ => ClampBelow capacity.toPages op) t ops := by
  intro t
  have ht : t.LimitsBelow capacity.toPages := ⟨le_rfl, Usize.toPages_le hg⟩
  constructor
  · rintro ⟨-, h⟩
    exact h.mono fun _ _ _ hs hI => clampBelow_of_limitsBelow hs hI
  · intro h
    refine ⟨ht, .of_invariant ht h fun t op t' hI hc hs => ?_⟩
    have hI' := step_limitsBelow hI hc hs
    exact ⟨hI', hI'⟩

/-- A clamp raises neither limit exactly when its argument, if it has one, is at most the growth
limit. -/
theorem clamp_lowers_iff (hI : t.growthLimit ≤ t.capacity) (h : t.step op = some t') :
    (IsClamp op → t'.growthLimit ≤ t.growthLimit ∧ t'.capacity ≤ t.capacity) ↔
      ClampBelow t.growthLimit op := by
  cases op with
  | clampGrowthLimit => cases h; exact iff_of_true (fun _ => ⟨le_rfl, hI⟩) trivial
  | clampMaxHeapSize m =>
    cases h
    exact ⟨fun h => (h trivial).1, fun h _ => ⟨h, h.trans hI⟩⟩
  | _ => exact iff_of_true (fun h => h.elim) trivial

/-- **The heap limit never outgrows the reserved address range.** From a start-up capacity that
`set_vm_layout` accepts: both limits stay at or below it, the growth limit with the slack stays
inside the range, and no clamp raises a limit, exactly when every argument of
`clamp_max_heap_size` is at most the growth limit at the call. -/
theorem heap_range_iff [MmtkCore b] {layout : VmLayout}
    {minFree maxFree initialSize capacity growthLimit : Usize b}
    {targetUtilization multiplier : F} (hg : growthLimit ≤ capacity)
    (hlayout : setVmLayout capacity = some layout) (ops : List (Op b F SpaceStats)) :
    let t := new minFree maxFree initialSize capacity growthLimit targetUtilization multiplier
    Machine.Along step (fun t => t.LimitsBelow capacity.toPages ∧ layout.Holds t.growthLimit.val)
        t ops ∧
      Machine.EachStep step (fun t op t' => IsClamp op →
        t'.growthLimit ≤ t.growthLimit ∧ t'.capacity ≤ t.capacity) t ops ↔
    Machine.EachStep step (fun t op _ => ClampBelow t.growthLimit op) t ops := by
  intro t
  have hholds : ∀ t : ArtTrigger b F, t.LimitsBelow capacity.toPages →
      layout.Holds t.growthLimit.val := fun t h => setVmLayout_holds hlayout h.growth
  let Inside : ArtTrigger b F → Prop :=
    fun t => t.growthLimit ≤ t.capacity ∧ t.LimitsBelow capacity.toPages
  have ht : Inside t :=
    ⟨Usize.toPages_le hg, le_rfl, Usize.toPages_le hg⟩
  constructor
  · rintro ⟨-, h⟩
    exact .of_invariant ht.1 h fun t op t' hI hc hs =>
      ⟨step_growthLimit_le hI hs, (clamp_lowers_iff hI hs).mp hc⟩
  · intro h
    have hinv : ∀ (t : ArtTrigger b F) (op : Op b F SpaceStats) t', Inside t →
        ClampBelow t.growthLimit op → t.step op = some t' → Inside t' := by
      rintro t op t' ⟨hI, hL⟩ hc hs
      refine ⟨step_growthLimit_le hI hs, step_limitsBelow hL ?_ hs⟩
      cases op with
      | clampMaxHeapSize m => exact le_trans hc hL.growth
      | _ => trivial
    refine ⟨⟨⟨ht.2, hholds t ht.2⟩, ?_⟩, ?_⟩
    · exact .of_invariant (I := Inside) ht h fun t op t' hI hc hs =>
        have hI' := hinv t op t' hI hc hs
        ⟨hI', hI'.2, hholds t' hI'.2⟩
    · exact .of_invariant (I := Inside) ht h fun t op t' hI hc hs =>
        ⟨hinv t op t' hI hc hs, (clamp_lowers_iff hI.1 hs).mpr hc⟩

/-- A heap of 100 pages clamped to 50 stays in its range. -/
theorem heap_range_clamped :
    letI := MmtkCore.documented .android64
    ∃ layout, setVmLayout (b := .android64) 409600 = some layout ∧
      Machine.Along step
        (fun t => t.LimitsBelow (Usize.toPages (b := .android64) 409600) ∧
          layout.Holds t.growthLimit.val)
        (new 0 32768 40960 409600 409600 (1 / 2) 2 : ArtTrigger .android64 ℚ)
        ([.clampMaxHeapSize 204800, .clampGrowthLimit] : List (Op .android64 ℚ Unit)) := by
  let _ := MmtkCore.documented .android64
  have hlayout : (setVmLayout (b := .android64) 409600).isSome = true := by decide +kernel
  obtain ⟨layout, hlayout⟩ := Option.isSome_iff_exists.mp hlayout
  refine ⟨layout, hlayout, ((heap_range_iff le_rfl hlayout _).mpr ?_).1⟩
  have hle : Usize.toPages (b := .android64) 204800 ≤ Usize.toPages (b := .android64) 409600 := by
    decide
  rintro t h
  cases h
  exact ⟨hle, fun _ _ => ⟨trivial, trivial⟩⟩

/-- A heap of 100 pages is clamped to 200. -/
theorem not_heap_range :
    letI := MmtkCore.documented .android64
    ¬ ∀ (minFree maxFree initialSize capacity growthLimit : Usize .android64)
      (targetUtilization multiplier : ℚ) (layout : VmLayout), initialSize ≤ growthLimit →
      growthLimit ≤ capacity → setVmLayout capacity = some layout →
      ∀ (ops : List (Op .android64 ℚ Unit)) (t : ArtTrigger .android64 ℚ),
        Machine.run step (new minFree maxFree initialSize capacity growthLimit targetUtilization
          multiplier) ops = some t →
        t.capacity ≤ capacity.toPages ∧ t.growthLimit ≤ capacity.toPages := by
  let _ := MmtkCore.documented .android64
  intro h
  have hlayout : (setVmLayout (b := .android64) 409600).isSome = true := by decide +kernel
  obtain ⟨layout, hlayout⟩ := Option.isSome_iff_exists.mp hlayout
  have hle := (h 0 32768 40960 409600 409600 (1 / 2) 2 layout (by decide) le_rfl hlayout
    [.clampMaxHeapSize 819200] _ rfl).1
  exact absurd hle (by decide)

end ArtTrigger
end MmtkArt
