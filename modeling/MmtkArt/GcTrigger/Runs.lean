import MmtkArt.GcTrigger.Footprint
import MmtkArt.Util.Machine

/-! # Runs of the trigger

The operations of the policy as one machine, and two results over all its runs. The heap limits
stay ordered exactly as long as no switch to the foreground takes a cached target that a resize has
overtaken (`ordered_iff`). Every page announced since the counter was last emptied is honoured when
it is next emptied (`announced_honoured`). -/

namespace MmtkArt

/-- The operations of the policy that write its state. -/
inductive Op (b : Build) (F SpaceStats : Type)
  | onPendingAllocation (pages : Usize b)
  | onGcStart (mmtk : Mmtk b)
  | onGcEnd (mmtk : Mmtk b)
  | isGcRequired (spaceFull : Bool) (space : Option SpaceStats) (plan : Plan b F SpaceStats)
  | growHeapSizeForEvent
  | clampGrowthLimit
  | clearGrowthLimit
  | clampMaxHeapSize (maxHeapSize : Usize b)

namespace ArtTrigger

variable {b : Build} {F : Type} {SpaceStats : Type}

structure Ordered (t : ArtTrigger b F) : Prop where
  target : t.targetFootprint ≤ t.growthLimit
  limit : t.growthLimit ≤ t.capacity

/-- The current heap size never exceeds the maximal one. -/
theorem Ordered.heapSize_le {t : ArtTrigger b F} (h : t.Ordered) :
    t.getCurrentHeapSizeInPages ≤ t.getMaxHeapSizeInPages := h.target

theorem new_ordered {minFree maxFree initialSize capacity growthLimit : Usize b}
    {targetUtilization multiplier : F} (hi : initialSize ≤ growthLimit)
    (hg : growthLimit ≤ capacity) :
    (new minFree maxFree initialSize capacity growthLimit targetUtilization multiplier).Ordered :=
  ⟨Usize.toPages_le hi, Usize.toPages_le hg⟩

variable [F64 F]

def step (t : ArtTrigger b F) : Op b F SpaceStats → Option (ArtTrigger b F)
  | .onPendingAllocation pages => some (t.onPendingAllocation pages)
  | .onGcStart mmtk => some (t.onGcStart mmtk)
  | .onGcEnd mmtk => t.onGcEnd mmtk
  | .isGcRequired spaceFull space plan => (t.isGcRequired spaceFull space plan).map Prod.snd
  | .growHeapSizeForEvent => some t.growHeapSizeForEvent
  | .clampGrowthLimit => some t.clampGrowthLimit
  | .clearGrowthLimit => some t.clearGrowthLimit
  | .clampMaxHeapSize maxHeapSize => some (t.clampMaxHeapSize maxHeapSize).2

variable {t t' : ArtTrigger b F} {op : Op b F SpaceStats}

/-! ### What one operation does to the limits -/

/-- A call of `isGcRequired` leaves the state, or moves what is pending into the target. -/
theorem isGcRequired_step {spaceFull : Bool} {space : Option SpaceStats}
    {plan : Plan b F SpaceStats}
    (h : t.step (.isGcRequired spaceFull space plan) = some t') :
    t' = t ∨ ∃ newTarget, plan.reservedPages.add t.pendingAllocation = some newTarget ∧
      t.targetFootprint < newTarget ∧ newTarget ≤ t.growthLimit ∧
      t' = { t with targetFootprint := newTarget, pendingAllocation := 0 } := by
  obtain ⟨⟨g, u⟩, hcall, rfl⟩ := Option.map_eq_some_iff.mp h
  obtain ⟨g₀, hloop, -⟩ := isGcRequired_eq_some hcall
  obtain ⟨newTarget, hadd, ⟨_, _, rfl⟩ | ⟨_, _, _, rfl⟩ | ⟨hlt, hle, _, rfl⟩⟩ :=
    isGcRequiredLoop_eq_some hloop
  · exact .inl rfl
  · exact .inl rfl
  · exact .inr ⟨newTarget, hadd, hlt, hle, rfl⟩

/-- The limits are written by `clear_growth_limit`, which raises the growth limit to the capacity,
and by the clamps. -/
theorem step_limits (h : t.step op = some t') :
    (t'.growthLimit = t.growthLimit ∧ t'.capacity = t.capacity) ∨
    (op = .clampGrowthLimit ∧ t'.growthLimit = t.growthLimit ∧ t'.capacity = t.growthLimit) ∨
    (op = .clearGrowthLimit ∧ t'.growthLimit = t.capacity ∧ t'.capacity = t.capacity) ∨
    ∃ maxHeapSize, op = .clampMaxHeapSize maxHeapSize ∧
      t'.growthLimit = maxHeapSize.toPages ∧ t'.capacity = maxHeapSize.toPages := by
  cases op with
  | onPendingAllocation | onGcStart => cases h; exact .inl ⟨rfl, rfl⟩
  | onGcEnd mmtk =>
    obtain ⟨-, -, heq⟩ := onGcEnd_eq_some h
    rw [heq]
    exact .inl ⟨rfl, rfl⟩
  | isGcRequired =>
    rcases isGcRequired_step h with rfl | ⟨_, _, _, _, rfl⟩ <;> exact .inl ⟨rfl, rfl⟩
  | growHeapSizeForEvent =>
    cases h
    unfold growHeapSizeForEvent growHeapOnJankPerceptibleSwitch
    split <;> exact .inl ⟨rfl, rfl⟩
  | clampGrowthLimit => cases h; exact .inr (.inl ⟨rfl, rfl, rfl⟩)
  | clearGrowthLimit => cases h; exact .inr (.inr (.inl ⟨rfl, rfl, rfl⟩))
  | clampMaxHeapSize maxHeapSize =>
    cases h
    exact .inr (.inr (.inr ⟨maxHeapSize, rfl, rfl, rfl⟩))

/-! ### The limits stay ordered -/

/-- The switch to the foreground does not take a cached target beyond the growth limit. -/
def SwitchCovered (t : ArtTrigger b F) : Op b F SpaceStats → Prop
  | .growHeapSizeForEvent => t.minForegroundTargetFootprint ≤ t.targetFootprint ∨
      t.minForegroundTargetFootprint ≤ t.growthLimit
  | _ => True

theorem step_ordered (ho : t.Ordered) (hc : t.SwitchCovered op) (h : t.step op = some t') :
    t'.Ordered := by
  cases op with
  | onPendingAllocation | onGcStart => cases h; exact ⟨ho.target, ho.limit⟩
  | onGcEnd mmtk =>
    obtain ⟨hT, -, heq⟩ := onGcEnd_eq_some h
    rw [heq]
    exact ⟨hT, ho.limit⟩
  | isGcRequired =>
    rcases isGcRequired_step h with rfl | ⟨_, _, _, hle, rfl⟩
    · exact ho
    · exact ⟨hle, ho.limit⟩
  | growHeapSizeForEvent =>
    cases h
    unfold growHeapSizeForEvent growHeapOnJankPerceptibleSwitch
    split
    · exact ⟨hc.resolve_left (not_le.mpr ‹_›), ho.limit⟩
    · exact ho
  | clampGrowthLimit => cases h; exact ⟨ho.target, le_rfl⟩
  | clearGrowthLimit =>
    cases h
    refine ⟨?_, le_rfl⟩
    unfold clearGrowthLimit
    dsimp only
    split
    · exact le_rfl
    · exact ho.target.trans ho.limit
  | clampMaxHeapSize maxHeapSize =>
    cases h
    refine ⟨?_, le_rfl⟩
    unfold clampMaxHeapSize
    rw [setIdealFootprint_targetFootprint]
    exact min_le_right _ _

/-- A switch that leaves the limits ordered was covered. -/
theorem switchCovered_of_ordered (h : t.step op = some t') (ho : t'.Ordered) :
    t.SwitchCovered op := by
  cases op with
  | growHeapSizeForEvent =>
    cases h
    have hT := ho.target
    unfold growHeapSizeForEvent growHeapOnJankPerceptibleSwitch at hT
    split at hT
    · exact .inr hT
    · exact .inl (not_lt.mp ‹_›)
  | _ => trivial

/-- **The heap limits stay ordered** in every state of a run exactly when every switch to the
foreground in it is covered. -/
theorem ordered_iff {minFree maxFree initialSize capacity growthLimit : Usize b}
    {targetUtilization multiplier : F} (hi : initialSize ≤ growthLimit)
    (hg : growthLimit ≤ capacity) (ops : List (Op b F SpaceStats)) :
    let t := new minFree maxFree initialSize capacity growthLimit targetUtilization multiplier
    Machine.Along step Ordered t ops ↔
      Machine.EachStep step (fun t op _ => t.SwitchCovered op) t ops := by
  intro t
  have ht : t.Ordered := new_ordered hi hg
  constructor
  · rintro ⟨-, h⟩
    exact h.mono fun t op t' hs ho => switchCovered_of_ordered hs ho
  · intro h
    refine ⟨ht, .of_invariant ht h fun t op t' ho hc hs => ?_⟩
    have ho' := step_ordered ho hc hs
    exact ⟨ho', ho'⟩

/-- Without a cached target the switch to the foreground does nothing, so it is covered. -/
theorem ordered_switch :
    Machine.Along step Ordered
      (new 0 32768 40960 409600 409600 (1 / 2) 2 : ArtTrigger .android64 ℚ)
      ([.clampMaxHeapSize 204800, .growHeapSizeForEvent] : List (Op .android64 ℚ Unit)) := by
  refine (ordered_iff (by decide) le_rfl _).mpr ?_
  rintro t h
  cases h
  exact ⟨trivial, fun _ _ => ⟨.inl (Fin.zero_le _), trivial⟩⟩

/-- A background collection caches a foreground target of 56 pages, the heap is then clamped to
50, and the switch to the foreground takes the 56. -/
theorem not_ordered :
    ¬ ∀ (minFree maxFree initialSize capacity growthLimit : Usize .android64)
      (targetUtilization multiplier : ℚ), initialSize ≤ growthLimit → growthLimit ≤ capacity →
      ∀ (ops : List (Op .android64 ℚ Unit)) (t : ArtTrigger .android64 ℚ),
        Machine.run step (new minFree maxFree initialSize capacity growthLimit targetUtilization
          multiplier) ops = some t → t.Ordered := by
  intro h
  have heval : (Machine.run step
      (new 0 32768 40960 409600 409600 (1 / 2) 2 : ArtTrigger .android64 ℚ)
      ([.onGcEnd ⟨40, false, false⟩, .clampMaxHeapSize 204800, .growHeapSizeForEvent] :
        List (Op .android64 ℚ Unit))).map
        (fun t => (t.targetFootprint, t.growthLimit)) = some (56, 50) := by decide +kernel
  obtain ⟨t, hrun, heq⟩ := Option.map_eq_some_iff.mp heval
  have hT := (h _ _ _ _ _ _ _ (by decide) le_rfl _ t hrun).target
  obtain ⟨hT', hG⟩ := Prod.mk.inj heq
  rw [hT', hG] at hT
  exact absurd hT (by decide)

/-! ### Announced pages are honoured -/

/-- The pages announced since the counter was last emptied: by the end of a collection, or by a
call of `isGcRequired` that raised the target. -/
def sinceEmptied (t : ArtTrigger b F) (op : Op b F SpaceStats) (t' : ArtTrigger b F)
    (announced : Nat) : Nat :=
  match op with
  | .onPendingAllocation pages => announced + pages.val
  | .isGcRequired .. => if t.targetFootprint < t'.targetFootprint then 0 else announced
  | .onGcEnd _ => 0
  | _ => announced

/-- What emptying the counter does with the announced pages. The end of a collection leaves a
target that holds them besides the reserved pages, or all that the growth limit allows; a call of
`isGcRequired` that raises the target raises it by exactly them. -/
def Honoured (s : ArtTrigger b F × Nat) (op : Op b F SpaceStats) (s' : ArtTrigger b F × Nat) :
    Prop :=
  match op with
  | .onGcEnd mmtk => s.1.SumsExact mmtk →
      min s.1.growthLimit.val (mmtk.reservedPages.val + s.2) ≤ s'.1.targetFootprint.val
  | .isGcRequired _ _ plan => s.1.targetFootprint < s'.1.targetFootprint →
      b.overflowChecks = true ∨ plan.reservedPages.val + s.2 < b.usizeCard →
      s'.1.targetFootprint.val = plan.reservedPages.val + s.2
  | _ => True

/-- The counter holds the pages announced since it was last emptied, modulo the word size. -/
theorem step_sinceEmptied {announced : Nat}
    (hI : t.pendingAllocation.val = announced % b.usizeCard) (h : t.step op = some t') :
    t'.pendingAllocation.val = sinceEmptied t op t' announced % b.usizeCard := by
  cases op with
  | onPendingAllocation pages =>
    cases h
    change (t.pendingAllocation + pages).val = _
    rw [Fin.val_add, hI, sinceEmptied, Nat.mod_add_mod]
  | onGcEnd mmtk =>
    obtain ⟨-, -, heq⟩ := onGcEnd_eq_some h
    rw [heq, sinceEmptied]
    exact (Nat.zero_mod _).symm
  | isGcRequired =>
    rcases isGcRequired_step h with rfl | ⟨_, _, hlt, _, rfl⟩
    · rw [sinceEmptied, if_neg (lt_irrefl _), hI]
    · rw [sinceEmptied, if_pos hlt]
      exact (Nat.zero_mod _).symm
  | growHeapSizeForEvent =>
    cases h
    unfold growHeapSizeForEvent growHeapOnJankPerceptibleSwitch
    split <;> exact hI
  | onGcStart | clampGrowthLimit | clearGrowthLimit | clampMaxHeapSize => cases h; exact hI

theorem step_honoured {announced : Nat}
    (hI : t.pendingAllocation.val = announced % b.usizeCard) (hfit : announced < b.usizeCard)
    (h : t.step op = some t') :
    Honoured (t, announced) op (t', sinceEmptied t op t' announced) := by
  rw [Nat.mod_eq_of_lt hfit] at hI
  cases op with
  | onGcEnd mmtk =>
    intro hx
    have hle := le_onGcEnd_targetFootprint hx h
    rwa [hI] at hle
  | isGcRequired spaceFull space plan =>
    intro hraise hx
    rcases isGcRequired_step h with rfl | ⟨newTarget, hadd, _, _, rfl⟩
    · exact absurd hraise (lt_irrefl _)
    · rw [← hI] at hx ⊢
      exact Usize.val_of_add hx hadd
  | _ => trivial

/-- **Announced pages are honoured.** In every run from a fresh trigger, when the counter is
emptied, the pages announced since it was last emptied go into the target, as long as their sum is
a `usize`. -/
theorem announced_honoured (minFree maxFree initialSize capacity growthLimit : Usize b)
    (targetUtilization multiplier : F) (ops : List (Op b F SpaceStats)) :
    Machine.EachStep (Machine.withGhost step sinceEmptied)
      (fun s op s' => s.2 < b.usizeCard → Honoured s op s')
      (new minFree maxFree initialSize capacity growthLimit targetUtilization multiplier, 0)
      ops := by
  refine .of_invariant (I := fun s => s.1.pendingAllocation.val = s.2 % b.usizeCard)
    (G := fun _ _ _ => True) (Nat.zero_mod _).symm (.of_forall_mem fun _ _ => trivial) ?_
  rintro ⟨t, announced⟩ op ⟨t', announced'⟩ hI - h
  obtain ⟨hs, heq⟩ := Machine.withGhost_eq_some h
  dsimp only at hI hs heq
  subst heq
  exact ⟨step_sinceEmptied hI hs, fun hfit => step_honoured hI hfit hs⟩

/-- Five announced pages go into the target of 15 that `isGcRequired` leaves, and the full
collection after it computes its target of 12 from the 10 reserved pages alone. -/
theorem not_announced_honoured :
    ¬ ∀ (minFree maxFree initialSize capacity growthLimit : Usize .android64)
      (targetUtilization multiplier : ℚ), initialSize ≤ growthLimit → growthLimit ≤ capacity →
      ∀ (n : Usize .android64) (plan : Plan .android64 ℚ Unit) (mmtk : Mmtk .android64)
        (t : ArtTrigger .android64 ℚ),
        Machine.run step (new minFree maxFree initialSize capacity growthLimit targetUtilization
          multiplier) [.onPendingAllocation n, .isGcRequired false none plan, .onGcEnd mmtk] =
            some t →
        min t.growthLimit.val (mmtk.reservedPages.val + n.val) ≤ t.targetFootprint.val := by
  intro h
  have heval : (Machine.run step
      (new 0 8192 40960 409600 409600 (1 / 2) 2 : ArtTrigger .android64 ℚ)
      [.onPendingAllocation 5, .isGcRequired false none (Plan.ofReserved ℚ Unit 10),
        .onGcEnd ⟨10, false, false⟩]).map (fun t => (t.targetFootprint, t.growthLimit)) =
      some (12, 100) := by decide +kernel
  obtain ⟨t, hrun, heq⟩ := Option.map_eq_some_iff.mp heval
  have hT := h _ _ _ _ _ _ _ (by decide) le_rfl 5 _ _ t hrun
  obtain ⟨hT', hG⟩ := Prod.mk.inj heq
  rw [hT', hG] at hT
  exact absurd hT (by decide)

end ArtTrigger
end MmtkArt
