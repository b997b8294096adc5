import MmtkArt.GcTrigger.Policy

/-! # The footprint that a collection leaves, and the answer that follows

What `onGcEnd` does to the state (`onGcEnd_eq_some`), the target footprint it leaves as a number
(`onGcEnd_targetFootprint`), and the answer of `isGcRequired` as a condition on its inputs
(`isGcRequired_answer`). Everything later in the development cites these. -/

namespace MmtkArt
namespace ArtTrigger

variable {b : Build} {F : Type} {SpaceStats : Type}
variable {t t' : ArtTrigger b F} {mmtk : Mmtk b}

@[simp] theorem setIdealFootprint_targetFootprint (x : Usize b) :
    (t.setIdealFootprint x).targetFootprint = min x t.growthLimit := by
  unfold setIdealFootprint
  dsimp only
  split
  · rw [min_eq_right (le_of_lt ‹_›)]
  · rw [min_eq_left (not_lt.mp ‹_›)]

/-! ### The end of a collection -/

theorem addPendingAllocation_val {r size size' : Usize b} (hle : r ≤ size)
    (hx : size.val - r.val < t.pendingAllocation.val →
      b.overflowChecks = true ∨ size.val + t.pendingAllocation.val < b.usizeCard)
    (h : t.addPendingAllocation r size = some size') :
    size'.val = size.val +
      if size.val - r.val < t.pendingAllocation.val then t.pendingAllocation.val else 0 := by
  obtain ⟨room, hroom, h⟩ := Option.bind_eq_some_iff.mp h
  rw [Usize.sub_of_le hle] at hroom
  cases hroom
  have hv : (size - r).val = size.val - r.val := Fin.sub_val_of_le hle
  split at h
  · have hlt : (size - r).val < t.pendingAllocation.val := ‹_›
    rw [hv] at hlt
    rw [Usize.val_of_add (hx hlt) h, if_pos hlt]
  · have hge : ¬ (size - r).val < t.pendingAllocation.val := ‹_›
    cases h
    rw [if_neg (by omega), Nat.add_zero]

theorem addPendingAllocation_returns {r size : Usize b} (hle : r ≤ size)
    (h : size.val - r.val < t.pendingAllocation.val →
      size.val + t.pendingAllocation.val < b.usizeCard) :
    ∃ size', t.addPendingAllocation r size = some size' := by
  have hv : (size - r).val = size.val - r.val := Fin.sub_val_of_le hle
  simp only [addPendingAllocation, Usize.sub_of_le hle, Option.bind_eq_bind, Option.bind_some,
    Fin.lt_def, hv]
  split
  · exact ⟨_, Usize.add_of_lt (h ‹_›)⟩
  · exact ⟨_, rfl⟩

section
variable [F64 F]

/-- Room that the growth formula of this kind of collection would leave free. -/
def roomSought (t : ArtTrigger b F) (mmtk : Mmtk b) : Usize b :=
  let multiplier := t.getHeapGrowthMultiplier mmtk.isJankPerceptible
  if mmtk.isNurseryCollection then t.adjustedMaxFree multiplier
  else scaledGrowPages (t.fullGrowPages mmtk.reservedPages) multiplier

/-- Room above the reserved pages before the pending allocations are added. A nursery collection
never raises the target. -/
def headroom (t : ArtTrigger b F) (mmtk : Mmtk b) : Nat :=
  if mmtk.isNurseryCollection then
    min (t.roomSought mmtk).val (t.targetFootprint.val - mmtk.reservedPages.val)
  else (t.roomSought mmtk).val

theorem headroom_le (t : ArtTrigger b F) (mmtk : Mmtk b) :
    t.headroom mmtk ≤ (t.roomSought mmtk).val := by
  unfold headroom
  split <;> omega

/-- The sums that `onGcEnd` computes are exact: the build checks overflow, or they fit. -/
def SumsExact (t : ArtTrigger b F) (mmtk : Mmtk b) : Prop :=
  b.overflowChecks = true ∨
    mmtk.reservedPages.val + (t.roomSought mmtk).val + t.pendingAllocation.val < b.usizeCard

/-- The sum before the pending allocations are added is exact. -/
def RoomExact (t : ArtTrigger b F) (mmtk : Mmtk b) : Prop :=
  b.overflowChecks = true ∨
    mmtk.reservedPages.val + (t.roomSought mmtk).val < b.usizeCard

theorem SumsExact.room (hx : t.SumsExact mmtk) : t.RoomExact mmtk :=
  hx.imp_right fun h => by omega

theorem targetSize_returns
    (h : mmtk.reservedPages.val + (t.roomSought mmtk).val < b.usizeCard) :
    ∃ size grow, t.targetSize mmtk = some (size, grow) := by
  cases hn : mmtk.isNurseryCollection with
  | false =>
    simp only [roomSought, hn, Bool.false_eq_true, if_false] at h
    simp only [targetSize, hn, Usize.add_of_lt h]
    exact ⟨_, _, rfl⟩
  | true =>
    simp only [roomSought, hn, if_true] at h
    simp only [targetSize, hn, Usize.add_of_lt h, if_true, Option.bind_eq_bind, Option.bind_some]
    split <;> exact ⟨_, _, rfl⟩

theorem targetSize_val {size grow : Usize b} (hroom : t.RoomExact mmtk)
    (h : t.targetSize mmtk = some (size, grow)) :
    size.val = mmtk.reservedPages.val + t.headroom mmtk := by
  unfold RoomExact at hroom
  cases hn : mmtk.isNurseryCollection with
  | false =>
    simp only [targetSize, roomSought, headroom, hn, Bool.false_eq_true, if_false] at h hroom ⊢
    obtain ⟨sum, hsum, heq⟩ := Option.bind_eq_some_iff.mp h
    cases heq
    exact Usize.val_of_add hroom hsum
  | true =>
    simp only [targetSize, roomSought, headroom, hn, if_true] at h hroom ⊢
    obtain ⟨sum, hsum, heq⟩ := Option.bind_eq_some_iff.mp h
    have hv := Usize.val_of_add hroom hsum
    split at heq
    · have hlt : sum.val < t.targetFootprint.val := ‹_›
      cases heq
      omega
    · have hge : t.targetFootprint.val ≤ sum.val := not_lt.mp ‹_›
      cases heq
      rcases le_total mmtk.reservedPages t.targetFootprint with hle | hle
      · have : mmtk.reservedPages.val ≤ t.targetFootprint.val := hle
        rw [max_eq_right hle]
        omega
      · have : t.targetFootprint.val ≤ mmtk.reservedPages.val := hle
        rw [max_eq_left hle]
        omega

/-- Where the sum is exact and the target size comes out, the sum fits. -/
theorem RoomExact.fits {size grow : Usize b} (hroom : t.RoomExact mmtk)
    (h : t.targetSize mmtk = some (size, grow)) :
    mmtk.reservedPages.val + (t.roomSought mmtk).val < b.usizeCard := by
  unfold RoomExact at hroom
  cases hn : mmtk.isNurseryCollection with
  | false =>
    simp only [targetSize, roomSought, hn, Bool.false_eq_true, if_false] at h hroom ⊢
    obtain ⟨sum, hsum, -⟩ := Option.bind_eq_some_iff.mp h
    exact Usize.val_of_add hroom hsum ▸ sum.isLt
  | true =>
    simp only [targetSize, roomSought, hn, if_true] at h hroom ⊢
    obtain ⟨sum, hsum, -⟩ := Option.bind_eq_some_iff.mp h
    exact Usize.val_of_add hroom hsum ▸ sum.isLt

theorem foregroundTarget_le {grow x : Usize b} (h : t.foregroundTarget mmtk grow = some x) :
    x ≤ t.growthLimit := by
  simp only [foregroundTarget] at h
  split at h
  · obtain ⟨sum, _, hsum⟩ := Option.bind_eq_some_iff.mp h
    cases hsum
    exact min_le_right _ _
  · cases h
    exact Fin.zero_le _

theorem foregroundTarget_returns {grow : Usize b} (h : mmtk.reservedPages.val +
      (scaledGrowPages grow t.foregroundHeapGrowthMultiplier).val < b.usizeCard) :
    ∃ x, t.foregroundTarget mmtk grow = some x := by
  simp only [foregroundTarget, Usize.add_of_lt h]
  split <;> exact ⟨_, rfl⟩

/-- What `growForUtilization` can do to the state. -/
theorem growForUtilization_eq_some (h : t.growForUtilization mmtk = some t') :
    ∃ size grow size' minForeground, t.targetSize mmtk = some (size, grow) ∧
      t.addPendingAllocation mmtk.reservedPages size = some size' ∧
      t.foregroundTarget mmtk grow = some minForeground ∧
      t' = { t.setIdealFootprint size' with minForegroundTargetFootprint := minForeground } := by
  obtain ⟨⟨size, grow⟩, htarget, h⟩ := Option.bind_eq_some_iff.mp h
  obtain ⟨size', hsize', h⟩ := Option.bind_eq_some_iff.mp h
  obtain ⟨minForeground, hmin, heq⟩ := Option.bind_eq_some_iff.mp h
  exact ⟨size, grow, size', minForeground, htarget, hsize', hmin, (Option.some.inj heq).symm⟩

/-- What the end of a collection can do to the state. -/
theorem onGcEnd_eq_some (h : t.onGcEnd mmtk = some t') :
    t'.targetFootprint ≤ t.growthLimit ∧ t'.minForegroundTargetFootprint ≤ t.growthLimit ∧
      t' = { t with
        targetFootprint := t'.targetFootprint
        minForegroundTargetFootprint := t'.minForegroundTargetFootprint
        pendingAllocation := 0
        reservedPagesBeforeGc := 0 } := by
  obtain ⟨u, hu, heq⟩ := Option.bind_eq_some_iff.mp h
  obtain ⟨_, _, size', _, _, _, hmin, rfl⟩ := growForUtilization_eq_some hu
  cases heq
  refine ⟨?_, foregroundTarget_le hmin, rfl⟩
  rw [setIdealFootprint_targetFootprint]
  exact min_le_right _ _

/-- What the end of a collection caches for the switch to the foreground. -/
theorem onGcEnd_foregroundTarget (h : t.onGcEnd mmtk = some t') :
    ∃ size grow, t.targetSize mmtk = some (size, grow) ∧
      t.foregroundTarget mmtk grow = some t'.minForegroundTargetFootprint := by
  obtain ⟨u, hu, heq⟩ := Option.bind_eq_some_iff.mp h
  obtain ⟨size, grow, _, _, htarget, _, hmin, rfl⟩ := growForUtilization_eq_some hu
  cases heq
  exact ⟨size, grow, htarget, hmin⟩

/-- The end of a collection returns when its sums fit, the one for the foreground included. -/
theorem onGcEnd_returns
    (hroom : mmtk.reservedPages.val + (t.roomSought mmtk).val < b.usizeCard)
    (hpending : t.headroom mmtk < t.pendingAllocation.val →
      mmtk.reservedPages.val + t.headroom mmtk + t.pendingAllocation.val < b.usizeCard)
    (hforeground : ∀ size grow, t.targetSize mmtk = some (size, grow) →
      mmtk.reservedPages.val +
        (scaledGrowPages grow t.foregroundHeapGrowthMultiplier).val < b.usizeCard) :
    ∃ t', t.onGcEnd mmtk = some t' := by
  obtain ⟨size, grow, htarget⟩ := targetSize_returns hroom
  have hsize := targetSize_val (.inr hroom) htarget
  have hle : mmtk.reservedPages ≤ size := Fin.le_def.mpr (by omega)
  obtain ⟨size', hsize'⟩ := addPendingAllocation_returns (t := t) hle (by
    rw [hsize, Nat.add_sub_cancel_left]
    exact hpending)
  obtain ⟨x, hx⟩ := foregroundTarget_returns (hforeground size grow htarget)
  replace hx : (t.setIdealFootprint size').foregroundTarget mmtk grow = some x := hx
  simp only [onGcEnd, growForUtilization, htarget, hsize', hx, Option.bind_eq_bind,
    Option.bind_some]
  exact ⟨_, rfl⟩

/-- The target that a collection leaves, as a number. -/
theorem onGcEnd_targetFootprint_of_room (hroom : t.RoomExact mmtk)
    (hx : t.headroom mmtk < t.pendingAllocation.val → t.SumsExact mmtk)
    (h : t.onGcEnd mmtk = some t') :
    t'.targetFootprint.val = min t.growthLimit.val
      (mmtk.reservedPages.val + t.headroom mmtk +
        if t.headroom mmtk < t.pendingAllocation.val then t.pendingAllocation.val else 0) := by
  obtain ⟨u, hu, heq⟩ := Option.bind_eq_some_iff.mp h
  obtain ⟨size, grow, size', _, htarget, hsize', _, rfl⟩ := growForUtilization_eq_some hu
  cases heq
  have hsize := targetSize_val hroom htarget
  have hle : mmtk.reservedPages ≤ size := Fin.le_def.mpr (by omega)
  have hval := addPendingAllocation_val hle (fun hlt => ?_) hsize'
  · rw [hsize, Nat.add_sub_cancel_left] at hval
    rw [setIdealFootprint_targetFootprint, Fin.coe_min, hval, min_comm]
  · have := t.headroom_le mmtk
    exact (hx (by omega)).imp_right fun h => by omega

theorem onGcEnd_targetFootprint (hx : t.SumsExact mmtk) (h : t.onGcEnd mmtk = some t') :
    t'.targetFootprint.val = min t.growthLimit.val
      (mmtk.reservedPages.val + t.headroom mmtk +
        if t.headroom mmtk < t.pendingAllocation.val then t.pendingAllocation.val else 0) :=
  onGcEnd_targetFootprint_of_room hx.room (fun _ => hx) h

/-- A collection honours what is pending at its end, up to the growth limit. -/
theorem le_onGcEnd_targetFootprint (hx : t.SumsExact mmtk) (h : t.onGcEnd mmtk = some t') :
    min t.growthLimit.val (mmtk.reservedPages.val + t.pendingAllocation.val) ≤
      t'.targetFootprint.val := by
  rw [onGcEnd_targetFootprint hx h]
  apply min_le_min_left
  split <;> omega

end

/-! ### The answer of `isGcRequired` -/

variable {space : Option SpaceStats} {plan : Plan b F SpaceStats} {spaceFull : Bool}

/-- What the loop of `isGcRequired` can do, by the place of the new target. -/
theorem isGcRequiredLoop_eq_some {g : Bool} {r : Usize b}
    (h : t.isGcRequiredLoop r = some (g, t')) :
    ∃ newTarget, r.add t.pendingAllocation = some newTarget ∧
      ((newTarget ≤ t.targetFootprint ∧ g = false ∧ t' = t) ∨
      (t.targetFootprint < newTarget ∧ t.growthLimit < newTarget ∧ g = true ∧ t' = t) ∨
      (t.targetFootprint < newTarget ∧ newTarget ≤ t.growthLimit ∧ g = false ∧
        t' = { t with targetFootprint := newTarget, pendingAllocation := 0 })) := by
  obtain ⟨newTarget, hadd, h⟩ := Option.bind_eq_some_iff.mp h
  refine ⟨newTarget, hadd, ?_⟩
  split at h
  · cases h
    exact .inl ⟨‹_›, rfl, rfl⟩
  · have hlt := not_le.mp ‹_›
    split at h
    · cases h
      exact .inr (.inl ⟨hlt, ‹_›, rfl, rfl⟩)
    · cases h
      exact .inr (.inr ⟨hlt, not_lt.mp ‹_›, rfl, by rw [Fin.sub_self]⟩)

theorem isGcRequired_eq_some {g : Bool} (h : t.isGcRequired spaceFull space plan = some (g, t')) :
    ∃ g₀, t.isGcRequiredLoop plan.reservedPages = some (g₀, t') ∧
      g = (g₀ || plan.collectionRequired spaceFull space t') := by
  obtain ⟨⟨g₀, u⟩, hloop, heq⟩ := Option.bind_eq_some_iff.mp h
  cases heq
  exact ⟨g₀, hloop, rfl⟩

end ArtTrigger
end MmtkArt
