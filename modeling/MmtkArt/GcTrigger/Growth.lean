import Mathlib.Algebra.Order.Floor.Semiring
import MmtkArt.GcTrigger.Decision

/-! # The growth formulas over exact rationals

With the products taken as exact rationals and truncated, the room that a collection seeks lies
between the pages it grows by and these times the multiplier (`le_scaledGrowPages`,
`scaledGrowPages_le`). From this the bounds on the target that a collection leaves
(`onGcEnd_footprint`), and that the switch to the foreground makes up for a collection in the
background (`switch_catches_up`). -/

namespace MmtkArt
namespace ArtTrigger

variable {b : Build} {t t' : ArtTrigger b ℚ} {mmtk : Mmtk b} {grow : Usize b} {m : ℚ}
variable {SpaceStats : Type}

/-! ### The products -/

theorem scaledGrowPages_val (grow : Usize b) (m : ℚ) :
    (scaledGrowPages grow m).val = min ⌊(grow.val : ℚ) * m⌋₊ (b.usizeCard - 1) := rfl

theorem le_scaledGrowPages (hm : 1 ≤ m) : grow ≤ scaledGrowPages grow m := by
  have hle : (grow.val : ℚ) ≤ grow.val * m := le_mul_of_one_le_right (Nat.cast_nonneg _) hm
  rw [Fin.le_def, scaledGrowPages_val]
  exact le_min (Nat.le_floor hle) (Nat.le_sub_one_of_lt grow.isLt)

theorem scaledGrowPages_le (hm : 0 ≤ m) : ((scaledGrowPages grow m).val : ℚ) ≤ grow.val * m := by
  rw [scaledGrowPages_val]
  calc ((min ⌊(grow.val : ℚ) * m⌋₊ (b.usizeCard - 1) : ℕ) : ℚ)
      ≤ (⌊(grow.val : ℚ) * m⌋₊ : ℚ) := Nat.cast_le.mpr (min_le_left _ _)
    _ ≤ grow.val * m := Nat.floor_le (mul_nonneg (Nat.cast_nonneg _) hm)

theorem scaledGrowPages_mono {m' : ℚ} (h : m ≤ m') :
    scaledGrowPages grow m ≤ scaledGrowPages grow m' := by
  have hle : (grow.val : ℚ) * m ≤ grow.val * m' := mul_le_mul_of_nonneg_left h (Nat.cast_nonneg _)
  rw [Fin.le_def, scaledGrowPages_val, scaledGrowPages_val]
  exact min_le_min_right _ (Nat.floor_le_floor hle)

@[simp] theorem scaledGrowPages_zero : scaledGrowPages (0 : Usize b) m = 0 := by
  rw [Fin.ext_iff, scaledGrowPages_val, Fin.val_zero, Nat.cast_zero, zero_mul, Nat.floor_zero]
  exact Nat.zero_min _

@[simp] theorem scaledGrowPages_one : scaledGrowPages grow (1 : ℚ) = grow := by
  rw [Fin.ext_iff, scaledGrowPages_val, mul_one, Nat.floor_natCast]
  exact min_eq_left (Nat.le_sub_one_of_lt grow.isLt)

theorem fullGrowPages_le (r : Usize b) : t.fullGrowPages r ≤ max t.minFree t.maxFree :=
  max_le (le_max_of_le_right (min_le_right _ _)) (le_max_left _ _)

theorem minFree_le_fullGrowPages (r : Usize b) : t.minFree ≤ t.fullGrowPages r := le_max_right _ _

/-- The pages that the growth formula of this kind of collection scales by the multiplier. -/
def pagesSought (t : ArtTrigger b ℚ) (mmtk : Mmtk b) : Usize b :=
  if mmtk.isNurseryCollection then t.maxFree else t.fullGrowPages mmtk.reservedPages

theorem roomSought_eq (t : ArtTrigger b ℚ) (mmtk : Mmtk b) : t.roomSought mmtk =
    scaledGrowPages (t.pagesSought mmtk) (t.getHeapGrowthMultiplier mmtk.isJankPerceptible) := by
  unfold roomSought pagesSought
  split <;> rfl

theorem pagesSought_le (t : ArtTrigger b ℚ) (mmtk : Mmtk b) :
    t.pagesSought mmtk ≤ max t.minFree t.maxFree := by
  unfold pagesSought
  split
  · exact le_max_right _ _
  · exact fullGrowPages_le _

/-- `grow_pages` is what the formula sought, or 0 when a nursery collection keeps the target. -/
theorem targetSize_grow {size : Usize b} (hx : t.RoomExact mmtk)
    (h : t.targetSize mmtk = some (size, grow)) :
    (grow = t.pagesSought mmtk ∧ t.headroom mmtk = (t.roomSought mmtk).val) ∨
      (mmtk.isNurseryCollection = true ∧ grow = 0 ∧
        t.headroom mmtk = t.targetFootprint.val - mmtk.reservedPages.val) := by
  unfold RoomExact at hx
  cases hn : mmtk.isNurseryCollection with
  | false =>
    simp only [targetSize, pagesSought, headroom, hn, Bool.false_eq_true, if_false] at h ⊢
    obtain ⟨sum, _, heq⟩ := Option.bind_eq_some_iff.mp h
    cases heq
    exact .inl ⟨rfl, trivial⟩
  | true =>
    simp only [targetSize, pagesSought, roomSought, headroom, hn, if_true] at h hx ⊢
    obtain ⟨sum, hsum, heq⟩ := Option.bind_eq_some_iff.mp h
    have hv := Usize.val_of_add hx hsum
    split at heq
    · have hlt : sum.val < t.targetFootprint.val := ‹_›
      cases heq
      exact .inl ⟨rfl, min_eq_left (by omega)⟩
    · have hge : t.targetFootprint.val ≤ sum.val := not_lt.mp ‹_›
      cases heq
      exact .inr ⟨trivial, rfl, min_eq_right (by omega)⟩

/-! ### The multiplier -/

theorem one_le_getHeapGrowthMultiplier (hm : 1 ≤ t.foregroundHeapGrowthMultiplier)
    (jankPerceptible : Bool) : 1 ≤ t.getHeapGrowthMultiplier jankPerceptible := by
  cases jankPerceptible
  · exact le_rfl
  · exact hm

theorem getHeapGrowthMultiplier_le (hm : 1 ≤ t.foregroundHeapGrowthMultiplier)
    (jankPerceptible : Bool) :
    t.getHeapGrowthMultiplier jankPerceptible ≤ t.foregroundHeapGrowthMultiplier := by
  cases jankPerceptible
  · exact hm
  · exact le_rfl

/-- No product exceeds the larger bound times the multiplier. -/
theorem scaledGrowPages_le_max (hm : 1 ≤ t.foregroundHeapGrowthMultiplier)
    (hm' : m ≤ t.foregroundHeapGrowthMultiplier) (hgrow : grow ≤ max t.minFree t.maxFree) :
    ((scaledGrowPages grow m).val : ℚ) ≤
      max (t.minFree.val : ℚ) t.maxFree.val * t.foregroundHeapGrowthMultiplier := by
  have hm₀ : 0 ≤ t.foregroundHeapGrowthMultiplier := zero_le_one.trans hm
  have hle : (grow.val : ℚ) ≤ max (t.minFree.val : ℚ) t.maxFree.val := by
    rw [Fin.le_def, Fin.coe_max] at hgrow
    rw [← Nat.cast_max]
    exact Nat.cast_le.mpr hgrow
  calc ((scaledGrowPages grow m).val : ℚ)
      ≤ (scaledGrowPages grow t.foregroundHeapGrowthMultiplier).val :=
        Nat.cast_le.mpr (scaledGrowPages_mono hm')
    _ ≤ grow.val * t.foregroundHeapGrowthMultiplier := scaledGrowPages_le hm₀
    _ ≤ max (t.minFree.val : ℚ) t.maxFree.val * t.foregroundHeapGrowthMultiplier :=
        mul_le_mul_of_nonneg_right hle hm₀

theorem roomSought_le (hm : 1 ≤ t.foregroundHeapGrowthMultiplier) (mmtk : Mmtk b) :
    ((t.roomSought mmtk).val : ℚ) ≤
      max (t.minFree.val : ℚ) t.maxFree.val * t.foregroundHeapGrowthMultiplier := by
  rw [roomSought_eq]
  exact scaledGrowPages_le_max hm (getHeapGrowthMultiplier_le hm _) (t.pagesSought_le mmtk)

theorem pagesSought_le_roomSought (hm : 1 ≤ t.foregroundHeapGrowthMultiplier) (mmtk : Mmtk b) :
    t.pagesSought mmtk ≤ t.roomSought mmtk := by
  rw [roomSought_eq]
  exact le_scaledGrowPages (one_le_getHeapGrowthMultiplier hm _)

/-! ### The target after a collection -/

/-- The largest sum that the end of a collection can ask for, before it is truncated. -/
def largestSum (t : ArtTrigger b ℚ) (mmtk : Mmtk b) : ℚ :=
  mmtk.reservedPages.val +
    max (t.minFree.val : ℚ) t.maxFree.val * t.foregroundHeapGrowthMultiplier +
    t.pendingAllocation.val

theorem add_lt_of_largestSum {room n : Nat} (hfit : t.largestSum mmtk < n)
    (hroom : (room : ℚ) ≤
      max (t.minFree.val : ℚ) t.maxFree.val * t.foregroundHeapGrowthMultiplier) :
    mmtk.reservedPages.val + room + t.pendingAllocation.val < n := by
  have : ((mmtk.reservedPages.val + room + t.pendingAllocation.val : ℕ) : ℚ) < n := by
    push_cast
    unfold largestSum at hfit
    linarith
  exact Nat.cast_lt.mp this

theorem onGcEnd_returns_of_largestSum (hm : 1 ≤ t.foregroundHeapGrowthMultiplier)
    (hfit : t.largestSum mmtk < b.usizeCard) : ∃ t', t.onGcEnd mmtk = some t' := by
  have hsum := add_lt_of_largestSum hfit (roomSought_le hm mmtk)
  have hle := t.headroom_le mmtk
  refine onGcEnd_returns (by omega) (fun _ => by omega) fun size grow h => ?_
  have hgrow : grow ≤ max t.minFree t.maxFree := by
    rcases targetSize_grow (.inr (by omega)) h with ⟨rfl, -⟩ | ⟨-, rfl, -⟩
    · exact t.pagesSought_le mmtk
    · exact Fin.zero_le _
  have := add_lt_of_largestSum hfit (scaledGrowPages_le_max hm le_rfl hgrow)
  omega

/-- A nursery collection adds nothing to the larger of the reserved pages and the target but what
is pending. -/
theorem onGcEnd_targetFootprint_nursery (hx : t.SumsExact mmtk) (h : t.onGcEnd mmtk = some t')
    (hn : mmtk.isNurseryCollection = true) : t'.targetFootprint.val ≤
      max mmtk.reservedPages.val t.targetFootprint.val + t.pendingAllocation.val := by
  rw [onGcEnd_targetFootprint hx h, headroom, if_pos hn]
  split <;> omega

/-- A full collection leaves the pages that its formula sought free, up to the growth limit. -/
theorem onGcEnd_targetFootprint_full (hx : t.SumsExact mmtk) (h : t.onGcEnd mmtk = some t')
    (hn : mmtk.isNurseryCollection = false) :
    min t.growthLimit.val (mmtk.reservedPages.val + (t.roomSought mmtk).val) ≤
        t'.targetFootprint.val ∧
      t'.targetFootprint.val ≤
        mmtk.reservedPages.val + (t.roomSought mmtk).val + t.pendingAllocation.val := by
  rw [onGcEnd_targetFootprint hx h, headroom, hn, if_neg Bool.false_ne_true]
  split <;> omega

theorem minFree_le_roomSought (hm : 1 ≤ t.foregroundHeapGrowthMultiplier)
    (hn : mmtk.isNurseryCollection = false) : t.minFree ≤ t.roomSought mmtk := by
  have hle : t.minFree ≤ t.pagesSought mmtk := by
    rw [pagesSought, hn]
    exact minFree_le_fullGrowPages _
  exact hle.trans (pagesSought_le_roomSought hm mmtk)

/-- **The footprint after a collection.** -/
theorem onGcEnd_footprint (hm : 1 ≤ t.foregroundHeapGrowthMultiplier)
    (hfit : (mmtk.reservedPages.val : ℚ) +
      max (t.minFree.val : ℚ) t.maxFree.val * t.foregroundHeapGrowthMultiplier +
      t.pendingAllocation.val < b.usizeCard) :
    ∃ t', t.onGcEnd mmtk = some t' ∧ t'.growthLimit = t.growthLimit ∧ t'.capacity = t.capacity ∧
      t'.pendingAllocation = 0 ∧
      min t.growthLimit.val (mmtk.reservedPages.val + t.pendingAllocation.val) ≤
        t'.targetFootprint.val ∧
      t'.targetFootprint ≤ t.growthLimit ∧ t'.minForegroundTargetFootprint ≤ t.growthLimit ∧
      (mmtk.isNurseryCollection = true → t'.targetFootprint.val ≤
        max mmtk.reservedPages.val t.targetFootprint.val + t.pendingAllocation.val) ∧
      (mmtk.isNurseryCollection = false →
        min t.growthLimit.val (mmtk.reservedPages.val + t.minFree.val) ≤ t'.targetFootprint.val ∧
        (t'.targetFootprint.val : ℚ) ≤ mmtk.reservedPages.val +
          max (t.minFree.val : ℚ) t.maxFree.val * t.foregroundHeapGrowthMultiplier +
          t.pendingAllocation.val ∧
        (1 ≤ t.minFree.val → ∀ plan : Plan b ℚ SpaceStats,
          plan.reservedPages = mmtk.reservedPages →
          (t'.isHeapFull plan = true ↔ t.growthLimit ≤ mmtk.reservedPages))) := by
  obtain ⟨t', h⟩ := onGcEnd_returns_of_largestSum hm hfit
  have hroom := roomSought_le hm mmtk
  have hx : t.SumsExact mmtk := .inr (add_lt_of_largestSum hfit hroom)
  obtain ⟨hT, hmin, heq⟩ := onGcEnd_eq_some h
  refine ⟨t', h, by rw [heq], by rw [heq], by rw [heq], le_onGcEnd_targetFootprint hx h, hT, hmin,
    onGcEnd_targetFootprint_nursery hx h, fun hn => ?_⟩
  obtain ⟨hlo, hhi⟩ := onGcEnd_targetFootprint_full hx h hn
  have hfree : t.minFree.val ≤ (t.roomSought mmtk).val := minFree_le_roomSought hm hn
  refine ⟨by omega, ?_, fun hpos plan hplan => ?_⟩
  · have hhi : (t'.targetFootprint.val : ℚ) ≤
        mmtk.reservedPages.val + (t.roomSought mmtk).val + t.pendingAllocation.val :=
      mod_cast hhi
    linarith
  · have hT : t'.targetFootprint.val ≤ t.growthLimit.val := hT
    rw [isHeapFull, hplan, decide_eq_true_iff, ge_iff_le, Fin.le_def, Fin.le_def]
    omega

/-- A full collection in the foreground with ten reserved pages and one pending page. -/
theorem onGcEnd_footprint_ten : ∃ t',
    (ofHundredPages 10 1).onGcEnd ⟨10, true, false⟩ = some t' ∧ 12 ≤ t'.targetFootprint.val := by
  obtain ⟨t', h, -, -, -, -, -, -, -, hfull⟩ := @onGcEnd_footprint .android64
    (ofHundredPages 10 1) ⟨10, true, false⟩ Unit (by decide +kernel) (by decide +kernel)
  exact ⟨t', h, (hfull rfl).1⟩

/-! ### The switch to the foreground -/

theorem growHeapSizeForEvent_targetFootprint (t : ArtTrigger b ℚ) :
    t.growHeapSizeForEvent.targetFootprint =
      max t.targetFootprint t.minForegroundTargetFootprint := by
  unfold growHeapSizeForEvent growHeapOnJankPerceptibleSwitch
  split
  · exact (max_eq_right (le_of_lt ‹_›)).symm
  · exact (max_eq_left (not_lt.mp ‹_›)).symm

theorem growHeapSizeForEvent_eq_self
    (h : t.minForegroundTargetFootprint ≤ t.targetFootprint) : t.growHeapSizeForEvent = t :=
  if_neg (not_lt.mpr h)

/-- What is cached for the switch: the target of a collection that grows by `grow` pages in the
foreground, or 0 when this one is in the foreground already or grows by nothing. -/
theorem foregroundTarget_val {x : Usize b}
    (hx : mmtk.reservedPages.val +
      (scaledGrowPages grow t.foregroundHeapGrowthMultiplier).val < b.usizeCard)
    (h : t.foregroundTarget mmtk grow = some x) :
    x.val = if t.getHeapGrowthMultiplier mmtk.isJankPerceptible ≤ 1 ∧ 0 < grow then
      min t.growthLimit.val (mmtk.reservedPages.val +
        (scaledGrowPages grow t.foregroundHeapGrowthMultiplier).val) else 0 := by
  have hle : F64.le (t.getHeapGrowthMultiplier mmtk.isJankPerceptible) F64.one = true ↔
      t.getHeapGrowthMultiplier mmtk.isJankPerceptible ≤ 1 := decide_eq_true_iff
  simp only [foregroundTarget, Usize.add_of_lt hx, hle] at h
  split at h
  · rw [if_pos ‹_›]
    cases h
    exact min_comm _ _
  · rw [if_neg ‹_›]
    cases h
    rfl

variable {r size : Usize b} {nursery : Bool} {t₁ t₂ : ArtTrigger b ℚ}

theorem roomSought_background (t : ArtTrigger b ℚ) (r : Usize b) (nursery : Bool) :
    t.roomSought ⟨r, false, nursery⟩ = t.pagesSought ⟨r, true, nursery⟩ := by
  rw [roomSought_eq]
  exact scaledGrowPages_one

theorem roomSought_background_le (hm : 1 ≤ t.foregroundHeapGrowthMultiplier) (r : Usize b)
    (nursery : Bool) :
    t.roomSought ⟨r, false, nursery⟩ ≤ t.roomSought ⟨r, true, nursery⟩ := by
  rw [roomSought_background]
  exact pagesSought_le_roomSought hm _

theorem headroom_background_le (hm : 1 ≤ t.foregroundHeapGrowthMultiplier) (r : Usize b)
    (nursery : Bool) :
    t.headroom ⟨r, false, nursery⟩ ≤ t.headroom ⟨r, true, nursery⟩ := by
  have hle : (t.roomSought ⟨r, false, nursery⟩).val ≤ (t.roomSought ⟨r, true, nursery⟩).val :=
    roomSought_background_le hm r nursery
  cases nursery
  · exact hle
  · exact min_le_min_right _ hle

/-- What the end of a collection leaves when its own room covers what is pending. -/
theorem onGcEnd_of_covered (hx : t.RoomExact mmtk)
    (hp : t.pendingAllocation.val ≤ t.headroom mmtk) (h : t.onGcEnd mmtk = some t') :
    t'.targetFootprint.val =
      min t.growthLimit.val (mmtk.reservedPages.val + t.headroom mmtk) := by
  rw [onGcEnd_targetFootprint_of_room hx (fun hlt => absurd hp (not_le.mpr hlt)) h,
    if_neg (not_lt.mpr hp), Nat.add_zero]

/-- Scaled for the foreground, `grow_pages` asks for no more room than a collection there. -/
theorem scaledGrowPages_le_foreground {jankPerceptible : Bool}
    (hx : t.RoomExact ⟨r, jankPerceptible, nursery⟩)
    (h : t.targetSize ⟨r, jankPerceptible, nursery⟩ = some (size, grow)) :
    scaledGrowPages grow t.foregroundHeapGrowthMultiplier ≤
      t.roomSought ⟨r, true, nursery⟩ := by
  rcases targetSize_grow hx h with ⟨rfl, -⟩ | ⟨-, rfl, -⟩
  · exact (t.roomSought_eq ⟨r, true, nursery⟩).ge
  · rw [scaledGrowPages_zero]
    exact Fin.zero_le _

/-- A collection in the background caches the target that its formula sets in the foreground, or
caches nothing when it leaves no less room than one there. -/
theorem onGcEnd_background (hm : 1 ≤ t.foregroundHeapGrowthMultiplier)
    (hfit : r.val + (t.roomSought ⟨r, true, nursery⟩).val < b.usizeCard)
    (h : t.onGcEnd ⟨r, false, nursery⟩ = some t') :
    t'.minForegroundTargetFootprint.val =
        min t.growthLimit.val (r.val + (t.roomSought ⟨r, true, nursery⟩).val) ∨
      (t'.minForegroundTargetFootprint.val = 0 ∧
        t.headroom ⟨r, true, nursery⟩ ≤ t.headroom ⟨r, false, nursery⟩) := by
  have hle : (t.roomSought ⟨r, false, nursery⟩).val ≤ (t.roomSought ⟨r, true, nursery⟩).val :=
    roomSought_background_le hm r nursery
  have hx : t.RoomExact ⟨r, false, nursery⟩ := .inr (by dsimp only; omega)
  obtain ⟨size, grow, hsize, hmin⟩ := onGcEnd_foregroundTarget h
  have hgrow : (scaledGrowPages grow t.foregroundHeapGrowthMultiplier).val ≤ _ :=
    scaledGrowPages_le_foreground hx hsize
  rw [foregroundTarget_val (by dsimp only; omega) hmin]
  rcases targetSize_grow hx hsize with ⟨rfl, hroom⟩ | ⟨hn, rfl, hkept⟩
  · split
    · left
      rw [t.roomSought_eq ⟨r, true, nursery⟩]
      rfl
    · rename_i hpos
      right
      refine ⟨rfl, ?_⟩
      -- the formula sought nothing in the background, so it seeks nothing in the foreground
      have hzero : t.pagesSought ⟨r, true, nursery⟩ = 0 := by
        by_contra hne
        exact hpos ⟨le_rfl, Fin.pos_iff_ne_zero.mpr hne⟩
      have hle := t.headroom_le ⟨r, true, nursery⟩
      rw [t.roomSought_eq, hzero, scaledGrowPages_zero] at hle
      exact hle.trans (Nat.zero_le _)
  · right
    rw [if_neg fun h => lt_irrefl _ h.2]
    refine ⟨rfl, ?_⟩
    cases hn
    rw [hkept]
    exact min_le_right _ _

/-- A collection in the foreground caches no more than the target it leaves. -/
theorem onGcEnd_foreground (hx : t.RoomExact ⟨r, true, nursery⟩)
    (hp : t.pendingAllocation.val ≤ t.headroom ⟨r, true, nursery⟩)
    (h : t.onGcEnd ⟨r, true, nursery⟩ = some t') :
    t'.minForegroundTargetFootprint ≤ t'.targetFootprint := by
  obtain ⟨size, grow, hsize, hmin⟩ := onGcEnd_foregroundTarget h
  have hfit : r.val + (t.roomSought ⟨r, true, nursery⟩).val < b.usizeCard := hx.fits hsize
  have hgrow : (scaledGrowPages grow t.foregroundHeapGrowthMultiplier).val ≤ _ :=
    scaledGrowPages_le_foreground hx hsize
  rw [Fin.le_def, onGcEnd_of_covered hx hp h, foregroundTarget_val (by dsimp only; omega) hmin]
  split
  · rename_i hpos
    rcases targetSize_grow hx hsize with ⟨rfl, hroom⟩ | ⟨-, rfl, -⟩
    · rw [hroom]
      exact min_le_min_left _ (Nat.add_le_add_left hgrow _)
    · exact absurd hpos.2 (lt_irrefl _)
  · exact Nat.zero_le _

/-- **The switch to the foreground catches up.** Where a collection in the foreground returns, one
in the background returns as well, and the switch makes up for the difference. -/
theorem switch_catches_up (hm : 1 ≤ t.foregroundHeapGrowthMultiplier)
    (hx : t.RoomExact ⟨r, true, nursery⟩)
    (hsize : t.targetSize ⟨r, false, nursery⟩ = some (size, grow))
    (hp : t.pendingAllocation.val ≤ size.val - r.val)
    (h₂ : t.onGcEnd ⟨r, true, nursery⟩ = some t₂) :
    ∃ t₁, t.onGcEnd ⟨r, false, nursery⟩ = some t₁ ∧
      (nursery = false → t₁.growHeapSizeForEvent.targetFootprint = t₂.targetFootprint) ∧
      (nursery = true → t₂.targetFootprint ≤ t₁.growHeapSizeForEvent.targetFootprint ∧
        t₁.growHeapSizeForEvent.targetFootprint ≤ t.growthLimit) ∧
      t₂.growHeapSizeForEvent = t₂ := by
  -- the sums fit in the foreground, hence in the background
  obtain ⟨_, _, hsize₂, -⟩ := onGcEnd_foregroundTarget h₂
  have hfit : r.val + (t.roomSought ⟨r, true, nursery⟩).val < b.usizeCard := hx.fits hsize₂
  have hroom : (t.roomSought ⟨r, false, nursery⟩).val ≤ (t.roomSought ⟨r, true, nursery⟩).val :=
    roomSought_background_le hm r nursery
  have hx₁ : t.RoomExact ⟨r, false, nursery⟩ := .inr (by dsimp only; omega)
  -- neither collection adds what is pending
  have hval := targetSize_val hx₁ hsize
  have hp₁ : t.pendingAllocation.val ≤ t.headroom ⟨r, false, nursery⟩ := by
    dsimp only at hval
    omega
  have hhead := headroom_background_le hm r nursery
  obtain ⟨t₁, h₁⟩ : ∃ t₁, t.onGcEnd ⟨r, false, nursery⟩ = some t₁ := by
    refine onGcEnd_returns (by dsimp only; omega)
      (fun hlt => absurd hp₁ (not_le.mpr hlt)) fun size grow h => ?_
    have hgrow : (scaledGrowPages grow t.foregroundHeapGrowthMultiplier).val ≤ _ :=
      scaledGrowPages_le_foreground hx₁ h
    dsimp only
    omega
  have hT₁ := onGcEnd_of_covered hx₁ hp₁ h₁
  have hT₂ := onGcEnd_of_covered hx (hp₁.trans hhead) h₂
  have hle₂ := t.headroom_le ⟨r, true, nursery⟩
  dsimp only at hT₁ hT₂
  refine ⟨t₁, h₁, fun hn => ?_, fun hn => ⟨?_, ?_⟩,
    growHeapSizeForEvent_eq_self (onGcEnd_foreground hx (hp₁.trans hhead) h₂)⟩
  · subst hn
    rw [growHeapSizeForEvent_targetFootprint, Fin.ext_iff, Fin.coe_max, hT₁, hT₂]
    have hfull₂ : t.headroom ⟨r, true, false⟩ = (t.roomSought ⟨r, true, false⟩).val := rfl
    rcases onGcEnd_background hm hfit h₁ with hmin | ⟨hmin, hsame⟩ <;> omega
  · rw [growHeapSizeForEvent_targetFootprint, Fin.le_def, Fin.coe_max, hT₁, hT₂]
    rcases onGcEnd_background hm hfit h₁ with hmin | ⟨hmin, hsame⟩ <;> omega
  · rw [growHeapSizeForEvent_targetFootprint]
    obtain ⟨hT, hmin, -⟩ := onGcEnd_eq_some h₁
    exact max_le hT hmin

/-- A full collection with ten reserved pages and one pending page. -/
theorem switch_catches_up_ten : ∃ t₁ t₂,
    (ofHundredPages 10 1).onGcEnd ⟨10, false, false⟩ = some t₁ ∧
      (ofHundredPages 10 1).onGcEnd ⟨10, true, false⟩ = some t₂ ∧
      t₁.growHeapSizeForEvent.targetFootprint = t₂.targetFootprint := by
  have hend : ((ofHundredPages 10 1).onGcEnd ⟨10, true, false⟩).isSome = true := by
    decide +kernel
  obtain ⟨t₂, h₂⟩ := Option.isSome_iff_exists.mp hend
  obtain ⟨t₁, h₁, heq, -⟩ := switch_catches_up (by decide +kernel) (.inl rfl)
    (show targetSize _ _ = some (18, 8) by decide +kernel) (by decide +kernel) h₂
  exact ⟨t₁, t₂, h₁, h₂, heq rfl⟩

end ArtTrigger
end MmtkArt
