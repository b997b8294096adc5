import MmtkArt.GcTrigger.HeapRange
import MmtkArt.GcTrigger.Threads

/-! # Every operation of the trigger, one access at a time

`Threads.lean` has the accesses of the operations that loop or add. Here are those of the others: the
start and the end of a collection and the three that write the limits. Run alone, each computes what
`Policy.lean` says (`solo_step_iff`). Whatever is interleaved, no size that the trigger holds or that
a thread is about to write outgrows what bounded the sizes at first (`within_run`). -/

namespace MmtkArt

/-- The operations of the policy whose accesses are made once each. -/
inductive StraightOp (b : Build)
  | onGcStart (mmtk : Mmtk b)
  | onGcEnd (mmtk : Mmtk b)
  | clampGrowthLimit
  | clearGrowthLimit
  | clampMaxHeapSize (maxHeapSize : Usize b)

def StraightOp.toOp {b : Build} {F SpaceStats : Type} : StraightOp b → Op b F SpaceStats
  | .onGcStart mmtk => .onGcStart mmtk
  | .onGcEnd mmtk => .onGcEnd mmtk
  | .clampGrowthLimit => .clampGrowthLimit
  | .clearGrowthLimit => .clearGrowthLimit
  | .clampMaxHeapSize maxHeapSize => .clampMaxHeapSize maxHeapSize

/-- What follows `set_ideal_footprint` where it is called. -/
inductive AfterIdeal (b : Build)
  | growForUtilization (mmtk : Mmtk b) (growPages : Usize b)
  | clampMaxHeapSize

/-- Where a thread is in the operations of the policy, named after its next access. -/
inductive TriggerPc (b : Build)
  -- `is_gc_required` and `grow_heap_size_for_event`, or no operation
  | looping (pc : Pc b)
  -- `on_gc_start`
  | gcStartStore (reservedPages : Usize b)
  -- `grow_for_utilization`
  | nurseryCompare (mmtk : Mmtk b) (sum : Usize b)
  | nurseryMax (mmtk : Mmtk b)
  | comparePending (mmtk : Mmtk b) (targetSize growPages : Usize b)
  | addPending (mmtk : Mmtk b) (targetSize growPages : Usize b)
  | foregroundMin (sum : Usize b)
  | foregroundStore (minForeground : Usize b)
  -- `set_ideal_footprint`
  | idealCompare (next : AfterIdeal b) (targetFootprint : Usize b)
  | idealLoad (next : AfterIdeal b)
  | idealStore (next : AfterIdeal b) (targetFootprint : Usize b)
  -- the rest of `on_gc_end`
  | gcEndStorePending
  | gcEndStoreReserved
  -- `clamp_growth_limit_inner`
  | clampLoad
  | clampStore (growthLimit : Usize b)
  -- `clear_growth_limit`
  | clearLoadCapacity
  | clearLoadLimit (capacity : Usize b)
  | clearCompare (capacity growthLimit : Usize b)
  | clearStoreTarget (capacity : Usize b)
  | clearStoreLimit (capacity : Usize b)
  -- `clamp_max_heap_size`
  | maxStoreCapacity (maxHeapPages : Usize b)
  | maxStoreLimit (maxHeapPages : Usize b)

/-- The thread is in an operation that loops, or in none. -/
def TriggerPc.IsLooping {b : Build} : TriggerPc b → Prop
  | .looping _ => True
  | _ => False

/-- The thread is between two accesses of an operation without a loop, or has returned from it. -/
def TriggerPc.Straight {b : Build} (pc : TriggerPc b) : Prop := pc = .looping .idle ∨ ¬ pc.IsLooping

/-- The accesses that are left of an operation without a loop, at most. -/
def TriggerPc.accessesLeft {b : Build} : TriggerPc b → Nat
  | .looping _ => 0
  | .gcStartStore _ | .gcEndStoreReserved | .clampStore _ | .clearStoreLimit _ => 1
  | .gcEndStorePending | .clampLoad | .clearStoreTarget _ => 2
  | .foregroundStore _ | .clearCompare _ _ => 3
  | .foregroundMin _ | .clearLoadLimit _ => 4
  | .idealStore _ _ | .clearLoadCapacity => 5
  | .idealLoad _ => 6
  | .idealCompare _ _ => 7
  | .addPending .. | .maxStoreLimit _ => 8
  | .comparePending .. | .maxStoreCapacity _ => 9
  | .nurseryMax _ => 10
  | .nurseryCompare _ _ => 11

/-- A thread calls an operation without a loop, or does what a thread of `Threads.lean` can do. -/
inductive TriggerAct (b : Build)
  | call (op : StraightOp b)
  | act (act : Act b)

namespace ArtTrigger

variable {b : Build} {F : Type} [F64 F]

/-- `on_gc_end` up to its first access. What it asks of the MMTk instance it has asked by then. -/
def beginGcEnd (t : ArtTrigger b F) (mmtk : Mmtk b) : Option (TriggerPc b) := do
  let multiplier := t.getHeapGrowthMultiplier mmtk.isJankPerceptible
  if mmtk.isNurseryCollection then
    return .nurseryCompare mmtk (← mmtk.reservedPages.add (t.adjustedMaxFree multiplier))
  else
    let growPages := t.fullGrowPages mmtk.reservedPages
    return .comparePending mmtk
      (← mmtk.reservedPages.add (scaledGrowPages growPages multiplier)) growPages

/-- What follows the store of `set_ideal_footprint`, up to the next access. -/
def afterIdeal (t : ArtTrigger b F) : AfterIdeal b → Option (TriggerPc b)
  | .growForUtilization mmtk growPages => do
    let multiplier := t.getHeapGrowthMultiplier mmtk.isJankPerceptible
    if F64.le multiplier F64.one ∧ 0 < growPages then
      return .foregroundMin (← mmtk.reservedPages.add
        (scaledGrowPages growPages t.foregroundHeapGrowthMultiplier))
    else return .foregroundStore 0
  | .clampMaxHeapSize => some (.looping .idle)

/-- The call of an operation, up to its first access. -/
def callStraight (t : ArtTrigger b F) : StraightOp b → Option (TriggerPc b)
  | .onGcStart mmtk => some (.gcStartStore mmtk.reservedPages)
  | .onGcEnd mmtk => t.beginGcEnd mmtk
  | .clampGrowthLimit => some .clampLoad
  | .clearGrowthLimit => some .clearLoadCapacity
  | .clampMaxHeapSize maxHeapSize => some (.maxStoreCapacity maxHeapSize.toPages)

/-- The next access of an operation without a loop, and the control flow up to the one after it. -/
def straightAccess (t : ArtTrigger b F) : TriggerPc b → Option (ArtTrigger b F × TriggerPc b)
  | .looping _ => none
  | .gcStartStore reservedPages =>
    some ({ t with reservedPagesBeforeGc := reservedPages }, .looping .idle)
  | .nurseryCompare mmtk sum =>
    if sum < t.targetFootprint then some (t, .comparePending mmtk sum t.maxFree)
    else some (t, .nurseryMax mmtk)
  | .nurseryMax mmtk =>
    some (t, .comparePending mmtk (max mmtk.reservedPages t.targetFootprint) 0)
  | .comparePending mmtk targetSize growPages => do
    if (← targetSize.sub mmtk.reservedPages) < t.pendingAllocation then
      return (t, .addPending mmtk targetSize growPages)
    else return (t, .idealCompare (.growForUtilization mmtk growPages) targetSize)
  | .addPending mmtk targetSize growPages => do
    return (t, .idealCompare (.growForUtilization mmtk growPages)
      (← targetSize.add t.pendingAllocation))
  | .foregroundMin sum => some (t, .foregroundStore (min sum t.growthLimit))
  | .foregroundStore minForeground =>
    some ({ t with minForegroundTargetFootprint := minForeground }, .gcEndStorePending)
  | .idealCompare next targetFootprint =>
    if targetFootprint > t.growthLimit then some (t, .idealLoad next)
    else some (t, .idealStore next targetFootprint)
  | .idealLoad next => some (t, .idealStore next t.growthLimit)
  | .idealStore next targetFootprint => do
    return ({ t with targetFootprint }, ← t.afterIdeal next)
  | .gcEndStorePending => some ({ t with pendingAllocation := 0 }, .gcEndStoreReserved)
  | .gcEndStoreReserved => some ({ t with reservedPagesBeforeGc := 0 }, .looping .idle)
  | .clampLoad => some (t, .clampStore t.growthLimit)
  | .clampStore growthLimit => some ({ t with capacity := growthLimit }, .looping .idle)
  | .clearLoadCapacity => some (t, .clearLoadLimit t.capacity)
  | .clearLoadLimit capacity => some (t, .clearCompare capacity t.growthLimit)
  | .clearCompare capacity growthLimit =>
    if t.targetFootprint = growthLimit ∧ growthLimit < capacity then
      some (t, .clearStoreTarget capacity)
    else some (t, .clearStoreLimit capacity)
  | .clearStoreTarget capacity =>
    some ({ t with targetFootprint := capacity }, .clearStoreLimit capacity)
  | .clearStoreLimit capacity => some ({ t with growthLimit := capacity }, .looping .idle)
  | .maxStoreCapacity maxHeapPages =>
    some ({ t with capacity := maxHeapPages }, .maxStoreLimit maxHeapPages)
  | .maxStoreLimit maxHeapPages =>
    some ({ t with growthLimit := maxHeapPages }, .idealCompare .clampMaxHeapSize maxHeapPages)

/-- One step of a thread in any operation. -/
def triggerThread : Interleaving.Thread (ArtTrigger b F) (TriggerPc b) (TriggerAct b) :=
  fun t pc act =>
    match pc, act with
    | .looping pc, .act act => (thread t pc act).map fun s => (s.1, .looping s.2)
    | .looping .idle, .call op | .looping (.returned _), .call op | .looping .switched, .call op =>
      (t.callStraight op).map fun pc => (t, pc)
    | pc, .act .access => t.straightAccess pc
    | _, _ => none

/-! ### A thread that runs alone -/

/-- What is left of `on_gc_end` after the store of `set_ideal_footprint`, and of
`clamp_max_heap_size`. -/
def restAfterIdeal (t : ArtTrigger b F) : AfterIdeal b → Option (ArtTrigger b F)
  | .growForUtilization mmtk growPages => do
    let minForegroundTargetFootprint ← t.foregroundTarget mmtk growPages
    return { t with
      minForegroundTargetFootprint, pendingAllocation := 0, reservedPagesBeforeGc := 0 }
  | .clampMaxHeapSize => some t

/-- What is left of `on_gc_end` when the target size is known. -/
def restOfGrowth (t : ArtTrigger b F) (mmtk : Mmtk b) (targetSize growPages : Usize b) :
    Option (ArtTrigger b F) := do
  let targetSize ← t.addPendingAllocation mmtk.reservedPages targetSize
  (t.setIdealFootprint targetSize).restAfterIdeal (.growForUtilization mmtk growPages)

/-- The state that the thread leaves if it goes on without interference. -/
def rest (t : ArtTrigger b F) : TriggerPc b → Option (ArtTrigger b F)
  | .looping _ => some t
  | .gcStartStore reservedPages => some { t with reservedPagesBeforeGc := reservedPages }
  | .nurseryCompare mmtk sum =>
    if sum < t.targetFootprint then t.restOfGrowth mmtk sum t.maxFree
    else t.restOfGrowth mmtk (max mmtk.reservedPages t.targetFootprint) 0
  | .nurseryMax mmtk => t.restOfGrowth mmtk (max mmtk.reservedPages t.targetFootprint) 0
  | .comparePending mmtk targetSize growPages => t.restOfGrowth mmtk targetSize growPages
  | .addPending mmtk targetSize growPages => do
    let targetSize ← targetSize.add t.pendingAllocation
    (t.setIdealFootprint targetSize).restAfterIdeal (.growForUtilization mmtk growPages)
  | .foregroundMin sum => some { t with
      minForegroundTargetFootprint := min sum t.growthLimit
      pendingAllocation := 0, reservedPagesBeforeGc := 0 }
  | .foregroundStore minForegroundTargetFootprint => some { t with
      minForegroundTargetFootprint, pendingAllocation := 0, reservedPagesBeforeGc := 0 }
  | .idealCompare next targetFootprint =>
    (t.setIdealFootprint targetFootprint).restAfterIdeal next
  | .idealLoad next => { t with targetFootprint := t.growthLimit }.restAfterIdeal next
  | .idealStore next targetFootprint => { t with targetFootprint }.restAfterIdeal next
  | .gcEndStorePending => some { t with pendingAllocation := 0, reservedPagesBeforeGc := 0 }
  | .gcEndStoreReserved => some { t with reservedPagesBeforeGc := 0 }
  | .clampLoad => some t.clampGrowthLimit
  | .clampStore growthLimit => some { t with capacity := growthLimit }
  | .clearLoadCapacity => some t.clearGrowthLimit
  | .clearLoadLimit capacity => some { t with
      targetFootprint :=
        if t.targetFootprint = t.growthLimit ∧ t.growthLimit < capacity then capacity
        else t.targetFootprint
      growthLimit := capacity }
  | .clearCompare capacity growthLimit => some { t with
      targetFootprint :=
        if t.targetFootprint = growthLimit ∧ growthLimit < capacity then capacity
        else t.targetFootprint
      growthLimit := capacity }
  | .clearStoreTarget capacity => some { t with
      targetFootprint := capacity, growthLimit := capacity }
  | .clearStoreLimit capacity => some { t with growthLimit := capacity }
  | .maxStoreCapacity maxHeapPages =>
    some ({ t with capacity := maxHeapPages, growthLimit := maxHeapPages }.setIdealFootprint
      maxHeapPages)
  | .maxStoreLimit maxHeapPages =>
    some ({ t with growthLimit := maxHeapPages }.setIdealFootprint maxHeapPages)

variable {t t' u : ArtTrigger b F} {pc pc' : TriggerPc b}

theorem restAfterIdeal_eq (next : AfterIdeal b) :
    t.restAfterIdeal next = (t.afterIdeal next).bind t.rest := by
  cases next with
  | clampMaxHeapSize => rfl
  | growForUtilization mmtk growPages =>
    simp only [restAfterIdeal, afterIdeal, foregroundTarget, Option.bind_eq_bind]
    split
    · cases Usize.add mmtk.reservedPages _ <;> rfl
    · rfl

/-- An access computes the next part of what is left. -/
theorem rest_eq (h : ¬ TriggerPc.IsLooping pc) :
    t.rest pc = (t.straightAccess pc).bind fun s => s.1.rest s.2 := by
  cases pc with
  | looping => exact absurd trivial h
  | nurseryCompare =>
    simp only [rest, straightAccess]
    split <;> rfl
  | comparePending mmtk targetSize growPages =>
    simp only [rest, straightAccess, restOfGrowth, addPendingAllocation, Option.bind_eq_bind]
    cases targetSize.sub mmtk.reservedPages with
    | none => rfl
    | some room =>
      simp only [Option.bind_some]
      split <;> rfl
  | addPending mmtk targetSize growPages =>
    simp only [rest, straightAccess, Option.bind_eq_bind]
    cases targetSize.add t.pendingAllocation <;> rfl
  | idealCompare =>
    simp only [rest, straightAccess, setIdealFootprint]
    split <;> rfl
  | idealStore next targetFootprint =>
    change restAfterIdeal { t with targetFootprint } next =
      ((t.afterIdeal next).bind fun pc => some ({ t with targetFootprint }, pc)).bind _
    rw [restAfterIdeal_eq, Option.bind_assoc]
    rfl
  | clearCompare =>
    simp only [rest, straightAccess]
    split <;> rfl
  | _ => rfl

theorem onGcEnd_eq_rest (mmtk : Mmtk b) :
    t.onGcEnd mmtk = (t.targetSize mmtk).bind fun s => t.restOfGrowth mmtk s.1 s.2 := by
  simp only [onGcEnd, growForUtilization, restOfGrowth, restAfterIdeal, Option.bind_eq_bind,
    Option.pure_def, Option.bind_assoc, Option.bind_some]

theorem beginGcEnd_rest (mmtk : Mmtk b) :
    (t.beginGcEnd mmtk).bind t.rest =
      (t.targetSize mmtk).bind fun s => t.restOfGrowth mmtk s.1 s.2 := by
  simp only [beginGcEnd, targetSize, Option.bind_eq_bind, Option.pure_def]
  split
  · cases mmtk.reservedPages.add _ with
    | none => rfl
    | some sum =>
      simp only [Option.bind_some, rest]
      split <;> rfl
  · cases mmtk.reservedPages.add _ <;> rfl

theorem callStraight_rest {SpaceStats : Type} (op : StraightOp b) :
    (t.callStraight op).bind t.rest = t.step (op.toOp : Op b F SpaceStats) := by
  cases op with
  | onGcEnd mmtk => exact (beginGcEnd_rest mmtk).trans (onGcEnd_eq_rest mmtk).symm
  | _ => rfl

theorem afterIdeal_straight {next : AfterIdeal b} (h : t.afterIdeal next = some pc) :
    pc.Straight ∧ pc.accessesLeft < 5 := by
  cases next with
  | clampMaxHeapSize => cases h; exact ⟨.inl rfl, by simp [TriggerPc.accessesLeft]⟩
  | growForUtilization =>
    simp only [afterIdeal] at h
    split at h
    · obtain ⟨_, -, h⟩ := Option.bind_eq_some_iff.mp h
      cases h
      exact ⟨.inr id, by simp [TriggerPc.accessesLeft]⟩
    · cases h
      exact ⟨.inr id, by simp [TriggerPc.accessesLeft]⟩

theorem straightAccess_straight (h : t.straightAccess pc = some (t', pc')) :
    pc'.Straight ∧ pc'.accessesLeft < pc.accessesLeft := by
  cases pc with
  | looping => cases h
  | nurseryCompare | idealCompare | clearCompare =>
    simp only [straightAccess] at h
    split at h <;> cases h <;> exact ⟨.inr id, by simp [TriggerPc.accessesLeft]⟩
  | comparePending =>
    obtain ⟨_, -, h⟩ := Option.bind_eq_some_iff.mp h
    split at h <;> cases h <;> exact ⟨.inr id, by simp [TriggerPc.accessesLeft]⟩
  | addPending =>
    obtain ⟨_, -, h⟩ := Option.bind_eq_some_iff.mp h
    cases h
    exact ⟨.inr id, by simp [TriggerPc.accessesLeft]⟩
  | idealStore =>
    obtain ⟨_, hafter, h⟩ := Option.bind_eq_some_iff.mp h
    cases h
    exact afterIdeal_straight hafter
  | gcStartStore | gcEndStoreReserved | clampStore | clearStoreLimit =>
    cases h
    exact ⟨.inl rfl, by simp [TriggerPc.accessesLeft]⟩
  | _ =>
    cases h
    exact ⟨.inr id, by simp [TriggerPc.accessesLeft]⟩

/-- A thread on its own. -/
def soloThread : Machine.Step (ArtTrigger b F × TriggerPc b) (TriggerAct b) :=
  fun s act => triggerThread s.1 s.2 act

theorem triggerThread_access (h : ¬ pc.IsLooping) :
    triggerThread t pc (.act .access) = t.straightAccess pc := by
  cases pc with
  | looping => exact absurd trivial h
  | _ => rfl

/-- The accesses of a thread that runs alone compute what is left of its operation. -/
theorem solo_accesses_iff (h : pc.Straight) :
    (∃ n, Machine.run soloThread (t, pc) (List.replicate n (.act .access)) =
      some (u, .looping .idle)) ↔ t.rest pc = some u := by
  constructor
  · rintro ⟨n, hrun⟩
    induction n generalizing t pc with
    | zero =>
      cases hrun
      rfl
    | succ n ih =>
      obtain ⟨⟨t', pc'⟩, hstep, hrun⟩ := Machine.run_cons_eq_some hrun
      rcases h with rfl | h
      · cases hstep
      · replace hstep : triggerThread t pc (.act .access) = some (t', pc') := hstep
        rw [triggerThread_access h] at hstep
        rw [rest_eq h, hstep, Option.bind_some]
        exact ih (straightAccess_straight hstep).1 hrun
  · intro hrest
    induction hn : pc.accessesLeft using Nat.strong_induction_on generalizing t pc with
    | _ n ih =>
      rcases h with rfl | h
      · cases hrest
        exact ⟨0, rfl⟩
      · rw [rest_eq h] at hrest
        obtain ⟨⟨t', pc'⟩, hstep, hrest⟩ := Option.bind_eq_some_iff.mp hrest
        obtain ⟨hs, hlt⟩ := straightAccess_straight hstep
        obtain ⟨m, hrun⟩ := ih _ (hn ▸ hlt) hs hrest rfl
        refine ⟨m + 1, ?_⟩
        have hfirst : soloThread (t, pc) (.act .access) = some (t', pc') :=
          (triggerThread_access h).trans hstep
        rw [List.replicate_succ, Machine.run_cons, hfirst]
        exact hrun

theorem callStraight_straight {op : StraightOp b} (h : t.callStraight op = some pc) :
    pc.Straight := by
  cases op with
  | onGcEnd mmtk =>
    replace h : t.beginGcEnd mmtk = some pc := h
    simp only [beginGcEnd] at h
    split at h <;> obtain ⟨_, -, h⟩ := Option.bind_eq_some_iff.mp h <;> cases h <;> exact .inr id
  | _ => cases h; exact .inr id

/-- **Without interference an operation is what its accesses compute.** A thread that calls it and
runs alone returns exactly when the operation does, and leaves the state that it does. -/
theorem solo_step_iff {SpaceStats : Type} (op : StraightOp b) :
    (∃ n, Machine.run soloThread (t, .looping .idle)
      (.call op :: List.replicate n (.act .access)) = some (u, .looping .idle)) ↔
    t.step (op.toOp : Op b F SpaceStats) = some u := by
  have hcall : soloThread (t, .looping .idle) (.call op) =
      (t.callStraight op).map fun pc => (t, pc) := rfl
  simp only [← callStraight_rest op, Machine.run_cons, hcall]
  cases hpc : t.callStraight op with
  | none => simp
  | some pc => exact solo_accesses_iff (callStraight_straight hpc)

/-! ### Nothing outgrows its bound -/

/-- No size of the trigger exceeds `pages`. -/
structure Within (pages : Usize b) (t : ArtTrigger b F) : Prop where
  capacity : t.capacity ≤ pages
  growth : t.growthLimit ≤ pages
  target : t.targetFootprint ≤ pages
  foreground : t.minForegroundTargetFootprint ≤ pages

/-- No value that the thread may still write exceeds `pages`. -/
def PcWithin (pages : Usize b) : TriggerPc b → Prop
  | .looping (.exchange _ newTarget _) => newTarget ≤ pages
  | .looping (.switchExchange _ minForeground) => minForeground ≤ pages
  | .foregroundStore x | .idealStore _ x | .clampStore x | .clearLoadLimit x | .clearCompare x _
  | .clearStoreTarget x | .clearStoreLimit x | .maxStoreCapacity x | .maxStoreLimit x => x ≤ pages
  | _ => True

/-- No argument of `clamp_max_heap_size` exceeds `pages`. -/
def ActWithin (pages : Usize b) : TriggerAct b → Prop
  | .call (.clampMaxHeapSize maxHeapSize) => maxHeapSize.toPages ≤ pages
  | _ => True

instance (pages : Usize b) (act : TriggerAct b) : Decidable (ActWithin pages act) :=
  match act with
  | .call (.clampMaxHeapSize maxHeapSize) =>
    inferInstanceAs (Decidable (maxHeapSize.toPages ≤ pages))
  | .call (.onGcStart _) | .call (.onGcEnd _) | .call .clampGrowthLimit | .call .clearGrowthLimit
  | .act _ => .isTrue trivial

variable {pages : Usize b}

omit [F64 F] in
theorem ThreadStep.within {pc pc' : Pc b} {act : Act b} (ht : t.Within pages)
    (hpc : PcWithin pages (.looping pc)) (h : ThreadStep t pc act t' pc') :
    t'.Within pages ∧ PcWithin pages (.looping pc') := by
  cases h with
  | belowGrowthLimit hle => exact ⟨ht, hle.trans ht.growth⟩
  | exchanged => exact ⟨⟨ht.capacity, ht.growth, hpc, ht.foreground⟩, trivial⟩
  | switchLoadMin => exact ⟨ht, ht.foreground⟩
  | switchExchanged => exact ⟨⟨ht.capacity, ht.growth, hpc, ht.foreground⟩, trivial⟩
  | onPendingAllocation => exact ⟨⟨ht.capacity, ht.growth, ht.target, ht.foreground⟩, trivial⟩
  | fetchSub => exact ⟨⟨ht.capacity, ht.growth, ht.target, ht.foreground⟩, trivial⟩
  | _ => exact ⟨ht, trivial⟩

theorem afterIdeal_within {next : AfterIdeal b} (h : t.afterIdeal next = some pc) :
    PcWithin pages pc := by
  cases next with
  | clampMaxHeapSize => cases h; trivial
  | growForUtilization =>
    simp only [afterIdeal] at h
    split at h
    · obtain ⟨_, -, h⟩ := Option.bind_eq_some_iff.mp h
      cases h
      trivial
    · cases h
      exact Fin.zero_le _

theorem straightAccess_within (ht : t.Within pages) (hpc : PcWithin pages pc)
    (h : t.straightAccess pc = some (t', pc')) : t'.Within pages ∧ PcWithin pages pc' := by
  cases pc with
  | looping => cases h
  | nurseryCompare =>
    simp only [straightAccess] at h
    split at h <;> cases h <;> exact ⟨ht, trivial⟩
  | comparePending =>
    obtain ⟨_, -, h⟩ := Option.bind_eq_some_iff.mp h
    split at h <;> cases h <;> exact ⟨ht, trivial⟩
  | addPending =>
    obtain ⟨_, -, h⟩ := Option.bind_eq_some_iff.mp h
    cases h
    exact ⟨ht, trivial⟩
  | idealCompare next x =>
    simp only [straightAccess] at h
    split at h
    · cases h
      exact ⟨ht, trivial⟩
    · cases h
      exact ⟨ht, (not_lt.mp ‹_›).trans ht.growth⟩
  | idealLoad => cases h; exact ⟨ht, ht.growth⟩
  | idealStore =>
    obtain ⟨_, hafter, h⟩ := Option.bind_eq_some_iff.mp h
    cases h
    exact ⟨⟨ht.capacity, ht.growth, hpc, ht.foreground⟩, afterIdeal_within hafter⟩
  | foregroundMin => cases h; exact ⟨ht, (min_le_right _ _).trans ht.growth⟩
  | foregroundStore => cases h; exact ⟨⟨ht.capacity, ht.growth, ht.target, hpc⟩, trivial⟩
  | clearCompare =>
    simp only [straightAccess] at h
    split at h <;> cases h <;> exact ⟨ht, hpc⟩
  | clearStoreTarget => cases h; exact ⟨⟨ht.capacity, ht.growth, hpc, ht.foreground⟩, hpc⟩
  | clampLoad => cases h; exact ⟨ht, ht.growth⟩
  | clearLoadCapacity => cases h; exact ⟨ht, ht.capacity⟩
  | clearLoadLimit => cases h; exact ⟨ht, hpc⟩
  | clampStore => cases h; exact ⟨⟨hpc, ht.growth, ht.target, ht.foreground⟩, trivial⟩
  | clearStoreLimit => cases h; exact ⟨⟨ht.capacity, hpc, ht.target, ht.foreground⟩, trivial⟩
  | maxStoreCapacity => cases h; exact ⟨⟨hpc, ht.growth, ht.target, ht.foreground⟩, hpc⟩
  | maxStoreLimit => cases h; exact ⟨⟨ht.capacity, hpc, ht.target, ht.foreground⟩, trivial⟩
  | gcStartStore | gcEndStorePending | gcEndStoreReserved | nurseryMax =>
    cases h
    exact ⟨⟨ht.capacity, ht.growth, ht.target, ht.foreground⟩, trivial⟩

theorem callStraight_within {op : StraightOp b} (ha : ActWithin pages (.call op))
    (h : t.callStraight op = some pc) : PcWithin pages pc := by
  cases op with
  | onGcEnd mmtk =>
    replace h : t.beginGcEnd mmtk = some pc := h
    simp only [beginGcEnd] at h
    split at h <;> obtain ⟨_, -, h⟩ := Option.bind_eq_some_iff.mp h <;> cases h <;> trivial
  | clampMaxHeapSize => cases h; exact ha
  | _ => cases h; trivial

theorem triggerThread_within {act : TriggerAct b} (ht : t.Within pages) (hpc : PcWithin pages pc)
    (ha : ActWithin pages act) (h : triggerThread t pc act = some (t', pc')) :
    t'.Within pages ∧ PcWithin pages pc' := by
  unfold triggerThread at h
  split at h
  case h_1 =>
    obtain ⟨⟨u, q⟩, hthread, heq⟩ := Option.map_eq_some_iff.mp h
    cases heq
    exact (thread_cases hthread).within ht hpc
  case h_2 | h_3 | h_4 =>
    obtain ⟨q, hcall, heq⟩ := Option.map_eq_some_iff.mp h
    cases heq
    exact ⟨ht, callStraight_within ha hcall⟩
  case h_5 => exact straightAccess_within ht hpc h
  case h_6 => cases h

/-- The trigger and the threads in any of its operations. -/
abbrev TriggerThreads (b : Build) (F ι : Type) := ArtTrigger b F × (ι → TriggerPc b)

section
variable {ι : Type} [DecidableEq ι] {s : TriggerThreads b F ι} {as : List (ι × TriggerAct b)}

/-- **No size outgrows its bound.** Whatever operations are called and however their accesses
interleave, no size that the trigger holds exceeds what bounds the sizes at first and the arguments
of `clamp_max_heap_size`. -/
theorem within_run (ht : t.Within pages) (ha : ∀ a ∈ as, ActWithin pages a.2)
    (hrun : Machine.run (Interleaving.step triggerThread) (t, fun _ => .looping .idle) as =
      some s) : s.1.Within pages := by
  let I : TriggerThreads b F ι → Prop := fun s => s.1.Within pages ∧ ∀ i, PcWithin pages (s.2 i)
  have h₀ : I (t, fun _ => .looping .idle) := ⟨ht, fun _ => trivial⟩
  have hguard : Machine.EachStep (Interleaving.step triggerThread)
      (fun _ a _ => ActWithin pages a.2) (t, fun _ => .looping .idle) as := .of_forall_mem ha
  refine (Machine.invariant_run (I := I) h₀ hguard (fun s a s' hI ha h => ?_) hrun).1
  exact Interleaving.local_of_stable (R := fun _ t' => t'.Within pages)
    (L := fun _ _ pc => PcWithin pages pc) (fun _ _ _ _ _ hpc => hpc) hI.2 h fun hi =>
      triggerThread_within hI.1 (hI.2 a.1) ha hi

end

end ArtTrigger
end MmtkArt
