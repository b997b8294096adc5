import MmtkArt.GcTrigger.Policy
import MmtkArt.Util.Interleaving

/-! # The individual atomic accesses of the trigger

The operations that mutators and the runtime call while no collection ends, one atomic access at a
time: `is_gc_required`, `on_pending_allocation` and `grow_heap_size_for_event`. `Pc` says which
access of the source comes next, with the values that the locals hold. A thread that runs alone
computes what the operations of `Policy.lean` say (`solo_isGcRequired`,
`solo_growHeapSizeForEvent`). -/

namespace MmtkArt

/-- Where a thread is, named after its next access. -/
inductive Pc (b : Build)
  | idle
  -- `is_gc_required`, from the head of the loop
  | loadTarget
  | readReserved (oldTarget : Usize b)
  | loadPending (oldTarget reservedPages : Usize b)
  | loadGrowthLimit (oldTarget newTarget pendingAllocation : Usize b)
  | exchange (oldTarget newTarget pendingAllocation : Usize b)
  | fetchSub (pendingAllocation : Usize b)
  | askPlan (gcRequired : Bool)
  | returned (answer : Bool)
  -- `grow_heap_on_jank_perceptible_switch`
  | switchLoadTarget
  | switchCompare (targetFootprint : Usize b)
  | switchLoadMin (targetFootprint : Usize b)
  | switchExchange (targetFootprint minForeground : Usize b)
  | switched
  deriving DecidableEq

/-- A thread that is in no operation. -/
inductive Pc.Ready {b : Build} : Pc b → Prop
  | idle : Pc.Ready .idle
  | returned (answer) : Pc.Ready (.returned answer)
  | switched : Pc.Ready .switched

/-- A thread calls an operation, makes its next access to the trigger, or takes a value from
outside: the plan's reserved pages, a weak exchange that fails spuriously, the plan's answer. -/
inductive Act (b : Build)
  | isGcRequired
  | onPendingAllocation (pages : Usize b)
  | growHeapSizeForEvent
  | access
  | reserved (pages : Usize b)
  | spuriousFailure
  | planAnswer (answer : Bool)
  deriving DecidableEq

namespace ArtTrigger

variable {b : Build} {F : Type}

/-- The next access to the trigger, and the control flow up to the one after it. -/
def access (t : ArtTrigger b F) : Pc b → Option (ArtTrigger b F × Pc b)
  | .loadTarget => some (t, .readReserved t.targetFootprint)
  | .loadPending oldTarget reservedPages => do
    let newTarget ← reservedPages.add t.pendingAllocation
    if newTarget ≤ oldTarget then
      return (t, .askPlan false)
    else
      return (t, .loadGrowthLimit oldTarget newTarget t.pendingAllocation)
  | .loadGrowthLimit oldTarget newTarget pendingAllocation =>
    if newTarget > t.growthLimit then some (t, .askPlan true)
    else some (t, .exchange oldTarget newTarget pendingAllocation)
  | .exchange oldTarget newTarget pendingAllocation =>
    if t.targetFootprint = oldTarget then
      some ({ t with targetFootprint := newTarget }, .fetchSub pendingAllocation)
    else some (t, .loadTarget)
  | .fetchSub pendingAllocation =>
    some ({ t with pendingAllocation := t.pendingAllocation - pendingAllocation },
      .askPlan false)
  | .switchLoadTarget => some (t, .switchCompare t.targetFootprint)
  | .switchCompare targetFootprint =>
    if targetFootprint < t.minForegroundTargetFootprint then
      some (t, .switchLoadMin targetFootprint)
    else some (t, .switched)
  | .switchLoadMin targetFootprint =>
    some (t, .switchExchange targetFootprint t.minForegroundTargetFootprint)
  | .switchExchange targetFootprint minForeground =>
    if t.targetFootprint = targetFootprint then
      some ({ t with targetFootprint := minForeground }, .switched)
    else some (t, .switchLoadMin t.targetFootprint)
  | .idle | .readReserved _ | .askPlan _ | .returned _ | .switched => none

/-- One step of a thread. -/
def thread : Interleaving.Thread (ArtTrigger b F) (Pc b) (Act b) := fun t pc act =>
  match pc, act with
  | .idle, .isGcRequired | .returned _, .isGcRequired | .switched, .isGcRequired =>
    some (t, .loadTarget)
  | .idle, .onPendingAllocation pages | .returned _, .onPendingAllocation pages
  | .switched, .onPendingAllocation pages => some (t.onPendingAllocation pages, .idle)
  | .idle, .growHeapSizeForEvent | .returned _, .growHeapSizeForEvent
  | .switched, .growHeapSizeForEvent => some (t, .switchLoadTarget)
  | .readReserved oldTarget, .reserved pages => some (t, .loadPending oldTarget pages)
  | .exchange .., .spuriousFailure => some (t, .loadTarget)
  -- `gc_required || plan.collection_required(..)` asks the plan only when needed
  | .askPlan true, .access => some (t, .returned true)
  | .askPlan false, .planAnswer answer => some (t, .returned answer)
  | pc, .access => t.access pc
  | _, _ => none

/-- The steps of a thread, by the access that each makes. -/
inductive ThreadStep (t : ArtTrigger b F) : Pc b → Act b → ArtTrigger b F → Pc b → Prop
  | call {pc} (hr : pc.Ready) : ThreadStep t pc .isGcRequired t .loadTarget
  | onPendingAllocation {pc} (hr : pc.Ready) (pages) :
    ThreadStep t pc (.onPendingAllocation pages) (t.onPendingAllocation pages) .idle
  | callSwitch {pc} (hr : pc.Ready) : ThreadStep t pc .growHeapSizeForEvent t .switchLoadTarget
  | loadTarget : ThreadStep t .loadTarget .access t (.readReserved t.targetFootprint)
  | reserved (old pages) :
    ThreadStep t (.readReserved old) (.reserved pages) t (.loadPending old pages)
  | loadPendingBelow {old r new} (hadd : r.add t.pendingAllocation = some new)
      (hle : new ≤ old) : ThreadStep t (.loadPending old r) .access t (.askPlan false)
  | loadPendingAbove {old r new} (hadd : r.add t.pendingAllocation = some new)
      (hlt : old < new) : ThreadStep t (.loadPending old r) .access t
        (.loadGrowthLimit old new t.pendingAllocation)
  | aboveGrowthLimit {old new p} (hlt : t.growthLimit < new) :
    ThreadStep t (.loadGrowthLimit old new p) .access t (.askPlan true)
  | belowGrowthLimit {old new p} (hle : new ≤ t.growthLimit) :
    ThreadStep t (.loadGrowthLimit old new p) .access t (.exchange old new p)
  | exchanged {old new p} (heq : t.targetFootprint = old) :
    ThreadStep t (.exchange old new p) .access { t with targetFootprint := new } (.fetchSub p)
  | exchangeFailed {old new p} (hne : t.targetFootprint ≠ old) :
    ThreadStep t (.exchange old new p) .access t .loadTarget
  | spuriousFailure (old new p) :
    ThreadStep t (.exchange old new p) .spuriousFailure t .loadTarget
  | fetchSub (p) : ThreadStep t (.fetchSub p) .access
      { t with pendingAllocation := t.pendingAllocation - p } (.askPlan false)
  | required : ThreadStep t (.askPlan true) .access t (.returned true)
  | planAnswer (answer) :
    ThreadStep t (.askPlan false) (.planAnswer answer) t (.returned answer)
  | switchLoadTarget :
    ThreadStep t .switchLoadTarget .access t (.switchCompare t.targetFootprint)
  | switchBelow {x} (hlt : x < t.minForegroundTargetFootprint) :
    ThreadStep t (.switchCompare x) .access t (.switchLoadMin x)
  | switchAbove {x} (hle : t.minForegroundTargetFootprint ≤ x) :
    ThreadStep t (.switchCompare x) .access t .switched
  | switchLoadMin (x) : ThreadStep t (.switchLoadMin x) .access t
      (.switchExchange x t.minForegroundTargetFootprint)
  | switchExchanged {x m} (heq : t.targetFootprint = x) :
    ThreadStep t (.switchExchange x m) .access { t with targetFootprint := m } .switched
  | switchExchangeFailed {x m} (hne : t.targetFootprint ≠ x) :
    ThreadStep t (.switchExchange x m) .access t (.switchLoadMin t.targetFootprint)

variable {t t' : ArtTrigger b F} {pc pc' : Pc b} {act : Act b}

theorem access_cases (h : t.access pc = some (t', pc')) : ThreadStep t pc .access t' pc' := by
  cases pc with
  | loadTarget => cases h; exact .loadTarget
  | loadPending =>
    obtain ⟨new, hadd, h⟩ := Option.bind_eq_some_iff.mp h
    split at h
    · cases h
      exact .loadPendingBelow hadd ‹_›
    · cases h
      exact .loadPendingAbove hadd (not_le.mp ‹_›)
  | loadGrowthLimit =>
    rw [access] at h
    split at h
    · cases h
      exact .aboveGrowthLimit ‹_›
    · cases h
      exact .belowGrowthLimit (not_lt.mp ‹_›)
  | exchange =>
    rw [access] at h
    split at h
    · cases h
      exact .exchanged ‹_›
    · cases h
      exact .exchangeFailed ‹_›
  | fetchSub p => cases h; exact .fetchSub p
  | switchLoadTarget => cases h; exact .switchLoadTarget
  | switchCompare =>
    rw [access] at h
    split at h
    · cases h
      exact .switchBelow ‹_›
    · cases h
      exact .switchAbove (not_lt.mp ‹_›)
  | switchLoadMin x => cases h; exact .switchLoadMin x
  | switchExchange =>
    rw [access] at h
    split at h
    · cases h
      exact .switchExchanged ‹_›
    · cases h
      exact .switchExchangeFailed ‹_›
  | _ => cases h

theorem thread_cases (h : thread t pc act = some (t', pc')) : ThreadStep t pc act t' pc' := by
  unfold thread at h
  split at h
  case h_1 | h_2 | h_3 => cases h; exact .call (by constructor)
  case h_4 | h_5 | h_6 => cases h; exact .onPendingAllocation (by constructor) _
  case h_7 | h_8 | h_9 => cases h; exact .callSwitch (by constructor)
  case h_10 => cases h; exact .reserved _ _
  case h_11 => cases h; exact .spuriousFailure _ _ _
  case h_12 => cases h; exact .required
  case h_13 => cases h; exact .planAnswer _
  case h_14 => exact access_cases h
  case h_15 => cases h

/-- No access changes the cached foreground target. -/
theorem ThreadStep.minForeground_eq (h : ThreadStep t pc act t' pc') :
    t'.minForegroundTargetFootprint = t.minForegroundTargetFootprint := by
  cases h <;> rfl

/-- A thread outside the foreground switch has seen a target that was there, and goes on only with
a greater one. -/
def Seen (t : ArtTrigger b F) : Pc b → Prop
  | .readReserved old | .loadPending old _ => old ≤ t.targetFootprint
  | .loadGrowthLimit old new _ | .exchange old new _ => old ≤ t.targetFootprint ∧ old < new
  | .switchLoadTarget | .switchCompare _ | .switchLoadMin _ | .switchExchange _ _ => False
  | _ => True

theorem Seen.mono (hle : t.targetFootprint ≤ t'.targetFootprint) (h : t.Seen pc) :
    t'.Seen pc := by
  cases pc with
  | readReserved | loadPending => exact le_trans h hle
  | loadGrowthLimit | exchange => exact ⟨h.1.trans hle, h.2⟩
  | _ => exact h

/-- A thread outside the foreground switch never lowers the target. -/
theorem Seen.step (hs : t.Seen pc) (ha : act ≠ .growHeapSizeForEvent)
    (h : ThreadStep t pc act t' pc') :
    t.targetFootprint ≤ t'.targetFootprint ∧ t'.Seen pc' := by
  cases h with
  | callSwitch => exact absurd rfl ha
  | loadTarget | reserved => exact ⟨le_rfl, by first | exact le_rfl | exact hs⟩
  | loadPendingAbove _ hlt => exact ⟨le_rfl, hs, hlt⟩
  | belowGrowthLimit _ => exact ⟨le_rfl, hs⟩
  | exchanged heq => exact ⟨heq ▸ hs.2.le, trivial⟩
  | switchLoadTarget | switchBelow | switchAbove | switchLoadMin | switchExchanged
  | switchExchangeFailed => exact hs.elim
  | _ => exact ⟨le_rfl, trivial⟩

/-- The trigger and its threads. -/
abbrev Threads (b : Build) (F ι : Type) := ArtTrigger b F × (ι → Pc b)

/-! ### A thread that runs alone -/

/-- A thread on its own. -/
def solo : Machine.Step (ArtTrigger b F × Pc b) (Act b) := fun s act => thread s.1 s.2 act

section
variable {SpaceStats : Type} (plan : Plan b F SpaceStats) (spaceFull : Bool)
  (space : Option SpaceStats)

/-- The values from outside are those of `plan`, and no other operation is called. -/
def FromPlan (s : ArtTrigger b F × Pc b) : Act b → Prop
  | .reserved pages => pages = plan.reservedPages
  | .planAnswer answer => answer = plan.collectionRequired spaceFull space s.1
  | .access | .spuriousFailure => True
  | .isGcRequired | .onPendingAllocation _ | .growHeapSizeForEvent => False

/-- What a thread that runs `is_gc_required` alone from the state `t` has computed. -/
def SoloInv (t : ArtTrigger b F) : ArtTrigger b F × Pc b → Prop
  | (u, .loadTarget) => u = t
  | (u, .readReserved old) => u = t ∧ old = t.targetFootprint
  | (u, .loadPending old r) => u = t ∧ old = t.targetFootprint ∧ r = plan.reservedPages
  | (u, .loadGrowthLimit old new p) => u = t ∧ old = t.targetFootprint ∧
      p = t.pendingAllocation ∧ plan.reservedPages.add p = some new ∧ old < new
  | (u, .exchange old new p) => u = t ∧ old = t.targetFootprint ∧
      p = t.pendingAllocation ∧ plan.reservedPages.add p = some new ∧ old < new ∧
      new ≤ t.growthLimit
  | (u, .fetchSub p) => ∃ new, u = { t with targetFootprint := new } ∧
      p = t.pendingAllocation ∧ plan.reservedPages.add p = some new ∧ t.targetFootprint < new ∧
      new ≤ t.growthLimit
  | (u, .askPlan g) => t.isGcRequiredLoop plan.reservedPages = some (g, u)
  | (u, .returned g) => t.isGcRequired spaceFull space plan = some (g, u)
  | _ => False

theorem isGcRequiredLoop_of_add {r new : Usize b} (hadd : r.add t.pendingAllocation = some new) :
    t.isGcRequiredLoop r = if new ≤ t.targetFootprint then some (false, t)
      else if new > t.growthLimit then some (true, t)
      else some (false, { t with
        targetFootprint := new
        pendingAllocation := t.pendingAllocation - t.pendingAllocation }) := by
  rw [isGcRequiredLoop, hadd]
  rfl

variable {plan spaceFull space}

theorem solo_step {u u' : ArtTrigger b F} (hI : SoloInv plan spaceFull space t (u, pc))
    (hp : FromPlan plan spaceFull space (u, pc) act) (h : ThreadStep u pc act u' pc') :
    SoloInv plan spaceFull space t (u', pc') := by
  cases h with
  | call | onPendingAllocation | callSwitch => exact hp.elim
  | loadTarget => cases hI; exact ⟨rfl, rfl⟩
  | reserved => exact ⟨hI.1, hI.2, hp⟩
  | loadPendingBelow hadd hle =>
    obtain ⟨rfl, rfl, rfl⟩ := hI
    exact (isGcRequiredLoop_of_add hadd).trans (if_pos hle)
  | loadPendingAbove hadd hlt =>
    obtain ⟨rfl, rfl, rfl⟩ := hI
    exact ⟨rfl, rfl, rfl, hadd, hlt⟩
  | aboveGrowthLimit hG =>
    obtain ⟨rfl, rfl, rfl, hadd, hlt⟩ := hI
    exact (isGcRequiredLoop_of_add hadd).trans
      ((if_neg (not_le.mpr hlt)).trans (if_pos hG))
  | belowGrowthLimit hG =>
    obtain ⟨rfl, rfl, rfl, hadd, hlt⟩ := hI
    exact ⟨rfl, rfl, rfl, hadd, hlt, hG⟩
  | exchanged _ =>
    obtain ⟨rfl, rfl, rfl, hadd, hlt, hG⟩ := hI
    exact ⟨_, rfl, rfl, hadd, hlt, hG⟩
  | exchangeFailed | spuriousFailure => exact hI.1
  | fetchSub =>
    obtain ⟨new, rfl, rfl, hadd, hlt, hG⟩ := hI
    exact (isGcRequiredLoop_of_add hadd).trans
      ((if_neg (not_le.mpr hlt)).trans (if_neg (not_lt.mpr hG)))
  | required =>
    have hloop : t.isGcRequiredLoop plan.reservedPages = some (true, u) := hI
    change t.isGcRequired spaceFull space plan = _
    rw [isGcRequired, hloop]
    rfl
  | planAnswer =>
    have hloop : t.isGcRequiredLoop plan.reservedPages = some (false, u) := hI
    cases hp
    change t.isGcRequired spaceFull space plan = _
    rw [isGcRequired, hloop]
    rfl
  | switchLoadTarget | switchBelow | switchAbove | switchLoadMin | switchExchanged
  | switchExchangeFailed => exact hI.elim

/-- **`isGcRequired` is what its accesses compute without interference**, however often the weak
exchange fails spuriously. -/
theorem solo_isGcRequired {u : ArtTrigger b F} {answer : Bool} {acts : List (Act b)}
    (hp : Machine.EachStep solo (fun s act _ => FromPlan plan spaceFull space s act)
      (t, .loadTarget) acts)
    (hrun : Machine.run solo (t, .loadTarget) acts = some (u, .returned answer)) :
    t.isGcRequired spaceFull space plan = some (answer, u) := by
  have h₀ : SoloInv plan spaceFull space t (t, .loadTarget) := rfl
  exact Machine.invariant_run (I := SoloInv plan spaceFull space t) h₀ hp
    (fun _ _ _ hI hp h => solo_step hI hp (thread_cases h)) hrun

end

/-- What a thread that runs `grow_heap_size_for_event` alone from the state `t` has computed. -/
def SoloSwitchInv (t : ArtTrigger b F) : ArtTrigger b F × Pc b → Prop
  | (u, .switchLoadTarget) => u = t
  | (u, .switchCompare x) => u = t ∧ x = t.targetFootprint
  | (u, .switchLoadMin x) => u = t ∧ x = t.targetFootprint ∧
      t.targetFootprint < t.minForegroundTargetFootprint
  | (u, .switchExchange x m) => u = t ∧ x = t.targetFootprint ∧
      t.targetFootprint < t.minForegroundTargetFootprint ∧ m = t.minForegroundTargetFootprint
  | (u, .switched) => u = t.growHeapSizeForEvent
  | _ => False

theorem solo_switch_step {u u' : ArtTrigger b F} (hI : SoloSwitchInv t (u, pc))
    (h : ThreadStep u pc .access u' pc') : SoloSwitchInv t (u', pc') := by
  cases h with
  | switchLoadTarget => cases hI; exact ⟨rfl, rfl⟩
  | switchBelow hlt => obtain ⟨rfl, rfl⟩ := hI; exact ⟨rfl, rfl, hlt⟩
  | switchAbove hle =>
    obtain ⟨rfl, rfl⟩ := hI
    exact (if_neg (not_lt.mpr hle)).symm
  | switchLoadMin => obtain ⟨rfl, rfl, hlt⟩ := hI; exact ⟨rfl, rfl, hlt, rfl⟩
  | switchExchanged _ =>
    obtain ⟨rfl, rfl, hlt, rfl⟩ := hI
    exact (if_pos hlt).symm
  | switchExchangeFailed hne => exact absurd (hI.1 ▸ hI.2.1.symm) hne
  | _ => exact hI.elim

/-- **`growHeapSizeForEvent` is what its accesses compute without interference.** -/
theorem solo_growHeapSizeForEvent {u : ArtTrigger b F} {acts : List (Act b)}
    (ha : ∀ act ∈ acts, act = .access)
    (hrun : Machine.run solo (t, .switchLoadTarget) acts = some (u, .switched)) :
    u = t.growHeapSizeForEvent := by
  have h₀ : SoloSwitchInv t (t, .switchLoadTarget) := rfl
  refine Machine.invariant_run (I := SoloSwitchInv t) h₀ (.of_forall_mem ha)
    (fun s act s' hI ha h => ?_) hrun
  subst ha
  exact solo_switch_step hI (thread_cases h)

end ArtTrigger
end MmtkArt
