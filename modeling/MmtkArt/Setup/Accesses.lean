import MmtkArt.Setup.CriticalSections
import MmtkArt.Util.Interleaving
import MmtkArt.Util.Locks

/-! # Setting up the instance, one access at a time

The functions of `CriticalSections.lean` with each lock operation and each atomic access as a step of
its own. `BUILDER` and `TRIGGER_INIT` are mutexes, and `SINGLETON` runs its initializer once while
other threads wait for it. A panic leaves an `extern "C"` function and aborts the process: no step is
taken. `Access` says what each access finds and does, `held` and `wanted` which locks a thread holds
and which one it takes next. -/

namespace MmtkArt

/-- `std::sync::Mutex` -/
structure Mutex (α : Type) where
  locked : Bool
  value : α

/-- A value of `lazy_static`, with whether its initializer runs. -/
structure Lazy (α : Type) where
  running : Bool
  value : Option α

/-- The statics of the process. -/
structure Statics (b : Build) (F Builder : Type) where
  isMmtkInitialized : Bool
  isMmtkReinitializing : Bool
  builder : Mutex Builder
  triggerInit : Mutex (ArtTriggerInit b F)
  singleton : Lazy (MmtkInstance b F Builder)

/-- Where a thread is, named after what it does next. -/
inductive SetupPc (b : Build) (F Builder PlanSelector : Type)
  -- in no function; what `mmtk_set_heap_size` answered if it was the last one
  | returned (accepted : Option Bool)
  -- `mmtk_set_heap_size`
  | setLockBuilder (init : ArtTriggerInit b F)
  | setLockTriggerInit (init : ArtTriggerInit b F)
  | setTriggerInit (init : ArtTriggerInit b F)
  | setGcTrigger (init : ArtTriggerInit b F)
  -- `mmtk_init`
  | initAssert (plan : PlanSelector) (isZygoteProcess : Bool)
  | initLoad (plan : PlanSelector) (isZygoteProcess : Bool)
  | initStoreReinitializing
  | initLockPlan (plan : PlanSelector) (isZygoteProcess : Bool)
  | initSetPlan (plan : PlanSelector) (isZygoteProcess : Bool)
  | initLockZygote (isZygoteProcess : Bool)
  | initSetZygote (isZygoteProcess : Bool)
  -- a use of `SINGLETON`
  | useSingleton
  -- its initializer
  | buildLockBuilder
  | buildAssert
  | buildLockCapacity
  | buildSetVmLayout
  | buildMmtk
  | createLockTriggerInit
  | createTrigger
  | buildStore (inst : MmtkInstance b F Builder)
  | buildUnlock (inst : MmtkInstance b F Builder)
  | buildComplete (inst : MmtkInstance b F Builder)

/-- A thread calls a function, or goes on with its own. -/
inductive SetupAct (b : Build) (F PlanSelector : Type)
  | setHeapSize (init : ArtTriggerInit b F)
  | mmtkInit (plan : PlanSelector) (isZygoteProcess : Bool)
  | useSingleton
  | access

namespace Statics

variable {b : Build} {F Builder PlanSelector : Type}

def lockBuilder (s : Statics b F Builder) : Option (Statics b F Builder) :=
  if s.builder.locked then none else some { s with builder.locked := true }

def lockTriggerInit (s : Statics b F Builder) : Option (Statics b F Builder) :=
  if s.triggerInit.locked then none else some { s with triggerInit.locked := true }

section
variable [MmtkCore b] [HeapBuilder b Builder PlanSelector] (debugAssertions : Bool)

/-- The next access, and the control flow up to the one after it. -/
def access (s : Statics b F Builder) : SetupPc b F Builder PlanSelector →
    Option (Statics b F Builder × SetupPc b F Builder PlanSelector)
  | .returned _ => none
  | .setLockBuilder init => s.lockBuilder.map (·, .setLockTriggerInit init)
  | .setLockTriggerInit init => s.lockTriggerInit.map (·, .setTriggerInit init)
  | .setTriggerInit init => some ({ s with triggerInit := ⟨false, init⟩ }, .setGcTrigger init)
  | .setGcTrigger init =>
    let (accepted, builder) := HeapBuilder.setGcTrigger init.policy s.builder.value
    some ({ s with builder := ⟨false, builder⟩ }, .returned (some accepted))
  | .initAssert plan isZygoteProcess =>
    if s.isMmtkInitialized && isZygoteProcess then none
    else some (s, .initLoad plan isZygoteProcess)
  | .initLoad plan isZygoteProcess =>
    if s.isMmtkInitialized then some (s, .initStoreReinitializing)
    else some (s, .initLockPlan plan isZygoteProcess)
  | .initStoreReinitializing => some ({ s with isMmtkReinitializing := true }, .returned none)
  | .initLockPlan plan isZygoteProcess =>
    s.lockBuilder.map (·, .initSetPlan plan isZygoteProcess)
  | .initSetPlan plan isZygoteProcess =>
    some ({ s with builder := ⟨false, MmtkBuilder.setPlan plan s.builder.value⟩ },
      .initLockZygote isZygoteProcess)
  | .initLockZygote isZygoteProcess => s.lockBuilder.map (·, .initSetZygote isZygoteProcess)
  | .initSetZygote isZygoteProcess => do
    let builder := MmtkBuilder.setIsZygoteProcess isZygoteProcess s.builder.value
    debugAssert debugAssertions (some (MmtkBuilder.isZygoteProcess builder = isZygoteProcess))
    return ({ s with builder := ⟨false, builder⟩ }, .useSingleton)
  | .useSingleton =>
    match s.singleton.value with
    | some _ => some (s, .returned none)
    | none =>
      if s.singleton.running then none
      else some ({ s with singleton.running := true }, .buildLockBuilder)
  | .buildLockBuilder => s.lockBuilder.map (·, .buildAssert)
  | .buildAssert => if s.isMmtkInitialized then none else some (s, .buildLockCapacity)
  | .buildLockCapacity => s.lockTriggerInit.map (·, .buildSetVmLayout)
  | .buildSetVmLayout => do
    let layout ← setVmLayout s.triggerInit.value.capacity
    return ({ s with
      builder.value := MmtkBuilder.setVmLayout layout s.builder.value
      triggerInit.locked := false }, .buildMmtk)
  | .buildMmtk =>
    if HeapBuilder.gcTrigger s.builder.value = GcTriggerSelector.delegated (b := b) then
      some (s, .createLockTriggerInit)
    else some (s, .buildStore ⟨s.builder.value, none⟩)
  | .createLockTriggerInit => s.lockTriggerInit.map (·, .createTrigger)
  | .createTrigger =>
    some ({ s with triggerInit.locked := false },
      .buildStore ⟨s.builder.value, some s.triggerInit.value.createGcTrigger⟩)
  | .buildStore inst => some ({ s with isMmtkInitialized := true }, .buildUnlock inst)
  | .buildUnlock inst => some ({ s with builder.locked := false }, .buildComplete inst)
  | .buildComplete inst => some ({ s with singleton := ⟨false, some inst⟩ }, .returned none)

/-- One step of a thread. -/
def thread : Interleaving.Thread (Statics b F Builder) (SetupPc b F Builder PlanSelector)
    (SetupAct b F PlanSelector) := fun s pc act =>
  match pc, act with
  | .returned _, .setHeapSize init => some (s, .setLockBuilder init)
  | .returned _, .mmtkInit plan isZygoteProcess => some (s, .initAssert plan isZygoteProcess)
  | .returned _, .useSingleton => some (s, .useSingleton)
  | pc, .access => s.access debugAssertions pc
  | _, _ => none

/-- The accesses, each with what it finds. -/
inductive Access (s : Statics b F Builder) : SetupPc b F Builder PlanSelector →
    Statics b F Builder → SetupPc b F Builder PlanSelector → Prop
  | setLockBuilder (init) (hfree : s.builder.locked = false) :
    Access s (.setLockBuilder init) { s with builder.locked := true } (.setLockTriggerInit init)
  | setLockTriggerInit (init) (hfree : s.triggerInit.locked = false) :
    Access s (.setLockTriggerInit init) { s with triggerInit.locked := true }
      (.setTriggerInit init)
  | setTriggerInit (init) :
    Access s (.setTriggerInit init) { s with triggerInit := ⟨false, init⟩ } (.setGcTrigger init)
  | setGcTrigger (init) : Access s (.setGcTrigger init)
      { s with builder := ⟨false, (HeapBuilder.setGcTrigger init.policy s.builder.value).2⟩ }
      (.returned (some (HeapBuilder.setGcTrigger init.policy s.builder.value).1))
  | initAssert (plan z) (h : (s.isMmtkInitialized && z) = false) :
    Access s (.initAssert plan z) s (.initLoad plan z)
  | initialized (plan z) (h : s.isMmtkInitialized = true) :
    Access s (.initLoad plan z) s .initStoreReinitializing
  | notInitialized (plan z) (h : s.isMmtkInitialized = false) :
    Access s (.initLoad plan z) s (.initLockPlan plan z)
  | initStoreReinitializing :
    Access s .initStoreReinitializing { s with isMmtkReinitializing := true } (.returned none)
  | initLockPlan (plan z) (hfree : s.builder.locked = false) :
    Access s (.initLockPlan plan z) { s with builder.locked := true } (.initSetPlan plan z)
  | initSetPlan (plan z) : Access s (.initSetPlan plan z)
      { s with builder := ⟨false, MmtkBuilder.setPlan plan s.builder.value⟩ } (.initLockZygote z)
  | initLockZygote (z) (hfree : s.builder.locked = false) :
    Access s (.initLockZygote z) { s with builder.locked := true } (.initSetZygote z)
  | initSetZygote (z) : Access s (.initSetZygote z)
      { s with builder := ⟨false, MmtkBuilder.setIsZygoteProcess z s.builder.value⟩ }
      .useSingleton
  | useBuilt (inst) (h : s.singleton.value = some inst) :
    Access s .useSingleton s (.returned none)
  | startBuild (hfree : s.singleton.running = false) (h : s.singleton.value = none) :
    Access s .useSingleton { s with singleton.running := true } .buildLockBuilder
  | buildLockBuilder (hfree : s.builder.locked = false) :
    Access s .buildLockBuilder { s with builder.locked := true } .buildAssert
  | buildAssert (h : s.isMmtkInitialized = false) : Access s .buildAssert s .buildLockCapacity
  | buildLockCapacity (hfree : s.triggerInit.locked = false) :
    Access s .buildLockCapacity { s with triggerInit.locked := true } .buildSetVmLayout
  | buildSetVmLayout (layout) (h : setVmLayout s.triggerInit.value.capacity = some layout) :
    Access s .buildSetVmLayout
      { s with
        builder.value := MmtkBuilder.setVmLayout layout s.builder.value
        triggerInit.locked := false } .buildMmtk
  | buildDelegated
      (h : HeapBuilder.gcTrigger s.builder.value = GcTriggerSelector.delegated (b := b)) :
    Access s .buildMmtk s .createLockTriggerInit
  | buildNotDelegated
      (h : HeapBuilder.gcTrigger s.builder.value ≠ GcTriggerSelector.delegated (b := b)) :
    Access s .buildMmtk s (.buildStore ⟨s.builder.value, none⟩)
  | createLockTriggerInit (hfree : s.triggerInit.locked = false) :
    Access s .createLockTriggerInit { s with triggerInit.locked := true } .createTrigger
  | createTrigger : Access s .createTrigger { s with triggerInit.locked := false }
      (.buildStore ⟨s.builder.value, some s.triggerInit.value.createGcTrigger⟩)
  | buildStore (inst) :
    Access s (.buildStore inst) { s with isMmtkInitialized := true } (.buildUnlock inst)
  | buildUnlock (inst) :
    Access s (.buildUnlock inst) { s with builder.locked := false } (.buildComplete inst)
  | buildComplete (inst) :
    Access s (.buildComplete inst) { s with singleton := ⟨false, some inst⟩ } (.returned none)

variable {debugAssertions} {s s' : Statics b F Builder} {pc pc' : SetupPc b F Builder PlanSelector}

theorem access_cases (h : s.access debugAssertions pc = some (s', pc')) :
    Access s pc s' pc' := by
  cases pc with
  | returned => cases h
  | setLockBuilder | setLockTriggerInit | initLockPlan | initLockZygote | buildLockBuilder
  | buildLockCapacity | createLockTriggerInit =>
    obtain ⟨u, hu, heq⟩ := Option.map_eq_some_iff.mp h
    cases heq
    simp only [lockBuilder, lockTriggerInit] at hu
    split at hu
    · cases hu
    · cases hu
      constructor
      exact Bool.eq_false_iff.mpr ‹_›
  | initAssert | buildAssert =>
    simp only [access] at h
    split at h
    · cases h
    · cases h
      constructor
      exact Bool.eq_false_iff.mpr ‹_›
  | initLoad =>
    simp only [access] at h
    split at h
    · cases h
      exact .initialized _ _ ‹_›
    · cases h
      exact .notInitialized _ _ (Bool.eq_false_iff.mpr ‹_›)
  | initSetZygote z =>
    obtain ⟨_, -, h⟩ := Option.bind_eq_some_iff.mp h
    cases h
    exact .initSetZygote z
  | useSingleton =>
    simp only [access] at h
    split at h
    · cases h
      exact .useBuilt _ ‹_›
    · split at h
      · cases h
      · cases h
        exact .startBuild (Bool.eq_false_iff.mpr ‹_›) ‹_›
  | buildSetVmLayout =>
    obtain ⟨layout, hlayout, h⟩ := Option.bind_eq_some_iff.mp h
    cases h
    exact .buildSetVmLayout layout hlayout
  | buildMmtk =>
    simp only [access] at h
    split at h
    · cases h
      exact .buildDelegated ‹_›
    · cases h
      exact .buildNotDelegated ‹_›
  | _ => cases h; constructor

end

end Statics

/-! ### The locks -/

/-- What a thread can hold: the initializer of `SINGLETON` and the two mutexes. -/
inductive SetupLock
  | singleton
  | builder
  | triggerInit
  deriving DecidableEq

/-- The order in which the locks are taken. -/
def SetupLock.rank : SetupLock → Nat
  | .singleton => 0
  | .builder => 1
  | .triggerInit => 2

namespace SetupPc
variable {b : Build} {F Builder PlanSelector : Type}

/-- The locks that a thread holds. -/
def held : SetupPc b F Builder PlanSelector → List SetupLock
  | .setLockTriggerInit _ | .setGcTrigger _ | .initSetPlan _ _ | .initSetZygote _ => [.builder]
  | .setTriggerInit _ => [.builder, .triggerInit]
  | .buildLockBuilder | .buildComplete _ => [.singleton]
  | .buildAssert | .buildLockCapacity | .buildMmtk | .createLockTriggerInit | .buildStore _
  | .buildUnlock _ => [.singleton, .builder]
  | .buildSetVmLayout | .createTrigger => [.singleton, .builder, .triggerInit]
  | _ => []

/-- The lock that a thread takes next. -/
def wanted : SetupPc b F Builder PlanSelector → Option SetupLock
  | .setLockBuilder _ | .initLockPlan _ _ | .initLockZygote _ | .buildLockBuilder => some .builder
  | .setLockTriggerInit _ | .buildLockCapacity | .createLockTriggerInit => some .triggerInit
  | .useSingleton => some .singleton
  | _ => none

theorem rank_lt {pc : SetupPc b F Builder PlanSelector} {r r' : SetupLock} (hr : r ∈ pc.held)
    (hr' : pc.wanted = some r') : r.rank < r'.rank := by
  cases pc <;> cases hr' <;> revert r <;> simp [held, SetupLock.rank]

end SetupPc

namespace Statics
variable {b : Build} {F Builder PlanSelector : Type}

def locked (s : Statics b F Builder) : SetupLock → Bool
  | .singleton => s.singleton.running
  | .builder => s.builder.locked
  | .triggerInit => s.triggerInit.locked

/-- A function is called. -/
inductive Call : SetupAct b F PlanSelector → SetupPc b F Builder PlanSelector → Prop
  | setHeapSize (init) : Call (.setHeapSize init) (.setLockBuilder init)
  | mmtkInit (plan z) : Call (.mmtkInit plan z) (.initAssert plan z)
  | useSingleton : Call .useSingleton .useSingleton

variable [MmtkCore b] [HeapBuilder b Builder PlanSelector] {s s' : Statics b F Builder}
  {pc pc' : SetupPc b F Builder PlanSelector}

theorem Access.change (h : Access s pc s' pc') (r : SetupLock) :
    Locks.Change (s.locked r) (s'.locked r) (r ∈ pc.held) (r ∈ pc'.held) := by
  cases h <;> cases r <;> first
    | exact .keep rfl (by simp [SetupPc.held])
    | exact .acquire ‹_› rfl (by simp [SetupPc.held])
    | exact .release (by simp [SetupPc.held]) rfl (by simp [SetupPc.held])

/-- A thread calls a function when it is in none, or makes an access. -/
theorem thread_cases {debugAssertions : Bool} {act : SetupAct b F PlanSelector}
    (h : thread debugAssertions s pc act = some (s', pc')) :
    (s' = s ∧ pc.held = [] ∧ Call act pc') ∨ (act = .access ∧ Access s pc s' pc') := by
  unfold thread at h
  split at h
  case h_1 | h_2 | h_3 => cases h; exact .inl ⟨rfl, rfl, by constructor⟩
  case h_4 => exact .inr ⟨rfl, access_cases h⟩
  case h_5 => cases h

theorem thread_access {debugAssertions : Bool} :
    thread debugAssertions s pc .access = s.access debugAssertions pc := by
  cases pc <;> rfl

end Statics
end MmtkArt
