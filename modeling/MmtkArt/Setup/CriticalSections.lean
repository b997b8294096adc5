import MmtkArt.GcTrigger.Policy
import MmtkArt.Initialization

/-! # Setting up the instance, one critical section at a time

`mmtk_set_heap_size` writes the parameters of the trigger and the option for it, `mmtk_init` two more
options, and the first use of `SINGLETON` builds the instance from them. Each is a critical section
of the mutex `BUILDER`; `Setup` makes it one step. An instance is made of the parameters that were
set last before it (`run_parameters`, `exists_build`). -/

namespace MmtkArt

/-- ART GC trigger initialization parameters. Sizes are in bytes. -/
structure ArtTriggerInit (b : Build) (F : Type) where
  /-- Minimum free heap size -/
  minFree : Usize b
  /-- The ideal maximum free heap size -/
  maxFree : Usize b
  /-- Initial heap size -/
  initialSize : Usize b
  /-- Max heap size -/
  capacity : Usize b
  /-- Size the heap is limited to -/
  growthLimit : Usize b
  targetUtilization : F
  foregroundHeapGrowthMultiplier : F

/-- mmtk-core's option for the trigger. -/
inductive GcTriggerSelector (b : Build)
  | fixedHeapSize (size : Usize b)
  | dynamicHeapSize (min max : Usize b)
  | delegated
  deriving DecidableEq

/-- What the set-up uses of mmtk-core's builder besides. An option is set when its value is
valid. -/
class HeapBuilder (b : Build) (Builder : Type) (PlanSelector : outParam Type) extends
    MmtkBuilder Builder PlanSelector where
  gcTrigger : Builder → GcTriggerSelector b
  vmLayout : Builder → VmLayout
  setGcTrigger : GcTriggerSelector b → Builder → Bool × Builder
  vmLayout_setVmLayout : ∀ l x, vmLayout (toMmtkBuilder.setVmLayout l x) = l
  gcTrigger_setVmLayout : ∀ l x, gcTrigger (toMmtkBuilder.setVmLayout l x) = gcTrigger x
  gcTrigger_setPlan : ∀ p x, gcTrigger (toMmtkBuilder.setPlan p x) = gcTrigger x
  gcTrigger_setIsZygoteProcess : ∀ z x,
    gcTrigger (toMmtkBuilder.setIsZygoteProcess z x) = gcTrigger x
  gcTrigger_setGcTrigger : ∀ g x,
    gcTrigger (setGcTrigger g x).2 = if (setGcTrigger g x).1 then g else gcTrigger x

/-- What mmtk-core accepts as a trigger. -/
def GcTriggerSelector.validate {b : Build} : GcTriggerSelector b → Bool
  | .fixedHeapSize size => 0 < size
  | .dynamicHeapSize min max => min ≤ max
  | .delegated => true

/-- A builder that holds its options. -/
@[reducible] def HeapBuilder.documented (b : Build) (PlanSelector : Type) :
    HeapBuilder b (PlanSelector × Bool × VmLayout × GcTriggerSelector b) PlanSelector where
  plan x := x.1
  isZygoteProcess x := x.2.1
  vmLayout x := x.2.2.1
  gcTrigger x := x.2.2.2
  setPlan p x := (p, x.2)
  setIsZygoteProcess z x := (x.1, z, x.2.2)
  setVmLayout l x := (x.1, x.2.1, l, x.2.2.2)
  setGcTrigger g x := if g.validate then (true, x.1, x.2.1, x.2.2.1, g) else (false, x)
  plan_setPlan _ _ := rfl
  plan_setIsZygoteProcess _ _ := rfl
  plan_setVmLayout _ _ := rfl
  isZygoteProcess_setIsZygoteProcess _ _ := rfl
  vmLayout_setVmLayout _ _ := rfl
  gcTrigger_setVmLayout _ _ := rfl
  gcTrigger_setPlan _ _ := rfl
  gcTrigger_setIsZygoteProcess _ _ := rfl
  gcTrigger_setGcTrigger g _ := by cases g.validate <;> rfl

namespace ArtTriggerInit
variable {b : Build} {F : Type}

/-- `ArtTriggerInit::default()` -/
def default (b : Build) (F : Type) [F64 F] : ArtTriggerInit b F :=
  ⟨0, 0, 0, 0, 0, F64.ofNat 0, F64.ofNat 0⟩

/-- The option that `mmtk_set_heap_size` asks for. -/
def policy (init : ArtTriggerInit b F) : GcTriggerSelector b :=
  if init.initialSize = init.capacity then .fixedHeapSize init.initialSize else .delegated

/-- `create_gc_trigger` -/
def createGcTrigger (init : ArtTriggerInit b F) : ArtTrigger b F :=
  .new init.minFree init.maxFree init.initialSize init.capacity init.growthLimit
    init.targetUtilization init.foregroundHeapGrowthMultiplier

end ArtTriggerInit

/-- The MMTk instance: what it was built from, and the trigger if it asked for one. -/
structure MmtkInstance (b : Build) (F Builder : Type) where
  builder : Builder
  trigger : Option (ArtTrigger b F)

/-- The statics, with every critical section in one step. -/
structure Setup (b : Build) (F Builder : Type) where
  builder : Builder
  triggerInit : ArtTriggerInit b F
  isMmtkReinitializing : Bool
  built : Option (MmtkInstance b F Builder)

/-- A critical section, with the answer of `mmtk_set_heap_size`. -/
inductive SetupEvent (b : Build) (F PlanSelector : Type)
  | setHeapSize (init : ArtTriggerInit b F) (accepted : Bool)
  | setPlan (plan : PlanSelector)
  | setIsZygoteProcess (isZygoteProcess : Bool)
  | build
  | setReinitializing

namespace Setup

variable {b : Build} {F Builder PlanSelector : Type}

/-- Before anything is called. -/
def start [F64 F] (builder : Builder) : Setup b F Builder where
  builder
  triggerInit := .default b F
  isMmtkReinitializing := false
  built := none

/-- The parameters of the last `mmtk_set_heap_size`. -/
def lastHeapSize (init : ArtTriggerInit b F) (events : List (SetupEvent b F PlanSelector)) :
    ArtTriggerInit b F :=
  events.foldl (fun init event => match event with
    | .setHeapSize init' _ => init'
    | _ => init) init

/-- The option for the trigger that was accepted last. -/
def lastGcTrigger (selector : GcTriggerSelector b) (events : List (SetupEvent b F PlanSelector)) :
    GcTriggerSelector b :=
  events.foldl (fun selector event => match event with
    | .setHeapSize init true => init.policy
    | _ => selector) selector

variable [HeapBuilder b Builder PlanSelector]

/-- The instance of a builder. mmtk-core asks for a trigger when the option delegates it. -/
def instanceOf (a : Setup b F Builder) (builder : Builder) : MmtkInstance b F Builder where
  builder
  trigger := if HeapBuilder.gcTrigger builder = GcTriggerSelector.delegated (b := b) then
    some a.triggerInit.createGcTrigger else none

variable [MmtkCore b]

/-- The first use of `SINGLETON`. -/
def build (a : Setup b F Builder) : Option (Setup b F Builder) :=
  match a.built with
  | some _ => none
  | none => do
    let builder := MmtkBuilder.setVmLayout (← setVmLayout a.triggerInit.capacity) a.builder
    return { a with builder, built := some (a.instanceOf builder) }

def next (a : Setup b F Builder) : SetupEvent b F PlanSelector → Option (Setup b F Builder)
  | .setHeapSize init accepted =>
    let (valid, builder) := HeapBuilder.setGcTrigger init.policy a.builder
    if accepted = valid then some { a with triggerInit := init, builder } else none
  | .setPlan plan => some { a with builder := MmtkBuilder.setPlan plan a.builder }
  | .setIsZygoteProcess isZygoteProcess =>
    some { a with builder := MmtkBuilder.setIsZygoteProcess isZygoteProcess a.builder }
  | .build => a.build
  | .setReinitializing =>
    if a.built.isSome then some { a with isMmtkReinitializing := true } else none

variable {a a' : Setup b F Builder} {inst : MmtkInstance b F Builder}
  {event : SetupEvent b F PlanSelector} {events : List (SetupEvent b F PlanSelector)}

theorem build_eq_some (h : a.build = some a') : a.built = none ∧
    ∃ layout, setVmLayout a.triggerInit.capacity = some layout ∧
      a' = { a with
        builder := MmtkBuilder.setVmLayout layout a.builder
        built := some (a.instanceOf (MmtkBuilder.setVmLayout layout a.builder)) } := by
  unfold build at h
  split at h
  · cases h
  · next hbuilt =>
    obtain ⟨layout, hlayout, h⟩ := Option.bind_eq_some_iff.mp h
    cases h
    exact ⟨hbuilt, layout, hlayout, rfl⟩

theorem next_cases (h : a.next event = some a') :
    (∃ init, event = .setHeapSize init (HeapBuilder.setGcTrigger init.policy a.builder).1 ∧
      a' = { a with
        triggerInit := init
        builder := (HeapBuilder.setGcTrigger init.policy a.builder).2 }) ∨
    (∃ plan, event = .setPlan plan ∧
      a' = { a with builder := MmtkBuilder.setPlan plan a.builder }) ∨
    (∃ z, event = .setIsZygoteProcess z ∧
      a' = { a with builder := MmtkBuilder.setIsZygoteProcess z a.builder }) ∨
    (event = .build ∧ a.build = some a') ∨
    (event = .setReinitializing ∧ a' = { a with isMmtkReinitializing := true }) := by
  cases event with
  | setHeapSize init accepted =>
    obtain ⟨rfl, heq⟩ := Option.ite_none_right_eq_some.mp h
    exact .inl ⟨init, rfl, (Option.some.inj heq).symm⟩
  | setPlan plan => exact .inr (.inl ⟨plan, rfl, (Option.some.inj h).symm⟩)
  | setIsZygoteProcess z => exact .inr (.inr (.inl ⟨z, rfl, (Option.some.inj h).symm⟩))
  | build => exact .inr (.inr (.inr (.inl ⟨rfl, h⟩)))
  | setReinitializing =>
    obtain ⟨-, h⟩ := Option.ite_none_right_eq_some.mp h
    exact .inr (.inr (.inr (.inr ⟨rfl, (Option.some.inj h).symm⟩)))

/-- Only the first use of `SINGLETON` builds an instance. -/
theorem next_built (h : a.next event = some a') : a'.built = a.built ∨
    event = .build ∧ a.built = none := by
  rcases next_cases h with ⟨_, -, rfl⟩ | ⟨_, -, rfl⟩ | ⟨_, -, rfl⟩ | ⟨rfl, hbuild⟩ | ⟨-, rfl⟩
  · exact .inl rfl
  · exact .inl rfl
  · exact .inl rfl
  · exact .inr ⟨rfl, (build_eq_some hbuild).1⟩
  · exact .inl rfl

theorem built_of_next (h : a.next event = some a') (hbuilt : a.built = some inst) :
    a'.built = some inst := by
  rcases next_built h with heq | ⟨-, hnone⟩
  · exact heq.trans hbuilt
  · rw [hnone] at hbuilt
    cases hbuilt

theorem built_of_run (h : Machine.run next a events = some a') (hbuilt : a.built = some inst) :
    a'.built = some inst :=
  Machine.invariant_run (I := fun a => a.built = some inst) (G := fun _ _ _ => True) hbuilt
    (.of_forall_mem fun _ _ => trivial) (fun _ _ _ hI _ h => built_of_next h hI) h

/-- An instance was built by one of the critical sections. -/
theorem exists_build (h : Machine.run next a events = some a') (hnone : a.built = none)
    (hbuilt : a'.built = some inst) :
    ∃ pre post a₁ a₂, events = pre ++ .build :: post ∧ Machine.run next a pre = some a₁ ∧
      a₁.build = some a₂ ∧ a₂.built = some inst := by
  induction events generalizing a with
  | nil =>
    cases h
    rw [hnone] at hbuilt
    cases hbuilt
  | cons event events ih =>
    obtain ⟨a₁, hnext, hrun⟩ := Machine.run_cons_eq_some h
    rcases next_built hnext with heq | ⟨rfl, -⟩
    · obtain ⟨pre, post, a₂, a₃, rfl, hpre, hbuild⟩ := ih hrun (heq.trans hnone)
      refine ⟨event :: pre, post, a₂, a₃, rfl, ?_, hbuild⟩
      rw [Machine.run_cons, hnext]
      exact hpre
    · refine ⟨[], events, a, a₁, rfl, rfl, hnext, ?_⟩
      obtain ⟨-, layout, -, rfl⟩ := build_eq_some hnext
      exact (built_of_run hrun rfl).symm.trans hbuilt

theorem next_parameters (h : a.next event = some a') :
    a'.triggerInit = lastHeapSize a.triggerInit [event] ∧
      HeapBuilder.gcTrigger a'.builder =
        lastGcTrigger (HeapBuilder.gcTrigger a.builder) [event] := by
  rcases next_cases h with ⟨init, rfl, rfl⟩ | ⟨_, rfl, rfl⟩ | ⟨_, rfl, rfl⟩ | ⟨rfl, hbuild⟩ |
    ⟨rfl, rfl⟩
  · refine ⟨rfl, (HeapBuilder.gcTrigger_setGcTrigger _ _).trans ?_⟩
    cases (HeapBuilder.setGcTrigger init.policy a.builder).1 <;> rfl
  · exact ⟨rfl, HeapBuilder.gcTrigger_setPlan _ _⟩
  · exact ⟨rfl, HeapBuilder.gcTrigger_setIsZygoteProcess _ _⟩
  · obtain ⟨-, layout, -, rfl⟩ := build_eq_some hbuild
    exact ⟨rfl, HeapBuilder.gcTrigger_setVmLayout _ _⟩
  · exact ⟨rfl, rfl⟩

/-- The parameters are those of the last `mmtk_set_heap_size`. -/
theorem run_parameters (h : Machine.run next a events = some a') :
    a'.triggerInit = lastHeapSize a.triggerInit events ∧
      HeapBuilder.gcTrigger a'.builder =
        lastGcTrigger (HeapBuilder.gcTrigger a.builder) events := by
  induction events generalizing a with
  | nil =>
    cases h
    exact ⟨rfl, rfl⟩
  | cons event events ih =>
    obtain ⟨a₁, hnext, hrun⟩ := Machine.run_cons_eq_some h
    obtain ⟨hinit, hselector⟩ := next_parameters hnext
    obtain ⟨hinit', hselector'⟩ := ih hrun
    rw [hinit] at hinit'
    rw [hselector] at hselector'
    exact ⟨hinit', hselector'⟩

end Setup

end MmtkArt
