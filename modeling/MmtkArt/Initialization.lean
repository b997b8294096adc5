import MmtkArt.Util.Machine
import MmtkArt.VmLayout

/-! # Initialization across runtime restarts

A process can create its runtime again, but MMTk is initialized once: a later `mmtk_init` only sets
a flag, and from then on `mmtk_initialize_collection` does nothing. The flag says that the runtime
was created again, not that collection was initialized, so a runtime that was created and never
started leaves the next one without collection (`initializedOnce_iff`). -/

namespace MmtkArt

/-- mmtk-core's builder, with the options that the binding sets. -/
class MmtkBuilder (Builder : Type) (PlanSelector : outParam Type) where
  plan : Builder → PlanSelector
  isZygoteProcess : Builder → Bool
  setPlan : PlanSelector → Builder → Builder
  setIsZygoteProcess : Bool → Builder → Builder
  setVmLayout : VmLayout → Builder → Builder
  plan_setPlan : ∀ p x, plan (setPlan p x) = p
  plan_setIsZygoteProcess : ∀ z x, plan (setIsZygoteProcess z x) = plan x
  plan_setVmLayout : ∀ l x, plan (setVmLayout l x) = plan x
  isZygoteProcess_setIsZygoteProcess : ∀ z x, isZygoteProcess (setIsZygoteProcess z x) = z

/-- A builder that holds its options. -/
@[reducible] def MmtkBuilder.documented (PlanSelector : Type) :
    MmtkBuilder (PlanSelector × Bool × Option VmLayout) PlanSelector where
  plan x := x.1
  isZygoteProcess x := x.2.1
  setPlan p x := (p, x.2)
  setIsZygoteProcess z x := (x.1, z, x.2.2)
  setVmLayout l x := (x.1, x.2.1, some l)
  plan_setPlan _ _ := rfl
  plan_setIsZygoteProcess _ _ := rfl
  plan_setVmLayout _ _ := rfl
  isZygoteProcess_setIsZygoteProcess _ _ := rfl

/-- A call of mmtk-core. -/
inductive CoreCall (Builder Tls : Type)
  | mmtkInit (builder : Builder)
  | initializeCollection (tls : Tls)

/-- The statics of the process, and the calls of mmtk-core that it has made. -/
structure Process (b : Build) (Upcalls Builder Tls : Type) where
  /-- Has MMTk been initialized? -/
  isMmtkInitialized : Bool
  /-- Is MMTk getting re-initialized? -/
  isMmtkReinitializing : Bool
  upcalls : Option Upcalls
  builder : Builder
  /-- The capacity in `TRIGGER_INIT` -/
  capacity : Usize b
  /-- The builder that the MMTk instance was built from -/
  singleton : Option Builder
  coreCalls : List (CoreCall Builder Tls)

/-- A call of the runtime. -/
inductive RuntimeCall (Upcalls PlanSelector Tls : Type)
  | mmtkInit (upcalls : Upcalls) (plan : PlanSelector) (isZygoteProcess : Bool)
  | mmtkInitializeCollection (tls : Tls)

namespace Process

variable {b : Build} {Upcalls PlanSelector Builder Tls : Type}

/-- The builders that an MMTk instance was built from. -/
def builds (s : Process b Upcalls Builder Tls) : List Builder :=
  s.coreCalls.filterMap fun
    | .mmtkInit builder => some builder
    | _ => none

/-- The threads that collection was initialized with. -/
def collections (s : Process b Upcalls Builder Tls) : List Tls :=
  s.coreCalls.filterMap fun
    | .initializeCollection tls => some tls
    | _ => none

section
variable [MmtkCore b] [MmtkBuilder Builder PlanSelector]

/-- The first access to the lazy `SINGLETON` builds it. -/
def forceSingleton (s : Process b Upcalls Builder Tls) :
    Option (Process b Upcalls Builder Tls) :=
  match s.singleton with
  | some _ => some s
  | none =>
    if s.isMmtkInitialized then none
    else do
      let builder := MmtkBuilder.setVmLayout (← setVmLayout s.capacity) s.builder
      return { s with
        isMmtkInitialized := true
        builder
        singleton := some builder
        coreCalls := s.coreCalls ++ [.mmtkInit builder] }

/-- Initialize MMTk instance -/
def mmtkInit (debugAssertions : Bool) (s : Process b Upcalls Builder Tls) (upcalls : Upcalls)
    (plan : PlanSelector) (isZygoteProcess : Bool) : Option (Process b Upcalls Builder Tls) :=
  if s.isMmtkInitialized && isZygoteProcess then none
  -- Just avoid re-initializing MMTk
  else if s.isMmtkInitialized then some { s with isMmtkReinitializing := true }
  else do
    let builder := MmtkBuilder.setIsZygoteProcess isZygoteProcess
      (MmtkBuilder.setPlan plan s.builder)
    debugAssert debugAssertions (some (MmtkBuilder.isZygoteProcess builder = isZygoteProcess))
    forceSingleton { s with upcalls := some upcalls, builder }

/-- Initialize collection for MMTk -/
def mmtkInitializeCollection (debugAssertions : Bool) (s : Process b Upcalls Builder Tls)
    (tls : Tls) : Option (Process b Upcalls Builder Tls) := do
  debugAssert debugAssertions (some s.isMmtkInitialized)
  if !s.isMmtkReinitializing then
    let s ← s.forceSingleton
    return { s with coreCalls := s.coreCalls ++ [.initializeCollection tls] }
  else some s

def step (debugAssertions : Bool) :
    Machine.Step (Process b Upcalls Builder Tls) (RuntimeCall Upcalls PlanSelector Tls)
  | s, .mmtkInit upcalls plan isZygoteProcess =>
    s.mmtkInit debugAssertions upcalls plan isZygoteProcess
  | s, .mmtkInitializeCollection tls => s.mmtkInitializeCollection debugAssertions tls

/-! ### One call -/

/-- Nothing has been initialized. -/
structure Fresh (s : Process b Upcalls Builder Tls) : Prop where
  notInitialized : s.isMmtkInitialized = false
  notReinitializing : s.isMmtkReinitializing = false
  singleton : s.singleton = none
  coreCalls : s.coreCalls = []

/-- The instance is built, once, from this builder and with these upcalls. -/
structure Built (upcalls : Upcalls) (builder : Builder) (s : Process b Upcalls Builder Tls) :
    Prop where
  initialized : s.isMmtkInitialized = true
  upcalls : s.upcalls = some upcalls
  singleton : s.singleton = some builder
  builds : s.builds = [builder]

variable {d : Bool} {s s' : Process b Upcalls Builder Tls} {upcalls : Upcalls} {builder : Builder}

/-- The first call builds the instance when the capacity is accepted. -/
theorem Fresh.mmtkInit_eq (h : s.Fresh) (upcalls : Upcalls) (plan : PlanSelector)
    (isZygoteProcess : Bool) :
    s.mmtkInit d upcalls plan isZygoteProcess = (setVmLayout s.capacity).map fun layout =>
      let builder := MmtkBuilder.setVmLayout layout (MmtkBuilder.setIsZygoteProcess isZygoteProcess
        (MmtkBuilder.setPlan plan s.builder))
      { s with
        isMmtkInitialized := true
        upcalls := some upcalls
        builder
        singleton := some builder
        coreCalls := s.coreCalls ++ [.mmtkInit builder] } := by
  rw [mmtkInit, h.notInitialized, if_neg (by simp), if_neg (by simp)]
  simp only [MmtkBuilder.isZygoteProcess_setIsZygoteProcess, decide_true, debugAssert_true,
    forceSingleton, h.singleton, Option.bind_eq_bind, Option.bind_some]
  cases setVmLayout s.capacity <;> rfl

namespace Built

omit [MmtkCore b] [MmtkBuilder Builder PlanSelector] in
theorem isReinitializing (h : s.Built upcalls builder) :
    Built upcalls builder { s with isMmtkReinitializing := true } :=
  ⟨h.initialized, h.upcalls, h.singleton, h.builds⟩

omit [MmtkCore b] [MmtkBuilder Builder PlanSelector] in
theorem initializeCollection (h : s.Built upcalls builder) (tls : Tls) :
    Built upcalls builder { s with coreCalls := s.coreCalls ++ [.initializeCollection tls] } := by
  refine ⟨h.initialized, h.upcalls, h.singleton, ?_⟩
  rw [Process.builds, List.filterMap_append]
  exact (List.append_nil _).trans h.builds

omit [MmtkCore b] [MmtkBuilder Builder PlanSelector] in
theorem collections_initializeCollection (s : Process b Upcalls Builder Tls) (tls : Tls) :
    collections { s with coreCalls := s.coreCalls ++ [.initializeCollection tls] } =
      s.collections ++ [tls] := List.filterMap_append

/-- A later `mmtk_init` only sets the flag. -/
theorem mmtkInit_eq (h : s.Built upcalls builder) (upcalls' : Upcalls) (plan : PlanSelector) :
    s.mmtkInit d upcalls' plan false = some { s with isMmtkReinitializing := true } := by
  rw [mmtkInit, h.initialized]
  rfl

/-- The instance is not built again. -/
theorem forceSingleton_eq (h : s.Built upcalls builder) : s.forceSingleton = some s := by
  rw [forceSingleton, h.singleton]

theorem mmtkInitializeCollection_eq (h : s.Built upcalls builder) (tls : Tls) :
    s.mmtkInitializeCollection d tls = some (if s.isMmtkReinitializing then s else
      { s with coreCalls := s.coreCalls ++ [.initializeCollection tls] }) := by
  have hassert : debugAssert d (some s.isMmtkInitialized) = some () := by
    rw [h.initialized, debugAssert_true]
  rw [mmtkInitializeCollection, hassert, h.forceSingleton_eq, Option.bind_eq_bind,
    Option.bind_some]
  split
  · next hr => rw [if_neg (by simpa using hr)]; rfl
  · next hr => rw [if_pos (by simpa using hr)]

end Built

/-! ### Sequences of calls -/

def IsRequest : RuntimeCall Upcalls PlanSelector Tls → Prop
  | .mmtkInit .. => False
  | .mmtkInitializeCollection _ => True

/-- After the first `mmtk_init`: no later one is for the zygote process, and collection is requested
at most once after each. `request` says that it can still be. -/
def Legal (request : Bool) : List (RuntimeCall Upcalls PlanSelector Tls) → Prop
  | [] => True
  | .mmtkInit _ _ isZygoteProcess :: calls => isZygoteProcess = false ∧ Legal true calls
  | .mmtkInitializeCollection _ :: calls => request = true ∧ Legal false calls

/-- The requests before the next `mmtk_init`. -/
def requests : List (RuntimeCall Upcalls PlanSelector Tls) → List Tls
  | [] => []
  | .mmtkInit .. :: _ => []
  | .mmtkInitializeCollection tls :: calls => tls :: requests calls

/-- A run from a state in which the instance is built keeps it. Until the next `mmtk_init`, and only
if there was none before, the requests reach mmtk-core. -/
theorem Built.run_eq {calls : List (RuntimeCall Upcalls PlanSelector Tls)} {request : Bool}
    (h : s.Built upcalls builder) (hlegal : Legal request calls) :
    ∃ s', Machine.run (step d) s calls = some s' ∧ s'.Built upcalls builder ∧
      s'.collections =
        s.collections ++ if s.isMmtkReinitializing then [] else requests calls := by
  induction calls generalizing s request with
  | nil => exact ⟨s, rfl, h, by rw [requests, ite_self, List.append_nil]⟩
  | cons call calls ih =>
    cases call with
    | mmtkInit upcalls' plan isZygoteProcess =>
      obtain ⟨rfl, hlegal⟩ := hlegal
      obtain ⟨s', hrun, hbuilt, hcoll⟩ := ih h.isReinitializing hlegal
      refine ⟨s', ?_, hbuilt, ?_⟩
      · rw [Machine.run_cons, step, h.mmtkInit_eq]
        exact hrun
      · rw [requests, ite_self]
        exact hcoll
    | mmtkInitializeCollection tls =>
      rw [Machine.run_cons, step, h.mmtkInitializeCollection_eq, Option.bind_some]
      split
      · next hr =>
        obtain ⟨s', hrun, hbuilt, hcoll⟩ := ih h hlegal.2
        rw [if_pos hr] at hcoll
        exact ⟨s', hrun, hbuilt, hcoll⟩
      · next hr =>
        obtain ⟨s', hrun, hbuilt, hcoll⟩ := ih (h.initializeCollection tls) hlegal.2
        refine ⟨s', hrun, hbuilt, ?_⟩
        rw [if_neg hr] at hcoll
        rw [hcoll, collections_initializeCollection, requests, List.append_assoc]
        rfl

/-- A call between the first `mmtk_init` and the next one is a request that reaches mmtk-core, and a
legal sequence has at most one. -/
theorem Legal.requests_eq {calls : List (RuntimeCall Upcalls PlanSelector Tls)} {request : Bool}
    (h : Legal request calls) : requests calls = [] ∧
        (∀ tls calls', calls ≠ .mmtkInitializeCollection tls :: calls') ∨
      ∃ tls calls', calls = .mmtkInitializeCollection tls :: calls' ∧ requests calls = [tls] := by
  cases calls with
  | nil => exact .inl ⟨rfl, fun _ _ h => by cases h⟩
  | cons call calls =>
    cases call with
    | mmtkInit => exact .inl ⟨rfl, fun _ _ h => by cases h⟩
    | mmtkInitializeCollection tls =>
      refine .inr ⟨tls, calls, rfl, ?_⟩
      rw [requests]
      cases calls with
      | nil => rfl
      | cons call calls =>
        cases call with
        | mmtkInit => rfl
        | mmtkInitializeCollection => exact absurd h.2.1 Bool.false_ne_true

/-- The state that the first `mmtk_init` leaves. -/
theorem Fresh.mmtkInit_built (h : s.Fresh) {layout : VmLayout} (upcalls : Upcalls)
    (plan : PlanSelector) (isZygoteProcess : Bool)
    (hlayout : setVmLayout s.capacity = some layout) :
    ∃ s₁ builder, s.mmtkInit d upcalls plan isZygoteProcess = some s₁ ∧
      s₁.Built upcalls builder ∧ MmtkBuilder.plan builder = plan ∧
      s₁.isMmtkReinitializing = false ∧ s₁.collections = [] := by
  rw [h.mmtkInit_eq, hlayout]
  refine ⟨_, _, rfl, ⟨rfl, rfl, rfl, ?_⟩, ?_, h.notReinitializing, ?_⟩
  · rw [builds, h.coreCalls]
    rfl
  · rw [MmtkBuilder.plan_setVmLayout, MmtkBuilder.plan_setIsZygoteProcess,
      MmtkBuilder.plan_setPlan]
  · rw [collections, h.coreCalls]
    rfl

/-- The instance is built once, from the plan and with the upcalls of the first `mmtk_init`, and
collection is initialized once if it was requested at all. -/
structure InitializedOnce (upcalls : Upcalls) (plan : PlanSelector)
    (calls : List (RuntimeCall Upcalls PlanSelector Tls)) (s : Process b Upcalls Builder Tls) :
    Prop where
  upcalls : s.upcalls = some upcalls
  built : ∃ builder, s.builds = [builder] ∧ s.singleton = some builder ∧
    MmtkBuilder.plan builder = plan
  requested : (∃ call ∈ calls, IsRequest call) → s.collections.length = 1
  notRequested : (∀ call ∈ calls, ¬ IsRequest call) → s.collections = []

variable {plan : PlanSelector} {isZygoteProcess : Bool}
  {calls : List (RuntimeCall Upcalls PlanSelector Tls)}

/-- **Collection is initialized exactly once** when it is never requested, or when it is requested
before the runtime is created again. -/
theorem initializedOnce_iff (hs : s.Fresh) (hlegal : Legal true calls) :
    ((Machine.run (step d) s (.mmtkInit upcalls plan isZygoteProcess :: calls)).isSome = true ↔
      (setVmLayout s.capacity).isSome = true) ∧
    ∀ s', Machine.run (step d) s (.mmtkInit upcalls plan isZygoteProcess :: calls) = some s' →
      (InitializedOnce upcalls plan calls s' ↔ (∀ call ∈ calls, ¬ IsRequest call) ∨
        ∃ tls calls', calls = .mmtkInitializeCollection tls :: calls') := by
  rw [Machine.run_cons, step]
  cases hlayout : setVmLayout s.capacity with
  | none =>
    rw [hs.mmtkInit_eq, hlayout]
    exact ⟨Iff.rfl, fun s' h => by cases h⟩
  | some layout =>
    obtain ⟨s₁, builder, hinit, hbuilt₁, hplan, hr, hnone⟩ :=
      hs.mmtkInit_built upcalls plan isZygoteProcess hlayout (d := d)
    obtain ⟨s₂, hrun, hbuilt, hcoll⟩ := hbuilt₁.run_eq hlegal (d := d)
    rw [hinit, Option.bind_some, hrun]
    refine ⟨Iff.rfl, fun s' h => ?_⟩
    cases h
    rw [hr, hnone] at hcoll
    replace hcoll : s₂.collections = requests calls := hcoll
    have hbuilds := And.intro hbuilt.builds (And.intro hbuilt.singleton hplan)
    rcases hlegal.requests_eq with ⟨hreq, hfirst⟩ | ⟨tls, calls', rfl, hreq⟩
    · rw [hreq] at hcoll
      constructor
      · intro hlaw
        refine .inl fun call hcall hrequest => ?_
        have := hlaw.requested ⟨call, hcall, hrequest⟩
        rw [hcoll] at this
        cases this
      · rintro (hno | ⟨tls, calls', heq⟩)
        · exact ⟨hbuilt.upcalls, ⟨builder, hbuilds⟩,
            fun ⟨call, hcall, hrequest⟩ => absurd hrequest (hno call hcall), fun _ => hcoll⟩
        · exact absurd heq (hfirst tls calls')
    · rw [hreq] at hcoll
      refine iff_of_true ⟨hbuilt.upcalls, ⟨builder, hbuilds⟩, fun _ => ?_, fun hno => ?_⟩
        (.inr ⟨tls, calls', rfl⟩)
      · rw [hcoll]
        rfl
      · exact absurd trivial (hno _ List.mem_cons_self)

end

/-- A process with a capacity of 1 MiB in which nothing has been called; plans, upcalls and threads
are numbers. -/
def unused : Process .android64 Nat (Nat × Bool × Option VmLayout) Nat where
  isMmtkInitialized := false
  isMmtkReinitializing := false
  upcalls := none
  builder := (0, false, none)
  capacity := ⟨2 ^ 20, by decide⟩
  singleton := none
  coreCalls := []

theorem unused_fresh : unused.Fresh := ⟨rfl, rfl, rfl, rfl⟩

/-- The zygote starts its runtime, and creates and starts another one. -/
theorem initializedOnce_twice :
    letI := MmtkCore.documented .android64
    letI := MmtkBuilder.documented Nat
    ∃ s', Machine.run (step true) unused [.mmtkInit 1 2 true, .mmtkInitializeCollection 7,
        .mmtkInit 3 4 false, .mmtkInitializeCollection 8] = some s' ∧
      InitializedOnce 1 2 [.mmtkInitializeCollection 7, .mmtkInit 3 4 false,
        .mmtkInitializeCollection 8] s' := by
  let _ := MmtkCore.documented .android64
  let _ := MmtkBuilder.documented Nat
  obtain ⟨hsome, hlaw⟩ := @initializedOnce_iff .android64 Nat Nat _ Nat _ _ true unused 1 2 true
    [.mmtkInitializeCollection 7, .mmtkInit 3 4 false, .mmtkInitializeCollection 8] unused_fresh
    ⟨rfl, rfl, rfl, trivial⟩
  obtain ⟨s', hrun⟩ := Option.isSome_iff_exists.mp (hsome.mpr (by decide +kernel))
  exact ⟨s', hrun, (hlaw s' hrun).mpr (.inr ⟨_, _, rfl⟩)⟩

/-- A runtime is created and never started. The next one requests collection, and nothing
initializes it. -/
theorem not_initializedOnce :
    letI := MmtkCore.documented .android64
    letI := MmtkBuilder.documented Nat
    ¬ ∀ (s s' : Process .android64 Nat (Nat × Bool × Option VmLayout) Nat) (upcalls plan : Nat)
      (isZygoteProcess : Bool) (calls : List (RuntimeCall Nat Nat Nat)),
      s.Fresh → Legal true calls →
      Machine.run (step true) s (.mmtkInit upcalls plan isZygoteProcess :: calls) = some s' →
      InitializedOnce upcalls plan calls s' := by
  let _ := MmtkCore.documented .android64
  let _ := MmtkBuilder.documented Nat
  intro h
  have heval : (Machine.run (step true) unused
      [.mmtkInit 1 2 true, .mmtkInit 3 4 false, .mmtkInitializeCollection 7]).map collections =
        some [] := by decide +kernel
  obtain ⟨s', hrun, hnone⟩ := Option.map_eq_some_iff.mp heval
  have hlaw := h unused s' 1 2 true [.mmtkInit 3 4 false, .mmtkInitializeCollection 7] unused_fresh
    ⟨rfl, rfl, trivial⟩ hrun
  have hone := hlaw.requested ⟨.mmtkInitializeCollection 7, by simp, trivial⟩
  rw [hnone] at hone
  cases hone

end Process
end MmtkArt
