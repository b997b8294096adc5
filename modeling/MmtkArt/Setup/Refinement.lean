import MmtkArt.Setup.Accesses

/-! # Critical sections are atomic

Building the instance reads the parameters of the trigger twice, for the address range and for the
trigger, and releases `TRIGGER_INIT` in between. It holds `BUILDER` all along, which
`mmtk_set_heap_size` locks first. So every interleaving is one of whole critical sections
(`setup_refines`), and the instance is made of the parameters of one call (`exists_built`). -/

namespace MmtkArt
namespace Statics

variable {b : Build} {F Builder PlanSelector : Type}

/-- What the mutexes protect is as it was after the last critical section. -/
def Same (s : Statics b F Builder) (a : Setup b F Builder) : Prop :=
  s.builder.value = a.builder ∧ s.triggerInit.value = a.triggerInit

/-- What holds of the statics whatever the threads do. -/
structure Agreement (s : Statics b F Builder) (a : Setup b F Builder) : Prop where
  free : s.builder.locked = false → s.Same a
  initialized : s.isMmtkInitialized = a.built.isSome
  reinitializing : s.isMmtkReinitializing = a.isMmtkReinitializing
  notRunning : s.singleton.running = false → s.singleton.value = a.built
  complete : ∀ inst, s.singleton.value = some inst → a.built = some inst

/-- What a step leaves alone that is not in a critical section. -/
structure Frame (s s' : Statics b F Builder) (a a' : Setup b F Builder)
    (pc pc' : SetupPc b F Builder PlanSelector) : Prop where
  data : .builder ∉ pc.held → .builder ∉ pc'.held →
    s'.builder.value = s.builder.value ∧ s'.triggerInit.value = s.triggerInit.value ∧
      a'.builder = a.builder ∧ a'.triggerInit = a.triggerInit
  notBuilding : .singleton ∉ pc.held → a'.built = a.built
  built : a.built.isSome = true → a'.built = a.built

variable {s s' : Statics b F Builder} {a a' : Setup b F Builder}
  {pc pc' : SetupPc b F Builder PlanSelector}

theorem Frame.of_eq (hb : s'.builder.value = s.builder.value)
    (ht : s'.triggerInit.value = s.triggerInit.value) : Frame s s' a a pc pc' :=
  ⟨fun _ _ => ⟨hb, ht, rfl, rfl⟩, fun _ => rfl, fun _ => rfl⟩

/-- Inside a critical section of `BUILDER` the data may change. -/
theorem Frame.of_held (hr : .builder ∈ pc.held) (hbuilt : a'.built = a.built) :
    Frame s s' a a' pc pc' :=
  ⟨fun h => absurd hr h, fun _ => hbuilt, fun _ => hbuilt⟩

variable [MmtkCore b] [HeapBuilder b Builder PlanSelector]

/-- The critical section that ends with the access. -/
def event (s : Statics b F Builder) :
    SetupPc b F Builder PlanSelector → Option (SetupEvent b F PlanSelector)
  | .setGcTrigger init =>
    some (.setHeapSize init (HeapBuilder.setGcTrigger init.policy s.builder.value).1)
  | .initSetPlan plan _ => some (.setPlan plan)
  | .initSetZygote isZygoteProcess => some (.setIsZygoteProcess isZygoteProcess)
  | .buildStore _ => some .build
  | .initStoreReinitializing => some .setReinitializing
  | _ => none

/-- The builder has its layout, and the instance is not built. -/
def LaidOut (s : Statics b F Builder) (a : Setup b F Builder) : Prop :=
  a.built = none ∧ s.triggerInit.value = a.triggerInit ∧
    ∃ layout, setVmLayout a.triggerInit.capacity = some layout ∧
      s.builder.value = MmtkBuilder.setVmLayout layout a.builder

/-- What a thread knows in its critical section. -/
def Agrees (s : Statics b F Builder) (a : Setup b F Builder) :
    SetupPc b F Builder PlanSelector → Prop
  | .setLockTriggerInit _ | .setTriggerInit _ | .initSetPlan _ _ | .initSetZygote _ => s.Same a
  | .setGcTrigger init => s.builder.value = a.builder ∧ s.triggerInit.value = init
  | .initStoreReinitializing => a.built.isSome = true
  | .buildLockBuilder => a.built = none
  | .buildAssert | .buildLockCapacity | .buildSetVmLayout => a.built = none ∧ s.Same a
  | .buildMmtk => s.LaidOut a
  | .createLockTriggerInit | .createTrigger =>
    s.LaidOut a ∧ HeapBuilder.gcTrigger s.builder.value = GcTriggerSelector.delegated (b := b)
  | .buildStore inst => s.LaidOut a ∧ inst = a.instanceOf s.builder.value
  | .buildUnlock inst => a.built = some inst ∧ s.Same a
  | .buildComplete inst => a.built = some inst
  | _ => True

theorem LaidOut.build_eq (h : s.LaidOut a) : a.build =
    some { a with
      builder := s.builder.value, built := some (a.instanceOf s.builder.value) } := by
  obtain ⟨hbuilt, -, layout, hlayout, hbuilder⟩ := h
  rw [Setup.build, hbuilt, hbuilder, hlayout]
  rfl

theorem next_setHeapSize {builder : Builder} (h : builder = a.builder)
    (init : ArtTriggerInit b F) :
    a.next (.setHeapSize init (HeapBuilder.setGcTrigger init.policy builder).1) =
      some { a with
        triggerInit := init, builder := (HeapBuilder.setGcTrigger init.policy builder).2 } := by
  subst h
  exact if_pos rfl

theorem Access.refines (h : Access s pc s' pc') (hlock : ∀ r ∈ pc.held, s.locked r = true)
    (hA : s.Agreement a) (hpc : s.Agrees a pc) :
    ∃ a', Machine.run Setup.next a (s.event pc).toList = some a' ∧ s'.Agreement a' ∧
      s'.Agrees a' pc' ∧ Frame s s' a a' pc pc' := by
  have hbuilder : .builder ∈ pc.held → s.builder.locked ≠ false :=
    fun hr h => Bool.false_ne_true (h.symm.trans (hlock .builder hr))
  have hsingleton : .singleton ∈ pc.held → s.singleton.running ≠ false :=
    fun hr h => Bool.false_ne_true (h.symm.trans (hlock .singleton hr))
  cases h with
  | setLockBuilder _ hfree | initLockPlan _ _ hfree | initLockZygote _ hfree =>
    exact ⟨a, rfl, { hA with free := fun h => by cases h }, hA.free hfree, .of_eq rfl rfl⟩
  | buildLockBuilder hfree =>
    exact ⟨a, rfl, { hA with free := fun h => by cases h }, ⟨hpc, hA.free hfree⟩, .of_eq rfl rfl⟩
  | setLockTriggerInit | buildLockCapacity | createLockTriggerInit =>
    exact ⟨a, rfl, { hA with free := hA.free }, hpc, .of_eq rfl rfl⟩
  | setTriggerInit =>
    exact ⟨a, rfl, { hA with free := fun h => absurd h (hbuilder (by simp [SetupPc.held])) },
      ⟨hpc.1, rfl⟩, .of_held (by simp [SetupPc.held]) rfl⟩
  | setGcTrigger init =>
    obtain ⟨hb, ht⟩ := hpc
    refine ⟨_, (Machine.run_singleton _ _).trans (next_setHeapSize hb init),
      { hA with free := fun _ => ⟨rfl, ht⟩ }, trivial, .of_held (by simp [SetupPc.held]) rfl⟩
  | initAssert | notInitialized => exact ⟨a, rfl, hA, trivial, .of_eq rfl rfl⟩
  | initialized _ _ h =>
    exact ⟨a, rfl, hA, hA.initialized.symm.trans h, .of_eq rfl rfl⟩
  | initStoreReinitializing =>
    have hnext : a.next .setReinitializing = some { a with isMmtkReinitializing := true } := if_pos hpc
    exact ⟨_, (Machine.run_singleton _ _).trans hnext,
      { hA with reinitializing := rfl, free := hA.free }, trivial,
      ⟨fun _ _ => ⟨rfl, rfl, rfl, rfl⟩, fun _ => rfl, fun _ => rfl⟩⟩
  | initSetPlan | initSetZygote =>
    exact ⟨_, rfl, { hA with free := fun _ => ⟨congrArg _ hpc.1, hpc.2⟩ }, trivial,
      .of_held (by simp [SetupPc.held]) rfl⟩
  | useBuilt => exact ⟨a, rfl, hA, trivial, .of_eq rfl rfl⟩
  | startBuild hfree h =>
    exact ⟨a, rfl, { hA with free := hA.free, notRunning := fun h => by cases h },
      (hA.notRunning hfree).symm.trans h, .of_eq rfl rfl⟩
  | buildAssert => exact ⟨a, rfl, hA, hpc, .of_eq rfl rfl⟩
  | buildSetVmLayout layout h =>
    obtain ⟨hbuilt, hb, ht⟩ := hpc
    exact ⟨a, rfl, { hA with free := fun h => absurd h (hbuilder (by simp [SetupPc.held])) },
      ⟨hbuilt, ht, layout, ht ▸ h, congrArg _ hb⟩, .of_held (by simp [SetupPc.held]) rfl⟩
  | buildDelegated h => exact ⟨a, rfl, hA, ⟨hpc, h⟩, .of_eq rfl rfl⟩
  | buildNotDelegated h =>
    refine ⟨a, rfl, hA, ⟨hpc, ?_⟩, .of_eq rfl rfl⟩
    rw [Setup.instanceOf, if_neg h]
  | createTrigger =>
    obtain ⟨hlaid, h⟩ := hpc
    refine ⟨a, rfl, { hA with free := hA.free }, ⟨hlaid, ?_⟩, .of_eq rfl rfl⟩
    rw [Setup.instanceOf, if_pos h, hlaid.2.1]
  | buildStore inst =>
    obtain ⟨hlaid, rfl⟩ := hpc
    refine ⟨_, (Machine.run_singleton _ _).trans hlaid.build_eq,
      ⟨fun h => absurd h (hbuilder (by simp [SetupPc.held])), rfl, hA.reinitializing,
        fun h => absurd h (hsingleton (by simp [SetupPc.held])), fun inst h => ?_⟩,
      ⟨rfl, rfl, hlaid.2.1⟩, ⟨fun h => absurd (by simp [SetupPc.held]) h,
        fun h => absurd (by simp [SetupPc.held]) h, fun h => ?_⟩⟩
    · cases hlaid.1.symm.trans (hA.complete inst h)
    · rw [hlaid.1] at h
      cases h
  | buildUnlock inst =>
    obtain ⟨hbuilt, hsame⟩ := hpc
    exact ⟨a, rfl, { hA with free := fun _ => hsame }, hbuilt, .of_eq rfl rfl⟩
  | buildComplete inst =>
    refine ⟨a, rfl, { hA with
      free := hA.free, notRunning := fun _ => hpc.symm, complete := fun i h => ?_ }, trivial,
      .of_eq rfl rfl⟩
    cases h
    exact hpc

/-- What a thread knows is left alone by a step of another one. -/
theorem Agrees.frame {q : SetupPc b F Builder PlanSelector} (h : s.Agrees a q)
    (hF : Frame s s' a a' pc pc')
    (hbuilder : .builder ∈ q.held → .builder ∉ pc.held ∧ .builder ∉ pc'.held)
    (hsingleton : .singleton ∈ q.held → .singleton ∉ pc.held) : s'.Agrees a' q := by
  have hbuilt : .singleton ∈ q.held → a'.built = a.built := fun hr => hF.notBuilding (hsingleton hr)
  have hdata : .builder ∈ q.held → s'.builder.value = s.builder.value ∧
      s'.triggerInit.value = s.triggerInit.value ∧ a'.builder = a.builder ∧
      a'.triggerInit = a.triggerInit := fun hr => hF.data (hbuilder hr).1 (hbuilder hr).2
  have hsame : .builder ∈ q.held → s.Same a → s'.Same a' := by
    intro hr hs
    obtain ⟨h₁, h₂, h₃, h₄⟩ := hdata hr
    exact ⟨h₁.trans (hs.1.trans h₃.symm), h₂.trans (hs.2.trans h₄.symm)⟩
  have hlaid : .builder ∈ q.held → .singleton ∈ q.held → s.LaidOut a → s'.LaidOut a' := by
    rintro hr hr' ⟨hb, ht, layout, hlayout, hx⟩
    obtain ⟨h₁, h₂, h₃, h₄⟩ := hdata hr
    refine ⟨(hbuilt hr').trans hb, h₂.trans (ht.trans h₄.symm), layout, h₄ ▸ hlayout, ?_⟩
    rw [h₁, hx, h₃]
  cases q with
  | setLockTriggerInit | setTriggerInit | initSetPlan | initSetZygote =>
    exact hsame (by simp [SetupPc.held]) h
  | setGcTrigger =>
    obtain ⟨h₁, h₂, h₃, -⟩ := hdata (by simp [SetupPc.held])
    exact ⟨h₁.trans (h.1.trans h₃.symm), h₂.trans h.2⟩
  | initStoreReinitializing =>
    change a'.built.isSome = true
    rw [hF.built h]
    exact h
  | buildLockBuilder | buildComplete => exact (hbuilt (by simp [SetupPc.held])).trans h
  | buildAssert | buildLockCapacity | buildSetVmLayout | buildUnlock =>
    exact ⟨(hbuilt (by simp [SetupPc.held])).trans h.1, hsame (by simp [SetupPc.held]) h.2⟩
  | buildMmtk => exact hlaid (by simp [SetupPc.held]) (by simp [SetupPc.held]) h
  | createLockTriggerInit | createTrigger =>
    refine ⟨hlaid (by simp [SetupPc.held]) (by simp [SetupPc.held]) h.1, ?_⟩
    rw [(hdata (by simp [SetupPc.held])).1]
    exact h.2
  | buildStore inst =>
    obtain ⟨h₁, -, -, h₄⟩ := hdata (by simp [SetupPc.held])
    refine ⟨hlaid (by simp [SetupPc.held]) (by simp [SetupPc.held]) h.1, ?_⟩
    rw [h.2, Setup.instanceOf, Setup.instanceOf, h₁, h₄]
  | _ => trivial

end Statics

/-- The statics and the threads. -/
abbrev SetupThreads (b : Build) (F Builder PlanSelector ι : Type) :=
  Statics b F Builder × (ι → SetupPc b F Builder PlanSelector)

namespace SetupThreads
variable {b : Build} {F Builder PlanSelector ι : Type} [MmtkCore b]
  [HeapBuilder b Builder PlanSelector] [DecidableEq ι] {debugAssertions : Bool}
  {s s' : SetupThreads b F Builder PlanSelector ι} {a a' : Setup b F Builder}
  {x : ι × SetupAct b F PlanSelector} {xs : List (ι × SetupAct b F PlanSelector)}

def step (debugAssertions : Bool) :
    Machine.Step (SetupThreads b F Builder PlanSelector ι) (ι × SetupAct b F PlanSelector) :=
  Interleaving.step (Statics.thread debugAssertions)

omit [MmtkCore b] [DecidableEq ι] in
/-- The critical section that ends with a step. -/
def event (s : SetupThreads b F Builder PlanSelector ι) (x : ι × SetupAct b F PlanSelector) :
    Option (SetupEvent b F PlanSelector) :=
  match x.2 with
  | .access => s.1.event (s.2 x.1)
  | _ => none

/-- The threads are between the critical sections that lead to `a` and what they have begun. -/
structure Refines (s : SetupThreads b F Builder PlanSelector ι) (a : Setup b F Builder) :
    Prop where
  exclusive : Locks.Exclusive s.1.locked fun i r => r ∈ (s.2 i).held
  agreement : s.1.Agreement a
  agrees : ∀ i, s.1.Agrees a (s.2 i)

theorem Refines.step (hR : Refines s a) (h : step debugAssertions s x = some s') :
    ∃ a', Machine.run Setup.next a (s.event x).toList = some a' ∧ Refines s' a' := by
  obtain ⟨i, act⟩ := x
  obtain ⟨hi, hother⟩ := Interleaving.step_eq_some h
  rcases Statics.thread_cases hi with ⟨hs, hheld, hcall⟩ | ⟨rfl, haccess⟩
  · generalize hpc : s'.2 i = pc' at hcall
    have hheld' : (s'.2 i).held = [] := by
      rw [hpc]
      cases hcall <;> rfl
    have hagrees : s.1.Agrees a (s'.2 i) := by
      rw [hpc]
      cases hcall <;> trivial
    have hevent : s.event (i, act) = none := by
      cases hcall <;> rfl
    have hsame : ∀ j, (s'.2 j).held = (s.2 j).held := by
      intro j
      by_cases hj : j = i
      · rw [hj, hheld, hheld']
      · rw [hother j hj]
    refine ⟨a, by rw [hevent]; rfl, ?_, hs ▸ hR.agreement, fun j => ?_⟩
    · rw [hs]
      simp only [hsame]
      exact hR.exclusive
    · rw [hs]
      by_cases hj : j = i
      · exact hj ▸ hagrees
      · exact hother j hj ▸ hR.agrees j
  · have hlock : ∀ r ∈ (s.2 i).held, s.1.locked r = true :=
      fun r hr => (hR.exclusive.locked_iff r).mpr ⟨i, hr⟩
    have hchange := haccess.change
    obtain ⟨a', hrun, hA, hpc, hF⟩ := haccess.refines hlock hR.agreement (hR.agrees i)
    refine ⟨a', hrun, hR.exclusive.step (fun j hj r => by rw [hother j hj]) hchange, hA, ?_⟩
    intro j
    by_cases hj : j = i
    · exact hj ▸ hpc
    · rw [hother j hj]
      have hheld : ∀ r ∈ (s.2 j).held, r ∉ (s.2 i).held ∧ r ∉ (s'.2 i).held :=
        fun r hr => hR.exclusive.change_of_ne (Ne.symm hj) hr (hchange r)
      exact (hR.agrees j).frame hF (hheld .builder) fun hr => (hheld .singleton hr).1

omit [MmtkCore b] [HeapBuilder b Builder PlanSelector] [DecidableEq ι] in
/-- Before anything is called. -/
def start [F64 F] (builder : Builder) : SetupThreads b F Builder PlanSelector ι where
  fst :=
    { isMmtkInitialized := false
      isMmtkReinitializing := false
      builder := ⟨false, builder⟩
      triggerInit := ⟨false, .default b F⟩
      singleton := ⟨false, none⟩ }
  snd _ := .returned none

section
variable [F64 F] {builder : Builder} {inst : MmtkInstance b F Builder}

omit [DecidableEq ι] in
theorem start_refines :
    Refines (start builder : SetupThreads b F Builder PlanSelector ι) (.start builder) where
  exclusive :=
    { locked_iff := by
        intro r
        refine iff_of_false (by cases r <;> exact Bool.false_ne_true) ?_
        rintro ⟨_, hr⟩
        exact absurd hr List.not_mem_nil
      unique := fun _ _ _ hr => absurd hr List.not_mem_nil }
  agreement := ⟨fun _ => ⟨rfl, rfl⟩, rfl, rfl, fun _ => rfl, fun _ h => by cases h⟩
  agrees _ := trivial

theorem run_refines (hrun : Machine.run (step debugAssertions) (start builder) xs = some s) :
    ∃ a, Machine.run Setup.next (.start builder)
      (Machine.labels (step debugAssertions) event (start builder) xs) = some a ∧ Refines s a :=
  Machine.run_labels (fun _ _ _ _ hR h => hR.step h) start_refines hrun

/-- **Every interleaving is one of whole critical sections**, in the order in which they end, each
with the answer that the call gives. Whenever `BUILDER` is free, the statics are what the critical
sections leave, and the instance is the one that they build. -/
theorem setup_refines (hrun : Machine.run (step debugAssertions) (start builder) xs = some s) :
    ∃ a, Machine.run Setup.next (.start builder)
        (Machine.labels (step debugAssertions) event (start builder) xs) = some a ∧
      (s.1.builder.locked = false →
        s.1.builder.value = a.builder ∧ s.1.triggerInit.value = a.triggerInit) ∧
      s.1.isMmtkInitialized = a.built.isSome ∧
      s.1.isMmtkReinitializing = a.isMmtkReinitializing ∧
      ∀ inst, s.1.singleton.value = some inst → a.built = some inst := by
  obtain ⟨a, hlabels, hR⟩ := run_refines hrun
  exact ⟨a, hlabels, hR.agreement.free, hR.agreement.initialized, hR.agreement.reinitializing,
    hR.agreement.complete⟩

/-- The address range and the trigger of the instance are those of the last `mmtk_set_heap_size`
before it was built, whatever was called at the same time. -/
theorem exists_built (hrun : Machine.run (step debugAssertions) (start builder) xs = some s)
    (hinst : s.1.singleton.value = some inst) :
    ∃ pre post, Machine.labels (step debugAssertions) event (start builder) xs =
        pre ++ .build :: post ∧
      let init := Setup.lastHeapSize (.default b F) pre
      let selector := Setup.lastGcTrigger (HeapBuilder.gcTrigger builder) pre
      setVmLayout init.capacity = some (HeapBuilder.vmLayout b inst.builder) ∧
      HeapBuilder.gcTrigger inst.builder = selector ∧
      inst.trigger = if selector = .delegated then some init.createGcTrigger else none := by
  obtain ⟨a, hlabels, hR⟩ := run_refines hrun
  obtain ⟨pre, post, a₁, a₂, heq, hpre, hbuild, hbuilt⟩ :=
    Setup.exists_build hlabels rfl (hR.agreement.complete inst hinst)
  obtain ⟨hinit, hselector⟩ := Setup.run_parameters hpre
  obtain ⟨-, layout, hlayout, rfl⟩ := Setup.build_eq_some hbuild
  cases hbuilt
  replace hinit : a₁.triggerInit = Setup.lastHeapSize (.default b F) pre := hinit
  replace hselector : HeapBuilder.gcTrigger (MmtkBuilder.setVmLayout layout a₁.builder) =
      Setup.lastGcTrigger (HeapBuilder.gcTrigger builder) pre :=
    (HeapBuilder.gcTrigger_setVmLayout _ _).trans hselector
  refine ⟨pre, post, heq, ?_, hselector, ?_⟩
  · rw [← hinit, hlayout]
    exact congrArg some (HeapBuilder.vmLayout_setVmLayout _ _).symm
  · rw [Setup.instanceOf, hselector, hinit]

end

/-- One thread sets the size of the heap and later another one; in between a second thread has
initialized MMTk and released `TRIGGER_INIT` for the first time. -/
def overtaking : List (Bool × SetupAct .android64 ℚ Nat) :=
  [(false, .setHeapSize ⟨0, 32768, 40960, 409600, 409600, 1 / 2, 2⟩)] ++
  List.replicate 4 (false, .access) ++ [(true, .mmtkInit 7 false)] ++
  List.replicate 11 (true, .access) ++
  [(false, .setHeapSize ⟨0, 32768, 40960, 819200, 819200, 1 / 2, 2⟩)] ++
  List.replicate 5 (true, .access) ++ [(false, .access), (true, .access)] ++
  List.replicate 3 (false, .access)

/-- The instance has the 100 pages of the first call, and 200 are set. -/
theorem setup_refines_overtaking :
    letI := MmtkCore.documented .android64
    letI := HeapBuilder.documented .android64 Nat
    let builder : Nat × Bool × VmLayout × GcTriggerSelector .android64 :=
      (0, false, .ofHeapSize .w64 0, .fixedHeapSize 1)
    ∃ a inst, Machine.run Setup.next (.start builder)
        (Machine.labels (step true) event (start builder) overtaking) = some a ∧
      a.triggerInit.capacity = 819200 ∧ a.built = some inst ∧
      inst.trigger.map (·.capacity) = some 100 := by
  let _ := MmtkCore.documented .android64
  let _ := HeapBuilder.documented .android64 Nat
  intro builder
  have heval : (Machine.run (step true) (start builder) overtaking).any (fun s =>
      s.1.builder.locked = false ∧ s.1.triggerInit.value.capacity = 819200 ∧
      s.1.singleton.value.any fun inst => inst.trigger.map (·.capacity) = some 100) = true := by
    decide +kernel
  obtain ⟨s, hrun, hs⟩ := (Option.any_eq_true _ _).mp heval
  obtain ⟨hfree, hcapacity, hinst⟩ := of_decide_eq_true hs
  obtain ⟨inst, hinst, htrigger⟩ := (Option.any_eq_true _ _).mp hinst
  obtain ⟨a, hlabels, hdata, -, -, hbuilt⟩ := setup_refines hrun
  exact ⟨a, inst, hlabels, (hdata hfree).2 ▸ hcapacity, hbuilt inst hinst,
    of_decide_eq_true htrigger⟩

end SetupThreads
end MmtkArt
