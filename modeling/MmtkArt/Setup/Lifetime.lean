import MmtkArt.GcTrigger.Accesses
import MmtkArt.Setup.Refinement

/-! # The life of a process

Once the instance is built, the operations of its trigger interleave with whatever is still called to
set it up. A thread of `Lifetime` can be in a function that sets up and in an operation of the
trigger at once, which only adds runs. Nothing that is called can make the heap grow out of the
address range that was reserved for it (`heap_in_range`), although the range and the trigger are made
of the parameters at different times and `mmtk_set_heap_size` can be called at any. -/

namespace MmtkArt

/-! ### Parameters that fit -/

section
variable {b : Build} {F Builder PlanSelector : Type}

/-- The heap starts and is limited within its capacity. -/
def ArtTriggerInit.WithinCapacity (init : ArtTriggerInit b F) : Prop :=
  init.initialSize ≤ init.capacity ∧ init.growthLimit ≤ init.capacity

def SetupAct.WithinCapacity : SetupAct b F PlanSelector → Prop
  | .setHeapSize init => init.WithinCapacity
  | _ => True

instance (init : ArtTriggerInit b F) : Decidable init.WithinCapacity :=
  inferInstanceAs (Decidable (_ ∧ _))

instance (act : SetupAct b F PlanSelector) : Decidable act.WithinCapacity :=
  match act with
  | .setHeapSize init => inferInstanceAs (Decidable init.WithinCapacity)
  | .mmtkInit _ _ | .useSingleton | .access => .isTrue trivial

def SetupEvent.WithinCapacity : SetupEvent b F PlanSelector → Prop
  | .setHeapSize init _ => init.WithinCapacity
  | _ => True

/-- So are the parameters that a thread is about to set. -/
def SetupPc.WithinCapacity : SetupPc b F Builder PlanSelector → Prop
  | .setLockBuilder init | .setLockTriggerInit init | .setTriggerInit init | .setGcTrigger init =>
    init.WithinCapacity
  | _ => True

theorem Setup.lastHeapSize_withinCapacity {init : ArtTriggerInit b F}
    {events : List (SetupEvent b F PlanSelector)} (hinit : init.WithinCapacity)
    (h : ∀ event ∈ events, event.WithinCapacity) :
    (lastHeapSize init events).WithinCapacity := by
  induction events generalizing init with
  | nil => exact hinit
  | cons event events ih =>
    have hrest : ∀ event ∈ events, event.WithinCapacity :=
      fun event he => h event (List.mem_cons_of_mem _ he)
    have hhead := h event List.mem_cons_self
    cases event with
    | setHeapSize init' => exact ih hhead hrest
    | _ => exact ih hinit hrest

theorem ArtTriggerInit.createGcTrigger_within {init : ArtTriggerInit b F}
    (h : init.WithinCapacity) : init.createGcTrigger.Within init.capacity.toPages :=
  ⟨le_rfl, Usize.toPages_le h.2, Usize.toPages_le h.1, Fin.zero_le _⟩

variable [MmtkCore b] [HeapBuilder b Builder PlanSelector] {s s' : Statics b F Builder}
  {a : Setup b F Builder} {pc pc' : SetupPc b F Builder PlanSelector}

namespace Statics

theorem Access.withinCapacity (h : Access s pc s' pc') (hpc : pc.WithinCapacity) :
    pc'.WithinCapacity ∧ ∀ event ∈ s.event pc, event.WithinCapacity := by
  cases h with
  | setGcTrigger init =>
    refine ⟨trivial, fun event he => ?_⟩
    cases he
    exact hpc
  | setLockBuilder | setLockTriggerInit | setTriggerInit =>
    exact ⟨hpc, fun event he => by cases he⟩
  | _ => exact ⟨trivial, fun event he => by cases he <;> trivial⟩

/-- The instance stays. -/
theorem Access.singleton_eq {inst : MmtkInstance b F Builder} (h : Access s pc s' pc')
    (hA : s.Agreement a) (hpc : s.Agrees a pc) (hinst : s.singleton.value = some inst) :
    s'.singleton.value = some inst := by
  cases h with
  | buildComplete =>
    replace hpc : a.built = _ := hpc
    exact hpc.symm.trans (hA.complete inst hinst)
  | _ => exact hinst

end Statics
end

/-! ### The set-up -/

namespace SetupThreads
variable {b : Build} {F Builder PlanSelector ι : Type} [MmtkCore b]
  [HeapBuilder b Builder PlanSelector] [DecidableEq ι] {debugAssertions : Bool}
  {s s' : SetupThreads b F Builder PlanSelector ι} {a : Setup b F Builder}
  {x : ι × SetupAct b F PlanSelector} {xs : List (ι × SetupAct b F PlanSelector)}

theorem step_withinCapacity (hs : ∀ i, (s.2 i).WithinCapacity) (hx : x.2.WithinCapacity)
    (h : step debugAssertions s x = some s') :
    (∀ i, (s'.2 i).WithinCapacity) ∧ ∀ event ∈ s.event x, event.WithinCapacity := by
  obtain ⟨i, act⟩ := x
  obtain ⟨hi, hother⟩ := Interleaving.step_eq_some h
  have hi' : (s'.2 i).WithinCapacity ∧ ∀ event ∈ s.event (i, act), event.WithinCapacity := by
    rcases Statics.thread_cases hi with ⟨-, -, hcall⟩ | ⟨rfl, haccess⟩
    · generalize s'.2 i = pc' at hcall
      cases hcall with
      | setHeapSize => exact ⟨hx, fun event he => by cases he⟩
      | mmtkInit | useSingleton => exact ⟨trivial, fun event he => by cases he⟩
    · exact haccess.withinCapacity (hs i)
  refine ⟨fun j => ?_, hi'.2⟩
  by_cases hj : j = i
  · exact hj ▸ hi'.1
  · exact hother j hj ▸ hs j

theorem Refines.singleton_eq {inst : MmtkInstance b F Builder} (hR : Refines s a)
    (h : SetupThreads.step debugAssertions s x = some s')
    (hinst : s.1.singleton.value = some inst) : s'.1.singleton.value = some inst := by
  obtain ⟨hi, -⟩ := Interleaving.step_eq_some h
  rcases Statics.thread_cases hi with ⟨hs, -, -⟩ | ⟨-, haccess⟩
  · rw [hs]
    exact hinst
  · exact haccess.singleton_eq hR.agreement (hR.agrees _) hinst

/-- The address range is that of the capacity of the trigger, and nothing exceeds it at first. -/
theorem exists_layout [F64 F] {builder : Builder} {inst : MmtkInstance b F Builder}
    {t : ArtTrigger b F} (hrun : Machine.run (step debugAssertions) (start builder) xs = some s)
    (hsizes : ∀ x ∈ xs, x.2.WithinCapacity) (hinst : s.1.singleton.value = some inst)
    (ht : inst.trigger = some t) :
    t.Within t.capacity ∧ ∀ pages ≤ t.capacity.val,
      (HeapBuilder.vmLayout b inst.builder).Holds pages := by
  obtain ⟨pre, post, hlabels, hlayout, -, htrigger⟩ := exists_built hrun hinst
  have hstart : ∀ i, ((start builder : SetupThreads b F Builder PlanSelector ι).2
      i).WithinCapacity := fun _ => trivial
  have hevents : ∀ event ∈ pre, event.WithinCapacity := by
    intro event he
    have hmem := List.mem_append_left (SetupEvent.build :: post) he
    rw [← hlabels] at hmem
    refine Machine.forall_mem_labels
      (I := fun s : SetupThreads b F Builder PlanSelector ι => ∀ i, (s.2 i).WithinCapacity)
      ?_ hstart hsizes event hmem
    exact fun _ _ _ hs hx h => step_withinCapacity hs hx h
  have hdefault : (ArtTriggerInit.default b F).WithinCapacity := ⟨le_rfl, le_rfl⟩
  have hinit := Setup.lastHeapSize_withinCapacity hdefault hevents
  rw [htrigger] at ht
  obtain ⟨-, ht⟩ := Option.ite_none_right_eq_some.mp ht
  obtain rfl := Option.some.inj ht
  exact ⟨ArtTriggerInit.createGcTrigger_within hinit, fun _ => setVmLayout_holds hlayout⟩

end SetupThreads

/-- The threads that set up, and those in the operations of the trigger once there is one. -/
abbrev Lifetime (b : Build) (F Builder PlanSelector ι : Type) :=
  SetupThreads b F Builder PlanSelector ι × Option (ArtTrigger.TriggerThreads b F ι)

namespace Lifetime

variable {b : Build} {F Builder PlanSelector ι : Type}

/-- The trigger that the instance was built with, before its operations are called. -/
def created (s : SetupThreads b F Builder PlanSelector ι) :
    Option (ArtTrigger.TriggerThreads b F ι) :=
  (s.1.singleton.value.bind (·.trigger)).map fun t => (t, fun _ => .looping .idle)

/-- The trigger as it is now. -/
def trigger (s : Lifetime b F Builder PlanSelector ι) :
    Option (ArtTrigger.TriggerThreads b F ι) := s.2 <|> created s.1

variable [MmtkCore b] [HeapBuilder b Builder PlanSelector] [F64 F] [DecidableEq ι]

def step (debugAssertions : Bool) : Machine.Step (Lifetime b F Builder PlanSelector ι)
    ((ι × SetupAct b F PlanSelector) ⊕ (ι × TriggerAct b)) :=
  Machine.handover (SetupThreads.step debugAssertions)
    (Interleaving.step ArtTrigger.triggerThread) created

variable {debugAssertions : Bool} {s : Lifetime b F Builder PlanSelector ι} {builder : Builder}
  {as : List ((ι × SetupAct b F PlanSelector) ⊕ (ι × TriggerAct b))}

/-- The set-up runs as if there were no trigger, and the trigger has run from what it was created
as. -/
theorem run_handover
    (hrun : Machine.run (step debugAssertions) (SetupThreads.start builder, none) as = some s) :
    Machine.run (SetupThreads.step debugAssertions) (SetupThreads.start builder)
        (as.filterMap Sum.getLeft?) = some s.1 ∧
      ∀ t, s.trigger = some t → ∃ t₀, created s.1 = some t₀ ∧
        Machine.run (Interleaving.step ArtTrigger.triggerThread) t₀
          (as.filterMap Sum.getRight?) = some t := by
  let I : SetupThreads b F Builder PlanSelector ι → Prop := fun s => ∃ a, SetupThreads.Refines s a
  have hstep : ∀ s x s', I s → SetupThreads.step debugAssertions s x = some s' →
      I s' ∧ ∀ t, created s = some t → created s' = some t := by
    rintro s x s' ⟨a, hR⟩ h
    obtain ⟨a', -, hR'⟩ := hR.step h
    refine ⟨⟨a', hR'⟩, fun t ht => ?_⟩
    obtain ⟨t₀, ht₀, rfl⟩ := Option.map_eq_some_iff.mp ht
    obtain ⟨inst, hinst, ht₀⟩ := Option.bind_eq_some_iff.mp ht₀
    rw [created, hR.singleton_eq h hinst, Option.bind_some, ht₀, Option.map_some]
  obtain ⟨hleft, -, hright⟩ :=
    Machine.handover_run (I := I) hstep ⟨_, SetupThreads.start_refines⟩ hrun
  exact ⟨hleft, hright⟩

/-- **The heap never outgrows its address range.** Whatever is called to set up the instance and of
its trigger, and however the accesses interleave: if no call of `mmtk_set_heap_size` asks for a heap
that starts or is limited above its capacity, and no `clamp_max_heap_size` for more than the
capacity of the trigger that was created, then the range of the instance has room for the target
footprint, for the minimum foreground footprint and for both limits, with the slack, at any time. -/
theorem heap_in_range {inst : MmtkInstance b F Builder} {t₀ : ArtTrigger b F}
    {t : ArtTrigger.TriggerThreads b F ι}
    (hrun : Machine.run (step debugAssertions) (SetupThreads.start builder, none) as = some s)
    (hsizes : ∀ x, .inl x ∈ as → x.2.WithinCapacity)
    (hinst : s.1.1.singleton.value = some inst) (ht₀ : inst.trigger = some t₀)
    (hclamp : ∀ x, .inr x ∈ as → ArtTrigger.ActWithin t₀.capacity x.2)
    (ht : s.trigger = some t) :
    let layout := HeapBuilder.vmLayout b inst.builder
    layout.Holds t.1.targetFootprint ∧ layout.Holds t.1.minForegroundTargetFootprint ∧
      layout.Holds t.1.growthLimit ∧ layout.Holds t.1.capacity := by
  obtain ⟨hsetup, htrigger⟩ := run_handover hrun
  obtain ⟨u, hu, hoperations⟩ := htrigger t ht
  have hsizes' : ∀ x ∈ as.filterMap Sum.getLeft?, x.2.WithinCapacity := by
    intro x hx
    obtain ⟨y, hy, heq⟩ := List.mem_filterMap.mp hx
    rw [Sum.getLeft?_eq_some_iff] at heq
    exact hsizes x (heq ▸ hy)
  have hclamp' : ∀ x ∈ as.filterMap Sum.getRight?, ArtTrigger.ActWithin t₀.capacity x.2 := by
    intro x hx
    obtain ⟨y, hy, heq⟩ := List.mem_filterMap.mp hx
    rw [Sum.getRight?_eq_some_iff] at heq
    exact hclamp x (heq ▸ hy)
  obtain ⟨hwithin, hlayout⟩ := SetupThreads.exists_layout hsetup hsizes' hinst ht₀
  rw [created, hinst, Option.bind_some, ht₀] at hu
  obtain rfl := Option.some.inj hu
  have hend := ArtTrigger.within_run hwithin hclamp' hoperations
  exact ⟨hlayout _ hend.target, hlayout _ hend.foreground, hlayout _ hend.growth,
    hlayout _ hend.capacity⟩

/-- One thread clears the growth limit, and another one clamps the heap to 50 pages in between. -/
def clamping : List (Bool × TriggerAct .android64) :=
  [(true, .call .clearGrowthLimit), (true, .act .access),
    (false, .call (.clampMaxHeapSize 204800)), (false, .act .access),
    (true, .act .access), (true, .act .access),
    (false, .act .access), (false, .act .access), (false, .act .access), (true, .act .access)]

def overtakingClamping :
    List ((Bool × SetupAct .android64 ℚ Nat) ⊕ (Bool × TriggerAct .android64)) :=
  SetupThreads.overtaking.map .inl ++ clamping.map .inr

/-- The growth limit ends at the 100 pages that the range was made for, above the capacity, and the
200 pages that are set by then are in no place. -/
theorem heap_in_range_clamping :
    letI := MmtkCore.documented .android64
    letI := HeapBuilder.documented .android64 Nat
    let builder : Nat × Bool × VmLayout × GcTriggerSelector .android64 :=
      (0, false, .ofHeapSize .w64 0, .fixedHeapSize 1)
    ∃ s inst t, Machine.run (step true) (SetupThreads.start builder, none) overtakingClamping = some s ∧
      s.1.1.singleton.value = some inst ∧ s.trigger = some t ∧
      t.1.capacity = 50 ∧ t.1.growthLimit = 100 ∧
      (HeapBuilder.vmLayout .android64 inst.builder).Holds t.1.growthLimit := by
  let _ := MmtkCore.documented .android64
  let _ := HeapBuilder.documented .android64 Nat
  intro builder
  have heval : (Machine.run (step true) (SetupThreads.start builder, none)
        overtakingClamping).any (fun s =>
      (s.1.1.singleton.value.any fun inst => inst.trigger.any fun t => t.capacity = 100) ∧
      (s.trigger.any fun t => t.1.capacity = 50 ∧ t.1.growthLimit = 100)) = true := by
    decide +kernel
  obtain ⟨s, hrun, hs⟩ := (Option.any_eq_true _ _).mp heval
  obtain ⟨hinst, ht⟩ := of_decide_eq_true hs
  obtain ⟨inst, hinst, htrigger⟩ := (Option.any_eq_true _ _).mp hinst
  obtain ⟨t₀, ht₀, hcapacity⟩ := (Option.any_eq_true _ _).mp htrigger
  obtain ⟨t, ht, hlimits⟩ := (Option.any_eq_true _ _).mp ht
  obtain ⟨hcap, hgrowth⟩ := of_decide_eq_true hlimits
  have hsizes : ∀ x ∈ SetupThreads.overtaking, x.2.WithinCapacity := by decide +kernel
  have hclamp : ∀ x ∈ clamping, ArtTrigger.ActWithin 100 x.2 := by decide +kernel
  rw [← of_decide_eq_true hcapacity] at hclamp
  exact ⟨s, inst, t, hrun, hinst, ht, hcap, hgrowth,
    (heap_in_range hrun (fun x hx => hsizes x (by simpa [overtakingClamping] using hx)) hinst ht₀
      (fun x hx => hclamp x (by simpa [overtakingClamping] using hx)) ht).2.2.1⟩

end Lifetime
end MmtkArt
