import MmtkArt.Setup.Refinement

/-! # Every call returns

The locks are taken in one order, so the threads that set up the instance are never in deadlock, and
no function loops (`setup_completes`). The assertion of the initializer of `SINGLETON` never fails:
what can abort the process is a second initialization of the zygote process, or a heap of more than
2 GiB. -/

namespace MmtkArt

namespace SetupPc
variable {b : Build} {F Builder PlanSelector : Type}

/-- The thread is in no function. -/
def IsReturned (pc : SetupPc b F Builder PlanSelector) : Prop :=
  ∃ accepted, pc = .returned accepted

/-- The accesses that are left of a function, at most. -/
def accessesLeft : SetupPc b F Builder PlanSelector → Nat
  | .returned _ => 0
  | .setGcTrigger _ | .initStoreReinitializing | .buildComplete _ => 1
  | .setTriggerInit _ | .buildUnlock _ => 2
  | .setLockTriggerInit _ | .buildStore _ => 3
  | .setLockBuilder _ | .createTrigger => 4
  | .createLockTriggerInit => 5
  | .buildMmtk => 6
  | .buildSetVmLayout => 7
  | .buildLockCapacity => 8
  | .buildAssert => 9
  | .buildLockBuilder => 10
  | .useSingleton => 11
  | .initSetZygote _ => 12
  | .initLockZygote _ => 13
  | .initSetPlan _ _ => 14
  | .initLockPlan _ _ => 15
  | .initLoad _ _ => 16
  | .initAssert _ _ => 17

end SetupPc

namespace SetupAct
variable {b : Build} {F PlanSelector : Type}

/-- The call of a function. -/
def isCall : SetupAct b F PlanSelector → Bool
  | .access => false
  | _ => true

end SetupAct

namespace Statics
variable {b : Build} {F Builder PlanSelector : Type}

/-- The thread waits for a lock that is taken. -/
def Waits (s : Statics b F Builder) (pc : SetupPc b F Builder PlanSelector) (r : SetupLock) :
    Prop := pc.wanted = some r ∧ s.locked r = true

/-- The next access aborts the process: the zygote process is initialized again, or the heap is
larger than 2 GiB. -/
def Aborts (s : Statics b F Builder) : SetupPc b F Builder PlanSelector → Prop
  | .initAssert _ isZygoteProcess => s.isMmtkInitialized = true ∧ isZygoteProcess = true
  | .buildSetVmLayout => 2 ^ 31 < s.triggerInit.value.capacity.val
  | _ => False

variable [MmtkCore b] [HeapBuilder b Builder PlanSelector] {s s' : Statics b F Builder}
  {a : Setup b F Builder} {pc pc' : SetupPc b F Builder PlanSelector} {debugAssertions : Bool}

theorem Access.accessesLeft_lt (h : Access s pc s' pc') : pc'.accessesLeft < pc.accessesLeft := by
  cases h <;> simp [SetupPc.accessesLeft]

theorem thread_accessesLeft {act : SetupAct b F PlanSelector}
    (h : thread debugAssertions s pc act = some (s', pc')) :
    (if act.isCall then 0 else 1) + pc'.accessesLeft ≤
      pc.accessesLeft + if act.isCall then 17 else 0 := by
  rcases thread_cases h with ⟨-, -, hcall⟩ | ⟨rfl, haccess⟩
  · cases hcall <;> simp [SetupAct.isCall, SetupPc.accessesLeft]
  · have hlt := haccess.accessesLeft_lt
    change 1 + _ ≤ _ + 0
    omega

/-- A thread that does not wait goes on, unless it aborts the process. In particular the assertion
of the initializer never fails. -/
theorem access_isSome (hA : s.Agreement a) (hpc : s.Agrees a pc) (hr : ¬ pc.IsReturned)
    (hw : ∀ r, ¬ s.Waits pc r) (ha : ¬ s.Aborts pc) :
    (s.access debugAssertions pc).isSome = true := by
  have hfree : ∀ r, pc.wanted = some r → s.locked r = false :=
    fun r hr => Bool.eq_false_iff.mpr fun hl => hw r ⟨hr, hl⟩
  cases pc with
  | returned accepted => exact absurd ⟨accepted, rfl⟩ hr
  | setLockBuilder | initLockPlan | initLockZygote | buildLockBuilder =>
    have hl : s.builder.locked = false := hfree .builder rfl
    simp [access, lockBuilder, hl]
  | setLockTriggerInit | buildLockCapacity | createLockTriggerInit =>
    have hl : s.triggerInit.locked = false := hfree .triggerInit rfl
    simp [access, lockTriggerInit, hl]
  | initAssert plan z =>
    have hz : (s.isMmtkInitialized && z) = false :=
      Bool.eq_false_iff.mpr fun h => ha ((Bool.and_eq_true _ _).mp h)
    simp [access, hz]
  | initLoad | buildMmtk =>
    simp only [access]
    split <;> rfl
  | initSetZygote z =>
    simp [access, MmtkBuilder.isZygoteProcess_setIsZygoteProcess]
  | useSingleton =>
    have hl : s.singleton.running = false := hfree .singleton rfl
    simp only [access, hl]
    split <;> rfl
  | buildAssert =>
    have hn : s.isMmtkInitialized = false := hA.initialized.trans (by rw [hpc.1]; rfl)
    simp [access, hn]
  | buildSetVmLayout =>
    simp [access, setVmLayout_of_le (not_lt.mp ha)]
  | _ => rfl

end Statics

namespace SetupThreads
variable {b : Build} {F Builder PlanSelector ι : Type} [MmtkCore b]
  [HeapBuilder b Builder PlanSelector] [DecidableEq ι] {debugAssertions : Bool}
  {s s' : SetupThreads b F Builder PlanSelector ι} {a : Setup b F Builder}
  {x : ι × SetupAct b F PlanSelector} {xs : List (ι × SetupAct b F PlanSelector)}

theorem Refines.progress (hR : Refines s a) {i : ι} (hi : ¬ (s.2 i).IsReturned) :
    ∃ j, ¬ (s.2 j).IsReturned ∧ (s.1.Aborts (s.2 j) ∨
      (SetupThreads.step debugAssertions s (j, .access)).isSome = true) := by
  have hheld : ∀ j r, s.1.Waits (s.2 j) r → ∃ k, r ∈ (s.2 k).held :=
    fun _ r hr => (hR.exclusive.locked_iff r).mp hr.2
  have horder : ∀ j r r', r ∈ (s.2 j).held → s.1.Waits (s.2 j) r' → r.rank < r'.rank :=
    fun _ _ _ hr hr' => SetupPc.rank_lt hr hr'.1
  have hrank : ∀ r, SetupLock.rank r ≤ 2 := by
    rintro (_ | _ | _) <;> decide
  obtain ⟨j, hj, hw⟩ : ∃ j, ¬ (s.2 j).IsReturned ∧ ∀ r, ¬ s.1.Waits (s.2 j) r := by
    by_cases hw : ∃ r, s.1.Waits (s.2 i) r
    · obtain ⟨r, hr⟩ := hw
      obtain ⟨j, ⟨r', hr'⟩, hj⟩ := Locks.exists_not_waiting SetupLock.rank hrank hheld horder hr
      refine ⟨j, ?_, hj⟩
      rintro ⟨accepted, heq⟩
      rw [heq] at hr'
      exact absurd hr' List.not_mem_nil
    · exact ⟨i, hi, not_exists.mp hw⟩
  refine ⟨j, hj, or_iff_not_imp_left.mpr fun ha => ?_⟩
  rw [SetupThreads.step, Interleaving.step, Option.isSome_map, Statics.thread_access]
  exact Statics.access_isSome hR.agreement (hR.agrees j) hj hw ha

theorem step_accessesLeft (h : step debugAssertions s x = some s') (i : ι) :
    (if decide (x.1 = i ∧ x.2.isCall = false) then 1 else 0) + (s'.2 i).accessesLeft ≤
      (s.2 i).accessesLeft + if decide (x.1 = i ∧ x.2.isCall = true) then 17 else 0 := by
  obtain ⟨j, act⟩ := x
  obtain ⟨hj, hother⟩ := Interleaving.step_eq_some h
  by_cases hij : j = i
  · subst hij
    have hle := Statics.thread_accessesLeft hj
    cases hcall : act.isCall <;> simpa [hcall] using hle
  · rw [hother i (Ne.symm hij)]
    simp [hij]

section
variable [F64 F] {builder : Builder}

/-- **Every call returns**, unless the process aborts. Whatever the others do, a thread makes at
most 17 accesses in a function; and while a thread is in a function, one of those that are can make
its next access, or aborts the process with it. -/
theorem setup_completes (hrun : Machine.run (step debugAssertions) (start builder) xs = some s) :
    (∀ i, (xs.countP fun x => x.1 = i ∧ x.2.isCall = false) ≤
      17 * xs.countP fun x => x.1 = i ∧ x.2.isCall = true) ∧
    ∀ i, ¬ (s.2 i).IsReturned → ∃ j, ¬ (s.2 j).IsReturned ∧ (s.1.Aborts (s.2 j) ∨
      (step debugAssertions s (j, .access)).isSome = true) := by
  obtain ⟨a, -, hR⟩ := run_refines hrun
  refine ⟨fun i => ?_, fun i hi => hR.progress hi⟩
  have hcost := Machine.cost_le_of_potential (I := fun _ => True) (G := fun _ _ _ => True)
    (fun s => (s.2 i).accessesLeft) (fun _ _ _ _ _ h => ⟨trivial, step_accessesLeft h i⟩) trivial
    (.of_forall_mem fun _ _ => trivial) hrun
  rw [Machine.sum_map_ite, Machine.sum_map_ite, Nat.one_mul] at hcost
  have hstart : ((start builder : SetupThreads b F Builder PlanSelector ι).2 i).accessesLeft = 0 :=
    rfl
  rw [hstart, Nat.zero_add] at hcost
  exact Nat.le_trans (Nat.le_add_right _ _) hcost

end

/-- The first thread waits for `BUILDER`, and the second one, which builds the instance, goes on. -/
theorem setup_completes_overtaking :
    letI := MmtkCore.documented .android64
    letI := HeapBuilder.documented .android64 Nat
    let builder : Nat × Bool × VmLayout × GcTriggerSelector .android64 :=
      (0, false, .ofHeapSize .w64 0, .fixedHeapSize 1)
    ∃ s, Machine.run (step true) (start builder) (overtaking.take 18) = some s ∧
      (step true s (false, .access)).isSome = false ∧ ∃ j, ¬ (s.2 j).IsReturned ∧
        (s.1.Aborts (s.2 j) ∨ (step true s (j, .access)).isSome = true) := by
  let _ := MmtkCore.documented .android64
  let _ := HeapBuilder.documented .android64 Nat
  intro builder
  have heval : (Machine.run (step true) (start builder) (overtaking.take 18)).any (fun s =>
      (s.2 false).accessesLeft = 4 ∧ (step true s (false, .access)).isSome = false) = true := by
    decide +kernel
  obtain ⟨s, hrun, hs⟩ := (Option.any_eq_true _ _).mp heval
  obtain ⟨hleft, hwaits⟩ := of_decide_eq_true hs
  refine ⟨s, hrun, hwaits, (setup_completes hrun).2 false ?_⟩
  rintro ⟨accepted, heq⟩
  rw [heq] at hleft
  cases hleft

end SetupThreads
end MmtkArt
