import MmtkArt.GcTrigger.Decision
import MmtkArt.GcTrigger.Threads

/-! # `is_gc_required` under contention

Any number of threads run `is_gc_required` and announce pages while no collection ends and no
foreground switch lowers the target. The loop then decides as it would without interference on the
demand that it read (`decided_on_demand`), and it is left after a bounded number of steps of its own
(`isGcRequired_wait_free`): an exchange that fails has found a greater target, which the growth
limit bounds. -/

namespace MmtkArt

namespace Act
variable {b : Build}

/-- The call of an operation. -/
def isCall : Act b → Bool
  | .isGcRequired | .onPendingAllocation _ | .growHeapSizeForEvent => true
  | _ => false

/-- The steps of an operation, its call aside. -/
def cost : Act b → Nat
  | .isGcRequired | .onPendingAllocation _ | .growHeapSizeForEvent => 0
  | _ => 1

/-- A call pays for one turn of the loop, a spurious failure for another. -/
def credit : Act b → Nat
  | .isGcRequired => 7
  | .spuriousFailure => 5
  | _ => 0

end Act

namespace Pc
variable {b : Build}

/-- The steps that are left of `is_gc_required` if no exchange fails. -/
def stepsLeft : Pc b → Nat
  | .loadTarget => 7
  | .readReserved _ => 6
  | .loadPending _ _ => 5
  | .loadGrowthLimit .. => 4
  | .exchange .. => 3
  | .fetchSub _ => 2
  | .askPlan _ => 1
  | _ => 0

/-- The target that the thread has loaded and still compares with. -/
def lastTarget (targetFootprint : Usize b) : Pc b → Usize b
  | .readReserved old | .loadPending old _ | .loadGrowthLimit old _ _ | .exchange old _ _ => old
  | _ => targetFootprint

end Pc

namespace ArtTrigger

variable {b : Build} {F ι : Type} {t t' : ArtTrigger b F} {pc pc' : Pc b} {act : Act b}

/-- The growth limit stays, and the target rises towards it. -/
def GrowsTo (t t' : ArtTrigger b F) : Prop :=
  t'.growthLimit = t.growthLimit ∧ t.targetFootprint ≤ t'.targetFootprint

/-- A thread outside the foreground switch, which exchanges for a target within the limit. -/
def Growing (t : ArtTrigger b F) (pc : Pc b) : Prop :=
  t.Seen pc ∧ ∀ old new p, pc = .exchange old new p → new ≤ t.growthLimit

theorem Growing.mono (hR : t.GrowsTo t') (h : t.Growing pc) : t'.Growing pc :=
  ⟨h.1.mono hR.2, fun old new p heq => hR.1 ▸ h.2 old new p heq⟩

theorem Growing.step (hg : t.Growing pc) (hlimit : t.targetFootprint ≤ t.growthLimit)
    (ha : act ≠ .growHeapSizeForEvent) (h : ThreadStep t pc act t' pc') :
    t.GrowsTo t' ∧ t'.targetFootprint ≤ t'.growthLimit ∧ t'.Growing pc' := by
  obtain ⟨hle, hseen⟩ := hg.1.step ha h
  have hkeep : t'.growthLimit = t.growthLimit := by
    cases h <;> rfl
  refine ⟨⟨hkeep, hle⟩, ?_, hseen, ?_⟩
  · cases h with
    | exchanged => exact hg.2 _ _ _ rfl
    | switchExchanged => exact hg.1.elim
    | _ => exact hlimit
  · intro old new p heq
    cases h with
    | belowGrowthLimit hnew => cases heq; exact hnew
    | _ => cases heq

/-- What holds of every state when no thread runs the foreground switch. -/
structure Contended (s : Threads b F ι) : Prop where
  le_growthLimit : s.1.targetFootprint ≤ s.1.growthLimit
  growing : ∀ i, s.1.Growing (s.2 i)

section
variable [DecidableEq ι] {s s' : Threads b F ι} {as : List (ι × Act b)}

theorem Contended.step {a : ι × Act b} (hI : Contended s) (ha : a.2 ≠ .growHeapSizeForEvent)
    (h : Interleaving.step thread s a = some s') : s.1.GrowsTo s'.1 ∧ Contended s' := by
  obtain ⟨hR, hL⟩ := Interleaving.local_of_stable
    (R := fun t t' => t.GrowsTo t' ∧ t'.targetFootprint ≤ t'.growthLimit) (L := fun _ => Growing)
    (fun _ _ _ _ hR hg => hg.mono hR.1) hI.growing h fun hi => by
      obtain ⟨hgrows, hle, hg⟩ := (hI.growing a.1).step hI.le_growthLimit ha (thread_cases hi)
      exact ⟨⟨hgrows, hle⟩, hg⟩
  exact ⟨hR.1, hR.2, hL⟩

omit [DecidableEq ι] in
theorem contended_idle (h : t.targetFootprint ≤ t.growthLimit) :
    Contended ((t, fun _ => .idle) : Threads b F ι) :=
  ⟨h, fun _ => ⟨trivial, fun _ _ _ heq => by cases heq⟩⟩

/-! ### The decision -/

/-- The demand that a thread has read after a step: the reserved and the pending pages. -/
def demandAfter (t : ArtTrigger b F) (pc : Pc b) (act : Act b) (demand : Nat) : Nat :=
  match pc, act with
  | .loadPending _ reservedPages, .access => reservedPages.val + t.pendingAllocation.val
  | _, _ => demand

/-- What the thread knows of the demand. -/
def OnDemand (t : ArtTrigger b F) (demand : Nat) : Pc b → Prop
  | .loadGrowthLimit _ new _ | .exchange _ new _ => new.val = demand
  | .askPlan true => t.growthLimit.val < demand
  | .fetchSub _ | .askPlan false | .returned false => demand ≤ t.targetFootprint.val
  | _ => True

theorem OnDemand.mono {demand : Nat} (hR : t.GrowsTo t') (h : t.OnDemand demand pc) :
    t'.OnDemand demand pc := by
  have hle : t.targetFootprint.val ≤ t'.targetFootprint.val := hR.2
  cases pc with
  | fetchSub => exact Nat.le_trans h hle
  | askPlan gcRequired =>
    cases gcRequired with
    | false => exact Nat.le_trans h hle
    | true => exact (congrArg Fin.val hR.1).trans_lt h
  | returned answer =>
    cases answer with
    | false => exact Nat.le_trans h hle
    | true => trivial
  | _ => exact h

theorem OnDemand.step {demand : Nat} (hb : b.overflowChecks = true) (hs : t.Seen pc)
    (hd : t.OnDemand demand pc) (h : ThreadStep t pc act t' pc') :
    t'.OnDemand (demandAfter t pc act demand) pc' := by
  cases h with
  | loadPendingBelow hadd hle =>
    have hnew := Usize.val_of_add (.inl hb) hadd
    have hle' := Nat.le_trans hle hs
    exact hnew.symm.trans_le hle'
  | loadPendingAbove hadd => exact Usize.val_of_add (.inl hb) hadd
  | aboveGrowthLimit hlt => exact Nat.lt_of_lt_of_eq hlt hd
  | belowGrowthLimit => exact hd
  | exchanged => exact Nat.le_of_eq hd.symm
  | fetchSub => exact hd
  | planAnswer answer =>
    cases answer with
    | false => exact hd
    | true => trivial
  | _ => trivial

end

/-! ### How long it takes -/

/-- What a thread can still spend: five steps for each page that the target can rise above the one
it compares with, and the steps that are left of the loop. -/
def budget (t : ArtTrigger b F) (pc : Pc b) : Nat :=
  5 * (t.growthLimit.val - (pc.lastTarget t.targetFootprint).val) + pc.stepsLeft

theorem budget_of_ready (h : pc.Ready) :
    t.budget pc = 5 * (t.growthLimit.val - t.targetFootprint.val) := by
  cases h <;> rfl

theorem Growing.budget_mono (hR : t.GrowsTo t') (hg : t.Growing pc) :
    t'.budget pc ≤ t.budget pc := by
  have hle : t.targetFootprint.val ≤ t'.targetFootprint.val := hR.2
  have hlimit : t'.growthLimit.val = t.growthLimit.val := congrArg Fin.val hR.1
  cases pc <;> simp only [budget, Pc.lastTarget, Pc.stepsLeft] <;> omega

theorem Growing.budget_step (hg : t.Growing pc) (hlimit : t.targetFootprint ≤ t.growthLimit)
    (ha : act ≠ .growHeapSizeForEvent) (h : ThreadStep t pc act t' pc') :
    act.cost + t'.budget pc' ≤ t.budget pc + act.credit := by
  have hlimit : t.targetFootprint.val ≤ t.growthLimit.val := hlimit
  have hs := hg.1
  cases h with
  | call hr | onPendingAllocation hr =>
    rw [budget_of_ready hr]
    exact Nat.le_of_eq (Nat.add_comm _ _)
  | callSwitch => exact absurd rfl ha
  | loadPendingBelow =>
    have hs : _ ≤ t.targetFootprint.val := hs
    simp only [budget, Act.cost, Act.credit, Pc.lastTarget, Pc.stepsLeft]
    omega
  | aboveGrowthLimit | spuriousFailure =>
    have hold : _ ≤ t.targetFootprint.val := hs.1
    simp only [budget, Act.cost, Act.credit, Pc.lastTarget, Pc.stepsLeft]
    omega
  | @exchanged old new =>
    have hnew : old.val < new.val := hs.2
    simp only [budget, Act.cost, Act.credit, Pc.lastTarget, Pc.stepsLeft]
    omega
  | @exchangeFailed old _ _ hne =>
    -- the target is greater than the one compared with, which pays for another turn
    have hlt : old < t.targetFootprint := lt_of_le_of_ne hs.1 hne.symm
    have hlt : old.val < t.targetFootprint.val := hlt
    simp only [budget, Act.cost, Act.credit, Pc.lastTarget, Pc.stepsLeft]
    omega
  | switchLoadTarget | switchBelow | switchAbove | switchLoadMin | switchExchanged
  | switchExchangeFailed => exact hs.elim
  | _ =>
    simp only [budget, Act.cost, Act.credit, Pc.lastTarget, Pc.stepsLeft]
    omega

/-- A thread in the loop is not blocked. It panics where the demand overflows. -/
theorem Seen.exists_step (hs : t.Seen pc) (hr : ¬ pc.Ready)
    (hfit : ∀ old r, pc = .loadPending old r → r.val + t.pendingAllocation.val < b.usizeCard) :
    ∃ act, act.isCall = false ∧ act ≠ .spuriousFailure ∧ (thread t pc act).isSome = true := by
  cases pc with
  | idle => exact absurd .idle hr
  | returned answer => exact absurd (.returned answer) hr
  | switched => exact absurd .switched hr
  | readReserved => exact ⟨.reserved 0, rfl, nofun, rfl⟩
  | askPlan gcRequired =>
    cases gcRequired with
    | true => exact ⟨.access, rfl, nofun, rfl⟩
    | false => exact ⟨.planAnswer false, rfl, nofun, rfl⟩
  | loadPending old r =>
    refine ⟨.access, rfl, nofun, ?_⟩
    change (t.access (.loadPending old r)).isSome = true
    rw [access, Usize.add_of_lt (hfit old r rfl), Option.bind_eq_bind, Option.bind_some]
    split <;> rfl
  | loadGrowthLimit old new p =>
    refine ⟨.access, rfl, nofun, ?_⟩
    change (t.access (.loadGrowthLimit old new p)).isSome = true
    rw [access]
    split <;> rfl
  | exchange old new p =>
    refine ⟨.access, rfl, nofun, ?_⟩
    change (t.access (.exchange old new p)).isSome = true
    rw [access]
    split <;> rfl
  | loadTarget | fetchSub => exact ⟨.access, rfl, nofun, rfl⟩
  | switchLoadTarget | switchCompare | switchLoadMin | switchExchange => exact hs.elim

section
variable [DecidableEq ι] {s s' : Threads b F ι} {as : List (ι × Act b)}

theorem Contended.budget_step {a : ι × Act b} (hI : Contended s) (ha : a.2 ≠ .growHeapSizeForEvent)
    (h : Interleaving.step thread s a = some s') (i : ι) :
    (if a.1 = i then a.2.cost else 0) + s'.1.budget (s'.2 i) ≤
      s.1.budget (s.2 i) + if a.1 = i then a.2.credit else 0 := by
  have hgrows := (hI.step ha h).1
  obtain ⟨hi, hother⟩ := Interleaving.step_eq_some h
  by_cases hj : a.1 = i
  · subst hj
    rw [if_pos rfl, if_pos rfl]
    exact (hI.growing a.1).budget_step hI.le_growthLimit ha (thread_cases hi)
  · rw [if_neg hj, if_neg hj, hother i (Ne.symm hj), Nat.zero_add]
    exact (hI.growing i).budget_mono hgrows

theorem sum_cost (i : ι) (as : List (ι × Act b)) :
    (as.map fun a => if a.1 = i then a.2.cost else 0).sum =
      as.countP fun a => a.1 = i ∧ a.2.isCall = false := by
  induction as with
  | nil => rfl
  | cons a as ih =>
    obtain ⟨j, act⟩ := a
    rw [List.map_cons, List.sum_cons, ih, List.countP_cons, Nat.add_comm]
    by_cases hj : j = i <;> cases act <;> simp [hj, Act.cost, Act.isCall]

theorem sum_credit (i : ι) (as : List (ι × Act b)) :
    (as.map fun a => if a.1 = i then a.2.credit else 0).sum =
      7 * as.count (i, .isGcRequired) + 5 * as.count (i, .spuriousFailure) := by
  induction as with
  | nil => rfl
  | cons a as ih =>
    obtain ⟨j, act⟩ := a
    rw [List.map_cons, List.sum_cons, ih, List.count_cons, List.count_cons]
    by_cases hj : j = i <;> cases act <;> simp [hj, Act.credit] <;> omega

/-- **The loop of `is_gc_required` is wait-free but for spurious failures.** Whatever the other
threads do, a thread spends seven steps on a call, and five more on each spurious failure and on
each page that the target can rise; and it is never blocked. -/
theorem isGcRequired_wait_free (hle : t.targetFootprint ≤ t.growthLimit)
    (ha : ∀ a ∈ as, a.2 ≠ .growHeapSizeForEvent)
    (hrun : Machine.run (Interleaving.step thread) (t, fun _ => .idle) as = some s) (i : ι) :
    (as.countP fun a => a.1 = i ∧ a.2.isCall = false) ≤
      7 * as.count (i, .isGcRequired) + 5 * (as.count (i, .spuriousFailure) +
        (t.growthLimit.val - t.targetFootprint.val)) ∧
    (¬ (s.2 i).Ready → (∀ old r, s.2 i = .loadPending old r →
        r.val + s.1.pendingAllocation.val < b.usizeCard) →
      ∃ act, act.isCall = false ∧ act ≠ .spuriousFailure ∧
        (Interleaving.step thread s (i, act)).isSome = true) := by
  have ha' : Machine.EachStep (Interleaving.step thread)
      (fun _ a _ => a.2 ≠ .growHeapSizeForEvent) (t, fun _ => .idle) as := .of_forall_mem ha
  have h₀ : Contended ((t, fun _ => .idle) : Threads b F ι) := contended_idle hle
  have hstep : ∀ (s : Threads b F ι) (a : ι × Act b) s', Contended s →
      a.2 ≠ .growHeapSizeForEvent → Interleaving.step thread s a = some s' → Contended s' :=
    fun _ _ _ hI ha h => (hI.step ha h).2
  constructor
  · have hcost := Machine.cost_le_of_potential (fun s => s.1.budget (s.2 i))
      (fun s a s' hI ha h => ⟨hstep s a s' hI ha h, hI.budget_step ha h i⟩) h₀ ha' hrun
    rw [sum_cost, sum_credit, budget_of_ready .idle] at hcost
    dsimp only at hcost
    omega
  · intro hr hfit
    have hI := Machine.invariant_run h₀ ha' hstep hrun
    obtain ⟨act, hcall, hne, hsome⟩ := (hI.growing i).1.exists_step hr hfit
    refine ⟨act, hcall, hne, ?_⟩
    rw [Interleaving.step, Option.isSome_map]
    exact hsome

/-- The first thread fails once, on a target that the second has raised from 10 to 50. -/
theorem isGcRequired_wait_free_two :
    let as : List (Bool × Act .android64) :=
      [(false, .isGcRequired), (false, .access), (false, .reserved 60), (false, .access),
        (true, .isGcRequired), (true, .access), (true, .reserved 50), (true, .access),
        (false, .access), (true, .access), (true, .access), (false, .access)]
    ∃ s, Machine.run (Interleaving.step thread) (ofHundredPages 10 0, fun _ => .idle) as = some s ∧
      s.2 false = .loadTarget ∧ ∃ act, act.isCall = false ∧ act ≠ .spuriousFailure ∧
        (Interleaving.step thread s (false, act)).isSome = true := by
  intro as
  generalize hrun : Machine.run (Interleaving.step thread) (ofHundredPages 10 0, _) as = x
  have hpc : x.any (fun s => s.2 false = .loadTarget) = true := by
    rw [← hrun]
    decide +kernel
  cases x with
  | none => cases hpc
  | some s =>
    have hpc : s.2 false = .loadTarget := of_decide_eq_true hpc
    refine ⟨s, rfl, hpc, (isGcRequired_wait_free (by decide) (by decide) hrun false).2 ?_ ?_⟩
    · rw [hpc]
      intro h
      cases h
    · rw [hpc]
      intro _ _ h
      cases h

end

end ArtTrigger
end MmtkArt
