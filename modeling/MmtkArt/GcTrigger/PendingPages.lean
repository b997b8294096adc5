import MmtkArt.GcTrigger.Decision
import MmtkArt.GcTrigger.Threads

/-! # Pending pages are consumed at most once

`is_gc_required` reads the pending count before its compare-exchange on the target and subtracts it
afterwards. In between, the pages are both in the target and in the counter, and a thread that reads
the counter then can exchange for them a second time. `pending_consumed_once` shows that this is the
only way to subtract too much: in every run in which no exchange succeeds on such a count (and no
announcement overflows the counter) each subtraction is covered. -/

namespace MmtkArt

namespace Pc
variable {b : Build}

/-- Pages that a thread has exchanged into the target and not yet subtracted. -/
def inFlight : Pc b → Nat
  | .fetchSub pendingAllocation => pendingAllocation.val
  | _ => 0

/-- The thread has loaded `p` pending pages after the target `old`. -/
inductive Holds (old p : Usize b) : Pc b → Prop
  | loadGrowthLimit (new) : Holds old p (.loadGrowthLimit old new p)
  | exchange (new) : Holds old p (.exchange old new p)

end Pc

/-- What a run is watched for: whether the pending count that a thread loaded last was loaded while
another thread had pages in flight, and the pages announced and subtracted so far. -/
structure Ledger (ι : Type) where
  stale : ι → Prop
  announced : Nat
  subtracted : Nat

namespace ArtTrigger

variable {b : Build} {F ι : Type} [DecidableEq ι]

def record (s : Threads b F ι) (a : ι × Act b) (_ : Threads b F ι) (g : Ledger ι) : Ledger ι :=
  match s.2 a.1, a.2 with
  | .loadPending _ _, .access =>
    { g with stale := Function.update g.stale a.1 (∃ j, j ≠ a.1 ∧ 0 < (s.2 j).inFlight) }
  | .fetchSub pendingAllocation, .access =>
    { g with subtracted := g.subtracted + pendingAllocation.val }
  | _, .onPendingAllocation pages => { g with announced := g.announced + pages.val }
  | _, _ => g

/-- All threads, watched. -/
def watched : Machine.Step (Threads b F ι × Ledger ι) (ι × Act b) :=
  Machine.withGhost (Interleaving.step thread) record

/-- No exchange succeeds on a stale count, and no announcement overflows the counter. -/
def CountFresh (s : Threads b F ι × Ledger ι) (a : ι × Act b) : Prop :=
  match s.1.2 a.1, a.2 with
  | .exchange old _ _, .access => s.1.1.targetFootprint = old → ¬ s.2.stale a.1
  | _, .onPendingAllocation pages =>
    s.1.1.pendingAllocation.val + pages.val < b.usizeCard
  | _, _ => True

theorem Seen.le_of_holds {t : ArtTrigger b F} {pc : Pc b} {old p : Usize b} (h : t.Seen pc)
    (hold : pc.Holds old p) : old ≤ t.targetFootprint := by
  cases hold <;> exact h.1

/-- What holds of every state that a watched run reaches. `fresh` is the heart of it: a thread whose
exchange can still succeed on a fresh count will find all its pages in the counter, and no other
pages in flight. -/
structure PendingInv (initial : Nat) (s : Threads b F ι × Ledger ι) : Prop where
  seen : ∀ i, s.1.1.Seen (s.1.2 i)
  covered : ∀ i, (s.1.2 i).inFlight ≤ s.1.1.pendingAllocation.val
  alone : ∀ i j, 0 < (s.1.2 i).inFlight → 0 < (s.1.2 j).inFlight → i = j
  fresh : ∀ i old p, (s.1.2 i).Holds old p → s.1.1.targetFootprint = old → ¬ s.2.stale i →
    (∀ j, (s.1.2 j).inFlight = 0) ∧ p ≤ s.1.1.pendingAllocation
  balance : s.1.1.pendingAllocation.val + s.2.subtracted = initial + s.2.announced

/-- A step that puts nothing in flight for its thread puts nothing in flight. -/
theorem inFlight_le_of_other {f g : ι → Pc b} {i : ι} (hother : ∀ j, j ≠ i → g j = f j)
    (hi : (g i).inFlight ≤ (f i).inFlight) (j : ι) : (g j).inFlight ≤ (f j).inFlight := by
  by_cases hj : j = i
  · rw [hj]
    exact hi
  · rw [hother j hj]

variable {initial : Nat} {s s' : Threads b F ι × Ledger ι} {i : ι}

omit [DecidableEq ι] in
theorem PendingInv.alone_of_le {g : ι → Pc b} (hI : PendingInv initial s)
    (hflight : ∀ j, (g j).inFlight ≤ (s.1.2 j).inFlight) (j k : ι) (hj : 0 < (g j).inFlight)
    (hk : 0 < (g k).inFlight) : j = k :=
  hI.alone j k (hj.trans_le (hflight j)) (hk.trans_le (hflight k))

omit [DecidableEq ι] in
/-- After a step of a thread that holds no count then, only the others hold any, as before. -/
theorem PendingInv.fresh_of_other (hI : PendingInv initial s)
    (hother : ∀ j, j ≠ i → s'.1.2 j = s.1.2 j) (hstale : s'.2.stale = s.2.stale)
    (ht : s'.1.1.targetFootprint = s.1.1.targetFootprint)
    (hnone : ∀ old p, ¬ (s'.1.2 i).Holds old p) {j : ι} {old p : Usize b}
    (hold : (s'.1.2 j).Holds old p) (hT : s'.1.1.targetFootprint = old) (hst : ¬ s'.2.stale j) :
    (∀ k, (s.1.2 k).inFlight = 0) ∧ p ≤ s.1.1.pendingAllocation := by
  have hj : j ≠ i := fun hj => hnone old p (hj ▸ hold)
  rw [hother j hj] at hold
  rw [hstale] at hst
  exact hI.fresh j old p hold (ht ▸ hT) hst

/-- A step that changes neither the counter nor what is in flight, and starts to hold a count only
if it is fresh. -/
theorem PendingInv.quiet (hI : PendingInv initial s) (hseen : ∀ j, s'.1.1.Seen (s'.1.2 j))
    (hother : ∀ j, j ≠ i → s'.1.2 j = s.1.2 j) (hstale : ∀ j, j ≠ i → s'.2.stale j = s.2.stale j)
    (ht : s'.1.1.targetFootprint = s.1.1.targetFootprint)
    (hp : s'.1.1.pendingAllocation = s.1.1.pendingAllocation)
    (hfl : (s'.1.2 i).inFlight = (s.1.2 i).inFlight)
    (hsub : s'.2.subtracted = s.2.subtracted) (hann : s'.2.announced = s.2.announced)
    (hfresh : ∀ old p, (s'.1.2 i).Holds old p → s.1.1.targetFootprint = old →
      ¬ s'.2.stale i → (∀ j, (s.1.2 j).inFlight = 0) ∧ p ≤ s.1.1.pendingAllocation) :
    PendingInv initial s' := by
  have hflight : ∀ j, (s'.1.2 j).inFlight = (s.1.2 j).inFlight := by
    intro j
    by_cases hj : j = i
    · rw [hj, hfl]
    · rw [hother j hj]
  refine ⟨hseen, ?_, ?_, ?_, by rw [hp, hsub, hann, hI.balance]⟩
  · intro j
    rw [hflight, hp]
    exact hI.covered j
  · exact hI.alone_of_le fun j => (hflight j).le
  · intro j old p hold hT hst
    simp only [hflight, hp]
    by_cases hj : j = i
    · subst hj
      exact hfresh old p hold (ht ▸ hT) hst
    · rw [hother j hj] at hold
      rw [hstale j hj] at hst
      exact hI.fresh j old p hold (ht ▸ hT) hst

/-- The counter grows by what is announced. -/
theorem PendingInv.announce {pages : Usize b} (hI : PendingInv initial s)
    (hseen : ∀ j, s'.1.1.Seen (s'.1.2 j)) (hother : ∀ j, j ≠ i → s'.1.2 j = s.1.2 j)
    (hidle : s'.1.2 i = .idle) (hstale : s'.2.stale = s.2.stale)
    (ht : s'.1.1 = s.1.1.onPendingAllocation pages)
    (hfit : s.1.1.pendingAllocation.val + pages.val < b.usizeCard)
    (hsub : s'.2.subtracted = s.2.subtracted)
    (hann : s'.2.announced = s.2.announced + pages.val) : PendingInv initial s' := by
  have hp : s'.1.1.pendingAllocation.val = s.1.1.pendingAllocation.val + pages.val := by
    rw [ht]
    exact Fin.val_add_eq_of_add_lt hfit
  have hflight := inFlight_le_of_other hother (by rw [hidle]; exact Nat.zero_le _)
  refine ⟨hseen, ?_, ?_, ?_, by rw [hp, hsub, hann]; have := hI.balance; omega⟩
  · intro j
    have := hflight j
    have := hI.covered j
    omega
  · exact hI.alone_of_le hflight
  · intro j old p hold hT hst
    have hnone : ∀ old p, ¬ (s'.1.2 i).Holds old p := by
      intro old p h
      rw [hidle] at h
      cases h
    obtain ⟨hzero, hle⟩ := hI.fresh_of_other hother hstale (by rw [ht]; rfl) hnone hold hT hst
    refine ⟨fun k => Nat.le_zero.mp (hzero k ▸ hflight k), ?_⟩
    have : p.val ≤ s.1.1.pendingAllocation.val := hle
    exact Fin.le_def.mpr (by omega)

/-- A successful exchange on a fresh count. The target rises, so every count that another thread
holds was read under a target that is gone. -/
theorem PendingInv.exchange {old new p : Usize b} (hI : PendingInv initial s)
    (hseen : ∀ j, s'.1.1.Seen (s'.1.2 j)) (hother : ∀ j, j ≠ i → s'.1.2 j = s.1.2 j)
    (hi : s.1.2 i = .exchange old new p) (hi' : s'.1.2 i = .fetchSub p)
    (heq : s.1.1.targetFootprint = old) (ht : s'.1.1 = { s.1.1 with targetFootprint := new })
    (hst : ¬ s.2.stale i) (hg : s'.2 = s.2) : PendingInv initial s' := by
  obtain ⟨hzero, hle⟩ := hI.fresh i old p (hi ▸ .exchange new) heq hst
  have hlt : old < new := by
    have hs := hI.seen i
    rw [hi] at hs
    exact hs.2
  have hflight : ∀ j, 0 < (s'.1.2 j).inFlight → j = i := by
    intro j hj
    by_contra hne
    rw [hother j hne, hzero j] at hj
    exact absurd hj (lt_irrefl 0)
  refine ⟨hseen, ?_, fun j k hj hk => (hflight j hj).trans (hflight k hk).symm, ?_, ?_⟩
  · intro j
    by_cases hj : j = i
    · rw [hj, hi', ht]
      exact hle
    · rw [hother j hj, hzero j]
      exact Nat.zero_le _
  · intro j o q hold hT _
    by_cases hj : j = i
    · rw [hj, hi'] at hold
      cases hold
    · -- `j` has seen a target below the new one
      rw [hother j hj] at hold
      have hle := (hI.seen j).le_of_holds hold
      rw [ht] at hT
      cases hT
      exact absurd (heq ▸ hle) (not_le.mpr hlt)
  · rw [ht, hg]
    exact hI.balance

/-- A subtraction: the pages in flight of the only thread that has any. -/
theorem PendingInv.subtract {p : Usize b} (hI : PendingInv initial s)
    (hseen : ∀ j, s'.1.1.Seen (s'.1.2 j)) (hother : ∀ j, j ≠ i → s'.1.2 j = s.1.2 j)
    (hi : s.1.2 i = .fetchSub p) (hi' : s'.1.2 i = .askPlan false)
    (ht : s'.1.1 = { s.1.1 with pendingAllocation := s.1.1.pendingAllocation - p })
    (hstale : s'.2.stale = s.2.stale) (hann : s'.2.announced = s.2.announced)
    (hsub : s'.2.subtracted = s.2.subtracted + p.val) : PendingInv initial s' := by
  have hle : p ≤ s.1.1.pendingAllocation := by
    have := hI.covered i
    rwa [hi] at this
  have hp : s'.1.1.pendingAllocation.val = s.1.1.pendingAllocation.val - p.val := by
    rw [ht]
    exact Fin.sub_val_of_le hle
  have hle : p.val ≤ s.1.1.pendingAllocation.val := hle
  have hself : (s'.1.2 i).inFlight = 0 := by rw [hi']; rfl
  have hflight := inFlight_le_of_other hother (by rw [hself]; exact Nat.zero_le _)
  have hzero : 0 < p.val → ∀ j, (s'.1.2 j).inFlight = 0 := by
    intro h0 j
    by_contra hne
    have hj := Nat.pos_of_ne_zero hne
    have : j = i := hI.alone j i (hj.trans_le (hflight j)) (by rw [hi]; exact h0)
    rw [this, hself] at hne
    exact hne rfl
  refine ⟨hseen, ?_, ?_, ?_, by rw [hp, hsub, hann]; have := hI.balance; omega⟩
  · intro j
    rcases Nat.eq_zero_or_pos p.val with h0 | h0
    · have := hI.covered j
      have := hflight j
      omega
    · rw [hzero h0 j]
      exact Nat.zero_le _
  · exact hI.alone_of_le hflight
  · intro j old q hold hT hst
    have hnone : ∀ old p, ¬ (s'.1.2 i).Holds old p := by
      intro old p h
      rw [hi'] at h
      cases h
    obtain ⟨hall, hq⟩ := hI.fresh_of_other hother hstale (by rw [ht]) hnone hold hT hst
    -- nothing was in flight, so nothing is subtracted
    have h0 : p.val = 0 := by
      have := hall i
      rwa [hi] at this
    have hq : q.val ≤ s.1.1.pendingAllocation.val := hq
    refine ⟨fun k => Nat.le_zero.mp (hall k ▸ hflight k), Fin.le_def.mpr ?_⟩
    omega

theorem PendingInv.step {act : Act b} (hI : PendingInv initial s)
    (ha : act ≠ .growHeapSizeForEvent) (hfresh : CountFresh s (i, act))
    (h : watched s (i, act) = some s') : PendingInv initial s' := by
  obtain ⟨hstep, hg⟩ := Machine.withGhost_eq_some h
  obtain ⟨hi, hother⟩ := Interleaving.step_eq_some hstep
  have hseen : ∀ j, s'.1.1.Seen (s'.1.2 j) :=
    (Interleaving.local_of_stable (R := fun t t' => t.targetFootprint ≤ t'.targetFootprint)
      (L := fun _ => Seen) (fun _ _ _ _ hle => Seen.mono hle) hI.seen hstep
      fun h => (hI.seen i).step ha (thread_cases h)).2
  replace hi := thread_cases hi
  -- a step that holds no count it did not hold before
  have hstill : s'.1.1 = s.1.1 → s'.2 = s.2 →
      (s'.1.2 i).inFlight = (s.1.2 i).inFlight →
      (∀ old p, (s'.1.2 i).Holds old p → (s.1.2 i).Holds old p) → PendingInv initial s' := by
    intro ht hg hfl hold
    refine hI.quiet (i := i) hseen hother ?_ ?_ ?_ hfl ?_ ?_ ?_
    all_goals try simp only [ht, hg, implies_true]
    intro old p h hT hst
    exact hI.fresh i old p (hold old p h) hT hst
  generalize hx : s.1.2 i = x at hi
  generalize hy : s'.1.2 i = y at hi
  generalize ht : s'.1.1 = t' at hi
  rw [record, hx] at hg
  rw [CountFresh, hx] at hfresh
  cases hi with
  | call hr =>
    refine hstill ht ?_ ?_ (fun old p h => by rw [hy] at h; cases h)
    · cases hr <;> exact hg
    · rw [hx, hy]
      cases hr <;> rfl
  | onPendingAllocation hr pages =>
    refine hI.announce (i := i) hseen hother hy ?_ ht ?_ ?_ ?_
    all_goals cases hr <;> first | exact hfresh | rw [hg]
  | callSwitch => exact absurd rfl ha
  | loadPendingBelow | loadPendingAbove =>
    refine hI.quiet (i := i) hseen hother ?_ ?_ ?_ (by rw [hx, hy]; rfl) ?_ ?_ ?_
    · intro j hj
      rw [hg]
      exact Function.update_of_ne hj _ _
    · rw [ht]
    · rw [ht]
    · rw [hg]
    · rw [hg]
    · intro old p hold _ hst
      rw [hy] at hold
      have hstale : s'.2.stale i = ∃ j, j ≠ i ∧ 0 < (s.1.2 j).inFlight := by
        rw [hg]
        exact Function.update_self i _ _
      rw [hstale] at hst
      refine ⟨fun j => ?_, by cases hold <;> exact le_rfl⟩
      by_cases hj : j = i
      · rw [hj, hx]
        rfl
      · exact Nat.eq_zero_of_not_pos fun h0 => hst ⟨j, hj, h0⟩
  | belowGrowthLimit hle =>
    refine hstill ht hg (by rw [hx, hy]; rfl) fun old p h => ?_
    rw [hy] at h
    rw [hx]
    cases h
    exact .loadGrowthLimit _
  | exchanged heq => exact hI.exchange hseen hother hx hy heq ht (hfresh heq) hg
  | fetchSub => exact hI.subtract hseen hother hx hy ht (by rw [hg]) (by rw [hg]) (by rw [hg])
  | switchLoadTarget | switchBelow | switchAbove | switchLoadMin | switchExchanged
  | switchExchangeFailed =>
    have hs := hI.seen i
    rw [hx] at hs
    exact hs.elim
  | _ => exact hstill ht hg (by rw [hx, hy]; rfl) fun old p h => by rw [hy] at h; cases h

/-- No thread has called an operation. -/
def allIdle (t : ArtTrigger b F) : Threads b F ι × Ledger ι :=
  ((t, fun _ => .idle), ⟨fun _ => False, 0, 0⟩)

/-- Watching changes nothing. -/
theorem run_watched (t : ArtTrigger b F) (as : List (ι × Act b)) :
    (Machine.run watched t.allIdle as).map Prod.fst =
      Machine.run (Interleaving.step thread) (t, fun _ => .idle) as :=
  Machine.run_withGhost

omit [DecidableEq ι] in
theorem PendingInv.allIdle (t : ArtTrigger b F) :
    PendingInv t.pendingAllocation.val (t.allIdle : Threads b F ι × Ledger ι) where
  seen _ := trivial
  covered _ := Nat.zero_le _
  alone _ _ h := absurd h (lt_irrefl 0)
  fresh _ _ _ h := by cases h
  balance := rfl

/-- Every subtraction that comes next is covered by the counter, and no more has been subtracted
than was pending at first and announced since. -/
def Consumed (initial : Nat) (s : Threads b F ι × Ledger ι) : Prop :=
  (∀ i p, s.1.2 i = .fetchSub p → p ≤ s.1.1.pendingAllocation) ∧
    s.2.subtracted ≤ initial + s.2.announced

omit [DecidableEq ι] in
theorem PendingInv.consumed (hI : PendingInv initial s) : Consumed initial s := by
  refine ⟨fun i p hi => ?_, ?_⟩
  · have := hI.covered i
    rwa [hi] at this
  · have := hI.balance
    omega

/-- **Pending pages are consumed at most once**, in every run of any threads in which no exchange
succeeds on a stale count. -/
theorem pending_consumed_once {t : ArtTrigger b F} {as : List (ι × Act b)}
    (ha : ∀ a ∈ as, a.2 ≠ .growHeapSizeForEvent)
    (hfresh : Machine.EachStep watched (fun s a _ => CountFresh s a) t.allIdle as) :
    Machine.Along watched (Consumed t.pendingAllocation.val) t.allIdle as := by
  have hguard := (Machine.EachStep.of_forall_mem ha).and hfresh
  refine ⟨(PendingInv.allIdle t).consumed, .of_invariant (PendingInv.allIdle t) hguard ?_⟩
  intro s a s' hI hg hstep
  have hI' := hI.step hg.1 hg.2 hstep
  exact ⟨hI', hI'.consumed⟩

/-- One thread consumes the five pending pages while the other one announces three more. -/
theorem pending_consumed_once_two :
    Machine.Along watched (Consumed 5) (ofHundredPages 10 5).allIdle
      [(false, .isGcRequired), (false, .access), (false, .reserved 10), (false, .access),
        (true, .onPendingAllocation 3), (false, .access), (false, .access), (false, .access)] := by
  refine pending_consumed_once (by decide) ?_
  repeat
    refine fun s h => ?_
    cases h
    refine ⟨?_, ?_⟩
    · first
      | exact trivial
      | exact Nat.le_of_ble_eq_true rfl
      | exact fun _ ⟨j, hj, h0⟩ => by cases j <;> contradiction
  trivial

/-- Five pages are pending. The second thread reads them after the exchange of the first and before
its subtraction, exchanges as well, and then has five pages to subtract from none. -/
theorem not_pending_consumed_once :
    ¬ ∀ (t : ArtTrigger .android64 ℚ) (as : List (Bool × Act .android64)),
      (∀ a ∈ as, a.2 ≠ .growHeapSizeForEvent) →
      Machine.Along watched (Consumed t.pendingAllocation.val) t.allIdle as := by
  intro h
  let as : List (Bool × Act .android64) :=
    [(false, .isGcRequired), (false, .access), (false, .reserved 10), (false, .access),
      (false, .access), (false, .access), (true, .isGcRequired), (true, .access),
      (true, .reserved 11), (true, .access), (true, .access), (true, .access), (false, .access)]
  have heval : (Machine.run watched (ofHundredPages 10 5).allIdle as).map
      (fun s => (s.1.2 true, s.1.1.pendingAllocation)) = some (.fetchSub 5, 0) := by
    decide +kernel
  obtain ⟨s, hrun, heq⟩ := Option.map_eq_some_iff.mp heval
  obtain ⟨hpc, hp⟩ := Prod.mk.inj heq
  have hle := (Machine.along_iff.mp (h _ as (by decide)) as s List.prefix_rfl hrun).1 true 5 hpc
  rw [hp] at hle
  exact absurd hle (by decide)

end ArtTrigger
end MmtkArt
