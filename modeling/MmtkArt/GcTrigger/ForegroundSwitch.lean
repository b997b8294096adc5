import MmtkArt.GcTrigger.Decision
import MmtkArt.GcTrigger.Threads

/-! # Growing for a foreground switch

One thread runs `grow_heap_size_for_event` while the others run `is_gc_required` and announce
pages. The source compares the target with the cached foreground target once, before the loop, and
a failed exchange takes over whatever another thread has written. `switch_grows` is the condition
under which this never lowers the target; a call that returned without lowering it met the
condition at every step. -/

namespace MmtkArt
namespace ArtTrigger

variable {b : Build} {F ι : Type}

/-- What the switching thread holds was there, and the foreground target it exchanges for is the
cached one. -/
def Switching (t : ArtTrigger b F) : Pc b → Prop
  | .switchLoadTarget => True
  | .switchCompare x | .switchLoadMin x => x ≤ t.targetFootprint
  | .switchExchange x m => x ≤ t.targetFootprint ∧ m = t.minForegroundTargetFootprint
  | .switched => t.minForegroundTargetFootprint ≤ t.targetFootprint
  | _ => False

/-- The switching thread is about to exchange a target for a smaller one. -/
def Lowering (t : ArtTrigger b F) : Pc b → Prop
  | .switchLoadMin x | .switchExchange x _ => t.minForegroundTargetFootprint < x
  | _ => False

/-- The target does not fall, and the cached foreground target stays. -/
def Rises (t t' : ArtTrigger b F) : Prop :=
  t.targetFootprint ≤ t'.targetFootprint ∧
    t'.minForegroundTargetFootprint = t.minForegroundTargetFootprint

/-- A failed exchange finds a target no greater than the cached one. -/
def FoundBelow (t : ArtTrigger b F) (pc : Pc b) (act : Act b) : Prop :=
  match pc, act with
  | .switchExchange x _, .access =>
    t.targetFootprint ≠ x → t.targetFootprint ≤ t.minForegroundTargetFootprint
  | _, _ => True

variable {t t' : ArtTrigger b F} {pc pc' : Pc b}

theorem Switching.mono (hR : t.Rises t') (h : t.Switching pc) : t'.Switching pc := by
  cases pc with
  | switchCompare | switchLoadMin => exact le_trans h hR.1
  | switchExchange => exact ⟨h.1.trans hR.1, h.2.trans hR.2.symm⟩
  | switched => exact (hR.2.trans_le h).trans hR.1
  | _ => exact h

/-- One step of the switch, if it does not lower the target. -/
theorem Switching.step (hs : t.Switching pc) (hle : t.targetFootprint ≤ t'.targetFootprint)
    (h : ThreadStep t pc .access t' pc') : t'.Switching pc' := by
  cases h with
  | switchLoadTarget => exact le_rfl
  | switchBelow => exact hs
  | switchAbove hm => exact hm.trans hs
  | switchLoadMin => exact ⟨hs, rfl⟩
  | switchExchanged => exact hs.2.ge
  | switchExchangeFailed => exact le_rfl
  | _ => exact hs.elim

/-- A switch that is not about to lower the target does not lower it. -/
theorem Switching.rises (hs : t.Switching pc) (hl : ¬ t.Lowering pc)
    (h : ThreadStep t pc .access t' pc') : t.targetFootprint ≤ t'.targetFootprint := by
  cases h with
  | switchExchanged heq => exact heq.trans_le ((not_lt.mp hl).trans hs.2.ge)
  | switchLoadTarget | switchBelow | switchAbove | switchLoadMin | switchExchangeFailed =>
    exact le_rfl
  | _ => exact hs.elim

/-- A switch begins to lower the target exactly where a failed exchange finds a greater one. -/
theorem Switching.lowering_iff (hs : t.Switching pc) (hl : ¬ t.Lowering pc)
    (h : ThreadStep t pc .access t' pc') : t'.Lowering pc' ↔ ¬ t.FoundBelow pc .access := by
  cases h with
  | switchBelow hlt => exact iff_of_false (not_lt.mpr hlt.le) (not_not_intro trivial)
  | switchLoadMin => exact iff_of_false hl (not_not_intro trivial)
  | switchExchanged heq => exact iff_of_false id (not_not_intro fun hne => absurd heq hne)
  | switchExchangeFailed hne =>
    refine ⟨fun hlt hb => absurd (hb hne) (not_le.mpr hlt), fun hb => ?_⟩
    exact not_le.mp fun hle => hb fun _ => hle
  | switchLoadTarget | switchAbove => exact iff_of_false id (not_not_intro trivial)
  | _ => exact hs.elim

/-- A switch that is about to lower the target goes on until it does. -/
theorem Lowering.step (hs : t.Switching pc) (hl : t.Lowering pc)
    (hle : t.targetFootprint ≤ t'.targetFootprint) (h : ThreadStep t pc .access t' pc') :
    t'.Lowering pc' := by
  cases h with
  | switchLoadMin => exact hl
  | switchExchanged heq => exact absurd hle (not_le.mpr ((hs.2.trans_lt hl).trans_eq heq.symm))
  | switchExchangeFailed => exact lt_of_lt_of_le hl hs.1
  | _ => exact hl.elim

/-- Of the shared state only the cached target matters. -/
theorem Lowering.of_minForeground_eq (hl : t.Lowering pc)
    (heq : t'.minForegroundTargetFootprint = t.minForegroundTargetFootprint) :
    t'.Lowering pc := by
  cases pc with
  | switchLoadMin | switchExchange => exact heq.trans_lt hl
  | _ => exact hl

/-! ### All threads -/

variable [DecidableEq ι] {k : ι} {s s' : Threads b F ι} {a : ι × Act b} {as : List (ι × Act b)}

/-- Thread `k` makes its next access, and the others do not switch. -/
def OneSwitch (k : ι) (a : ι × Act b) : Prop :=
  if a.1 = k then a.2 = .access else a.2 ≠ .growHeapSizeForEvent

instance : Decidable (OneSwitch k a) :=
  inferInstanceAs (Decidable (if a.1 = k then a.2 = .access else a.2 ≠ .growHeapSizeForEvent))

/-- `FoundBelow` of the steps of thread `k`. -/
def SwitchFoundBelow (k : ι) (s : Threads b F ι) (a : ι × Act b) (_ : Threads b F ι) : Prop :=
  a.1 = k → s.1.FoundBelow (s.2 k) a.2

def NeverLowers (s : Threads b F ι) (_ : ι × Act b) (s' : Threads b F ι) : Prop :=
  s.1.targetFootprint ≤ s'.1.targetFootprint

/-- The switch has returned only with the cached foreground target reached. -/
def SwitchReached (k : ι) (s : Threads b F ι) : Prop :=
  s.2 k = .switched → s.1.minForegroundTargetFootprint ≤ s.1.targetFootprint

def SwitchInv (k : ι) (s : Threads b F ι) : Prop :=
  ∀ i, if i = k then s.1.Switching (s.2 i) else s.1.Seen (s.2 i)

/-- A step is an access of the switch, or another thread's step that leaves the switch where it
is. -/
theorem OneSwitch.step_cases (ha : OneSwitch k a)
    (h : Interleaving.step thread s a = some s') :
    (a = (k, .access) ∧ ThreadStep s.1 (s.2 k) .access s'.1 (s'.2 k)) ∨
      (a.1 ≠ k ∧ a.2 ≠ .growHeapSizeForEvent ∧ s'.2 k = s.2 k ∧
        ThreadStep s.1 (s.2 a.1) a.2 s'.1 (s'.2 a.1)) := by
  obtain ⟨hi, hother⟩ := Interleaving.step_eq_some h
  replace hi := thread_cases hi
  obtain ⟨i, act⟩ := a
  by_cases hk : i = k
  · subst hk
    rw [OneSwitch, if_pos rfl] at ha
    cases ha
    exact .inl ⟨rfl, hi⟩
  · rw [OneSwitch, if_neg hk] at ha
    exact .inr ⟨hk, ha, hother k (Ne.symm hk), hi⟩

theorem SwitchInv.switching (hI : SwitchInv k s) : s.1.Switching (s.2 k) := by
  have h := hI k
  rwa [if_pos rfl] at h

theorem SwitchInv.seen (hI : SwitchInv k s) {i : ι} (hi : i ≠ k) : s.1.Seen (s.2 i) := by
  have h := hI i
  rwa [if_neg hi] at h

theorem SwitchInv.reached (hI : SwitchInv k s) : SwitchReached k s := by
  intro hk
  have h := hI.switching
  rwa [hk] at h

/-- Only the switch can lower the target. -/
theorem SwitchInv.rises (hI : SwitchInv k s) (ha : OneSwitch k a)
    (h : Interleaving.step thread s a = some s') (hl : ¬ s.1.Lowering (s.2 k)) :
    NeverLowers s a s' := by
  rcases ha.step_cases h with ⟨rfl, hi⟩ | ⟨hk, hcall, -, hi⟩
  · exact hI.switching.rises hl hi
  · exact ((hI.seen hk).step hcall hi).1

theorem SwitchInv.step (hI : SwitchInv k s) (ha : OneSwitch k a)
    (h : Interleaving.step thread s a = some s') (hle : NeverLowers s a s') :
    SwitchInv k s' := by
  refine (Interleaving.local_of_stable (R := Rises)
    (L := fun i t pc => if i = k then t.Switching pc else t.Seen pc) ?_ hI h fun _ => ?_).2
  · intro j t t' pc hR
    split
    · exact Switching.mono hR
    · exact Seen.mono hR.1
  · rcases ha.step_cases h with ⟨rfl, hi⟩ | ⟨hk, hcall, -, hi⟩
    · refine ⟨⟨hle, hi.minForeground_eq⟩, ?_⟩
      rw [if_pos rfl]
      exact hI.switching.step hle hi
    · refine ⟨⟨hle, hi.minForeground_eq⟩, ?_⟩
      rw [if_neg hk]
      exact ((hI.seen hk).step hcall hi).2

/-- The switch begins to lower the target in the steps that are not `SwitchFoundBelow`. -/
theorem SwitchInv.lowering_iff (hI : SwitchInv k s) (ha : OneSwitch k a)
    (h : Interleaving.step thread s a = some s') (hl : ¬ s.1.Lowering (s.2 k)) :
    s'.1.Lowering (s'.2 k) ↔ ¬ SwitchFoundBelow k s a s' := by
  rcases ha.step_cases h with ⟨rfl, hi⟩ | ⟨hk, -, heq, hi⟩
  · rw [SwitchFoundBelow, hI.switching.lowering_iff hl hi]
    exact not_congr ⟨fun h _ => h, fun h => h rfl⟩
  · refine iff_of_false (fun hl' => hl ?_) (not_not_intro fun h => absurd h hk)
    rw [heq] at hl'
    exact hl'.of_minForeground_eq hi.minForeground_eq.symm

theorem SwitchInv.lowering_step (hI : SwitchInv k s) (ha : OneSwitch k a)
    (h : Interleaving.step thread s a = some s') (hle : NeverLowers s a s')
    (hl : s.1.Lowering (s.2 k)) : s'.1.Lowering (s'.2 k) := by
  rcases ha.step_cases h with ⟨rfl, hi⟩ | ⟨-, -, heq, hi⟩
  · exact hl.step hI.switching hle hi
  · rw [heq]
    exact hl.of_minForeground_eq hi.minForeground_eq

/-- Thread `k` has just called `grow_heap_size_for_event`. -/
def callsSwitch (t : ArtTrigger b F) (k : ι) : Threads b F ι :=
  (t, Function.update (fun _ => .idle) k .switchLoadTarget)

@[simp] theorem callsSwitch_self (t : ArtTrigger b F) (k : ι) :
    (t.callsSwitch k).2 k = .switchLoadTarget := by simp [callsSwitch]

theorem switchInv_callsSwitch (t : ArtTrigger b F) (k : ι) : SwitchInv k (t.callsSwitch k) := by
  intro i
  split
  · next h =>
    rw [h, callsSwitch_self]
    exact trivial
  · next h =>
    have hidle : (t.callsSwitch k).2 i = .idle := by
      simp [callsSwitch, h]
    rw [hidle]
    exact trivial

/-- **Growing for a foreground switch loses no concurrent growth**, if a failed exchange never finds
a target above the cached one; and a call that returned without loss never found one. -/
theorem switch_grows (t : ArtTrigger b F) (k : ι) (ha : ∀ a ∈ as, OneSwitch k a) :
    (Machine.EachStep (Interleaving.step thread) (SwitchFoundBelow k) (t.callsSwitch k) as →
      Machine.EachStep (Interleaving.step thread) NeverLowers (t.callsSwitch k) as ∧
      Machine.Along (Interleaving.step thread) (SwitchReached k) (t.callsSwitch k) as) ∧
    ∀ u, Machine.run (Interleaving.step thread) (t.callsSwitch k) as = some u →
      u.2 k = .switched →
      Machine.EachStep (Interleaving.step thread) NeverLowers (t.callsSwitch k) as →
      Machine.EachStep (Interleaving.step thread) (SwitchFoundBelow k) (t.callsSwitch k) as := by
  have h₀ := switchInv_callsSwitch t k
  have hl₀ : ¬ (t.callsSwitch k).1.Lowering ((t.callsSwitch k).2 k) := by
    rw [callsSwitch_self]
    exact id
  have ha' : Machine.EachStep (Interleaving.step thread) (fun _ a _ => OneSwitch k a)
      (t.callsSwitch k) as := .of_forall_mem ha
  constructor
  · intro hfound
    have hboth : Machine.EachStep (Interleaving.step thread)
        (fun s a s' => NeverLowers s a s' ∧ SwitchReached k s') (t.callsSwitch k) as := by
      refine .of_invariant (I := fun s => SwitchInv k s ∧ ¬ s.1.Lowering (s.2 k)) ⟨h₀, hl₀⟩
        (ha'.and hfound) ?_
      intro s a s' ⟨hI, hl⟩ ⟨ha, hf⟩ h
      have hle := hI.rises ha h hl
      have hI' := hI.step ha h hle
      exact ⟨⟨hI', fun hl' => (hI.lowering_iff ha h hl).mp hl' hf⟩, hle, hI'.reached⟩
    exact ⟨hboth.mono fun _ _ _ _ h => h.1, h₀.reached, hboth.mono fun _ _ _ _ h => h.2⟩
  · intro u hrun hk hle
    -- once about to lower the target, the switch cannot return without doing so
    refine .of_trap (D := fun s => s.1.Lowering (s.2 k)) h₀ (ha'.and hle) hrun ?_ ?_ ?_
    · rw [hk]
      exact id
    · intro s a s' hI ⟨ha, hle⟩ h
      refine ⟨hI.step ha h hle, ?_⟩
      by_cases hl : s.1.Lowering (s.2 k)
      · exact .inr (hI.lowering_step ha h hle hl)
      · rw [hI.lowering_iff ha h hl]
        exact Classical.em _
    · intro s a s' hI hl ⟨ha, hle⟩ h
      exact hI.lowering_step ha h hle hl

/-- The exchange fails once, on a target that has grown to 15 of the 20 cached pages. -/
theorem switch_grows_once :
    let t : ArtTrigger .android64 ℚ :=
      { ofHundredPages 10 0 with minForegroundTargetFootprint := 20 }
    let as : List (Bool × Act .android64) :=
      [(true, .access), (true, .access), (true, .access), (false, .isGcRequired),
        (false, .access), (false, .reserved 15), (false, .access), (false, .access),
        (false, .access), (true, .access), (true, .access), (true, .access)]
    Machine.EachStep (Interleaving.step thread) NeverLowers (t.callsSwitch true) as ∧
      Machine.Along (Interleaving.step thread) (SwitchReached true) (t.callsSwitch true) as := by
  refine (switch_grows _ true (by decide)).1 ?_
  repeat
    refine fun s h => ?_
    cases h
    refine ⟨fun _ => ?_, ?_⟩
    · first | exact trivial | exact fun _ => by decide +kernel
  trivial

/-- The cached target is 20. The switch loads 10, a mutator grows the target to 30, and the second
exchange of the switch lowers it to 20. -/
theorem not_switch_grows :
    ¬ ∀ (t : ArtTrigger .android64 ℚ) (k : Bool) (as : List (Bool × Act .android64)),
      (∀ a ∈ as, OneSwitch k a) →
      Machine.EachStep (Interleaving.step thread) NeverLowers (t.callsSwitch k) as := by
  intro h
  let t : ArtTrigger .android64 ℚ :=
    { ofHundredPages 10 0 with minForegroundTargetFootprint := 20 }
  let as : List (Bool × Act .android64) :=
    [(true, .access), (true, .access), (true, .access), (false, .isGcRequired),
      (false, .access), (false, .reserved 30), (false, .access), (false, .access),
      (false, .access), (true, .access), (true, .access)]
  have hrun : ((Machine.run (Interleaving.step thread) (t.callsSwitch true) as).bind fun s =>
      (Interleaving.step thread s (true, .access)).map fun s' =>
        (s.1.targetFootprint, s'.1.targetFootprint)) = some (30, 20) := by decide +kernel
  obtain ⟨s, hrun, hlast⟩ := Option.bind_eq_some_iff.mp hrun
  obtain ⟨s', hlast, heq⟩ := Option.map_eq_some_iff.mp hlast
  obtain ⟨hs, hs'⟩ := Prod.mk.inj heq
  have hle := Machine.eachStep_iff.mp (h t true (as ++ [(true, .access)]) (by decide)) as _ [] s s'
    rfl hrun hlast
  rw [NeverLowers, hs, hs'] at hle
  exact absurd hle (by decide)

end ArtTrigger
end MmtkArt
