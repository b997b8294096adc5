import Mathlib.Algebra.GroupWithZero.Nat
import Mathlib.Data.List.Basic

/-! # Runs of a partial step function

A machine is a function `step : σ → α → Option σ`; the action `a` cannot be taken in the state `s`
when `step s a = none`. `EachStep` states a property of every step that a run takes, and
`EachStep.of_invariant` is the induction over a run: an invariant that every step meeting the guard
keeps holds of every state reached. `withGhost` records a value along the run that the step
function does not read. -/

namespace Machine

universe u v w

/-- One step of a machine with states `σ` and actions `α`. -/
abbrev Step (σ : Type u) (α : Type v) := σ → α → Option σ

/-- The state that a list of actions leads to. -/
def run {σ : Type u} {α : Type v} (step : Step σ α) (s : σ) : List α → Option σ
  | [] => some s
  | a :: as => (step s a).bind fun s' => run step s' as

/-- `Q` holds of every step that the run of the actions takes. -/
def EachStep {σ : Type u} {α : Type v} (step : Step σ α) (Q : σ → α → σ → Prop) (s : σ) :
    List α → Prop
  | [] => True
  | a :: as => ∀ s', step s a = some s' → Q s a s' ∧ EachStep step Q s' as

/-- `P` holds of the first state and of every state that the run of the actions passes through. -/
def Along {σ : Type u} {α : Type v} (step : Step σ α) (P : σ → Prop) (s : σ) (as : List α) :
    Prop :=
  P s ∧ EachStep step (fun _ _ s' => P s') s as

/-- `P` holds of every action of a run and the state that it is taken in. -/
def Guarded {σ : Type u} {α : Type v} (step : Step σ α) (P : σ → α → Prop) (s : σ) :
    List α → Prop
  | [] => True
  | a :: as => P s a ∧ ∀ s', step s a = some s' → Guarded step P s' as

variable {σ : Type u} {α : Type v} {γ : Type w} {step : Step σ α}

@[simp] theorem run_nil (s : σ) : run step s [] = some s := rfl

@[simp] theorem run_cons (s : σ) (a : α) (as : List α) :
    run step s (a :: as) = (step s a).bind fun s' => run step s' as := rfl

theorem run_singleton (s : σ) (a : α) : run step s [a] = step s a := by
  rw [run_cons]
  cases step s a <;> rfl

theorem run_append (s : σ) (as as' : List α) :
    run step s (as ++ as') = (run step s as).bind fun s' => run step s' as' := by
  induction as generalizing s with
  | nil => rfl
  | cons a as ih =>
    rw [List.cons_append, run_cons, run_cons, Option.bind_assoc]
    exact congrArg _ (funext fun s' => ih s')

theorem run_cons_eq_some {s t : σ} {a : α} {as : List α} (h : run step s (a :: as) = some t) :
    ∃ s', step s a = some s' ∧ run step s' as = some t :=
  Option.bind_eq_some_iff.mp h

/-! ### Properties of every step -/

theorem EachStep.mono {Q R : σ → α → σ → Prop} {s : σ} {as : List α}
    (h : EachStep step Q s as) (hQR : ∀ s a s', step s a = some s' → Q s a s' → R s a s') :
    EachStep step R s as := by
  induction as generalizing s with
  | nil => trivial
  | cons a as ih => exact fun s' hs => ⟨hQR _ _ _ hs (h s' hs).1, ih (h s' hs).2⟩

theorem EachStep.and {Q R : σ → α → σ → Prop} {s : σ} {as : List α}
    (hQ : EachStep step Q s as) (hR : EachStep step R s as) :
    EachStep step (fun s a s' => Q s a s' ∧ R s a s') s as := by
  induction as generalizing s with
  | nil => trivial
  | cons a as ih =>
    exact fun s' hs => ⟨⟨(hQ s' hs).1, (hR s' hs).1⟩, ih (hQ s' hs).2 (hR s' hs).2⟩

/-- A property of the actions alone holds of every step that they take. -/
theorem EachStep.of_forall_mem {A : α → Prop} {s : σ} {as : List α} (h : ∀ a ∈ as, A a) :
    EachStep step (fun _ a _ => A a) s as := by
  induction as generalizing s with
  | nil => trivial
  | cons a as ih =>
    exact fun s' _ => ⟨h a List.mem_cons_self, ih fun b hb => h b (List.mem_cons_of_mem a hb)⟩

/-- A property of every step is a property of every step from a state that a prefix leads to. -/
theorem eachStep_iff {Q : σ → α → σ → Prop} {s : σ} {as : List α} :
    EachStep step Q s as ↔ ∀ pre a post t t', as = pre ++ a :: post →
      run step s pre = some t → step t a = some t' → Q t a t' := by
  induction as generalizing s with
  | nil => exact ⟨fun _ pre a post _ _ h => by simp at h, fun _ => trivial⟩
  | cons b as ih =>
    constructor
    · intro h pre a post t t' heq hrun hstep
      cases pre with
      | nil =>
        obtain ⟨rfl, rfl⟩ := List.cons.inj heq
        cases hrun
        exact (h t' hstep).1
      | cons c pre =>
        obtain ⟨rfl, rfl⟩ := List.cons.inj heq
        obtain ⟨s', hs, hrun⟩ := run_cons_eq_some hrun
        exact ih.mp (h s' hs).2 pre a post t t' rfl hrun hstep
    · intro h s' hs
      refine ⟨h [] b as s s' rfl rfl hs, ih.mpr fun pre a post t t' heq hrun hstep => ?_⟩
      refine h (b :: pre) a post t t' (by rw [heq]; rfl) ?_ hstep
      rw [run_cons, hs]
      exact hrun

/-- **Invariant rule.** An invariant that every step meeting the guard `G` keeps, and that gives
`Q` of such a step, gives `Q` of every step of a guarded run. -/
theorem EachStep.of_invariant {I : σ → Prop} {G Q : σ → α → σ → Prop} {s : σ} {as : List α}
    (hI : I s) (hG : EachStep step G s as)
    (hstep : ∀ s a s', I s → G s a s' → step s a = some s' → I s' ∧ Q s a s') :
    EachStep step Q s as := by
  induction as generalizing s with
  | nil => trivial
  | cons a as ih =>
    intro s' hs
    obtain ⟨hg, hG⟩ := hG s' hs
    obtain ⟨hI', hQ⟩ := hstep s a s' hI hg hs
    exact ⟨hQ, ih hI' hG⟩

/-- **Trap rule.** If a step that breaks `G` leads into `D`, which no step meeting `Q` leaves, then
every step of a run that ends outside `D` meets `G`. -/
theorem EachStep.of_trap {I D : σ → Prop} {G Q : σ → α → σ → Prop} {s t : σ} {as : List α}
    (hI : I s) (hQ : EachStep step Q s as) (hrun : run step s as = some t) (ht : ¬ D t)
    (hstep : ∀ s a s', I s → Q s a s' → step s a = some s' → I s' ∧ (G s a s' ∨ D s'))
    (htrap : ∀ s a s', I s → D s → Q s a s' → step s a = some s' → D s') :
    EachStep step G s as := by
  have hend : ∀ (as : List α) (s : σ), I s → D s → EachStep step Q s as →
      run step s as = some t → D t := by
    intro as
    induction as with
    | nil =>
      intro s _ hD _ hrun
      cases hrun
      exact hD
    | cons a as ih =>
      intro s hI hD hQ hrun
      obtain ⟨s', hs, hrun⟩ := run_cons_eq_some hrun
      obtain ⟨hq, hQ⟩ := hQ s' hs
      exact ih s' (hstep s a s' hI hq hs).1 (htrap s a s' hI hD hq hs) hQ hrun
  induction as generalizing s with
  | nil => trivial
  | cons a as ih =>
    intro s' hs
    obtain ⟨hq, hQ⟩ := hQ s' hs
    rw [run_cons, hs] at hrun
    obtain ⟨hI', hG | hD⟩ := hstep s a s' hI hq hs
    · exact ⟨hG, ih hI' hQ hrun⟩
    · exact absurd (hend as s' hI' hD hQ hrun) ht

/-- An invariant that every step meeting the guard keeps holds of the state a guarded run ends
in. -/
theorem invariant_run {I : σ → Prop} {G : σ → α → σ → Prop} {s t : σ} {as : List α}
    (hI : I s) (hG : EachStep step G s as)
    (hstep : ∀ s a s', I s → G s a s' → step s a = some s' → I s') (hrun : run step s as = some t) :
    I t := by
  induction as generalizing s with
  | nil => cases hrun; exact hI
  | cons a as ih =>
    obtain ⟨s', hs, hrun⟩ := run_cons_eq_some hrun
    exact ih (hstep s a s' hI (hG s' hs).1 hs) (hG s' hs).2 hrun

/-- The states that a run passes through are the states that its prefixes lead to. -/
theorem along_iff {P : σ → Prop} {s : σ} {as : List α} :
    Along step P s as ↔ ∀ pre t, pre <+: as → run step s pre = some t → P t := by
  constructor
  · rintro ⟨hs, h⟩ pre t ⟨post, rfl⟩ hrun
    rcases List.eq_nil_or_concat pre with rfl | ⟨pre, a, rfl⟩
    · cases hrun
      exact hs
    · rw [List.concat_eq_append, run_append, Option.bind_eq_some_iff] at hrun
      obtain ⟨s₁, hrun, hlast⟩ := hrun
      obtain ⟨s₂, hstep, hlast⟩ := run_cons_eq_some hlast
      cases hlast
      exact eachStep_iff.mp h pre a post s₁ t (by simp) hrun hstep
  · intro h
    refine ⟨h [] s (List.nil_prefix) rfl, eachStep_iff.mpr fun pre a post t t' heq hrun hs => ?_⟩
    refine h (pre ++ [a]) t' ⟨post, by simp [heq]⟩ ?_
    rw [run_append, hrun]
    simp [hs]

/-- **Amortised cost.** If a step costs no more than what it takes off a potential and is credited,
neither does a run. -/
theorem cost_le_of_potential {I : σ → Prop} {G : σ → α → σ → Prop} (potential : σ → Nat)
    {cost credit : α → Nat}
    (hstep : ∀ s a s', I s → G s a s' → step s a = some s' →
      I s' ∧ cost a + potential s' ≤ potential s + credit a)
    {s t : σ} {as : List α} (hI : I s) (hG : EachStep step G s as) (hrun : run step s as = some t) :
    (as.map cost).sum + potential t ≤ potential s + (as.map credit).sum := by
  induction as generalizing s with
  | nil =>
    cases hrun
    exact Nat.le_of_eq (Nat.add_comm _ _)
  | cons a as ih =>
    obtain ⟨s', hs, hrun⟩ := run_cons_eq_some hrun
    obtain ⟨hg, hG⟩ := hG s' hs
    obtain ⟨hI', hle⟩ := hstep s a s' hI hg hs
    have hrest := ih hI' hG hrun
    rw [List.map_cons, List.map_cons, List.sum_cons, List.sum_cons]
    omega

/-- The same cost for some of the actions. -/
theorem sum_map_ite (n : Nat) (p : α → Bool) (as : List α) :
    (as.map fun a => if p a then n else 0).sum = n * as.countP p := by
  induction as with
  | nil => rfl
  | cons a as ih =>
    rw [List.map_cons, List.sum_cons, ih, List.countP_cons, Nat.mul_add, Nat.add_comm]
    cases p a <;> simp

/-- **Refinement rule.** A machine that takes every step it is guarded for, as another one that
never fails does, takes every run it is guarded for. -/
theorem Guarded.refines {τ : Type w} {next : τ → α → τ} {P : σ → α → Prop} {R : σ → τ → Prop}
    (hstep : ∀ s t a, R s t → P s a → ∃ s', step s a = some s' ∧ R s' (next t a)) {s : σ} {t : τ}
    {as : List α} (h : R s t) (hP : Guarded step P s as) :
    ∃ s', run step s as = some s' ∧ R s' (as.foldl next t) := by
  induction as generalizing s t with
  | nil => exact ⟨s, rfl, h⟩
  | cons a as ih =>
    obtain ⟨ha, hP⟩ := hP
    obtain ⟨s', hs, h'⟩ := hstep s t a h ha
    rw [run_cons, hs]
    exact ih h' (hP s' hs)

/-- The labels of the steps that a run takes. -/
def labels {β : Type w} (step : Step σ α) (label : σ → α → Option β) (s : σ) : List α → List β
  | [] => []
  | a :: as => ((step s a).map fun s' => (label s a).toList ++ labels step label s' as).getD []

/-- **Refinement with hidden steps.** If another machine takes the labels of each step, then it
takes those of a run, in their order. -/
theorem run_labels {τ : Type w} {β : Type w} {step' : Step τ β} {label : σ → α → Option β}
    {R : σ → τ → Prop}
    (hstep : ∀ s a s' t, R s t → step s a = some s' →
      ∃ t', run step' t (label s a).toList = some t' ∧ R s' t') {s s' : σ} {t : τ} {as : List α}
    (h : R s t) (hrun : run step s as = some s') :
    ∃ t', run step' t (labels step label s as) = some t' ∧ R s' t' := by
  induction as generalizing s t with
  | nil =>
    cases hrun
    exact ⟨t, rfl, h⟩
  | cons a as ih =>
    obtain ⟨s₁, hs, hrun⟩ := run_cons_eq_some hrun
    obtain ⟨t₁, ht, h₁⟩ := hstep s a s₁ t h hs
    obtain ⟨t', ht', h'⟩ := ih h₁ hrun
    refine ⟨t', ?_, h'⟩
    rw [labels, hs, Option.map_some, Option.getD_some, run_append, ht]
    exact ht'

theorem forall_mem_labels {β : Type w} {label : σ → α → Option β} {I : σ → Prop} {A : α → Prop}
    {Q : β → Prop}
    (hstep : ∀ s a s', I s → A a → step s a = some s' → I s' ∧ ∀ l ∈ label s a, Q l) {s : σ}
    {as : List α} (hI : I s) (hA : ∀ a ∈ as, A a) : ∀ l ∈ labels step label s as, Q l := by
  induction as generalizing s with
  | nil => exact fun _ hl => absurd hl List.not_mem_nil
  | cons a as ih =>
    intro l hl
    rw [labels] at hl
    cases hs : step s a with
    | none =>
      rw [hs] at hl
      exact absurd hl List.not_mem_nil
    | some s' =>
      rw [hs, Option.map_some, Option.getD_some, List.mem_append, Option.mem_toList] at hl
      obtain ⟨hI', hQ⟩ := hstep s a s' hI (hA a List.mem_cons_self) hs
      rcases hl with hl | hl
      · exact hQ l hl
      · exact ih hI' (fun a ha => hA a (List.mem_cons_of_mem _ ha)) l hl

/-- A machine that goes on beside another one, from a state that the other one comes to determine. -/
def handover {τ β : Type w} (step : Step σ α) (step' : Step τ β) (start : σ → Option τ) :
    Step (σ × Option τ) (α ⊕ β)
  | (s, x), .inl a => (step s a).map fun s' => (s', x)
  | (s, x), .inr a => ((x <|> start s).bind fun t => step' t a).map fun t => (s, some t)

/-- **Handover rule.** If what the first machine determines does not change, then the second one has
run from it. -/
theorem handover_run {τ β : Type w} {step' : Step τ β} {start : σ → Option τ} {I : σ → Prop}
    (hstep : ∀ s a s', I s → step s a = some s' →
      I s' ∧ ∀ t, start s = some t → start s' = some t)
    {s s' : σ} {x x' : Option τ} {as : List (α ⊕ β)} (hI : I s)
    (hrun : run (handover step step' start) (s, x) as = some (s', x')) :
    run step s (as.filterMap Sum.getLeft?) = some s' ∧
      (∀ t, start s = some t → start s' = some t) ∧
      ∀ t', (x' <|> start s') = some t' → ∃ t, (x <|> start s') = some t ∧
        run step' t (as.filterMap Sum.getRight?) = some t' := by
  induction as generalizing s x with
  | nil =>
    cases hrun
    exact ⟨rfl, fun _ h => h, fun t' h => ⟨t', h, rfl⟩⟩
  | cons a as ih =>
    obtain ⟨⟨s₁, x₁⟩, hs, hrun⟩ := run_cons_eq_some hrun
    cases a with
    | inl a =>
      obtain ⟨u, hu, heq⟩ := Option.map_eq_some_iff.mp hs
      cases heq
      obtain ⟨hI', hstart⟩ := hstep s a _ hI hu
      obtain ⟨hleft, hkeep, hright⟩ := ih hI' hrun
      refine ⟨?_, fun t h => hkeep t (hstart t h), hright⟩
      rw [List.filterMap_cons, Sum.getLeft?, run_cons, hu]
      exact hleft
    | inr a =>
      obtain ⟨t₁, ht₁, heq⟩ := Option.map_eq_some_iff.mp hs
      cases heq
      obtain ⟨t₀, ht₀, ht₁⟩ := Option.bind_eq_some_iff.mp ht₁
      obtain ⟨hleft, hkeep, hright⟩ := ih hI hrun
      refine ⟨hleft, hkeep, fun t' h => ?_⟩
      obtain ⟨t, ht, hrun'⟩ := hright t' h
      cases ht
      refine ⟨t₀, ?_, ?_⟩
      · cases x with
        | some t => exact ht₀
        | none => exact hkeep t₀ ht₀
      · rw [List.filterMap_cons, Sum.getRight?, run_cons, ht₁]
        exact hrun'

/-! ### Ghost values -/

/-- The machine that also carries a value the step function does not read. -/
def withGhost (step : Step σ α) (upd : σ → α → σ → γ → γ) : Step (σ × γ) α :=
  fun s a => (step s.1 a).map fun s' => (s', upd s.1 a s' s.2)

theorem withGhost_eq_some {upd : σ → α → σ → γ → γ} {s t : σ × γ} {a : α}
    (h : withGhost step upd s a = some t) :
    step s.1 a = some t.1 ∧ t.2 = upd s.1 a t.1 s.2 := by
  obtain ⟨s', hs, rfl⟩ := Option.map_eq_some_iff.mp h
  exact ⟨hs, rfl⟩

/-- The ghost value does not change what the machine does. -/
theorem run_withGhost {upd : σ → α → σ → γ → γ} {s : σ × γ} {as : List α} :
    (run (withGhost step upd) s as).map Prod.fst = run step s.1 as := by
  induction as generalizing s with
  | nil => rfl
  | cons a as ih =>
    rw [run_cons, run_cons]
    cases hs : step s.1 a with
    | none => simp [withGhost, hs]
    | some s' => simpa [withGhost, hs] using ih (s := (s', upd s.1 a s' s.2))

/-- A property of the steps of the machine lifts to the machine with the ghost value. -/
theorem EachStep.withGhost {Q : σ → α → σ → Prop} {upd : σ → α → σ → γ → γ} {s : σ × γ}
    {as : List α} (h : EachStep step Q s.1 as) :
    EachStep (withGhost step upd) (fun s a s' => Q s.1 a s'.1) s as := by
  induction as generalizing s with
  | nil => trivial
  | cons a as ih =>
    intro t ht
    have hs := (withGhost_eq_some ht).1
    exact ⟨(h t.1 hs).1, ih (h t.1 hs).2⟩

end Machine
