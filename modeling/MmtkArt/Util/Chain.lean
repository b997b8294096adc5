import Mathlib.Data.Finset.Card
import Mathlib.Data.List.Forall2

/-! # Chains of pointers

`ChainTo next a l` says that following `next` from `a` passes through the list `l` and stops at its
end. What follows a start is determined by it, so a chain that stops never comes back to where it
has been, and it is no longer than what there is to point to. -/

/-- `next` leads from `a` through the list and no further. -/
def ChainTo {α : Type} (next : α → Option α) : α → List α → Prop
  | a, [] => next a = none
  | a, x :: l => next a = some x ∧ ChainTo next x l

namespace ChainTo

variable {α : Type} {next : α → Option α} {a : α} {l l' : List α}

theorem of_none (h : next a = none) : ChainTo next a l ↔ l = [] := by
  cases l with
  | nil => exact iff_of_true h rfl
  | cons x l => exact iff_of_false (fun hl => nomatch h.symm.trans hl.1) nofun

theorem of_some {x : α} (h : next a = some x) :
    ChainTo next a l ↔ ∃ l', l = x :: l' ∧ ChainTo next x l' := by
  constructor
  · intro hl
    cases l with
    | nil => cases h.symm.trans (hl : next a = none)
    | cons y l =>
      cases h.symm.trans hl.1
      exact ⟨l, rfl, hl.2⟩
  · rintro ⟨l', rfl, hl'⟩
    exact ⟨h, hl'⟩

theorem unique (h : ChainTo next a l) (h' : ChainTo next a l') : l = l' := by
  induction l generalizing a l' with
  | nil => exact ((of_none h).mp h').symm
  | cons x l ih =>
    obtain ⟨l', rfl, htail⟩ := (of_some h.1).mp h'
    rw [ih h.2 htail]

/-- What follows a member is the chain from there. -/
theorem suffix {x : α} (h : ChainTo next a l) (hx : x ∈ l) :
    ∃ l', ChainTo next x l' ∧ l'.length < l.length := by
  induction l generalizing a with
  | nil => cases hx
  | cons y l ih =>
    rcases List.mem_cons.mp hx with rfl | hx
    · exact ⟨l, h.2, Nat.lt_succ_self _⟩
    · obtain ⟨l', hl', hlt⟩ := ih h.2 hx
      exact ⟨l', hl', Nat.lt_succ_of_lt hlt⟩

theorem notMem (h : ChainTo next a l) : a ∉ l := by
  intro ha
  obtain ⟨l', h', hlt⟩ := h.suffix ha
  rw [h.unique h'] at hlt
  exact Nat.lt_irrefl _ hlt

/-- A chain that stops does not repeat. -/
theorem nodup (h : ChainTo next a l) : l.Nodup := by
  induction l generalizing a with
  | nil => exact List.nodup_nil
  | cons x l ih => exact List.nodup_cons.mpr ⟨notMem h.2, ih h.2⟩

theorem next_of_mem {x : α} (h : ChainTo next a l) (hx : x ∈ l) : ∃ y, next y = some x := by
  induction l generalizing a with
  | nil => cases hx
  | cons y l ih =>
    rcases List.mem_cons.mp hx with rfl | hx
    · exact ⟨a, h.1⟩
    · exact ih h.2 hx

theorem length_le [DecidableEq α] (h : ChainTo next a l) (s : Finset α)
    (hs : ∀ x y, next x = some y → y ∈ s) : l.length ≤ s.card := by
  rw [← List.toFinset_card_of_nodup h.nodup]
  refine Finset.card_le_card fun x hx => ?_
  obtain ⟨y, hy⟩ := h.next_of_mem (List.mem_toFinset.mp hx)
  exact hs y x hy

/-- Pointers that are related lead through related chains. -/
theorem related {β : Type} {next' : β → Option β} {R : β → α → Prop}
    (hR : ∀ y x, R y x → Option.Rel R (next' y) (next x)) {b : β} (hb : R b a)
    (h : ChainTo next a l) : ∃ l', ChainTo next' b l' ∧ List.Forall₂ R l' l := by
  induction l generalizing a b with
  | nil =>
    have hrel := hR b a hb
    rw [show next a = none from h] at hrel
    cases hnext : next' b with
    | none => exact ⟨[], hnext, .nil⟩
    | some y => rw [hnext] at hrel; cases hrel
  | cons x l ih =>
    have hrel := hR b a hb
    rw [h.1] at hrel
    cases hnext : next' b with
    | none => rw [hnext] at hrel; cases hrel
    | some y =>
      rw [hnext] at hrel
      cases hrel with
      | some hy =>
        obtain ⟨l', hl', hall⟩ := ih hy h.2
        exact ⟨y :: l', ⟨hnext, hl'⟩, .cons hy hall⟩

end ChainTo
