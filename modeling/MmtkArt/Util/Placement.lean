import Mathlib.Data.List.Count
import Mathlib.Data.List.Range

/-! # Naturally aligned placements

`Placeable lo hi widths` says that fields of these widths fit between two addresses: each at a
multiple of its width, no two overlapping. Fields of one width follow each other from an aligned
address on (`Placeable.replicate`), and placements in consecutive intervals add up
(`Placeable.append`). -/

/-- A field is an address with a width. -/
def Placeable (lo hi : Nat) (widths : List Nat) : Prop :=
  ∃ fields : List (Nat × Nat), (fields.map Prod.snd).Perm widths ∧
    (∀ f ∈ fields, f.2 ∣ f.1 ∧ lo ≤ f.1 ∧ f.1 + f.2 ≤ hi) ∧
    fields.Pairwise fun f g => f.1 + f.2 ≤ g.1 ∨ g.1 + g.2 ≤ f.1

namespace Placeable

variable {lo lo' mid hi hi' w n : Nat} {widths widths' : List Nat}

theorem perm (h : Placeable lo hi widths) (hp : widths.Perm widths') : Placeable lo hi widths' := by
  obtain ⟨fields, hw, hin, hdisj⟩ := h
  exact ⟨fields, hw.trans hp, hin, hdisj⟩

theorem mono (h : Placeable lo hi widths) (hlo : lo' ≤ lo) (hhi : hi ≤ hi') :
    Placeable lo' hi' widths := by
  obtain ⟨fields, hw, hin, hdisj⟩ := h
  refine ⟨fields, hw, fun f hf => ?_, hdisj⟩
  obtain ⟨hdvd, hle, hend⟩ := hin f hf
  exact ⟨hdvd, hlo.trans hle, hend.trans hhi⟩

/-- What lies below an address and what lies above it do not overlap. -/
theorem append (h : Placeable lo mid widths) (h' : Placeable mid hi widths') (hlo : lo ≤ mid)
    (hhi : mid ≤ hi) : Placeable lo hi (widths ++ widths') := by
  obtain ⟨fields, hw, hin, hdisj⟩ := h
  obtain ⟨fields', hw', hin', hdisj'⟩ := h'
  refine ⟨fields ++ fields', ?_, fun f hf => ?_, List.pairwise_append.mpr ⟨hdisj, hdisj', ?_⟩⟩
  · rw [List.map_append]
    exact hw.append hw'
  · rcases List.mem_append.mp hf with hf | hf
    · obtain ⟨hdvd, hle, hend⟩ := hin f hf
      exact ⟨hdvd, hle, hend.trans hhi⟩
    · obtain ⟨hdvd, hle, hend⟩ := hin' f hf
      exact ⟨hdvd, hlo.trans hle, hend⟩
  · intro f hf g hg
    exact .inl ((hin f hf).2.2.trans (hin' g hg).2.1)

theorem nil : Placeable lo hi [] :=
  ⟨[], .nil, fun _ hf => absurd hf List.not_mem_nil, .nil⟩

theorem singleton (hlo : w ∣ lo) : Placeable lo (lo + w) [w] := by
  refine ⟨[(lo, w)], .refl _, fun f hf => ?_, List.pairwise_singleton _ _⟩
  rw [List.mem_singleton.mp hf]
  exact ⟨hlo, le_rfl, le_rfl⟩

/-- Fields of one width follow each other from an aligned address on. -/
theorem replicate (hlo : 0 < n → w ∣ lo) (hend : lo + n * w ≤ hi) :
    Placeable lo hi (List.replicate n w) := by
  induction n generalizing lo with
  | zero => exact nil
  | succ n ih =>
    have hlo := hlo n.succ_pos
    rw [Nat.succ_mul] at hend
    have hrest : Placeable (lo + w) hi (List.replicate n w) :=
      ih (fun _ => Nat.dvd_add hlo (Nat.dvd_refl w)) (by omega)
    exact (singleton hlo).append hrest (Nat.le_add_right _ _) (by omega)

end Placeable
