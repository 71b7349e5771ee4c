import Mathlib.Data.Finset.Card

/-!
# Sweeping a set

A searcher takes one element after the other. A sweep takes a new element of a given
set, as long as there is one left; anything may be taken in between. As many sweeps
as the set has elements have taken all of it.
-/
namespace Sweeping
variable {C : Type} [DecidableEq C] {whole taken : Finset C} {n : Nat} {c : C}

/-- All of the set is taken, or each of `n` sweeps has taken an element of its own. -/
def Swept (whole taken : Finset C) (n : Nat) : Prop :=
  whole ⊆ taken ∨ n + (whole \ taken).card ≤ whole.card

theorem swept_start (whole : Finset C) : Swept whole ∅ 0 := by
  refine .inr ?_
  rw [Finset.sdiff_empty, Nat.zero_add]

theorem Swept.take (h : Swept whole taken n) (c : C) : Swept whole (insert c taken) n := by
  rcases h with all | left
  · exact .inl (all.trans (Finset.subset_insert c taken))
  · have fewer : (whole \ insert c taken).card ≤ (whole \ taken).card :=
      Finset.card_le_card (Finset.sdiff_subset_sdiff subset_rfl (Finset.subset_insert c taken))
    exact .inr (by omega)

theorem Swept.sweep (h : Swept whole taken n)
    (takes : c ∈ whole ∧ c ∉ taken ∨ whole ⊆ taken) : Swept whole (insert c taken) (n + 1) := by
  rcases takes with ⟨inside, fresh⟩ | all
  · rcases h with all | left
    · exact absurd (all inside) fresh
    · have one : (whole \ insert c taken).card + 1 = (whole \ taken).card := by
        rw [Finset.sdiff_insert]
        exact Finset.card_erase_add_one (Finset.mem_sdiff.mpr ⟨inside, fresh⟩)
      exact .inr (by omega)
  · exact .inl (all.trans (Finset.subset_insert c taken))

theorem Swept.all (h : Swept whole taken n) (enough : whole.card ≤ n) : whole ⊆ taken := by
  rcases h with all | left
  · exact all
  · have none : (whole \ taken).card = 0 := by omega
    exact Finset.sdiff_eq_empty_iff_subset.mp (Finset.card_eq_zero.mp none)

end Sweeping
