import Mathlib.Algebra.Order.BigOperators.Group.Finset
import Mathlib.Data.Finset.Card
import Mathlib.Data.Fintype.Card
import Mathlib.Tactic.Common

/-!
# Fleets under fire

A battle is a family of pairwise disjoint ships, as finite sets of cells of any
kind, and the set of cells shot at so far. What a cell looks like is a function
of these two. This is the purpose of a sea battle, without grids or counters.
-/
namespace Salvo
open Classical

inductive Mark where
  | water
  | ship
  | hit
  | miss
  | sunk
  deriving DecidableEq

inductive Verdict where
  | miss
  | hit
  | sunk
  | again
  deriving DecidableEq

/-- Ships that overlap cannot be built. -/
structure Battle (ι C : Type) where
  ships : ι → Finset C
  shots : Finset C
  disjoint : Pairwise (fun i j => Disjoint (ships i) (ships j))

namespace Battle
variable {ι C : Type} (B : Battle ι C)

def Sunk (i : ι) : Prop := B.ships i ⊆ B.shots

theorem owner_unique {c : C} {i j : ι} (hi : c ∈ B.ships i) (hj : c ∈ B.ships j) : i = j := by
  by_contra hne
  exact Finset.disjoint_left.mp (B.disjoint hne) hi hj

theorem not_sunk_of_fresh {c : C} {i : ι} (h : c ∈ B.ships i) (fresh : c ∉ B.shots) :
    ¬B.Sunk i := fun hs => fresh (hs h)

variable [DecidableEq C]

noncomputable def mark (c : C) : Mark :=
  if ∃ i, c ∈ B.ships i ∧ B.Sunk i then .sunk
  else if ∃ i, c ∈ B.ships i then (if c ∈ B.shots then .hit else .ship)
  else if c ∈ B.shots then .miss else .water

theorem mark_of_mem {c : C} {i : ι} (h : c ∈ B.ships i) :
    B.mark c = if B.Sunk i then .sunk else if c ∈ B.shots then .hit else .ship := by
  have owner : (∃ j, c ∈ B.ships j ∧ B.Sunk j) ↔ B.Sunk i := by
    constructor
    · rintro ⟨j, hj, hs⟩
      rwa [B.owner_unique h hj]
    · exact fun hs => ⟨i, h, hs⟩
  have some_owner : ∃ j, c ∈ B.ships j := ⟨i, h⟩
  simp only [mark, owner, if_pos some_owner]

theorem mark_of_not_mem {c : C} (h : ∀ i, c ∉ B.ships i) :
    B.mark c = if c ∈ B.shots then .miss else .water := by
  have no_sunk : ¬∃ i, c ∈ B.ships i ∧ B.Sunk i := fun ⟨i, hi, _⟩ => h i hi
  have no_owner : ¬∃ i, c ∈ B.ships i := fun ⟨i, hi⟩ => h i hi
  simp only [mark, if_neg no_sunk, if_neg no_owner]

theorem mark_eq_water {c : C} : B.mark c = .water ↔ (∀ i, c ∉ B.ships i) ∧ c ∉ B.shots := by
  by_cases h : ∃ i, c ∈ B.ships i
  · obtain ⟨i, hi⟩ := h
    rw [B.mark_of_mem hi]
    constructor
    · intro eq
      split_ifs at eq
    · exact fun none => absurd hi (none.1 i)
  · have none : ∀ i, c ∉ B.ships i := fun i hi => h ⟨i, hi⟩
    rw [B.mark_of_not_mem none]
    by_cases hs : c ∈ B.shots <;> simp [hs, none]

theorem mark_eq_ship {c : C} : B.mark c = .ship ↔ (∃ i, c ∈ B.ships i) ∧ c ∉ B.shots := by
  by_cases h : ∃ i, c ∈ B.ships i
  · obtain ⟨i, hi⟩ := h
    rw [B.mark_of_mem hi]
    constructor
    · intro eq
      split_ifs at eq with sunk shot
      exact ⟨⟨i, hi⟩, shot⟩
    · intro fresh
      rw [if_neg (B.not_sunk_of_fresh hi fresh.2), if_neg fresh.2]
  · have none : ∀ i, c ∉ B.ships i := fun i hi => h ⟨i, hi⟩
    rw [B.mark_of_not_mem none]
    by_cases hs : c ∈ B.shots <;> simp [hs, none]

theorem mark_eq_hit {c : C} :
    B.mark c = .hit ↔ c ∈ B.shots ∧ ∃ i, c ∈ B.ships i ∧ ¬B.Sunk i := by
  by_cases h : ∃ i, c ∈ B.ships i
  · obtain ⟨i, hi⟩ := h
    rw [B.mark_of_mem hi]
    constructor
    · intro eq
      split_ifs at eq with sunk shot
      exact ⟨shot, i, hi, sunk⟩
    · rintro ⟨shot, j, hj, afloat⟩
      cases B.owner_unique hi hj
      rw [if_neg afloat, if_pos shot]
  · have none : ∀ i, c ∉ B.ships i := fun i hi => h ⟨i, hi⟩
    rw [B.mark_of_not_mem none]
    by_cases hs : c ∈ B.shots <;> simp [hs, none]

/-- Some cell is marked ship exactly when some ship is afloat. -/
theorem ship_mark_iff : (∃ c, B.mark c = .ship) ↔ ∃ i, ¬B.Sunk i := by
  constructor
  · rintro ⟨c, hc⟩
    obtain ⟨⟨i, hi⟩, fresh⟩ := B.mark_eq_ship.mp hc
    exact ⟨i, B.not_sunk_of_fresh hi fresh⟩
  · rintro ⟨i, afloat⟩
    obtain ⟨c, hc, fresh⟩ := Finset.not_subset.mp afloat
    exact ⟨c, B.mark_eq_ship.mpr ⟨⟨i, hc⟩, fresh⟩⟩

/-- How many cells of a ship have been shot at. -/
noncomputable def hits (i : ι) : Nat := (B.ships i ∩ B.shots).card

theorem hits_le (i : ι) : B.hits i ≤ (B.ships i).card :=
  Finset.card_le_card Finset.inter_subset_left

theorem hits_eq_card_iff (i : ι) : B.hits i = (B.ships i).card ↔ B.Sunk i := by
  constructor
  · intro h
    have eq : B.ships i ∩ B.shots = B.ships i :=
      Finset.eq_of_subset_of_card_le Finset.inter_subset_left h.ge
    exact Finset.inter_eq_left.mp eq
  · intro h
    rw [hits, Finset.inter_eq_left.mpr h]

noncomputable def fire (c : C) : Battle ι C :=
  { B with shots := insert c B.shots }

@[simp] theorem fire_ships (c : C) : (B.fire c).ships = B.ships := rfl

@[simp] theorem fire_shots (c : C) : (B.fire c).shots = insert c B.shots := rfl

theorem fire_again {c : C} (h : c ∈ B.shots) : B.fire c = B := by
  cases B
  simp only [fire, Finset.insert_eq_of_mem h]

theorem Sunk.fire {i : ι} (h : B.Sunk i) (c : C) : (B.fire c).Sunk i :=
  fun _ hx => Finset.mem_insert_of_mem (h hx)

/-- A shot that is not on a ship does not sink it. -/
theorem fire_sunk_of_not_mem {c : C} {i : ι} (h : c ∉ B.ships i) :
    (B.fire c).Sunk i ↔ B.Sunk i := by
  constructor
  · intro hs x hx
    rcases Finset.mem_insert.mp (hs hx) with rfl | old
    · exact absurd hx h
    · exact old
  · exact fun hs => Sunk.fire B hs c

theorem fire_mark_miss {c : C} (h : ∀ i, c ∉ B.ships i) (x : C) :
    (B.fire c).mark x = if x = c then .miss else B.mark x := by
  by_cases same : x = c
  · subst same
    simp [(B.fire x).mark_of_not_mem h]
  · rw [if_neg same]
    simp only [mark, fire_ships, fire_sunk_of_not_mem B (h _), fire_shots, Finset.mem_insert,
      same, false_or]

/-- Marks after a fresh shot on a ship: one cell turns to hit, or the whole
ship to sunk when this was its last cell. -/
theorem fire_mark_ship {c : C} {i : ι} (h : c ∈ B.ships i) (fresh : c ∉ B.shots) (x : C) :
    (B.fire c).mark x =
      if (B.fire c).Sunk i then (if x ∈ B.ships i then .sunk else B.mark x)
      else if x = c then .hit else B.mark x := by
  by_cases hx : x ∈ B.ships i
  · rw [(B.fire c).mark_of_mem (i := i) hx, B.mark_of_mem hx,
      if_neg (B.not_sunk_of_fresh h fresh)]
    by_cases same : x = c
    · simp [same, h]
    · simp [hx, same]
  · have other : x ≠ c := fun eq => hx (eq ▸ h)
    have keep : (B.fire c).mark x = B.mark x := by
      have sunk : ∀ j, x ∈ B.ships j → ((B.fire c).Sunk j ↔ B.Sunk j) := by
        intro j hj
        apply fire_sunk_of_not_mem
        intro hc
        exact hx (B.owner_unique hc h ▸ hj)
      have exists_sunk : (∃ j, x ∈ B.ships j ∧ (B.fire c).Sunk j) ↔
          ∃ j, x ∈ B.ships j ∧ B.Sunk j :=
        exists_congr (fun j => and_congr_right (sunk j))
      simp only [mark, fire_ships, exists_sunk, fire_shots, Finset.mem_insert, other, false_or]
    simp [hx, other, keep]

theorem fire_hits_of_mem {c : C} {i : ι} (h : c ∈ B.ships i) (fresh : c ∉ B.shots) :
    (B.fire c).hits i = B.hits i + 1 := by
  have eq : B.ships i ∩ insert c B.shots = insert c (B.ships i ∩ B.shots) :=
    Finset.inter_insert_of_mem h
  simp only [hits, fire_ships, fire_shots, eq]
  exact Finset.card_insert_of_notMem (fun m => fresh (Finset.mem_inter.mp m).2)

theorem fire_hits_of_not_mem {c : C} {i : ι} (h : c ∉ B.ships i) :
    (B.fire c).hits i = B.hits i := by
  simp only [hits, fire_ships, fire_shots, Finset.inter_insert_of_notMem h]

theorem fire_card {c : C} (fresh : c ∉ B.shots) : (B.fire c).shots.card = B.shots.card + 1 :=
  Finset.card_insert_of_notMem fresh

/-- What the other side answers to a shot. -/
noncomputable def verdict (c : C) : Verdict :=
  if c ∈ B.shots then .again
  else if ∃ i, c ∈ B.ships i then
    (if ∃ i, c ∈ B.ships i ∧ (B.fire c).Sunk i then .sunk else .hit)
  else .miss

theorem verdict_again {c : C} (h : c ∈ B.shots) : B.verdict c = .again := if_pos h

theorem verdict_miss {c : C} (fresh : c ∉ B.shots) (h : ∀ i, c ∉ B.ships i) :
    B.verdict c = .miss := by
  rw [verdict, if_neg fresh, if_neg (fun ⟨i, hi⟩ => h i hi)]

theorem verdict_of_mem {c : C} {i : ι} (fresh : c ∉ B.shots) (h : c ∈ B.ships i) :
    B.verdict c = if (B.fire c).Sunk i then .sunk else .hit := by
  have some_owner : ∃ j, c ∈ B.ships j := ⟨i, h⟩
  have owner : (∃ j, c ∈ B.ships j ∧ (B.fire c).Sunk j) ↔ (B.fire c).Sunk i := by
    constructor
    · rintro ⟨j, hj, sunk⟩
      rwa [B.owner_unique h hj]
    · exact fun sunk => ⟨i, h, sunk⟩
  rw [verdict, if_neg fresh, if_pos some_owner]
  simp only [owner]

theorem verdict_again_iff {c : C} : B.verdict c = .again ↔ c ∈ B.shots := by
  constructor
  · intro eq
    by_contra fresh
    rw [verdict, if_neg fresh] at eq
    split_ifs at eq
  · exact B.verdict_again

theorem verdict_hit_iff {c : C} : B.verdict c = .hit ↔
    c ∉ B.shots ∧ ∃ i, c ∈ B.ships i ∧ ¬(B.fire c).Sunk i := by
  by_cases shot : c ∈ B.shots
  · simp [B.verdict_again shot, shot]
  by_cases h : ∃ i, c ∈ B.ships i
  · obtain ⟨i, hi⟩ := h
    rw [B.verdict_of_mem shot hi]
    constructor
    · intro eq
      split_ifs at eq with sunk
      exact ⟨shot, i, hi, sunk⟩
    · rintro ⟨-, j, hj, afloat⟩
      cases B.owner_unique hi hj
      exact if_neg afloat
  · have none : ∀ i, c ∉ B.ships i := fun i hi => h ⟨i, hi⟩
    rw [B.verdict_miss shot none]
    simp [none]

/-- Puts a ship into an unused slot, on cells that carry no ship. -/
noncomputable def launch (i : ι) (S : Finset C) (clear : ∀ j, j ≠ i → Disjoint S (B.ships j)) :
    Battle ι C where
  ships := Function.update B.ships i S
  shots := B.shots
  disjoint := by
    intro j k hne
    by_cases hj : j = i
    · subst hj
      simpa [Function.update_of_ne hne.symm] using clear k hne.symm
    · by_cases hk : k = i
      · subst hk
        simpa [Function.update_of_ne hj] using (clear j hj).symm
      · simpa [Function.update_of_ne hj, Function.update_of_ne hk] using B.disjoint hne

omit [DecidableEq C] in
@[simp] theorem launch_shots {i : ι} {S : Finset C}
    (clear : ∀ j, j ≠ i → Disjoint S (B.ships j)) : (B.launch i S clear).shots = B.shots := rfl

omit [DecidableEq C] in
@[simp] theorem launch_self {i : ι} {S : Finset C}
    (clear : ∀ j, j ≠ i → Disjoint S (B.ships j)) : (B.launch i S clear).ships i = S := by
  simp [launch]

omit [DecidableEq C] in
theorem launch_of_ne {i j : ι} {S : Finset C}
    (clear : ∀ j, j ≠ i → Disjoint S (B.ships j)) (h : j ≠ i) :
    (B.launch i S clear).ships j = B.ships j := by
  simp [launch, Function.update_of_ne h]

theorem launch_mark {i : ι} {S : Finset C} (clear : ∀ j, j ≠ i → Disjoint S (B.ships j))
    (unused : B.ships i = ∅) (fresh : Disjoint S B.shots) (x : C) :
    (B.launch i S clear).mark x = if x ∈ S then .ship else B.mark x := by
  by_cases hx : x ∈ S
  · rw [if_pos hx]
    apply (mark_eq_ship _).mpr
    exact ⟨⟨i, by simpa using hx⟩, Finset.disjoint_left.mp fresh hx⟩
  · rw [if_neg hx]
    by_cases old : ∃ j, x ∈ B.ships j
    · obtain ⟨j, hj⟩ := old
      have hne : j ≠ i := by
        rintro rfl
        simp [unused] at hj
      have same := B.launch_of_ne clear hne
      have hj' : x ∈ (B.launch i S clear).ships j := by rwa [same]
      have sunk : (B.launch i S clear).Sunk j ↔ B.Sunk j := by
        simp only [Sunk, same, launch_shots]
      rw [B.mark_of_mem hj, (B.launch i S clear).mark_of_mem hj', launch_shots]
      simp only [sunk]
    · have none : ∀ j, x ∉ B.ships j := fun j hj => old ⟨j, hj⟩
      have none' : ∀ j, x ∉ (B.launch i S clear).ships j := by
        intro j
        by_cases hj : j = i
        · subst hj
          simpa using hx
        · rw [B.launch_of_ne clear hj]
          exact none j
      rw [B.mark_of_not_mem none, (B.launch i S clear).mark_of_not_mem none', launch_shots]

theorem launch_hits_self {i : ι} {S : Finset C} (clear : ∀ j, j ≠ i → Disjoint S (B.ships j))
    (fresh : Disjoint S B.shots) : (B.launch i S clear).hits i = 0 := by
  simp [hits, Finset.disjoint_iff_inter_eq_empty.mp fresh]

theorem launch_hits_of_ne {i j : ι} {S : Finset C}
    (clear : ∀ j, j ≠ i → Disjoint S (B.ships j)) (h : j ≠ i) :
    (B.launch i S clear).hits j = B.hits j := by
  simp only [hits, B.launch_of_ne clear h, launch_shots]

/-- The hits on a ship that is still afloat. -/
noncomputable def unsunkHits (i : ι) : Nat := if B.Sunk i then 0 else B.hits i

/-- A ship afloat has a cell that was not shot at. -/
theorem unsunkHits_le (i : ι) : B.unsunkHits i ≤ (B.ships i).card - 1 := by
  unfold unsunkHits
  split
  · exact Nat.zero_le _
  · rename_i afloat
    have le : B.hits i ≤ (B.ships i).card := B.hits_le i
    have ne : B.hits i ≠ (B.ships i).card := fun eq => afloat ((B.hits_eq_card_iff i).mp eq)
    omega

section Wounds
variable [Fintype ι]

/-- The cells marked hit: shots on ships that are still afloat. -/
noncomputable def wounds : Finset C :=
  Finset.univ.biUnion (fun i => if B.Sunk i then ∅ else B.ships i ∩ B.shots)

theorem mem_wounds {c : C} : c ∈ B.wounds ↔ B.mark c = .hit := by
  rw [B.mark_eq_hit, wounds, Finset.mem_biUnion]
  constructor
  · rintro ⟨i, -, hc⟩
    split_ifs at hc with sunk
    · exact absurd hc (Finset.notMem_empty c)
    · obtain ⟨hi, shot⟩ := Finset.mem_inter.mp hc
      exact ⟨shot, i, hi, sunk⟩
  · rintro ⟨shot, i, hi, afloat⟩
    refine ⟨i, Finset.mem_univ i, ?_⟩
    rw [if_neg afloat]
    exact Finset.mem_inter.mpr ⟨hi, shot⟩

theorem card_wounds : B.wounds.card = ∑ i, B.unsunkHits i := by
  rw [wounds, Finset.card_biUnion]
  · refine Finset.sum_congr rfl fun i _ => ?_
    unfold unsunkHits hits
    split <;> simp
  · intro i _ j _ different
    have apart : Disjoint (B.ships i) (B.ships j) := B.disjoint different
    simp only [Function.onFun]
    split_ifs
    · exact Finset.disjoint_empty_left _
    · exact Finset.disjoint_empty_left _
    · exact Finset.disjoint_empty_right _
    · exact apart.mono Finset.inter_subset_left Finset.inter_subset_left

theorem card_wounds_le : B.wounds.card ≤ ∑ i, ((B.ships i).card - 1) := by
  rw [B.card_wounds]
  exact Finset.sum_le_sum fun i _ => B.unsunkHits_le i

/-- With as many wounds as there can be, every ship lacks one cell. -/
theorem lacks_one_of_card_wounds (full : ∑ i, ((B.ships i).card - 1) ≤ B.wounds.card) (i : ι) :
    B.unsunkHits i = (B.ships i).card - 1 := by
  have eq := le_antisymm B.card_wounds_le full
  rw [B.card_wounds] at eq
  exact (Finset.sum_eq_sum_iff_of_le fun i _ => B.unsunkHits_le i).mp eq i (Finset.mem_univ i)

end Wounds

end Battle
end Salvo
