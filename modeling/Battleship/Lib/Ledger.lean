import Mathlib.Data.List.Perm.Basic
import Mathlib.Data.List.Nodup
import Mathlib.Tactic.Common

/-!
# What is put down and picked up

Two lists of keys: what has been put down, and what has been picked up. The
things that lie about are indexed, each under a key of its own, and the lists
account for them.
-/
namespace Ledger
variable {ι κ : Type}

/-- Nothing is put down or picked up twice, and only what was put down is picked
up. -/
structure Paired (placed picked : List κ) : Prop where
  puts : placed.Nodup
  takes : picked.Nodup
  known : ∀ c ∈ picked, c ∈ placed

theorem paired_nil : Paired ([] : List κ) [] := ⟨.nil, .nil, fun _ hc => hc⟩

/-- When nothing is left, everything was picked up once. -/
theorem Paired.perm {placed picked : List κ} (h : Paired placed picked)
    (all : ∀ c ∈ placed, c ∈ picked) : picked.Perm placed :=
  (List.perm_ext_iff_of_nodup h.takes h.puts).mpr fun c => ⟨h.known c, all c⟩

/-- The keys put down and not picked up are those of the things in `out`. -/
structure Tally (key : ι → κ) (out : ι → Prop) (placed picked : List κ) : Prop where
  paired : Paired placed picked
  distinct : ∀ i j, out i → out j → key i = key j → i = j
  lying : ∀ c, c ∈ placed ∧ c ∉ picked ↔ ∃ i, out i ∧ key i = c

section Tally
variable {key : ι → κ} {out : ι → Prop} {placed picked : List κ}

theorem Tally.mem (h : Tally key out placed picked) {i : ι} (hi : out i) :
    key i ∈ placed ∧ key i ∉ picked := (h.lying (key i)).mpr ⟨i, hi, rfl⟩

theorem tally_nil (none : ∀ i, ¬out i) : Tally key out ([] : List κ) [] := by
  refine ⟨paired_nil, fun i _ hi => absurd hi (none i), fun c => ⟨fun lies => ?_, fun lies => ?_⟩⟩
  · exact absurd lies.1 List.not_mem_nil
  · obtain ⟨i, hi, -⟩ := lies
    exact absurd hi (none i)

/-- Other keys and other words for what is out, as long as they agree on it. -/
theorem Tally.congr (h : Tally key out placed picked) {key' : ι → κ} {out' : ι → Prop}
    (same : ∀ i, out' i ↔ out i) (keys : ∀ i, out i → key' i = key i) :
    Tally key' out' placed picked := by
  refine ⟨h.paired, fun i j hi hj eq => ?_, fun c => ?_⟩
  · have hi := (same i).mp hi
    have hj := (same j).mp hj
    rw [keys i hi, keys j hj] at eq
    exact h.distinct i j hi hj eq
  · rw [h.lying]
    refine exists_congr fun i => ⟨fun lies => ?_, fun lies => ?_⟩
    · exact ⟨(same i).mpr lies.1, (keys i lies.1).trans lies.2⟩
    · have hi := (same i).mp lies.1
      exact ⟨hi, (keys i hi).symm.trans lies.2⟩

/-- A thing under a new key is put down. -/
theorem Tally.put (h : Tally key out placed picked) {i : ι} (new : key i ∉ placed) :
    Tally key (fun j => j = i ∨ out j) (placed ++ [key i]) picked := by
  have unknown : key i ∉ picked := fun member => new (h.paired.known _ member)
  have apart : ∀ j, out j → key j ≠ key i := fun j hj eq => new (eq ▸ (h.mem hj).1)
  refine ⟨⟨?_, h.paired.takes, fun c hc => List.mem_append_left _ (h.paired.known c hc)⟩,
    fun j j' hj hj' eq => ?_, fun c => ?_⟩
  · rw [List.nodup_append]
    refine ⟨h.paired.puts, List.nodup_singleton _, fun c hc c' hc' eq => ?_⟩
    rw [List.mem_singleton.mp hc'] at eq
    exact new (eq ▸ hc)
  · rcases hj with rfl | hj <;> rcases hj' with rfl | hj'
    · rfl
    · exact absurd eq.symm (apart _ hj')
    · exact absurd eq (apart _ hj)
    · exact h.distinct j j' hj hj' eq
  · rw [List.mem_append, List.mem_singleton, or_and_right, h.lying]
    constructor
    · rintro (⟨j, hj, eq⟩ | ⟨rfl, -⟩)
      · exact ⟨j, .inr hj, eq⟩
      · exact ⟨i, .inl rfl, rfl⟩
    · rintro ⟨j, rfl | hj, eq⟩
      · exact .inr ⟨eq.symm, eq ▸ unknown⟩
      · exact .inl ⟨j, hj, eq⟩

/-- A thing that lies about is picked up. -/
theorem Tally.take (h : Tally key out placed picked) {i : ι} (hi : out i) :
    Tally key (fun j => out j ∧ j ≠ i) placed (picked ++ [key i]) := by
  obtain ⟨member, fresh⟩ := h.mem hi
  refine ⟨⟨h.paired.puts, ?_, fun c hc => ?_⟩,
    fun j j' hj hj' eq => h.distinct j j' hj.1 hj'.1 eq, fun c => ?_⟩
  · rw [List.nodup_append]
    refine ⟨h.paired.takes, List.nodup_singleton _, fun c hc c' hc' eq => ?_⟩
    rw [List.mem_singleton.mp hc'] at eq
    exact fresh (eq ▸ hc)
  · rcases List.mem_append.mp hc with before | now
    · exact h.paired.known c before
    · rw [List.mem_singleton.mp now]
      exact member
  · rw [List.mem_append, List.mem_singleton, not_or, ← and_assoc, h.lying]
    constructor
    · rintro ⟨⟨j, hj, rfl⟩, other⟩
      exact ⟨j, ⟨hj, fun eq => other (congrArg key eq)⟩, rfl⟩
    · rintro ⟨j, ⟨hj, other⟩, rfl⟩
      exact ⟨⟨j, hj, rfl⟩, fun eq => other (h.distinct j i hj hi eq)⟩

/-- When nothing lies about, what was picked up is what was put down. -/
theorem Tally.perm (h : Tally key out placed picked) (none : ∀ i, ¬out i) :
    picked.Perm placed := by
  refine h.paired.perm fun c hc => ?_
  by_contra left
  obtain ⟨i, hi, -⟩ := (h.lying c).mp ⟨hc, left⟩
  exact none i hi

end Tally

end Ledger
