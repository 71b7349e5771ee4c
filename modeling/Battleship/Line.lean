import Battleship.Mirror

/-!
# The line the tracker follows

The tracker keeps no shape, only a list of hits, a direction and a flag. The
guesses make a line of the list: it grows at its far end, once behind its first
cell, and then the tracker is reset.
-/
namespace Battleship
open Cooperative Runs

/-- `i` steps from here. -/
def Coordinate.along (a : Coordinate) (d : Int × Int) (i : Int) : Coordinate :=
  ⟨a.row + i * d.1, a.col + i * d.2⟩

/-- The first `n` cells from here. -/
def Coordinate.line (a : Coordinate) (d : Int × Int) (n : Nat) : List Coordinate :=
  (List.range n).map (fun i : Nat => a.along d i)

/-- The ways a tracker can look: the first hit, a line from it, and that line
with the cell behind the first hit. -/
inductive AiState.Lined : AiState → Prop
  | hunt : Lined aiResetSmart
  | first (a : Coordinate) : Lined ⟨[a], dirNone, false⟩
  | ahead (a : Coordinate) {d : Int × Int} {dir : Int} (n : Nat) : dirStep dir = some d →
      Lined ⟨a.line d (n + 2), dir, false⟩
  | turned (a : Coordinate) {d : Int × Int} {dir : Int} (n : Nat) : dirStep dir = some d →
      Lined ⟨a.line d (n + 2) ++ [a.along d (-1)], dir, false⟩

/-- As many cells as one straight ship of this length has. -/
def Segment (hits : List Coordinate) : Prop :=
  ∃ row col horizontal, ∀ x, x ∈ hits ↔ ∃ i < hits.length, x = shipCell row col horizontal i

/-- The guess board shows every hit of the tracker. -/
def Marks (b : Board) (st : AiState) : Prop :=
  ∀ x ∈ st.hits, ∃ c : Cell, x = c.coord ∧ b.cells c.1 c.2 = .hit

/-- The hits are one line, and flag and direction go with them. -/
structure OneLine (b : Board) (st : AiState) : Prop where
  hunting : st.hunting = true ↔ st.hitCount = 0
  room : st.hitCount ≤ hitsSize
  nodup : st.hits.Nodup
  marked : Marks b st
  segment : Segment st.hits
  undirected : st.hitCount ≤ 1 → st.targetDir = dirNone
  directed : ∀ x y rest, st.hits = x :: y :: rest →
    dirStep st.targetDir = some (y.row - x.row, y.col - x.col)

/-- An opponent that has just been reset. -/
structure Reset (m : Mem) : Prop where
  guessBoard : ∀ c : Cell, m.aiGuessBoard.cells c.1 c.2 = .empty
  tracker : m.smartAiState = aiResetSmart

theorem along_zero (a : Coordinate) (d : Int × Int) : a.along d 0 = a := by simp [Coordinate.along]

theorem along_along (a : Coordinate) (d : Int × Int) (i j : Int) :
    (a.along d i).along d j = a.along d (i + j) := by
  simp only [Coordinate.along, Int.add_mul, Int.add_assoc]

theorem dirStep_cases {dir : Int} {d : Int × Int} (h : dirStep dir = some d) :
    dir = dirUp ∧ d = (-1, 0) ∨ dir = dirDown ∧ d = (1, 0) ∨
      dir = dirLeft ∧ d = (0, -1) ∨ dir = dirRight ∧ d = (0, 1) := by
  unfold dirStep at h
  split at h
  · exact .inl ⟨‹_›, (Option.some.inj h).symm⟩
  · split at h
    · exact .inr (.inl ⟨‹_›, (Option.some.inj h).symm⟩)
    · split at h
      · exact .inr (.inr (.inl ⟨‹_›, (Option.some.inj h).symm⟩))
      · split at h
        · exact .inr (.inr (.inr ⟨‹_›, (Option.some.inj h).symm⟩))
        · cases h

theorem dirStep_reverse {dir : Int} {d : Int × Int} (h : dirStep dir = some d) :
    dirStep (reverseDir dir) = some (-d.1, -d.2) := by
  rcases dirStep_cases h with ⟨rfl, rfl⟩ | ⟨rfl, rfl⟩ | ⟨rfl, rfl⟩ | ⟨rfl, rfl⟩ <;> rfl

theorem dirStep_ne_none {dir : Int} {d : Int × Int} (h : dirStep dir = some d) : dir ≠ dirNone := by
  rintro rfl
  cases h

theorem along_injective {dir : Int} {d : Int × Int} (h : dirStep dir = some d) (a : Coordinate) :
    Function.Injective (a.along d) := by
  intro i j eq
  simp only [Coordinate.along, Coordinate.mk.injEq] at eq
  rcases dirStep_cases h with ⟨-, rfl⟩ | ⟨-, rfl⟩ | ⟨-, rfl⟩ | ⟨-, rfl⟩ <;> omega

theorem line_succ (a : Coordinate) (d : Int × Int) (n : Nat) :
    a.line d (n + 1) = a.line d n ++ [a.along d n] := by
  simp [Coordinate.line, List.range_succ]

theorem line_length (a : Coordinate) (d : Int × Int) (n : Nat) : (a.line d n).length = n := by
  simp [Coordinate.line]

theorem mem_line {a x : Coordinate} {d : Int × Int} {n : Nat} :
    x ∈ a.line d n ↔ ∃ i < n, x = a.along d i := by
  simp [Coordinate.line, eq_comm]

theorem line_head (a : Coordinate) (d : Int × Int) (n : Nat) : (a.line d (n + 1)).head? = some a := by
  simp [Coordinate.line, List.range_succ_eq_map, along_zero]

theorem line_last (a : Coordinate) (d : Int × Int) (n : Nat) :
    (a.line d (n + 1)).getLast? = some (a.along d n) := by
  rw [line_succ, List.getLast?_concat]

theorem isValidGuess_iff {b : Board} {c : Coordinate} :
    isValidGuess b c.row c.col = true ↔ b.Open c := by
  constructor
  · exact fun valid => isValidGuess_open valid
  · rintro ⟨cell, rfl, empty⟩
    exact decide_eq_true ((b.read_coord cell).trans (congrArg some empty))

instance (b : Board) (c : Coordinate) : Decidable (b.Open c) :=
  decidable_of_iff (isValidGuess b c.row c.col = true) isValidGuess_iff

theorem lineCell_eq {b : Board} {dir : Int} {d : Int × Int} (h : dirStep dir = some d)
    (last base : Coordinate) : lineCell b dir last base =
      some (if b.Open (last.along d 1) then some (last.along d 1)
        else if b.Open (base.along d (-1)) then some (base.along d (-1)) else none) := by
  have ahead : last.along d 1 = ⟨last.row + d.1, last.col + d.2⟩ := by simp [Coordinate.along]
  have behind : base.along d (-1) = ⟨base.row + -d.1, base.col + -d.2⟩ := by
    simp [Coordinate.along]
  simp only [lineCell, h, dirStep_reverse h, Option.bind_eq_bind, Option.bind_some, ahead, behind,
    ← isValidGuess_iff]
  split
  · rfl
  · split <;> rfl

theorem probeCell_eq (b : Board) (last : Coordinate) : probeCell b last =
    if b.Open (last.along (-1, 0) 1) then some (last.along (-1, 0) 1)
    else if b.Open (last.along (1, 0) 1) then some (last.along (1, 0) 1)
    else if b.Open (last.along (0, -1) 1) then some (last.along (0, -1) 1)
    else if b.Open (last.along (0, 1) 1) then some (last.along (0, 1) 1)
    else none := by
  have here : ∀ d : Int × Int, (⟨last.row + d.1, last.col + d.2⟩ : Coordinate) = last.along d 1 := by
    intro d
    simp [Coordinate.along]
  have valid : ∀ d : Int × Int, isValidGuess b (last.row + d.1) (last.col + d.2) =
      decide (b.Open (last.along d 1)) := by
    intro d
    rw [Bool.eq_iff_iff, decide_eq_true_iff, ← here, ← isValidGuess_iff]
  simp only [probeCell, valid, here, List.findSome?_cons, List.findSome?_nil, decide_eq_true_eq]
  split_ifs <;> rfl

/-- Up is probed before down and left before right. -/
theorem probeCell_some {b : Board} {last c : Coordinate} (h : probeCell b last = some c) :
    ∃ dir d, dirStep dir = some d ∧ c = last.along d 1 ∧ b.Open c ∧
      (dir % 2 = 1 → ¬b.Open (last.along d (-1))) := by
  have behind : ∀ d : Int × Int, last.along d (-1) = last.along (-d.1, -d.2) 1 := by
    intro d
    simp [Coordinate.along]
  rw [probeCell_eq] at h
  split at h
  · rename_i up
    cases h
    exact ⟨dirUp, _, rfl, rfl, up, fun odd => absurd odd (by decide)⟩
  · rename_i up
    split at h
    · rename_i down
      cases h
      exact ⟨dirDown, _, rfl, rfl, down, fun _ => behind (1, 0) ▸ up⟩
    · split at h
      · rename_i left
        cases h
        exact ⟨dirLeft, _, rfl, rfl, left, fun odd => absurd odd (by decide)⟩
      · rename_i left
        split at h
        · rename_i right
          cases h
          exact ⟨dirRight, _, rfl, rfl, right, fun _ => behind (0, 1) ▸ left⟩
        · cases h

theorem probeCell_none {b : Board} {last : Coordinate} (h : probeCell b last = none) {dir : Int}
    {d : Int × Int} (step : dirStep dir = some d) : ¬b.Open (last.along d 1) := by
  rw [probeCell_eq] at h
  split_ifs at h with up down left right
  rcases dirStep_cases step with ⟨-, rfl⟩ | ⟨-, rfl⟩ | ⟨-, rfl⟩ | ⟨-, rfl⟩ <;> assumption

section Guess
variable (b : Board) (fuel calls : Nat) {st : AiState} (rng : Rng)

/-- A guess along the line: ahead of its last hit, else behind its first. -/
theorem aiGuessSmart_line (chasing : st.hunting = false) {last base : Coordinate}
    (ends : st.hits.getLast? = some last) (starts : st.hits.head? = some base) {d : Int × Int}
    (dir : dirStep st.targetDir = some d) : aiGuessSmart b fuel (calls + 1) st rng =
      if b.Open (last.along d 1) then .done (last.along d 1, st, rng)
      else if b.Open (base.along d (-1)) then .done (base.along d (-1), st, rng)
      else aiGuessSmart b fuel calls aiResetSmart rng := by
  rw [aiGuessSmart]
  simp only [chasing, ends, starts, if_pos (dirStep_ne_none dir), lineCell_eq dir,
    Outcome.ofOption_some, Outcome.bind_done]
  by_cases ahead : b.Open (last.along d 1)
  · rw [if_pos ahead, if_pos ahead]
  · rw [if_neg ahead, if_neg ahead]
    by_cases behind : b.Open (base.along d (-1))
    · rw [if_pos behind, if_pos behind]
    · rw [if_neg behind, if_neg behind]

/-- A guess around the only hit. -/
theorem aiGuessSmart_probe (a : Coordinate) :
    aiGuessSmart b fuel (calls + 1) ⟨[a], dirNone, false⟩ rng =
      (probeCell b a).elim (aiGuessSmart b fuel calls aiResetSmart rng)
        (fun c => .done (c, ⟨[a], dirNone, false⟩, rng)) := by
  rw [aiGuessSmart]
  cases found : probeCell b a <;> simp [found]

end Guess

/-- A tracker that hunts is given back as it is. -/
theorem aiGuessSmart_reset {b : Board} {fuel calls : Nat} {rng : Rng}
    {g : Coordinate × AiState × Rng} (done : aiGuessSmart b fuel calls aiResetSmart rng = .done g) :
    g.2.1 = aiResetSmart := by
  rcases aiGuessSmart_fresh b fuel calls rng with ⟨starved, -⟩ | ⟨c, st', rng', ended, -, kept⟩
  · rw [starved] at done
    cases done
  · rw [ended] at done
    cases done
    exact kept.elim id id

/-- The tracker after a hit at this cell. -/
def AiState.struck (st : AiState) (c : Coordinate) : AiState :=
  { st with
    hits := st.hits ++ [c]
    hunting := false
    targetDir := lineDir { st with hits := st.hits ++ [c], hunting := false } }

theorem aiUpdateSmart_hit (st : AiState) (row col : Int) :
    aiUpdateSmart none st row col .hit = some (st.struck ⟨row, col⟩) := rfl

/-- The direction is set at the second hit and stays. -/
theorem lineDir_second {a : Coordinate} {dir old : Int} {d : Int × Int} {flag : Bool}
    (h : dirStep dir = some d) : lineDir ⟨[a, a.along d 1], old, flag⟩ = dir := by
  rcases dirStep_cases h with ⟨rfl, rfl⟩ | ⟨rfl, rfl⟩ | ⟨rfl, rfl⟩ | ⟨rfl, rfl⟩ <;>
    simp [lineDir, Coordinate.along]

theorem lineDir_later {st : AiState} (h : 3 ≤ st.hits.length) : lineDir st = st.targetDir := by
  unfold lineDir
  split
  · rename_i eq
    simp [eq] at h
  · rfl

theorem struck_later {st : AiState} (h : 2 ≤ st.hits.length) (chasing : st.hunting = false)
    (c : Coordinate) : st.struck c = { st with hits := st.hits ++ [c] } := by
  have long : 3 ≤ (st.hits ++ [c]).length := by
    rw [List.length_append, List.length_singleton]
    omega
  rw [AiState.struck, lineDir_later long, chasing]

theorem struck_second {a : Coordinate} {dir : Int} {d : Int × Int} (h : dirStep dir = some d) :
    AiState.struck ⟨[a], dirNone, false⟩ (a.along d 1) = ⟨a.line d 2, dir, false⟩ := by
  simp [AiState.struck, lineDir_second h, Coordinate.line, List.range_succ, along_zero]

/-- One step apart. -/
def Coordinate.Adjacent (a c : Coordinate) : Prop :=
  ∃ dir d, dirStep dir = some d ∧ c = a.along d 1

theorem adjacent_iff {a c : Coordinate} : a.Adjacent c ↔
    c ∈ [a.along (-1, 0) 1, a.along (1, 0) 1, a.along (0, -1) 1, a.along (0, 1) 1] := by
  constructor
  · rintro ⟨dir, d, step, rfl⟩
    rcases dirStep_cases step with ⟨-, rfl⟩ | ⟨-, rfl⟩ | ⟨-, rfl⟩ | ⟨-, rfl⟩ <;> simp
  · intro near
    simp only [List.mem_cons, List.not_mem_nil, or_false] at near
    rcases near with rfl | rfl | rfl | rfl
    · exact ⟨dirUp, _, rfl, rfl⟩
    · exact ⟨dirDown, _, rfl, rfl⟩
    · exact ⟨dirLeft, _, rfl, rfl⟩
    · exact ⟨dirRight, _, rfl, rfl⟩

instance (a c : Coordinate) : Decidable (a.Adjacent c) := decidable_of_iff _ adjacent_iff.symm

theorem along_back (a : Coordinate) (u : Int × Int) (i j : Int) :
    (a.along u i).along (-u.1, -u.2) j = a.along u (i - j) := by
  simp only [Coordinate.along, Coordinate.mk.injEq, Int.mul_neg, Int.sub_mul]
  omega

theorem adjacent_symm {a c : Coordinate} (h : a.Adjacent c) : c.Adjacent a := by
  obtain ⟨dir, d, step, rfl⟩ := h
  refine ⟨_, _, dirStep_reverse step, ?_⟩
  rw [along_back]
  exact (along_zero a d).symm

section Lined
variable {b : Board} {st : AiState} (lined : st.Lined) (marked : ∀ x ∈ st.hits, ¬b.Open x)
  {fuel : Nat} {rng : Rng} {g : Coordinate × AiState × Rng}
  (done : aiGuessSmart b fuel 1 st rng = .done g)
include lined marked done

/-- A guess keeps the tracker and is next to one of its hits, or it hunts with a
fresh one; if it hits, the hits are lined again. -/
theorem lined_guess : (g.2.1 = aiResetSmart ∨ g.2.1 = st ∧ ∃ x ∈ st.hits, x.Adjacent g.1) ∧
    (g.2.1.struck g.1).Lined := by
  have fresh : ∀ {calls}, aiGuessSmart b fuel calls aiResetSmart rng = .done g →
      (g.2.1 = aiResetSmart ∨ g.2.1 = st ∧ ∃ x ∈ st.hits, x.Adjacent g.1) ∧
        (g.2.1.struck g.1).Lined := by
    intro calls hunted
    have reset := aiGuessSmart_reset hunted
    refine ⟨.inl reset, ?_⟩
    rw [reset]
    exact .first g.1
  cases lined with
  | hunt => exact fresh done
  | first a =>
      rw [aiGuessSmart_probe] at done
      cases found : probeCell b a with
      | none =>
          rw [found] at done
          exact fresh done
      | some c =>
          rw [found] at done
          cases done
          obtain ⟨dir, d, step, rfl, -, -⟩ := probeCell_some found
          refine ⟨.inr ⟨rfl, a, List.mem_cons_self, dir, d, step, rfl⟩, ?_⟩
          rw [struck_second step]
          exact .ahead a 0 step
  | @ahead a d dir n step =>
      have base : (a.line d (n + 2)).head? = some a := line_head a d (n + 1)
      have last : (a.line d (n + 2)).getLast? = some (a.along d (n + 1 : Nat)) := line_last a d (n + 1)
      have long : 2 ≤ (a.line d (n + 2)).length := by rw [line_length]; omega
      rw [aiGuessSmart_line b fuel 0 rng rfl last base step, along_along] at done
      split at done
      · cases done
        have grown : a.line d (n + 2) ++ [a.along d ((n + 1 : Nat) + 1)] = a.line d (n + 1 + 2) :=
          (line_succ a d (n + 2)).symm
        refine ⟨.inr ⟨rfl, _, List.mem_of_getLast? last, dir, d, step, (along_along ..).symm⟩, ?_⟩
        rw [struck_later long rfl, grown]
        exact .ahead a (n + 1) step
      · split at done
        · cases done
          refine ⟨.inr ⟨rfl, a, List.mem_of_head? base, _, _, dirStep_reverse step, ?_⟩, ?_⟩
          · simp [Coordinate.along]
          · rw [struck_later long rfl]
            exact .turned a n step
        · exact fresh done
  | @turned a d dir n step =>
      have base : (a.line d (n + 2) ++ [a.along d (-1)]).head? = some a := by
        rw [List.head?_append, line_head]
        rfl
      rw [aiGuessSmart_line b fuel 0 rng rfl List.getLast?_concat base step, along_along] at done
      rw [if_neg, if_neg] at done
      · exact fresh done
      · exact marked _ (by simp)
      · rw [Int.add_left_neg, along_zero]
        exact marked _ (List.mem_of_head? base)

end Lined

/-- A stretch of a line is a ship, read from one end or from the other. -/
theorem shipCell_along {dir : Int} {d : Int × Int} (h : dirStep dir = some d) (a : Coordinate)
    (low high : Int) : ∃ row col horizontal,
      (∀ i : Nat, shipCell row col horizontal i = a.along d (low + i)) ∨
      ∀ i : Nat, shipCell row col horizontal i = a.along d (high - i) := by
  rcases dirStep_cases h with ⟨-, rfl⟩ | ⟨-, rfl⟩ | ⟨-, rfl⟩ | ⟨-, rfl⟩
  · refine ⟨a.row - high, a.col, false, .inr fun i => ?_⟩
    simp only [shipCell, Coordinate.along, Coordinate.mk.injEq, Bool.false_eq_true, if_false]
    omega
  · refine ⟨a.row + low, a.col, false, .inl fun i => ?_⟩
    simp only [shipCell, Coordinate.along, Coordinate.mk.injEq, Bool.false_eq_true, if_false]
    omega
  · refine ⟨a.row, a.col - high, true, .inr fun i => ?_⟩
    simp only [shipCell, Coordinate.along, Coordinate.mk.injEq, if_true]
    omega
  · refine ⟨a.row, a.col + low, true, .inl fun i => ?_⟩
    simp only [shipCell, Coordinate.along, Coordinate.mk.injEq, if_true]
    omega

theorem segment_of_along {hits : List Coordinate} {dir : Int} {d : Int × Int}
    (h : dirStep dir = some d) (a : Coordinate) (low : Int)
    (cells : ∀ x, x ∈ hits ↔ ∃ i : Int, low ≤ i ∧ i < low + hits.length ∧ x = a.along d i) :
    Segment hits := by
  obtain ⟨row, col, horizontal, up | down⟩ := shipCell_along h a low (low + hits.length - 1)
  · refine ⟨row, col, horizontal, fun x => (cells x).trans ⟨?_, ?_⟩⟩
    · rintro ⟨i, above, below, rfl⟩
      exact ⟨(i - low).toNat, by omega, by rw [up]; congr 1; omega⟩
    · rintro ⟨i, below, rfl⟩
      exact ⟨low + i, by omega, by omega, up i⟩
  · refine ⟨row, col, horizontal, fun x => (cells x).trans ⟨?_, ?_⟩⟩
    · rintro ⟨i, above, below, rfl⟩
      exact ⟨(low + hits.length - 1 - i).toNat, by omega, by rw [down]; congr 1; omega⟩
    · rintro ⟨i, below, rfl⟩
      exact ⟨low + hits.length - 1 - i, by omega, by omega, down i⟩

/-- A line on the grid is no longer than the grid. -/
theorem Segment.length_le {hits : List Coordinate} (h : Segment hits)
    (inside : ∀ x ∈ hits, InGrid x) : hits.length ≤ hitsSize := by
  obtain ⟨row, col, horizontal, cells⟩ := h
  by_contra long
  simp only [hitsSize, not_le] at long
  obtain ⟨c, first⟩ := inside _ ((cells _).mpr ⟨0, by omega, rfl⟩)
  obtain ⟨c', last⟩ := inside _ ((cells _).mpr ⟨5, long, rfl⟩)
  have size : gridSize = 5 := rfl
  have row := c.1.isLt
  have col := c.2.isLt
  have row' := c'.1.isLt
  have col' := c'.2.isLt
  cases horizontal with
  | true =>
      simp only [shipCell, Cell.coord, if_true, Coordinate.mk.injEq] at first last
      omega
  | false =>
      simp only [shipCell, Cell.coord, Bool.false_eq_true, if_false, Coordinate.mk.injEq] at first last
      omega

theorem lined_segment {st : AiState} (lined : st.Lined) : Segment st.hits := by
  cases lined with
  | hunt => exact ⟨0, 0, true, fun x => by simp [aiResetSmart]⟩
  | first a => exact ⟨a.row, a.col, true, fun x => by simp [shipCell]⟩
  | @ahead a d dir n step =>
      refine segment_of_along step a 0 fun x => mem_line.trans ⟨?_, ?_⟩
      · rintro ⟨i, below, rfl⟩
        exact ⟨i, by omega, by rw [line_length]; omega, rfl⟩
      · rintro ⟨i, above, below, rfl⟩
        rw [line_length] at below
        exact ⟨i.toNat, by omega, by congr 1; omega⟩
  | @turned a d dir n step =>
      have length : (a.line d (n + 2) ++ [a.along d (-1)]).length = n + 3 := by
        rw [List.length_append, line_length, List.length_singleton]
      refine segment_of_along step a (-1) fun x => ?_
      rw [length, List.mem_append, List.mem_singleton, mem_line]
      constructor
      · rintro (⟨i, below, rfl⟩ | rfl)
        · exact ⟨i, by omega, by omega, rfl⟩
        · exact ⟨-1, le_rfl, by omega, rfl⟩
      · rintro ⟨i, above, below, rfl⟩
        rcases above.eq_or_lt with rfl | inner
        · exact .inr rfl
        · exact .inl ⟨i.toNat, by omega, by congr 1; omega⟩

theorem line_nodup {dir : Int} {d : Int × Int} (h : dirStep dir = some d) (a : Coordinate)
    (n : Nat) : (a.line d n).Nodup :=
  List.nodup_range.map fun _ _ eq => Int.ofNat.inj (along_injective h a eq)

theorem lined_nodup {st : AiState} (lined : st.Lined) : st.hits.Nodup := by
  cases lined with
  | hunt => exact List.nodup_nil
  | first a => exact List.nodup_singleton a
  | @ahead a d dir n step => exact line_nodup step a (n + 2)
  | @turned a d dir n step =>
      refine List.Nodup.append (line_nodup step a (n + 2)) (List.nodup_singleton _) ?_
      intro x hx new
      obtain ⟨i, -, rfl⟩ := mem_line.mp hx
      have same := along_injective step a (List.mem_singleton.mp new)
      omega

theorem lined_oneLine {b : Board} {st : AiState} (lined : st.Lined) (marked : Marks b st) :
    OneLine b st := by
  have room : st.hitCount ≤ hitsSize := (lined_segment lined).length_le fun x hx => by
    obtain ⟨c, rfl, -⟩ := marked x hx
    exact ⟨c, rfl⟩
  have second : ∀ (a : Coordinate) {d : Int × Int} {n : Nat} {ends rest : List Coordinate} {x y},
      a.line d (n + 2) ++ ends = x :: y :: rest → d = (y.row - x.row, y.col - x.col) := by
    intro a d n ends rest x y eq
    have first : a.line d (n + 2) = a :: a.along d 1 :: (a.line d (n + 2)).drop 2 := by
      simp [Coordinate.line, List.range_succ_eq_map, along_zero]
    rw [first] at eq
    cases eq
    simp [Coordinate.along]
  refine ⟨?_, room, lined_nodup lined, marked, lined_segment lined, ?_, ?_⟩
  · cases lined with
    | hunt => exact iff_of_true rfl rfl
    | first a => exact iff_of_false (by simp) (by simp [AiState.hitCount])
    | ahead a n => exact iff_of_false (by simp) (by simp [AiState.hitCount, line_length])
    | turned a n => exact iff_of_false (by simp) (by simp [AiState.hitCount])
  · intro few
    cases lined with
    | hunt => rfl
    | first a => rfl
    | ahead a n => simp [AiState.hitCount, line_length] at few
    | turned a n => simp [AiState.hitCount, line_length] at few
  · intro x y rest eq
    cases lined with
    | hunt => cases eq
    | first a => cases eq
    | ahead a n step => rw [step, second a ((List.append_nil _).trans eq)]
    | turned a n step => rw [step, second a eq]

theorem Marks.not_open {b : Board} {st : AiState} (h : Marks b st) : ∀ x ∈ st.hits, ¬b.Open x := by
  rintro x hx ⟨c, rfl, empty⟩
  obtain ⟨c', same, hit⟩ := h _ hx
  rw [Cell.coord_injective same, hit] at empty
  cases empty

/-- A mark at an open cell leaves the hits marked. -/
theorem Marks.set {b : Board} {st : AiState} (h : Marks b st) {c : Cell}
    (free : b.cells c.1 c.2 = .empty) (v : CellState) : Marks (b.set c.1 c.2 v) st := by
  intro x hx
  obtain ⟨c', rfl, hit⟩ := h x hx
  refine ⟨c', rfl, ?_⟩
  rw [Board.set_cells, if_neg, hit]
  rintro ⟨row, col⟩
  rw [row, col, free] at hit
  cases hit

theorem lined_aimed {st : AiState} (lined : st.Lined) : st.Aimed := by
  have listed : ∀ {dir d}, dirStep dir = some d → dir ∈ [dirNone, dirUp, dirDown, dirLeft, dirRight] := by
    intro dir d step
    rcases dirStep_cases step with ⟨rfl, -⟩ | ⟨rfl, -⟩ | ⟨rfl, -⟩ | ⟨rfl, -⟩ <;> decide
  cases lined with
  | hunt => exact aiResetSmart_aimed
  | first a => exact List.mem_cons_self
  | ahead a n step => exact listed step
  | turned a n step => exact listed step

theorem turnGuess_smart {fuel : Nat} {m : Mem} {t : Turn} (smart : t.difficulty = difficultySmart) :
    turnGuess fuel m t = aiGuessSmart m.aiGuessBoard fuel 1 m.smartAiState t.rng :=
  if_pos smart

theorem smart_open {b : Board} {fuel : Nat} {st : AiState} {rng : Rng}
    {g : Coordinate × AiState × Rng} (lined : st.Lined)
    (done : aiGuessSmart b fuel 1 st rng = .done g) : b.Open g.1 := by
  rcases aiGuessSmart_open (lined_aimed lined) b fuel 0 rng with
    ⟨starved, -⟩ | ⟨c, st', rng', done', free, -⟩
  · cases starved.symm.trans done
  · cases done'.symm.trans done
    exact free

/-- A turn leaves the tracker lined and its hits marked. -/
theorem turn_lined {fuel : Nat} {m m' : Mem} {t : Turn} (smart : t.difficulty = difficultySmart)
    (lined : m.smartAiState.Lined) (marks : Marks m.aiGuessBoard m.smartAiState)
    (step : turnStep fuel m t = some m') :
    m'.smartAiState.Lined ∧ Marks m'.aiGuessBoard m'.smartAiState := by
  obtain ⟨g, e, guess, -, -, tracked, recorded⟩ := turnStep_moves step
  rw [turnGuess_smart smart] at guess
  obtain ⟨kept, grown⟩ := lined_guess lined marks.not_open guess
  obtain ⟨c, at_c, free⟩ := smart_open lined guess
  have old : g.2.1.Lined ∧ Marks m.aiGuessBoard g.2.1 := by
    rcases kept with reset | ⟨same, -⟩
    · rw [reset]
      exact ⟨.hunt, fun x hx => absurd hx List.not_mem_nil⟩
    · rw [same]
      exact ⟨lined, marks⟩
  rw [at_c] at tracked recorded grown
  cases result : e.2.1 with
  | hit =>
      rw [result, aiUpdateSmart_hit] at tracked
      rw [result] at recorded
      rw [← Option.some.inj tracked,
        ← Option.some.inj ((Board.write_coord _ c .hit).symm.trans recorded)]
      refine ⟨grown, fun x hx => ?_⟩
      rcases List.mem_append.mp hx with before | new
      · exact old.2.set free .hit x before
      · exact ⟨c, List.mem_singleton.mp new, by simp⟩
  | sunk =>
      rw [result] at tracked
      rw [← Option.some.inj tracked]
      exact ⟨.hunt, fun x hx => absurd hx List.not_mem_nil⟩
  | miss =>
      rw [result] at tracked recorded
      rw [← Option.some.inj tracked,
        ← Option.some.inj ((Board.write_coord _ c .miss).symm.trans recorded)]
      exact ⟨old.1, old.2.set free .miss⟩
  | rejected =>
      rw [result] at tracked recorded
      rw [← Option.some.inj tracked, ← Option.some.inj recorded]
      exact old

/-- Turns at SMART from a reset opponent, whatever the fleet: the tracker holds
one line of marked hits. -/
theorem smart_one_line {fuel : Nat} {m : Mem}
    (h : Reaches (turnStep fuel) (fun _ t => t.difficulty = difficultySmart) Reset m) :
    OneLine m.aiGuessBoard m.smartAiState := by
  have kept : m.smartAiState.Lined ∧ Marks m.aiGuessBoard m.smartAiState := by
    refine h.invariant (I := fun m => m.smartAiState.Lined ∧ Marks m.aiGuessBoard m.smartAiState)
      (fun m start => ?_) fun m t m' before smart step => turn_lined smart before.1 before.2 step
    rw [start.tracker]
    exact ⟨.hunt, fun x hx => absurd hx List.not_mem_nil⟩
  exact lined_oneLine kept.1 kept.2

/-- A ship sunk, a miss, and then three hits down the last column. -/
theorem smart_one_line_column : ∃ m : Mem, OneLine m.aiGuessBoard m.smartAiState ∧
    m.smartAiState.hits = [⟨0, 4⟩, ⟨1, 4⟩, ⟨2, 4⟩] ∧ m.smartAiState.targetDir = dirDown := by
  let turns := List.replicate 7 { drawn 0 0 with difficulty := difficultySmart }
  have meets : Meets (turnStep 1) (fun _ t => t.difficulty = difficultySmart)
      (bootMem.setPlayer crossedPlayer) turns := by decide +kernel
  have run : (runList (turnStep 1) (bootMem.setPlayer crossedPlayer) turns).any
      (fun m => m.smartAiState.hits = [⟨0, 4⟩, ⟨1, 4⟩, ⟨2, 4⟩] ∧
        m.smartAiState.targetDir = dirDown) = true := by decide +kernel
  have reset : Reset (bootMem.setPlayer crossedPlayer) := ⟨fun _ => rfl, rfl⟩
  obtain ⟨m, reached, shown⟩ := exists_reaches_of_meets reset meets run
  exact ⟨m, smart_one_line reached, of_decide_eq_true shown⟩

end Battleship
