import Battleship.HeatMap

/-!
# Where the opponent shoots

Whatever the difficulty, a guess is an empty cell of the guess board, as long as
there is one and the board shows no ship. The tracker it leaves is the one it
found or a fresh one.
-/
namespace Battleship
open Cooperative

/-- The direction is one the tables of the tracker have, or none. -/
def AiState.Aimed (st : AiState) : Prop :=
  st.targetDir ∈ [dirNone, dirUp, dirDown, dirLeft, dirRight]

theorem aiResetSmart_aimed : aiResetSmart.Aimed := List.mem_cons_self

theorem lineDir_aimed {st : AiState} (h : st.Aimed) : { st with targetDir := lineDir st }.Aimed := by
  unfold AiState.Aimed lineDir
  simp only
  split
  · split_ifs <;> first | exact h | simp
  · exact h

/-- These are coordinates of an empty cell. -/
def Board.Open (b : Board) (c : Coordinate) : Prop :=
  ∃ cell : Cell, c = cell.coord ∧ b.cells cell.1 cell.2 = .empty

theorem isValidGuess_open {b : Board} {r c : Int} (h : isValidGuess b r c = true) :
    b.Open ⟨r, c⟩ := by
  obtain ⟨cell, eq, empty⟩ := inGrid_of_read (c := ⟨r, c⟩) (of_decide_eq_true h)
  exact ⟨cell, eq.symm, empty⟩

theorem gridDraw (n : Nat) : ∃ i : Fin gridSize, ((n % gridSize : Nat) : Int) = i.val :=
  ⟨⟨n % gridSize, Nat.mod_lt _ (by decide)⟩, rfl⟩

theorem aiGuessRandom_open (b : Board) (fuel : Nat) (rng : Rng) :
    aiGuessRandom b fuel rng = .starved ∨
      ∃ c rng', aiGuessRandom b fuel rng = .done (c, rng') ∧ b.Open c := by
  induction fuel generalizing rng with
  | zero => exact .inl rfl
  | succ fuel ih =>
      obtain ⟨i, row⟩ := gridDraw (rng.peek 0).toNat
      obtain ⟨j, col⟩ := gridDraw (rng.peek 1).toNat
      simp only [aiGuessRandom, row, col, Board.read_val, Outcome.ofOption_some,
        Outcome.bind_done]
      by_cases empty : b.cells i j = .empty
      · rw [if_neg (not_not.mpr empty)]
        exact .inr ⟨_, _, rfl, (i, j), rfl, empty⟩
      · rw [if_pos empty]
        exact ih (rng.skip 2)

theorem huntCell_open {b : Board} {c : Coordinate} (h : huntCell b = some c) : b.Open c := by
  obtain ⟨cell, found, rfl⟩ := Option.map_eq_some_iff.mp h
  have test := List.find?_some found
  simp only [decide_eq_true_eq] at test
  exact ⟨cell, rfl, test.2⟩

theorem probeCell_open {b : Board} {last c : Coordinate} (h : probeCell b last = some c) :
    b.Open c := by
  obtain ⟨d, -, test⟩ := List.exists_of_findSome?_eq_some h
  split at test
  · rename_i valid
    cases test
    exact isValidGuess_open valid
  · cases test

theorem dirStep_some {dir : Int} (h : dir ∈ [dirUp, dirDown, dirLeft, dirRight]) :
    ∃ d, dirStep dir = some d := by
  simp only [List.mem_cons, List.not_mem_nil, or_false] at h
  rcases h with rfl | rfl | rfl | rfl <;> exact ⟨_, rfl⟩

theorem reverseDir_mem {dir : Int} (h : dir ∈ [dirUp, dirDown, dirLeft, dirRight]) :
    reverseDir dir ∈ [dirUp, dirDown, dirLeft, dirRight] := by
  simp only [List.mem_cons, List.not_mem_nil, or_false] at h
  rcases h with rfl | rfl | rfl | rfl <;> decide

theorem lineCell_open {b : Board} {dir : Int} (h : dir ∈ [dirUp, dirDown, dirLeft, dirRight])
    (last base : Coordinate) :
    ∃ target, lineCell b dir last base = some target ∧ ∀ c, target = some c → b.Open c := by
  obtain ⟨ahead, front⟩ := dirStep_some h
  obtain ⟨behind, back⟩ := dirStep_some (reverseDir_mem h)
  simp only [lineCell, front, back, Option.bind_eq_bind, Option.bind_some]
  split
  · rename_i valid
    refine ⟨_, rfl, ?_⟩
    rintro c ⟨⟩
    exact isValidGuess_open valid
  · split
    · rename_i valid
      refine ⟨_, rfl, ?_⟩
      rintro c ⟨⟩
      exact isValidGuess_open valid
    · exact ⟨none, rfl, nofun⟩

/-- How a guess can turn out: the random search does not return, or the cell is
empty and the tracker is kept or reset. -/
def GuessesOpen (b : Board) (fuel : Nat) (st : AiState) (rng : Rng)
    (o : Outcome (Coordinate × AiState × Rng)) : Prop :=
  o = .starved ∧ aiGuessRandom b fuel rng = .starved ∨
    ∃ c st' rng', o = .done (c, st', rng') ∧ b.Open c ∧ (st' = st ∨ st' = aiResetSmart)

theorem random_guessesOpen (b : Board) (fuel : Nat) (st : AiState) (rng : Rng) :
    GuessesOpen b fuel st rng
      ((aiGuessRandom b fuel rng).bind (fun r => .done (r.1, st, r.2))) := by
  rcases aiGuessRandom_open b fuel rng with starved | ⟨c, rng', found, empty⟩
  · exact .inl ⟨by rw [starved]; rfl, starved⟩
  · exact .inr ⟨c, st, rng', by rw [found]; rfl, empty, .inl rfl⟩

theorem hunt_guessesOpen (b : Board) (fuel : Nat) (st : AiState) (rng : Rng) :
    GuessesOpen b fuel st rng (match huntCell b with
      | some c => .done (c, st, rng)
      | none => (aiGuessRandom b fuel rng).bind (fun r => .done (r.1, st, r.2))) := by
  cases found : huntCell b with
  | some c => exact .inr ⟨c, st, rng, rfl, huntCell_open found, .inl rfl⟩
  | none => exact random_guessesOpen b fuel st rng

theorem aiGuessSmart_fresh (b : Board) (fuel calls : Nat) (rng : Rng) :
    GuessesOpen b fuel aiResetSmart rng (aiGuessSmart b fuel calls aiResetSmart rng) := by
  have hunts := hunt_guessesOpen b fuel aiResetSmart rng
  cases calls with
  | zero => exact hunts
  | succ calls => exact hunts

/-- One self-call is enough: it starts from a fresh tracker, which hunts. -/
theorem aiGuessSmart_open {st : AiState} (h : st.Aimed) (b : Board) (fuel calls : Nat) (rng : Rng) :
    GuessesOpen b fuel st rng (aiGuessSmart b fuel (calls + 1) st rng) := by
  rw [aiGuessSmart]
  split
  · rename_i last base hunting ends starts
    have target : ∃ target, (if st.targetDir ≠ dirNone then lineCell b st.targetDir last base
        else some (probeCell b last)) = some target ∧ ∀ c, target = some c → b.Open c := by
      split
      · rename_i aimed
        exact lineCell_open ((List.mem_cons.mp h).resolve_left aimed) last base
      · exact ⟨_, rfl, fun c => probeCell_open⟩
    obtain ⟨target, defined, empty⟩ := target
    simp only [defined, Outcome.ofOption_some, Outcome.bind_done]
    cases target with
    | some c => exact .inr ⟨c, st, rng, rfl, empty c rfl, .inl rfl⟩
    | none =>
        rcases aiGuessSmart_fresh b fuel calls rng with starved | ⟨c, st', rng', done, free, kept⟩
        · exact .inl starved
        · exact .inr ⟨c, st', rng', done, free, .inr (kept.elim id id)⟩
  · exact hunt_guessesOpen b fuel st rng

/-- The best move so far is a cell the scan may take, with its heat. -/
def Candidate (b : Board) (best : Coordinate × Int) : Prop :=
  0 ≤ best.2 ∧ ∃ cell : Cell, best.1 = cell.coord ∧
    (b.cells cell.1 cell.2 = .empty ∨ b.cells cell.1 cell.2 = .ship)

/-- The scan of the board ends on a cell it may take, if there is one. -/
theorem scan_candidate (heat : Heatmap) {b : Board} {cell : Cell} (free : b.Free cell) :
    Candidate b (allCells.foldl (betterMove heat b) (⟨-1, -1⟩, -1)) := by
  rcases foldl_betterMove_eq heat b allCells with ⟨c, max, eq⟩ | ⟨none, -⟩
  · rw [eq]
    exact ⟨Int.natCast_nonneg _, c, rfl, max.passes⟩
  · exact absurd free (none cell (mem_allCells cell))

theorem selectBestMove_open (heat : Heatmap) {b : Board} {cell : Cell}
    (water : b.cells cell.1 cell.2 = .empty)
    (noShip : ∀ cell : Cell, b.cells cell.1 cell.2 ≠ .ship) : b.Open (selectBestMove heat b) := by
  obtain ⟨-, best, eq, free⟩ := scan_candidate heat (.inl water)
  exact ⟨best, eq, free.resolve_right (noShip best)⟩

/-- The opponent never shoots at a cell the guess board has marked. -/
theorem engineGetGuess_open {b : Board} {st : AiState} (h : st.Aimed) {cell : Cell}
    (water : b.cells cell.1 cell.2 = .empty)
    (noShip : ∀ cell : Cell, b.cells cell.1 cell.2 ≠ .ship) (fuel : Nat) (d : Difficulty)
    (rng : Rng) : GuessesOpen b fuel st rng (engineGetGuess fuel d b st rng) := by
  unfold engineGetGuess
  split
  · exact aiGuessSmart_open h b fuel 0 rng
  · split
    · obtain ⟨heat, defined, -⟩ := generateHeatmap_hard b
      rw [defined]
      exact .inr ⟨_, st, rng, rfl, selectBestMove_open heat water noShip, .inl rfl⟩
    · exact random_guessesOpen b fuel st rng

/-- Whatever the guess board shows: the random search and the tracker find an
empty cell, and the heat map names the best of its scan. -/
theorem engineGetGuess_cases {b : Board} {st : AiState} (h : st.Aimed) {fuel : Nat}
    {d : Difficulty} {rng : Rng} {g : Coordinate × AiState × Rng}
    (done : engineGetGuess fuel d b st rng = .done g) :
    b.Open g.1 ∧ (g.2.1 = st ∨ g.2.1 = aiResetSmart) ∨
      ∃ heat, g = (selectBestMove heat b, st, rng) := by
  have opens : ∀ {o}, GuessesOpen b fuel st rng o → o = .done g →
      b.Open g.1 ∧ (g.2.1 = st ∨ g.2.1 = aiResetSmart) := by
    rintro o (⟨starved, -⟩ | ⟨c, st', rng', ended, empty, kept⟩) eq
    · rw [starved] at eq
      cases eq
    · rw [ended] at eq
      cases eq
      exact ⟨empty, kept⟩
  unfold engineGetGuess at done
  split at done
  · exact .inl (opens (aiGuessSmart_open h b fuel 0 rng) done)
  · split at done
    · obtain ⟨heat, -, ended⟩ := Outcome.bind_eq_done done
      cases ended
      exact .inr ⟨heat, rfl⟩
    · exact .inl (opens (random_guessesOpen b fuel st rng) done)

/-- The tracker comes back as it was or fresh. -/
theorem engineGetGuess_tracker {b : Board} {st : AiState} (h : st.Aimed) {fuel : Nat}
    {d : Difficulty} {rng : Rng} {g : Coordinate × AiState × Rng}
    (done : engineGetGuess fuel d b st rng = .done g) : g.2.1 = st ∨ g.2.1 = aiResetSmart := by
  rcases engineGetGuess_cases h done with ⟨-, kept⟩ | ⟨heat, rfl⟩
  · exact kept
  · exact .inl rfl

/-- A guess inside the grid is an empty cell of the guess board, also when there
is none left to find. -/
theorem engineGetGuess_inside {b : Board} {st : AiState} (h : st.Aimed)
    (noShip : ∀ cell : Cell, b.cells cell.1 cell.2 ≠ .ship) {fuel : Nat} {d : Difficulty}
    {rng : Rng} {g : Coordinate × AiState × Rng} (done : engineGetGuess fuel d b st rng = .done g)
    (inside : InGrid g.1) : b.Open g.1 := by
  rcases engineGetGuess_cases h done with ⟨empty, -⟩ | ⟨heat, rfl⟩
  · exact empty
  · by_cases left : ∃ cell : Cell, b.cells cell.1 cell.2 = .empty
    · obtain ⟨cell, water⟩ := left
      exact selectBestMove_open heat water noShip
    · have off : selectBestMove heat b = ⟨-1, -1⟩ := selectBestMove_off.mpr fun cell free =>
        free.elim (fun water => left ⟨cell, water⟩) (noShip cell)
      obtain ⟨cell, at_cell⟩ := inside
      rw [off] at at_cell
      simp only [Cell.coord, Coordinate.mk.injEq] at at_cell
      omega

/-- The `k`-th pair `ai_guess_random` draws, as a cell. -/
def Rng.drawnCell (rng : Rng) (k : Nat) : Cell :=
  (⟨(rng.peek (2 * k)).toNat % gridSize, Nat.mod_lt _ (by decide)⟩,
    ⟨(rng.peek (2 * k + 1)).toNat % gridSize, Nat.mod_lt _ (by decide)⟩)

theorem drawnCell_skip (rng : Rng) (k : Nat) :
    (rng.skip 2).drawnCell k = rng.drawnCell (k + 1) := by
  have next : ∀ i, (rng.skip 2).peek i = rng.peek (2 + i) := fun i =>
    congrArg rng.stream (Nat.add_assoc rng.drawn 2 i)
  ext
  · simp only [Rng.drawnCell, next, show 2 + 2 * k = 2 * (k + 1) by omega]
  · simp only [Rng.drawnCell, next, show 2 + (2 * k + 1) = 2 * (k + 1) + 1 by omega]

/-- The search returns once it has drawn an empty cell. -/
theorem aiGuessRandom_returns {b : Board} {k : Nat} {rng : Rng}
    (drawn : b.cells (rng.drawnCell k).1 (rng.drawnCell k).2 = .empty) {fuel : Nat}
    (enough : k < fuel) : aiGuessRandom b fuel rng ≠ .starved := by
  induction fuel generalizing k rng with
  | zero => exact absurd enough (Nat.not_lt_zero k)
  | succ fuel ih =>
      have first : b.read (((rng.peek 0).toNat % gridSize : Nat) : Int)
          (((rng.peek 1).toNat % gridSize : Nat) : Int) =
          some (b.cells (rng.drawnCell 0).1 (rng.drawnCell 0).2) :=
        b.read_coord (rng.drawnCell 0)
      simp only [aiGuessRandom, first, Outcome.ofOption_some, Outcome.bind_done]
      split
      · rename_i marked
        cases k with
        | zero => exact absurd drawn marked
        | succ k =>
            rw [← drawnCell_skip] at drawn
            exact ih drawn (Nat.lt_of_succ_lt_succ enough)
      · simp

/-- A stream that draws an empty cell is enough for a guess at any difficulty:
an empty cell, with the tracker kept or reset. -/
theorem engineGetGuess_returns {b : Board} {st : AiState} (aimed : st.Aimed)
    (noShip : ∀ cell : Cell, b.cells cell.1 cell.2 ≠ .ship) {rng : Rng} {k : Nat}
    (drawn : b.cells (rng.drawnCell k).1 (rng.drawnCell k).2 = .empty) (d : Difficulty)
    {fuel : Nat} (enough : k < fuel) : ∃ c st' rng',
      engineGetGuess fuel d b st rng = .done (c, st', rng') ∧ b.Open c ∧
        (st' = st ∨ st' = aiResetSmart) := by
  rcases engineGetGuess_open aimed drawn noShip fuel d rng with ⟨-, starved⟩ | guess
  · exact absurd starved (aiGuessRandom_returns drawn enough)
  · exact guess

/-- The tracker holds the only hit twice, as a line that is blocked at both ends. -/
theorem engineGetGuess_returns_blocked : ∃ c st' rng',
    engineGetGuess 1 difficultySmart
      (((initBoard true).set 0 1 .hit).set 0 0 .miss |>.set 0 2 .miss)
      ⟨[⟨0, 1⟩, ⟨0, 1⟩], dirRight, false⟩ ⟨fun _ => 1, 0⟩ = .done (c, st', rng') ∧
      (((initBoard true).set 0 1 .hit).set 0 0 .miss |>.set 0 2 .miss).Open c ∧
      (st' = ⟨[⟨0, 1⟩, ⟨0, 1⟩], dirRight, false⟩ ∨ st' = aiResetSmart) :=
  engineGetGuess_returns (by simp [AiState.Aimed]) (by decide) (k := 0) (by decide)
    difficultySmart Nat.zero_lt_one

/-- The tracker and the guess board are updated apart. -/
theorem engineUpdate_parts {size : Option Nat} {st : AiState} {b : Board} {row col : Int}
    {result : GuessResult} {ai : AiState × Board}
    (h : engineUpdateSmartAi size st b row col result = some ai) :
    aiUpdateSmart size st row col result = some ai.1 ∧ recordGuess b row col result = some ai.2 := by
  obtain ⟨st', tracked, rest⟩ := Option.bind_eq_some_iff.mp h
  obtain ⟨b', recorded, eq⟩ := Option.bind_eq_some_iff.mp rest
  cases eq
  exact ⟨tracked, recorded⟩

theorem engineUpdate_aimed {size : Option Nat} {st : AiState} {b : Board} {row col : Int}
    {result : GuessResult} {ai : AiState × Board} (aimed : st.Aimed)
    (h : engineUpdateSmartAi size st b row col result = some ai) : ai.1.Aimed := by
  obtain ⟨st', b'⟩ := ai
  have tracked := (engineUpdate_parts h).1
  cases result with
  | hit =>
      simp only [aiUpdateSmart] at tracked
      split at tracked
      · cases tracked
        exact @lineDir_aimed { st with hits := _, hunting := _ } aimed
      · cases tracked
  | sunk =>
      cases tracked
      exact aiResetSmart_aimed
  | miss =>
      cases tracked
      exact aimed
  | rejected =>
      cases tracked
      exact aimed

end Battleship
