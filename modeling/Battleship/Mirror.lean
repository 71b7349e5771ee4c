import Battleship.Match
import Battleship.Rule

/-!
# The opponent's copy of the player's board

`apply_guess` writes one board and `engine_update_smart_ai` the other. The two
stay the same board, seen with and without the ships, until a ship sinks: the
copy shows its last cell as a hit, and its other cells as the hits they were.
-/
namespace Battleship
open Cooperative Runs Salvo

/-- What a cell looks like while its ship is hidden. -/
def CellState.veiled : CellState → CellState
  | .empty => .empty
  | .ship => .empty
  | .hit => .hit
  | .miss => .miss
  | .sunk => .sunk

/-- One board is the other with the unhit ships hidden. -/
def Board.Copies (b b' : Board) : Prop :=
  ∀ c : Cell, b.cells c.1 c.2 = (b'.cells c.1 c.2).veiled

def Mirrors (m : Mem) : Prop := m.aiGuessBoard.Copies m.game.player.board

/-- A fleet no one has shot at, and an opponent that has just been reset. -/
structure Opening (m : Mem) : Prop where
  fleet : m.game.player.Fresh
  guessBoard : ∀ c : Cell, m.aiGuessBoard.cells c.1 c.2 = .empty
  tracker : m.smartAiState = aiResetSmart

/-- The guess of this turn is not at the last unhit cell of a ship. -/
def Spares (fuel : Nat) (m : Mem) (t : Turn) : Prop :=
  ∀ g (c : Cell) (b : Fin maxShips), turnGuess fuel m t = .done g → g.1 = c.coord →
    b.val < m.game.player.boatCount → c ∈ (m.game.player.boats b).cells →
    m.game.player.board.cells c.1 c.2 = .ship → ¬m.game.player.LastCell b c

theorem opening_mirrors {m : Mem} (h : Opening m) : Mirrors m := by
  intro c
  rw [h.guessBoard c]
  by_cases owned : ∃ b : Fin maxShips, b.val < m.game.player.boatCount ∧
      c ∈ (m.game.player.boats b).cells
  · rw [h.fleet.ship c owned]
    rfl
  · rw [h.fleet.water c owned]
    rfl

/-- Both boards take the same mark at the same cell. -/
theorem Board.Copies.set {b b' : Board} (h : b.Copies b') (c : Cell) {v : CellState}
    (shown : v.veiled = v) : (b.set c.1 c.2 v).Copies (b'.set c.1 c.2 v) := by
  intro x
  simp only [Board.set_cells]
  split
  · exact shown.symm
  · exact h x

/-- A shot by the rule, recorded on the copy, leaves it a copy unless a ship sank. -/
theorem Rule.copies_iff {p p' : Player} {b b' : Board} {c : Cell} {result : GuessResult}
    (rule : Rule p c result p')
    (recorded : recordGuess b c.coord.row c.coord.col result = some b')
    (before : b.Copies p.board) : b'.Copies p'.board ↔ result ≠ .sunk := by
  cases rule with
  | miss empty =>
      obtain rfl := Option.some.inj ((b.write_coord c .miss).symm.trans recorded)
      exact iff_of_true (before.set c rfl) (by simp)
  | hit ship used inside more =>
      obtain rfl := Option.some.inj ((b.write_coord c .hit).symm.trans recorded)
      exact iff_of_true (before.set c rfl) (by simp)
  | sunk ship used inside last =>
      obtain rfl := Option.some.inj ((b.write_coord c .hit).symm.trans recorded)
      refine iff_of_false (fun copies => ?_) (by simp)
      have at_c := copies c
      simp [Board.sink_cells, inside, CellState.veiled] at at_c
  | again other =>
      obtain rfl := Option.some.inj recorded
      exact iff_of_true before (by simp)

section Step
variable {fuel : Nat} {m m' : Mem} {t : Turn} {B : Battle (Fin maxShips) Cell}
  (fleet : m.game.player.Represents B) (step : turnStep fuel m t = some m')
include fleet step

/-- A turn is a shot by the rule, and the copy records its answer. -/
theorem turn_rule : ∃ g c result, turnGuess fuel m t = .done g ∧ g.1 = c.coord ∧
    Rule m.game.player c result m'.game.player ∧
    recordGuess m.aiGuessBoard c.coord.row c.coord.col result = some m'.aiGuessBoard ∧
    m'.game.player.Represents (B.fire c) := by
  obtain ⟨g, c, e, turn⟩ := turn_fires fleet step
  refine ⟨g, c, e.2.1, turn.guess, turn.aimed, ?_, turn.board, ?_⟩
  · rw [turn.player]
    exact guessCell_rule fleet turn.struck
  · rw [turn.player]
    exact turn.fires.represents

/-- A turn leaves the copy right exactly when it sinks nothing. -/
theorem turn_mirrors_iff (mirrors : Mirrors m) : Mirrors m' ↔ Spares fuel m t := by
  obtain ⟨g, c, result, guess, at_c, rule, recorded, -⟩ := turn_rule fleet step
  have mirrored : Mirrors m' ↔ result ≠ .sunk := rule.copies_iff recorded mirrors
  rw [mirrored, Ne, rule.sunk_iff fleet]
  constructor
  · intro none g' c' b guess' at_c' used inside ship last
    cases guess.symm.trans guess'
    cases Cell.coord_injective (at_c.symm.trans at_c')
    exact none ⟨b, used, inside, ship, last⟩
  · rintro spares ⟨b, used, inside, ship, last⟩
    exact spares g c b guess at_c used inside ship last

end Step

/-- Any number of turns that sink nothing, at any difficulty and with any bound on
the tracker: the guess board is the player's board with the unhit ships hidden,
and the first turn that sinks a ship ends that. -/
theorem guess_board_mirrors {lim : Limits} {m : Mem}
    (h : Reaches (boundedStep lim) (Spares lim.fuel) Opening m) :
    Mirrors m ∧ ∀ t m', boundedStep lim m t = some m' → (Mirrors m' ↔ Spares lim.fuel m t) := by
  obtain ⟨mirrors, B, fleet⟩ : Mirrors m ∧ ∃ B, m.game.player.Represents B := by
    refine h.invariant (I := fun m => Mirrors m ∧ ∃ B, m.game.player.Represents B)
      (fun m start => ?_) fun m t m' before spares step => ?_
    · obtain ⟨B, represents, -⟩ := start.fleet.represents
      exact ⟨opening_mirrors start, B, represents⟩
    · obtain ⟨mirrors, B, fleet⟩ := before
      have free := boundedStep_unbounded step
      obtain ⟨g, c, result, -, -, -, -, shot⟩ := turn_rule fleet free
      exact ⟨(turn_mirrors_iff fleet free mirrors).mpr spares, _, shot⟩
  exact ⟨mirrors, fun t m' step => turn_mirrors_iff fleet (boundedStep_unbounded step) mirrors⟩

theorem rowsMem_opening : Opening rowsMem := ⟨rowsPlayer_fresh false, fun _ => rfl, rfl⟩

instance (p : Player) (b : Fin maxShips) (c : Cell) : Decidable (p.LastCell b c) :=
  inferInstanceAs (Decidable (∀ x ∈ (p.boats b).cells, p.board.cells x.1 x.2 = .ship → x = c))

/-- The guess found is at the last unhit cell of no ship. -/
def sparesAll (p : Player) : Outcome (Coordinate × AiState × Rng) → Bool
  | .done g => ∀ (c : Cell) (b : Fin maxShips), g.1 = c.coord → c ∈ (p.boats b).cells →
      p.board.cells c.1 c.2 = .ship → ¬p.LastCell b c
  | _ => true

theorem spares_of_all {fuel : Nat} {m : Mem} {t : Turn}
    (h : sparesAll m.game.player (turnGuess fuel m t) = true) : Spares fuel m t := by
  intro g c b guess at_c _ inside ship
  rw [guess] at h
  exact of_decide_eq_true h c b at_c inside ship

/-- A miss and a hit at random, a hit at SMART, a hit and a miss at HARD. -/
theorem guess_board_mirrors_rows : ∃ m : Mem, Mirrors m ∧ m.smartAiState.hitCount = 3 ∧
    m.aiGuessBoard.cells 2 1 = .hit ∧ m.aiGuessBoard.cells 2 2 = .miss := by
  let turns : List Turn := [drawn 0 4, drawn 4 1, { drawn 0 0 with difficulty := difficultySmart },
    { drawn 0 0 with difficulty := difficultyHard }, { drawn 0 0 with difficulty := difficultyHard }]
  have meets : Meets (boundedStep ⟨1, some hitsSize⟩)
      (fun m t => sparesAll m.game.player (turnGuess 1 m t) = true) rowsMem turns := by
    decide +kernel
  have run : (runList (boundedStep ⟨1, some hitsSize⟩) rowsMem turns).any
      (fun m => m.smartAiState.hitCount = 3 ∧ m.aiGuessBoard.cells 2 1 = .hit ∧
        m.aiGuessBoard.cells 2 2 = .miss) = true := by decide +kernel
  obtain ⟨m, reached, shown⟩ := exists_reaches_of_meets rowsMem_opening meets run
  exact ⟨m, (guess_board_mirrors (reached.imp fun _ _ => spares_of_all)).1,
    of_decide_eq_true shown⟩

/-- The ship of one cell goes down, and the guess board shows a hit. -/
theorem sunk_cell_shown_hit : ∃ m,
    Reaches (boundedStep ⟨1, some hitsSize⟩) (fun _ _ => True) Opening m ∧
    m.game.player.board.cells 1 0 = .sunk ∧ ¬Mirrors m := by
  have run : (runList (boundedStep ⟨1, some hitsSize⟩) rowsMem [drawn 1 0]).any
      (fun m => m.game.player.board.cells 1 0 = .sunk ∧ m.aiGuessBoard.cells 1 0 = .hit) = true := by
    decide +kernel
  obtain ⟨m, reached, shown⟩ := exists_reaches rowsMem_opening run
  obtain ⟨sunk, hit⟩ := of_decide_eq_true shown
  refine ⟨m, reached, sunk, fun mirrors => ?_⟩
  have at_c := mirrors (1, 0)
  simp [sunk, hit, CellState.veiled] at at_c

end Battleship
