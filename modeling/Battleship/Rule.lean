import Battleship.Tracker
import Battleship.Turns

/-!
# The rule of the game

What `apply_guess` answers and changes on a player whose boats and grid agree,
cell by cell and boat by boat.
-/
namespace Battleship
open Cooperative Salvo

/-- Boats and grid agree, and every boat has a cell. -/
structure Player.Lawful (p : Player) : Prop extends p.Agrees where
  positive : ∀ b : Fin maxShips, b.val < p.boatCount → 1 ≤ (p.boats b).length

def Board.sink (b : Board) (cells : Finset Cell) : Board :=
  { b with cells := fun r c => if (r, c) ∈ cells then .sunk else b.cells r c }

theorem Board.sink_cells (b : Board) (cells : Finset Cell) (r k : Fin gridSize) :
    (b.sink cells).cells r k = if (r, k) ∈ cells then .sunk else b.cells r k := rfl

/-- No cell of the boat but this one is unhit. -/
def Player.LastCell (p : Player) (b : Fin maxShips) (c : Cell) : Prop :=
  ∀ x ∈ (p.boats b).cells, p.board.cells x.1 x.2 = .ship → x = c

/-- What a guess at a cell may answer, and the whole player after it. -/
inductive Rule (p : Player) (c : Cell) : GuessResult → Player → Prop
  | miss : p.board.cells c.1 c.2 = .empty → Rule p c .miss (p.mark c.1 c.2 .miss)
  | hit {b : Fin maxShips} : p.board.cells c.1 c.2 = .ship → b.val < p.boatCount →
      c ∈ (p.boats b).cells → ¬p.LastCell b c →
      Rule p c .hit ((p.mark c.1 c.2 .hit).countHit b)
  | sunk {b : Fin maxShips} : p.board.cells c.1 c.2 = .ship → b.val < p.boatCount →
      c ∈ (p.boats b).cells → p.LastCell b c →
      Rule p c .sunk { p.countHit b with board := p.board.sink (p.boats b).cells }
  | again : p.board.cells c.1 c.2 ∈ [.hit, .miss, .sunk] → Rule p c .rejected p

section Guess
variable {p : Player} {B : Battle (Fin maxShips) Cell} (h : p.Represents B) {c : Cell}
include h

theorem lastCell_iff {b : Fin maxShips} (hb : c ∈ B.ships b) :
    p.LastCell b c ↔ (B.fire c).Sunk b := by
  have unhit : ∀ x ∈ B.ships b, p.board.cells x.1 x.2 = .ship ↔ x ∉ B.shots := by
    intro x hx
    rw [h.ship_iff]
    exact and_iff_right ⟨b, hx⟩
  rw [Player.LastCell, ← h.ships_of_lt (h.used hb)]
  constructor
  · intro last x hx
    by_cases shot : x ∈ B.shots
    · exact Finset.mem_insert_of_mem shot
    · exact Finset.mem_insert.mpr (.inl (last x hx ((unhit x hx).mpr shot)))
  · intro sunk x hx ship
    exact (Finset.mem_insert.mp (sunk hx)).resolve_right ((unhit x hx).mp ship)

/-- Sinking a boat covers the hit that was marked first. -/
theorem sinkCells_mark {b : Fin maxShips} (hb : c ∈ B.ships b) {board : Board}
    (sinks : sinkCells (p.boats b).countHit (List.range (p.boats b).length.toNat)
      (p.mark c.1 c.2 .hit).board = some board) : board = p.board.sink (p.boats b).cells := by
  have sound := h.sound b (h.used hb)
  have counted : (p.boats b).countHit.Sound :=
    ⟨sound.nonneg, sound.length_le, sound.inGrid, sound.distinct⟩
  obtain ⟨board', sinks', isOpp, cells⟩ := sinkCells_sound counted (p.mark c.1 c.2 .hit).board
  cases sinks.symm.trans sinks'
  have inside : c ∈ (p.boats b).cells := h.ships_of_lt (h.used hb) ▸ hb
  have same : board.cells = (p.board.sink (p.boats b).cells).cells := by
    funext r k
    have at_x : board.cells r k = if (r, k) ∈ (p.boats b).cells then .sunk
        else (p.board.set c.1 c.2 .hit).cells r k := cells (r, k)
    rw [at_x, Board.sink_cells]
    by_cases hit : r = c.1 ∧ k = c.2
    · have here : (r, k) ∈ (p.boats b).cells := by
        rw [hit.1, hit.2]
        exact inside
      rw [if_pos here, if_pos here]
    · rw [Board.set_cells, if_neg hit]
  cases board
  cases same
  cases isOpp
  rfl

/-- A guess on the grid follows the rule. -/
theorem guessCell_rule {e : Player × GuessResult × Option Nat}
    (guess : guessCell p c.coord.row c.coord.col = some e) : Rule p c e.2.1 e.1 := by
  obtain ⟨i, j, row, col, cases⟩ := guessCell_cases guess
  obtain rfl : c = (i, j) := by
    apply Cell.coord_injective
    simp only [Cell.coord] at row col ⊢
    rw [row, col]
  obtain ⟨empty, rfl⟩ | ⟨ship, lost, -⟩ | ⟨b, ship, found, struck⟩ | ⟨other, more, rfl⟩ := cases
  · exact .miss empty
  · obtain ⟨⟨b, hb⟩, -⟩ := (h.ship_iff (c := (i, j))).mp ship
    have owner := findBoat_owner h hb (q := p.mark i j .hit) rfl
    cases lost.symm.trans owner
  · obtain ⟨⟨b', hb⟩, fresh⟩ := (h.ship_iff (c := (i, j))).mp ship
    have owner := findBoat_owner h hb (q := p.mark i j .hit) rfl
    cases found.symm.trans owner
    have used := h.used hb
    have inside : (i, j) ∈ (p.boats b').cells := h.ships_of_lt used ▸ hb
    have last := (lastCell_iff h hb).trans (struck_sunk_iff h hb fresh).symm
    obtain ⟨b, eq, ⟨more, rfl⟩ | ⟨full, board, sinks, rfl⟩⟩ := hitBoat_cases struck
    · cases Fin.ext eq
      exact .hit ship used inside (mt last.mp more)
    · cases Fin.ext eq
      have painted := sinkCells_mark h hb sinks
      rw [painted]
      exact .sunk ship used inside (last.mpr full)
  · refine .again ?_
    cases mark : p.board.cells i j <;> simp_all

omit c in
/-- The answer that a ship has sunk is the answer at its last cell. -/
theorem Rule.sunk_iff {c : Cell} {result : GuessResult} {p' : Player} (rule : Rule p c result p') :
    result = .sunk ↔ ∃ b : Fin maxShips, b.val < p.boatCount ∧ c ∈ (p.boats b).cells ∧
      p.board.cells c.1 c.2 = .ship ∧ p.LastCell b c := by
  cases rule with
  | miss empty => simp [empty]
  | @hit b ship used inside more =>
      refine iff_of_false (by simp) ?_
      rintro ⟨b', used', inside', -, last⟩
      rw [← h.ships_of_lt used] at inside
      rw [← h.ships_of_lt used'] at inside'
      exact more (B.owner_unique inside inside' ▸ last)
  | @sunk b ship used inside last => exact iff_of_true rfl ⟨b, used, inside, ship, last⟩
  | again other =>
      refine iff_of_false (by simp) ?_
      rintro ⟨b, -, -, ship, -⟩
      simp [ship] at other

end Guess

theorem Player.Agrees.lawful_of_sameFleet {p p' : Player} (h : p'.Agrees) (same : p.SameFleet p')
    (start : p.Lawful) : p'.Lawful := by
  refine ⟨h, fun b used => ?_⟩
  rw [same.length b]
  exact start.positive b (same.count ▸ used)

/-- `apply_guess` is the rule: on boats and a grid that agree it changes the
player it is aimed at as the rule says, and nothing else; they agree again, and
`all_ships_sunk` then tells whether a ship is left to see. -/
theorem applyGuess_rule (ans : ∀ c : Call, c.Ans) (target : Side) (c : Cell) {m : Mem}
    (h : (m.game.side target).Lawful) : ∃ result p,
      Prog.exec ans (applyGuess target c.coord.row c.coord.col) m =
        .done (result, m.setSide target p) ∧
      Rule (m.game.side target) c result p ∧ p.Lawful ∧
      ∃ gone, allShipsSunk p = some gone ∧ (gone = true ↔ p.board.NoShip) := by
  have represents := h.toAgrees.represents
  obtain ⟨e, guess, fires⟩ := guessCell_fire represents c
  refine ⟨e.2.1, e.1, ?_, guessCell_rule represents guess, ?_, allShipsSunk_iff fires.represents⟩
  · rw [exec_applyGuess, guess]
    rfl
  · exact (represents_agrees fires.represents).lawful_of_sameFleet fires.sameFleet h

theorem rowsPlayer_lawful (isOpp : Bool) : (rowsPlayer isOpp).Lawful := by
  refine ⟨(rowsPlayer_consistent isOpp).agrees, fun b _ => ?_⟩
  have inside : b.val < 4 := b.isLt
  change (1 : Int) ≤ 4 - b.val
  omega

/-- The first shot at a ship of four cells. -/
theorem applyGuess_rule_rows : ∃ result p,
    Prog.exec (answer none) (applyGuess .player 4 0) rowsMem =
      .done (result, rowsMem.setSide .player p) ∧
    Rule (rowsPlayer false) (4, 0) result p ∧ p.Lawful := by
  obtain ⟨result, p, exec, rule, lawful, -⟩ :=
    applyGuess_rule (answer none) .player (4, 0) (m := rowsMem) (rowsPlayer_lawful false)
  exact ⟨result, p, exec, rule, lawful⟩

end Battleship
