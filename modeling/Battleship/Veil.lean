import Battleship.Mirror

/-!
# The opponent's board as it is shown

With unhit ships shown as water, two fleets of the standard lengths cannot be
told apart: not by what a guess answers, and not by whether all ships are sunk.
-/
namespace Battleship
open Cooperative

/-- The board with unhit ships shown as water. -/
def Board.masked (b : Board) : Board := { b with cells := fun r c => (b.cells r c).veiled }

/-- Boats and grid that agree, of the lengths 4, 3, 2 and 1 in some order. -/
structure Player.Whole (p : Player) : Prop where
  agrees : p.Agrees
  count : p.boatCount = maxShips
  lengths : p.lengths.Perm shipLengths

/-- Two opponents that show the same board. -/
structure Rivals (p q : Player) : Prop where
  shown : p.board.masked = q.board.masked
  isOpp : p.board.isOpp = true
  whole : p = q ∨ p.Whole ∧ q.Whole

theorem cellColor_veiled (v : CellState) : cellColor false v.veiled = cellColor false v := by
  cases v <;> rfl

theorem cellChar_veiled (v : CellState) : cellChar false v.veiled = cellChar false v := by
  cases v <;> rfl

theorem renderBoardToMatrix_masked (leds : Leds) (b : Board) (matrixNum : Nat) :
    renderBoardToMatrix leds b.masked matrixNum false =
      renderBoardToMatrix leds b matrixNum false := by
  simp only [renderBoardToMatrix, Board.masked, cellColor_veiled]

theorem boardToJson_masked (b : Board) : boardToJson b.masked false = boardToJson b false := by
  simp only [boardToJson, Board.masked, cellChar_veiled]

namespace Rivals
variable {p q : Player} (h : Rivals p q)
include h

theorem render (leds : Leds) (matrixNum : Nat) :
    renderBoardToMatrix leds q.board matrixNum false =
      renderBoardToMatrix leds p.board matrixNum false := by
  rw [← renderBoardToMatrix_masked, ← h.shown, renderBoardToMatrix_masked]

theorem json : boardToJson q.board false = boardToJson p.board false := by
  rw [← boardToJson_masked, ← h.shown, boardToJson_masked]

theorem isOpp' : q.board.isOpp = true := by
  have same := congrArg Board.isOpp h.shown
  exact same.symm.trans h.isOpp

theorem veiled (c : Cell) : (p.board.cells c.1 c.2).veiled = (q.board.cells c.1 c.2).veiled :=
  congrArg (fun b : Board => b.cells c.1 c.2) h.shown

end Rivals

/-- The cells that show a hit ship. -/
def Board.struck (b : Board) : Finset Cell :=
  Finset.univ.filter (fun c => b.cells c.1 c.2 ∈ [.hit, .sunk])

/-- The cells with a part of a ship, hit or not. -/
def Board.hulls (b : Board) : Finset Cell :=
  Finset.univ.filter (fun c => b.cells c.1 c.2 ∈ [.ship, .hit, .sunk])

theorem struck_subset (b : Board) : b.struck ⊆ b.hulls := by
  intro c hc
  simp only [Board.struck, Board.hulls, Finset.mem_filter, Finset.mem_univ, true_and] at hc ⊢
  exact List.mem_cons_of_mem _ hc

/-- What is hit is shown. -/
theorem struck_masked (b : Board) : b.masked.struck = b.struck := by
  have hit : ∀ v : CellState, v.veiled ∈ [.hit, .sunk] ↔ v ∈ [.hit, .sunk] := by
    intro v
    cases v <;> decide
  ext c
  simp only [Board.struck, Finset.mem_filter, Finset.mem_univ, true_and]
  exact hit (b.cells c.1 c.2)

theorem noShip_iff (b : Board) : b.NoShip ↔ b.hulls ⊆ b.struck := by
  constructor
  · intro none c hc
    simp only [Board.struck, Board.hulls, Finset.mem_filter, Finset.mem_univ, true_and] at hc ⊢
    exact (List.mem_cons.mp hc).resolve_left (none c)
  · intro all c ship
    have hull : c ∈ b.hulls := by
      simp [Board.hulls, ship]
    have hit := all hull
    simp [Board.struck, ship] at hit

namespace Player.Whole
variable {p : Player} (h : p.Whole)
include h

theorem used (b : Fin maxShips) : b.val < p.boatCount := by
  rw [h.count]
  exact b.isLt

/-- The boats have ten cells between them. -/
theorem card_hulls : p.board.hulls.card = 10 := by
  have union : p.board.hulls = Finset.univ.biUnion (fun b => (p.boats b).cells) := by
    ext c
    simp only [Board.hulls, Finset.mem_filter, Finset.mem_univ, true_and, Finset.mem_biUnion]
    rw [h.agrees.owned c]
    exact ⟨fun ⟨b, _, hc⟩ => ⟨b, hc⟩, fun ⟨b, hc⟩ => ⟨b, h.used b, hc⟩⟩
  have each : ∀ b, (p.boats b).cells.card = (p.boats b).length.toNat := by
    intro b
    have card := (h.agrees.sound b (h.used b)).card_cells
    omega
  have sorted := (h.lengths.map Int.toNat).sum_eq
  rw [union, Finset.card_biUnion fun b _ b' _ => h.agrees.apart b b' (h.used b) (h.used b')]
  calc ∑ b, (p.boats b).cells.card
      = ∑ b : Fin maxShips, (p.boats b).length.toNat := Finset.sum_congr rfl fun b _ => each b
    _ = (p.lengths.map Int.toNat).sum := by
        rw [Player.lengths, List.map_map, Fin.sum_univ_def]
        rfl
    _ = 10 := sorted

theorem noShip_iff_card : p.board.NoShip ↔ p.board.struck.card = 10 := by
  rw [noShip_iff, ← h.card_hulls]
  constructor
  · exact fun all => congrArg Finset.card ((struck_subset p.board).antisymm all)
  · exact fun eq => (Finset.eq_of_subset_of_card_le (struck_subset p.board) eq.ge).ge

end Player.Whole

/-- Whether all ships are sunk can be seen. -/
theorem Rivals.allShipsSunk {p q : Player} (h : Rivals p q) :
    Battleship.allShipsSunk q = Battleship.allShipsSunk p := by
  rcases h.whole with rfl | ⟨whole, whole'⟩
  · rfl
  · obtain ⟨gone, eq, iff⟩ := allShipsSunk_iff whole.agrees.represents
    obtain ⟨gone', eq', iff'⟩ := allShipsSunk_iff whole'.agrees.represents
    have struck : p.board.struck = q.board.struck := by
      rw [← struck_masked, h.shown, struck_masked]
    have same : gone = true ↔ gone' = true := by
      rw [iff, iff', whole.noShip_iff_card, whole'.noShip_iff_card, struck]
    rw [eq, eq', Bool.eq_iff_iff.mpr same]

/-- What a guess answered, told from its cell as it was shown before and after. -/
def seenAnswer : CellState → CellState → GuessResult
  | .empty, .miss => .miss
  | .empty, .hit => .hit
  | .empty, .sunk => .sunk
  | _, _ => .rejected

theorem Rule.seen {p p' : Player} {c : Cell} {result : GuessResult} (h : Rule p c result p') :
    result = seenAnswer (p.board.cells c.1 c.2).veiled (p'.board.cells c.1 c.2).veiled := by
  cases h with
  | miss empty => simp [empty, Player.mark, CellState.veiled, seenAnswer]
  | hit ship => simp [ship, Player.countHit, Player.mark, CellState.veiled, seenAnswer]
  | sunk ship _ inside =>
      simp [ship, Board.sink_cells, inside, CellState.veiled, seenAnswer]
  | again marked =>
      simp only [List.mem_cons, List.not_mem_nil, or_false] at marked
      rcases marked with mark | mark | mark <;> rw [mark] <;> rfl

/-- A guess leaves a whole fleet whole. -/
theorem Player.Whole.guess {p : Player} (h : p.Whole) {row col : Int}
    {e : Player × GuessResult × Option Nat} (guess : guessCell p row col = some e) :
    e.1.Whole := by
  obtain ⟨i, j, rfl, rfl, -⟩ := guessCell_cases guess
  obtain ⟨e', guess', fires⟩ := guessCell_fire h.agrees.represents (i, j)
  cases guess.symm.trans guess'
  refine ⟨represents_agrees fires.represents, fires.sameFleet.count.trans h.count, ?_⟩
  have same : e.1.lengths = p.lengths :=
    congrArg List.ofFn (funext fires.sameFleet.length)
  exact same ▸ h.lengths

/-- A guess outside the grid is undefined behaviour for both, and for no others. -/
theorem Rivals.guess_defined {p q : Player} (h : Rivals p q) (row col : Int) :
    guessCell p row col = none ∧ guessCell q row col = none ∨
      ∃ e f, guessCell p row col = some e ∧ guessCell q row col = some f := by
  rcases h.whole with rfl | ⟨whole, whole'⟩
  · cases guess : guessCell p row col with
    | none => exact .inl ⟨rfl, rfl⟩
    | some e => exact .inr ⟨e, e, rfl, rfl⟩
  · by_cases inside : ∃ c : Cell, c.coord = ⟨row, col⟩
    · obtain ⟨c, eq⟩ := inside
      cases eq
      obtain ⟨e, guess, -⟩ := guessCell_fire whole.agrees.represents c
      obtain ⟨f, guess', -⟩ := guessCell_fire whole'.agrees.represents c
      exact .inr ⟨e, f, guess, guess'⟩
    · have outside : ∀ r : Player, guessCell r row col = none := by
        intro r
        cases guess : guessCell r row col with
        | none => rfl
        | some e =>
            obtain ⟨i, j, rfl, rfl, -⟩ := guessCell_cases guess
            exact absurd ⟨(i, j), rfl⟩ inside
      exact .inl ⟨outside p, outside q⟩

/-- Opponents that show the same board before and after a guess answered alike. -/
theorem Rivals.guess {p q : Player} (h : Rivals p q) {row col : Int}
    {e f : Player × GuessResult × Option Nat} (left : guessCell p row col = some e)
    (right : guessCell q row col = some f) (shown : e.1.board.masked = f.1.board.masked) :
    e.2.1 = f.2.1 := by
  rcases h.whole with rfl | ⟨whole, whole'⟩
  · cases left.symm.trans right
    rfl
  · obtain ⟨i, j, rfl, rfl, -⟩ := guessCell_cases left
    have rule := guessCell_rule whole.agrees.represents (c := (i, j)) left
    have rule' := guessCell_rule whole'.agrees.represents (c := (i, j)) right
    have after := congrArg (fun b : Board => b.cells i j) shown
    simp only [Board.masked] at after
    rw [rule.seen, rule'.seen, h.veiled (i, j), after]

end Battleship
