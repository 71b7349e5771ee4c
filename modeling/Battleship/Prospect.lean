import Battleship.HeatMap
import Battleship.Line
import Battleship.LegalFleet
import Battleship.Match
import Mathlib.Tactic.FinCases

/-!
# Where the HARD opponent can still hit

It asks the heat map for ships of 3, 2 and 2 cells, whatever is afloat, and its
guess board shows a sunk cell as a hit. So the cell it takes may be one that no
ship can lie on any more.
-/
namespace Battleship
open Cooperative Runs Salvo

/-- A ship afloat could lie on this cell: straight, on the grid, and on no cell
that is known as a miss or as part of a sunk ship. -/
def Player.MayHold (p : Player) (c : Cell) : Prop :=
  ∃ b : Fin maxShips, b.val < p.boatCount ∧ (p.boats b).hitCount < (p.boats b).length ∧
    ∃ s : Slot, s.Inside (p.boats b).length.toNat ∧ c ∈ s.cells (p.boats b).length.toNat ∧
      p.board.Unblocked (s.cells (p.boats b).length.toNat)

instance (p : Player) (c : Cell) : Decidable (p.MayHold c) :=
  inferInstanceAs (Decidable (∃ b : Fin maxShips, b.val < p.boatCount ∧
    (p.boats b).hitCount < (p.boats b).length ∧ ∃ s : Slot,
      s.Inside (p.boats b).length.toNat ∧ c ∈ s.cells (p.boats b).length.toNat ∧
      p.board.Unblocked (s.cells (p.boats b).length.toNat)))

instance (b : Board) (c : Cell) : Decidable (b.Free c) :=
  inferInstanceAs (Decidable (b.cells c.1 c.2 = .empty ∨ b.cells c.1 c.2 = .ship))

/-- A cell next to this one is not shown as a miss. -/
def Board.Roomy (b : Board) (c : Cell) : Prop :=
  ∃ x : Cell, c.coord.Adjacent x.coord ∧ b.cells x.1 x.2 ≠ .miss

/-- Where the guess board leaves a ship of two cells room, a ship afloat can lie. -/
def Hopeful (m : Mem) : Prop :=
  ∀ c : Cell, m.aiGuessBoard.Free c → m.aiGuessBoard.Roomy c → m.game.player.MayHold c

instance (b : Board) (c : Cell) : Decidable (b.Roomy c) :=
  inferInstanceAs (Decidable (∃ x : Cell, c.coord.Adjacent x.coord ∧ b.cells x.1 x.2 ≠ .miss))

instance (m : Mem) : Decidable (Hopeful m) :=
  inferInstanceAs (Decidable (∀ c : Cell, m.aiGuessBoard.Free c → m.aiGuessBoard.Roomy c →
    m.game.player.MayHold c))

/-- A match at HARD about to begin, against straight ships of 4, 3, 2 and 1 cells. -/
structure HardKickOff (s : Match) : Prop extends KickOff s where
  difficulty : s.mem.game.difficulty = difficultyHard
  count : s.mem.game.player.boatCount = maxShips
  lengths : s.mem.game.player.lengths.Perm shipLengths
  straight : ∀ b : Fin maxShips, b.val < s.mem.game.player.boatCount →
    (s.mem.game.player.boats b).Straight

theorem shipCell_adjacent (row col : Int) (horizontal : Bool) (i : Nat) :
    (shipCell row col horizontal i).Adjacent (shipCell row col horizontal (i + 1)) := by
  cases horizontal with
  | true => exact ⟨dirRight, _, rfl, by simp [shipCell, Coordinate.along, Int.add_assoc]⟩
  | false => exact ⟨dirDown, _, rfl, by simp [shipCell, Coordinate.along, Int.add_assoc]⟩

/-- The next cell of a line of two or more, or the one before. -/
theorem shipCell_neighbour (row col : Int) (horizontal : Bool) {i n : Nat} (below : i < n)
    (long : 2 ≤ n) : ∃ j < n,
      (shipCell row col horizontal i).Adjacent (shipCell row col horizontal j) := by
  by_cases more : i + 1 < n
  · exact ⟨i + 1, more, shipCell_adjacent row col horizontal i⟩
  · obtain ⟨k, rfl⟩ : ∃ k, i = k + 1 := ⟨i - 1, by omega⟩
    exact ⟨k, by omega, adjacent_symm (shipCell_adjacent row col horizontal k)⟩

section Heat
variable {b : Board} {c : Cell}

theorem heatOf_pos {n : Nat} : 0 < b.heatOf n c ↔ (b.slotsThrough n c).Nonempty := by
  rw [Board.heatOf, Finset.sum_pos_iff]
  constructor
  · rintro ⟨s, member, -⟩
    exact ⟨s, member⟩
  · rintro ⟨s, member⟩
    exact ⟨s, member, by omega⟩

theorem heatSum_pos : 0 < b.heatSum hardShipLengths c ↔
    (b.slotsThrough 3 c).Nonempty ∨ (b.slotsThrough 2 c).Nonempty := by
  have sum : b.heatSum hardShipLengths c = b.heatOf 3 c + (b.heatOf 2 c + b.heatOf 2 c) := by
    simp [Board.heatSum, hardShipLengths]
  rw [sum, ← heatOf_pos, ← heatOf_pos]
  omega

/-- A placement of two cells or more reaches a cell next to any of its cells. -/
theorem roomy_of_slot {n : Nat} (long : 2 ≤ n) (h : (b.slotsThrough n c).Nonempty) :
    b.Roomy c := by
  obtain ⟨s, member⟩ := h
  obtain ⟨inside, holds, unblocked⟩ := (Finset.mem_filter.mp member).2
  obtain ⟨i, below, at_c⟩ := mem_shipCells.mp holds
  obtain ⟨j, below', near⟩ := shipCell_neighbour s.row.val s.col.val s.horizontal below long
  obtain ⟨x, at_x⟩ := inside j below'
  have next : s.at j = shipCell s.row.val s.col.val s.horizontal j := rfl
  refine ⟨x, ?_, (unblocked x (mem_shipCells.mpr ⟨j, below', at_x.symm⟩)).1⟩
  rw [← at_c, at_x, next]
  exact near

/-- A placement over these two neighbours goes through either of them. -/
theorem slot_of_pair (a a' : Cell) (horizontal : Bool)
    (next : shipCell a.1.val a.2.val horizontal 1 = a'.coord)
    (clear : b.cells a.1 a.2 ≠ .miss ∧ b.cells a.1 a.2 ≠ .sunk)
    (clear' : b.cells a'.1 a'.2 ≠ .miss ∧ b.cells a'.1 a'.2 ≠ .sunk) (either : c = a ∨ c = a') :
    (b.slotsThrough 2 c).Nonempty := by
  have first : shipCell a.1.val a.2.val horizontal 0 = a.coord := by
    cases horizontal <;> simp [shipCell, Cell.coord]
  have cells : ∀ x, x ∈ (⟨a.1, a.2, horizontal⟩ : Slot).cells 2 ↔ x = a ∨ x = a' := by
    intro x
    rw [Slot.cells, mem_shipCells]
    constructor
    · rintro ⟨i, below, at_x⟩
      obtain rfl | rfl : i = 0 ∨ i = 1 := by omega
      · exact .inl (Cell.coord_injective (at_x.symm.trans first))
      · exact .inr (Cell.coord_injective (at_x.symm.trans next))
    · rintro (rfl | rfl)
      · exact ⟨0, by omega, first⟩
      · exact ⟨1, by omega, next⟩
  refine ⟨⟨a.1, a.2, horizontal⟩, Finset.mem_filter.mpr ⟨Finset.mem_univ _, fun i below => ?_,
    (cells c).mpr either, fun x hx => ?_⟩⟩
  · obtain rfl | rfl : i = 0 ∨ i = 1 := by omega
    · exact ⟨a, first.symm⟩
    · exact ⟨a', next.symm⟩
  · rcases (cells x).mp hx with rfl | rfl
    · exact clear
    · exact clear'

theorem slot_of_roomy (noneSunk : ∀ x : Cell, b.cells x.1 x.2 ≠ .sunk) (free : b.Free c)
    (h : b.Roomy c) : (b.slotsThrough 2 c).Nonempty := by
  obtain ⟨x, near, shown⟩ := h
  have clear : b.cells c.1 c.2 ≠ .miss ∧ b.cells c.1 c.2 ≠ .sunk := by
    rcases free with eq | eq <;> simp [eq]
  have clear' := And.intro shown (noneSunk x)
  obtain ⟨dir, d, step, at_x⟩ := near
  simp only [Cell.coord, Coordinate.along, Coordinate.mk.injEq] at at_x
  rcases dirStep_cases step with ⟨-, rfl⟩ | ⟨-, rfl⟩ | ⟨-, rfl⟩ | ⟨-, rfl⟩
  · refine slot_of_pair x c false ?_ clear' clear (.inr rfl)
    simp only [shipCell, Cell.coord, Bool.false_eq_true, if_false, Coordinate.mk.injEq]
    omega
  · refine slot_of_pair c x false ?_ clear clear' (.inl rfl)
    simp only [shipCell, Cell.coord, Bool.false_eq_true, if_false, Coordinate.mk.injEq]
    omega
  · refine slot_of_pair x c true ?_ clear' clear (.inr rfl)
    simp only [shipCell, Cell.coord, if_true, Coordinate.mk.injEq]
    omega
  · refine slot_of_pair c x true ?_ clear clear' (.inl rfl)
    simp only [shipCell, Cell.coord, if_true, Coordinate.mk.injEq]
    omega

/-- The heat map warms the free cells with room beside them, and no other. -/
theorem heat_iff_roomy (noneSunk : ∀ x : Cell, b.cells x.1 x.2 ≠ .sunk) (free : b.Free c) :
    0 < b.heatSum hardShipLengths c ↔ b.Roomy c := by
  rw [heatSum_pos]
  constructor
  · rintro (three | two)
    · exact roomy_of_slot (by omega) three
    · exact roomy_of_slot le_rfl two
  · exact fun roomy => .inr (slot_of_roomy noneSunk free roomy)

/-- At HARD the guess is one of the hottest free cells. -/
theorem engineGetGuess_hard (some_free : ∃ c, b.Free c) (st : AiState) (rng : Rng) :
    ∃ c : Cell, (∀ fuel, engineGetGuess fuel difficultyHard b st rng = .done (c.coord, st, rng)) ∧
      b.Free c ∧
      ∀ c', b.Free c' → b.heatSum hardShipLengths c' ≤ b.heatSum hardShipLengths c := by
  obtain ⟨heat, defined, sums⟩ := generateHeatmap_hard b
  obtain ⟨c, best, chosen⟩ := selectBestMove_best heat some_free
  refine ⟨c, fun fuel => ?_, best.free, fun c' free => ?_⟩
  · rw [engineGetGuess, if_neg (by decide), if_pos rfl, defined, ← chosen]
    rfl
  · rw [← sums, ← sums]
    rcases best.first c' free with cooler | ⟨same, -⟩
    · exact cooler.le
    · exact same.le

end Heat

/-- The difficulty is set before a game and not in it. -/
theorem GameMove.difficulty {g g' : Game} (h : GameMove g g') (created : g.state ≠ .init) :
    g'.difficulty = g.difficulty := by
  cases h with
  | created state => exact absurd state created
  | stayed => rfl
  | started => rfl
  | randomized => rfl
  | @guessed side => cases side <;> rfl
  | passed => rfl

theorem inPlay_created {s : Match} {Bp Bo : Battle (Fin maxShips) Cell} (h : s.InPlay Bp Bo) :
    s.mem.game.state ≠ .init := by
  cases h.phase with
  | player state => simp [state]
  | opponent state => simp [state]
  | finished state => rcases state with state | state <;> simp [state]

theorem matchStep_difficulty {fuel : Nat} {s s' : Match} {msg : Option IoMessage}
    (created : s.mem.game.state ≠ .init) (step : matchStep fuel s msg = some s') :
    s'.mem.game.difficulty = s.mem.game.difficulty := by
  unfold matchStep at step
  split at step
  · cases step
  · obtain ⟨m, done, rfl⟩ := Option.map_eq_some_iff.mp step
    obtain ⟨u, exec⟩ := Outcome.memory_some done
    exact (iteration_move exec).difficulty created

section Afloat
variable {s : Match} {Bp Bo : Battle (Fin maxShips) Cell} (h : s.InPlay Bp Bo)
include h

/-- A free cell can hold a ship of one cell. -/
theorem mayHold_of_single {b : Fin maxShips} (used : b.val < s.mem.game.player.boatCount)
    (single : (s.mem.game.player.boats b).length = 1)
    (afloat : (s.mem.game.player.boats b).hitCount < (s.mem.game.player.boats b).length) {c : Cell}
    (free : s.mem.aiGuessBoard.Free c) : s.mem.game.player.MayHold c := by
  refine ⟨b, used, afloat, ⟨c.1, c.2, true⟩, ?_⟩
  have only : ∀ x, x ∈ (⟨c.1, c.2, true⟩ : Slot).cells 1 ↔ x = c := by
    intro x
    simp [Slot.cells, mem_shipCells, shipCell, Cell.coord, Prod.ext_iff, Fin.ext_iff, eq_comm]
  have water : s.mem.aiGuessBoard.cells c.1 c.2 = .empty :=
    free.resolve_right (h.couples.noShip c)
  have unshot := (h.couples.water c).mp water
  rw [single]
  refine ⟨fun i hi => ⟨c, ?_⟩, (only c).mpr rfl, fun x hx => ?_⟩
  · obtain rfl : i = 0 := by omega
    simp [Slot.at, shipCell, Cell.coord]
  · rw [(only x).mp hx, h.player.board c]
    by_cases owned : ∃ i, c ∈ Bp.ships i
    · rw [Bp.mark_eq_ship.mpr ⟨owned, unshot⟩]
      simp [CellState.ofMark]
    · rw [Bp.mark_eq_water.mpr ⟨fun i hi => owned ⟨i, hi⟩, unshot⟩]
      simp [CellState.ofMark]

/-- A ship cell not hit yet is free, and has room beside it unless its ship is of
one cell. -/
theorem ship_roomy (straight : ∀ b : Fin maxShips, b.val < s.mem.game.player.boatCount →
      (s.mem.game.player.boats b).Straight) {x : Cell}
    (ship : s.mem.game.player.board.cells x.1 x.2 = .ship) :
    s.mem.aiGuessBoard.Free x ∧ (s.mem.aiGuessBoard.Roomy x ∨
      ∃ b : Fin maxShips, b.val < s.mem.game.player.boatCount ∧
        (s.mem.game.player.boats b).length = 1 ∧
        (s.mem.game.player.boats b).hitCount < (s.mem.game.player.boats b).length) := by
  obtain ⟨⟨b, own⟩, unshot⟩ := h.player.ship_iff.mp ship
  refine ⟨.inl ((h.couples.water x).mpr unshot), ?_⟩
  have used := h.player.used own
  have cells := h.player.ships_of_lt used
  have sound := h.player.sound b used
  have afloat : (s.mem.game.player.boats b).hitCount < (s.mem.game.player.boats b).length := by
    have fewer : Bp.hits b ≤ (Bp.ships b).card := Finset.card_le_card Finset.inter_subset_left
    have other : Bp.hits b ≠ (Bp.ships b).card := fun all =>
      Bp.not_sunk_of_fresh own unshot ((Bp.hits_eq_card_iff b).mp all)
    rw [h.player.hits b used, ← h.player.card_ships used]
    omega
  by_cases long : 2 ≤ (s.mem.game.player.boats b).length
  · obtain ⟨row, col, horizontal, lies⟩ := straight b used
    obtain ⟨i, below, at_x⟩ := Boat.mem_cells.mp (cells ▸ own)
    have short := sound.length_le
    obtain ⟨j, below', near⟩ := shipCell_neighbour row col horizontal
      (n := (s.mem.game.player.boats b).length.toNat) (i := i.val) (by omega) (by omega)
    have next := lies ⟨j, by omega⟩ (by simp only; omega)
    obtain ⟨y, at_y⟩ := sound.inGrid ⟨j, by omega⟩ (by simp only; omega)
    have mine : y ∈ Bp.ships b := by
      rw [cells]
      exact Boat.mem_cells.mpr ⟨⟨j, by omega⟩, by simp only; omega, at_y.symm⟩
    refine .inl ⟨y, ?_, fun miss => h.couples.missed y b miss mine⟩
    rw [← at_x, at_y, lies i below, next]
    exact near
  · have counted := h.player.hits b used
    exact .inr ⟨b, used, by omega, afloat⟩

end Afloat

/-- A match played at HARD against straight ships, some of it left while nothing is
decided. -/
structure HardPlay (s : Match) : Prop where
  inPlay : ∃ Bp Bo, s.InPlay Bp Bo
  difficulty : s.mem.game.difficulty = difficultyHard
  straight : ∀ b : Fin maxShips, b.val < s.mem.game.player.boatCount →
    (s.mem.game.player.boats b).Straight
  stands : s.decisive = [] → ¬s.mem.game.player.board.NoShip

theorem hardKickOff_play {s : Match} (h : HardKickOff s) : HardPlay s := by
  refine ⟨kickOff_inPlay h.toKickOff, h.difficulty, h.straight, fun _ none => ?_⟩
  obtain ⟨b, long⟩ : ∃ b, (s.mem.game.player.boats b).length = 4 :=
    have listed : (4 : Int) ∈ s.mem.game.player.lengths := h.lengths.mem_iff.mpr (by decide)
    (List.mem_map.mp listed).imp fun b both => both.2
  have used : b.val < s.mem.game.player.boatCount := by
    rw [h.count]
    exact b.isLt
  obtain ⟨c, first⟩ := (h.player.sound b used).inGrid 0 (by rw [long]; decide)
  have inside : c ∈ (s.mem.game.player.boats b).cells :=
    Boat.mem_cells.mpr ⟨0, by rw [long]; decide, first.symm⟩
  exact none c (h.player.ship c ⟨b, used, inside⟩)

theorem matchStep_decisive {fuel : Nat} {s s' : Match} {msg : Option IoMessage}
    (step : matchStep fuel s msg = some s') : ∃ more, s'.decisive = s.decisive ++ more := by
  unfold matchStep at step
  split at step
  · cases step
  · obtain ⟨m, -, rfl⟩ := Option.map_eq_some_iff.mp step
    exact ⟨_, rfl⟩

theorem step_play {fuel : Nat} {s s' : Match} {msg : Option IoMessage} (h : HardPlay s)
    (ok : Playable s msg) (step : matchStep fuel s msg = some s') : HardPlay s' := by
  obtain ⟨Bp, Bo, inPlay⟩ := h.inPlay
  have goes := step_goes inPlay ok step
  refine ⟨goes.inPlay, ?_, fun b used => ?_, fun undecided none => ?_⟩
  · rw [matchStep_difficulty (inPlay_created inPlay) step, h.difficulty]
  · rw [goes.sameFleet.count] at used
    exact goes.sameFleet.straight (h.straight b used)
  · refine h.stands ?_ (goes.stands undecided none)
    obtain ⟨more, grown⟩ := matchStep_decisive step
    rw [grown] at undecided
    exact (List.append_eq_nil_iff.mp undecided).1

/-- A match at HARD: whenever the opponent is to move, its guess is one cell. A ship
afloat can lie on it if one can lie wherever the guess board leaves room for two
cells, and that is so when the heat map warms no other cell. -/
theorem hard_aims {fuel : Nat} {s : Match} (h : Reaches (matchStep fuel) Playable HardKickOff s)
    (state : s.mem.game.state = .waitingForOpponent) :
    ∃ c : Cell, (∀ n, engineGetGuess n s.mem.game.difficulty s.mem.aiGuessBoard
        s.mem.smartAiState s.mem.rng = .done (c.coord, s.mem.smartAiState, s.mem.rng)) ∧
      (Hopeful s.mem → s.mem.game.player.MayHold c) ∧
      (Hopeful s.mem ↔ ∀ heat c', generateHeatmap s.mem.aiGuessBoard hardShipLengths = some heat →
        s.mem.aiGuessBoard.Free c' → 0 < heat.of c' → s.mem.game.player.MayHold c') := by
  obtain ⟨⟨Bp, Bo, inPlay⟩, hard, straight, stands⟩ : HardPlay s :=
    h.invariant (fun _ => hardKickOff_play) fun _ _ _ => step_play
  have undecided : s.decisive = [] := by
    cases inPlay.phase with
    | player state' => simp [state] at state'
    | opponent _ _ _ decisive => exact decisive
    | finished state' => simp [state] at state'
  obtain ⟨x, ship⟩ : ∃ x : Cell, s.mem.game.player.board.cells x.1 x.2 = .ship := by
    by_contra none
    push Not at none
    exact stands undecided none
  obtain ⟨free_x, room⟩ := ship_roomy inPlay straight ship
  obtain ⟨c, guess, free, hottest⟩ := engineGetGuess_hard ⟨x, free_x⟩ s.mem.smartAiState s.mem.rng
  rw [hard]
  refine ⟨c, guess, fun hopeful => ?_, ?_⟩
  · rcases room with roomy | ⟨b, used, single, afloat⟩
    · refine hopeful c free ((heat_iff_roomy inPlay.couples.noneSunk free).mp ?_)
      exact lt_of_lt_of_le ((heat_iff_roomy inPlay.couples.noneSunk free_x).mpr roomy)
        (hottest x free_x)
    · exact mayHold_of_single inPlay used single afloat free
  · obtain ⟨heat, defined, sums⟩ := generateHeatmap_hard s.mem.aiGuessBoard
    constructor
    · intro hopeful heat' c' defined' free' warm
      cases defined.symm.trans defined'
      rw [sums] at warm
      exact hopeful c' free' ((heat_iff_roomy inPlay.couples.noneSunk free').mp warm)
    · intro warm c' free' roomy
      refine warm heat c' defined free' ?_
      rw [sums]
      exact (heat_iff_roomy inPlay.couples.noneSunk free').mpr roomy

def hardMatch : Match :=
  { rowsMatch with
    mem := { rowsMatch.mem with
      game := { rowsMatch.mem.game with player := crossedPlayer, difficulty := difficultyHard } } }

theorem hardMatch_kickOff : HardKickOff hardMatch := by
  refine ⟨⟨rfl, ⟨?_, ?_, ?_, ?_, ?_, ?_⟩, rowsPlayer_fresh true, fun _ => rfl, rfl, rfl, rfl⟩,
    rfl, rfl, ?_, ?_⟩
  · decide
  · decide +kernel
  · decide +kernel
  · decide
  · decide +kernel
  · decide +kernel
  · decide
  · intro b _
    fin_cases b
    · exact ⟨0, 4, false, by decide⟩
    · exact ⟨0, 0, false, by decide⟩
    · exact ⟨2, 1, true, by decide⟩
    · exact ⟨1, 2, true, by decide⟩

/-- The ship of one cell is sunk, and the next guess can still be at a ship. -/
theorem hard_aims_later : ∃ (s : Match) (c : Cell), s.mem.game.state = .waitingForOpponent ∧
    s.mem.game.player.board.cells 1 2 = .sunk ∧
    engineGetGuess 1 s.mem.game.difficulty s.mem.aiGuessBoard s.mem.smartAiState s.mem.rng =
      .done (Cell.coord c, s.mem.smartAiState, s.mem.rng) ∧ s.mem.game.player.MayHold c := by
  let moves := [press 0 0, none, press 1 0, none, press 2 0]
  have meets : Meets (matchStep 1) Playable hardMatch moves := by decide +kernel
  have run : (runList (matchStep 1) hardMatch moves).any
      (fun s => s.mem.game.state = .waitingForOpponent ∧
        s.mem.game.player.board.cells 1 2 = .sunk ∧ Hopeful s.mem) = true := by decide +kernel
  obtain ⟨s, reached, shown⟩ := exists_reaches_of_meets hardMatch_kickOff meets run
  obtain ⟨state, sunk, hopeful⟩ := of_decide_eq_true shown
  obtain ⟨c, guess, holds, -⟩ := hard_aims reached state
  exact ⟨s, c, state, sunk, guess 1, holds hopeful⟩

/-- Both cells of the ship of two and the ship of one are sunk. The opponent takes
a cell with them on two sides, where neither of the others can lie. -/
theorem hard_aims_nowhere : ∃ s c, Reaches (matchStep 1) Playable HardKickOff s ∧
    s.mem.game.state = .waitingForOpponent ∧
    engineGetGuess 1 s.mem.game.difficulty s.mem.aiGuessBoard s.mem.smartAiState s.mem.rng =
      .done (Cell.coord c, s.mem.smartAiState, s.mem.rng) ∧ ¬s.mem.game.player.MayHold c := by
  have run : (runList (matchStep 1) hardMatch [press 0 0, none, press 1 0, none, press 2 0, none,
      press 3 0, none, press 4 0]).any (fun s => s.mem.game.state = .waitingForOpponent ∧
        s.mem.game.difficulty = difficultyHard ∧
        (generateHeatmap s.mem.aiGuessBoard hardShipLengths).map
          (fun heat => selectBestMove heat s.mem.aiGuessBoard) = some (Cell.coord (1, 1)) ∧
        ¬s.mem.game.player.MayHold (1, 1)) = true := by decide +kernel
  have ok : Meets (matchStep 1) Playable hardMatch [press 0 0, none, press 1 0, none, press 2 0,
      none, press 3 0, none, press 4 0] := by decide +kernel
  obtain ⟨s, reached, shown⟩ := exists_reaches_of_meets hardMatch_kickOff ok run
  obtain ⟨state, hard, chosen, lost⟩ := of_decide_eq_true shown
  obtain ⟨heat, defined, best⟩ := Option.map_eq_some_iff.mp chosen
  refine ⟨s, (1, 1), reached, state, ?_, lost⟩
  rw [hard, engineGetGuess, if_neg (by decide), if_pos rfl, defined, ← best]
  rfl

end Battleship
