import Battleship.Fleet
import Battleship.Requests
import Mathlib.Data.List.FinRange

/-!
# Ships as the browser means them

The page counts rows from the top and names the first cell of a ship. The setup
handler turns the rows over and moves the anchor of a vertical ship, and
`board_to_json` turns them over again.
-/
namespace Battleship
open Cooperative

/-- The members of one item of the list; the flag is 1 for a horizontal ship. -/
structure Json.Describes (item : Json) (ship : ShipRequest) : Prop where
  row : shipField "row" item = some ship.row
  col : shipField "col" item = some ship.col
  length : shipField "length" item = some ship.length
  horizontal : shipField "horizontal" item = some (if ship.horizontal then 1 else 0)

/-- At least one cell, and all of them in the grid. -/
structure ShipRequest.OnGrid (ship : ShipRequest) : Prop where
  positive : 1 ≤ ship.length
  inside : ∀ i < ship.length.toNat, InGrid (shipCell ship.row ship.col ship.horizontal i)

/-- Ships in the grid that do not overlap. -/
structure FleetList (ships : List ShipRequest) : Prop where
  few : ships.length ≤ maxShips
  onGrid : ∀ ship ∈ ships, ship.OnGrid
  apart : ships.Pairwise (fun a b => Disjoint a.cells b.cells)

/-- The same ship with the rows counted from the bottom. -/
def ShipRequest.flipped (ship : ShipRequest) : ShipRequest :=
  { ship with row := if ship.horizontal then 4 - ship.row else 4 - ship.row - (ship.length - 1) }

def Cell.flip (c : Cell) : Cell := (c.1.rev, c.2)

theorem Cell.flip_flip (c : Cell) : c.flip.flip = c := by
  simp [Cell.flip]

theorem Cell.lt (c : Cell) : c.1.val < 5 ∧ c.2.val < 5 := ⟨c.1.isLt, c.2.isLt⟩

theorem Cell.flip_coord (c : Cell) : c.flip.coord = ⟨4 - c.1.val, c.2.val⟩ := by
  have row : c.1.rev.val = 5 - (c.1.val + 1) := Fin.val_rev c.1
  have bound := c.lt.1
  simp only [Cell.flip, Cell.coord, Coordinate.mk.injEq, row, and_true]
  omega

/-- The page's picture of a list of ships: `S` on their cells. -/
def pictured (ships : List ShipRequest) : BoardView :=
  ⟨(List.finRange gridSize).map (fun r => (List.finRange gridSize).map (fun c =>
    if ∃ ship ∈ ships, (r, c) ∈ ship.cells then 'S' else 'E'))⟩

/-- Where the cell at offset `i` goes: a vertical ship is turned end to end. -/
def ShipRequest.mirrored (ship : ShipRequest) (i : Nat) : Nat :=
  if ship.horizontal then i else ship.length.toNat - 1 - i

theorem mirrored_lt {ship : ShipRequest} {i : Nat} (hi : i < ship.length.toNat) :
    ship.mirrored i < ship.length.toNat := by
  unfold ShipRequest.mirrored
  split <;> omega

theorem mirrored_mirrored {ship : ShipRequest} {i : Nat} (hi : i < ship.length.toNat) :
    ship.mirrored (ship.mirrored i) = i := by
  unfold ShipRequest.mirrored
  split <;> omega

theorem flipped_shipCell {ship : ShipRequest} {i : Nat} (hi : i < ship.length.toNat) (c : Cell) :
    shipCell ship.flipped.row ship.flipped.col ship.flipped.horizontal i = c.coord ↔
      shipCell ship.row ship.col ship.horizontal (ship.mirrored i) = c.flip.coord := by
  rw [Cell.flip_coord]
  cases horizontal : ship.horizontal with
  | true =>
      simp only [ShipRequest.flipped, ShipRequest.mirrored, horizontal, shipCell, Cell.coord,
        if_true, Coordinate.mk.injEq]
      omega
  | false =>
      simp only [ShipRequest.flipped, ShipRequest.mirrored, horizontal, shipCell, Cell.coord,
        Bool.false_eq_true, if_false, Coordinate.mk.injEq]
      omega

theorem mem_flipped {ship : ShipRequest} {c : Cell} :
    c ∈ ship.flipped.cells ↔ c.flip ∈ ship.cells := by
  simp only [ShipRequest.cells, mem_shipCells]
  constructor
  · rintro ⟨i, hi, eq⟩
    exact ⟨_, mirrored_lt hi, (@flipped_shipCell ship _ hi c).mp eq⟩
  · rintro ⟨i, hi, eq⟩
    refine ⟨_, mirrored_lt hi, (flipped_shipCell (mirrored_lt hi) c).mpr ?_⟩
    rw [mirrored_mirrored hi]
    exact eq

theorem flipped_apart {ships : List ShipRequest}
    (h : ships.Pairwise (fun a b => Disjoint a.cells b.cells)) :
    (ships.map ShipRequest.flipped).Pairwise (fun a b => Disjoint a.cells b.cells) := by
  refine List.pairwise_map.mpr (h.imp fun apart => ?_)
  refine Finset.disjoint_left.mpr fun c hc hc' => ?_
  exact Finset.disjoint_left.mp apart (mem_flipped.mp hc) (mem_flipped.mp hc')

namespace ShipRequest.OnGrid
variable {ship : ShipRequest}

/-- The numbers of a ship in the grid. -/
theorem bounds (h : ship.OnGrid) : 0 ≤ ship.row ∧ 0 ≤ ship.col ∧
    ship.row + (if ship.horizontal then 1 else ship.length) ≤ 5 ∧
    ship.col + (if ship.horizontal then ship.length else 1) ≤ 5 := by
  have positive := h.positive
  obtain ⟨first, eq⟩ := h.inside 0 (by omega)
  obtain ⟨last, eq'⟩ := h.inside (ship.length.toNat - 1) (by omega)
  have bound := last.lt
  have reached : ((ship.length.toNat - 1 : Nat) : Int) = ship.length - 1 := by omega
  cases horizontal : ship.horizontal with
  | true =>
      simp only [shipCell, horizontal, if_true, Cell.coord, Coordinate.mk.injEq,
        reached] at eq eq' ⊢
      omega
  | false =>
      simp only [shipCell, horizontal, Bool.false_eq_true, if_false, Cell.coord,
        Coordinate.mk.injEq, reached] at eq eq' ⊢
      omega

/-- The setup handler reads a ship in the grid as the ship turned over. -/
theorem decodeSetupShip (h : ship.OnGrid) {item : Json} (described : item.Describes ship) :
    Battleship.decodeSetupShip item = some ship.flipped := by
  obtain ⟨low, left, high, right⟩ := h.bounds
  have positive := h.positive
  have size : (gridSize : Int) = 5 := rfl
  unfold Battleship.decodeSetupShip
  rw [described.row, described.col, described.length, described.horizontal]
  cases horizontal : ship.horizontal with
  | true =>
      rw [horizontal, if_pos rfl] at high right
      have flip := cInt_eq_some (x := (gridSize : Int) - 1 - ship.row) (by omega) (by omega)
      simp only [Option.bind_eq_bind, Option.bind_some, flip, if_true, one_ne_zero, if_false,
        ShipRequest.flipped, horizontal]
      rfl
  | false =>
      rw [horizontal, if_neg Bool.false_ne_true] at high right
      have flip := cInt_eq_some (x := (gridSize : Int) - 1 - ship.row) (by omega) (by omega)
      have less := cInt_eq_some (x := ship.length - 1) (by omega) (by omega)
      have shift := cInt_eq_some
        (x := (gridSize : Int) - 1 - ship.row - (ship.length - 1)) (by omega) (by omega)
      simp only [Option.bind_eq_bind, Option.bind_some, flip, less, shift, Bool.false_eq_true,
        if_true, if_false, ShipRequest.flipped, horizontal]
      rfl

theorem setupEdge (h : ship.OnGrid) : (Battleship.setupEdge ship.flipped).isSome := by
  obtain ⟨low, left, high, right⟩ := h.bounds
  have positive := h.positive
  cases horizontal : ship.horizontal with
  | true =>
      rw [horizontal, if_pos rfl] at high right
      have less := cInt_eq_some (x := ship.length - 1) (by omega) (by omega)
      have far := cInt_eq_some (x := ship.col + (ship.length - 1)) (by omega) (by omega)
      simp [Battleship.setupEdge, ShipRequest.flipped, horizontal, lastEdge, less, far]
  | false => simp [Battleship.setupEdge, ShipRequest.flipped, horizontal]

/-- The edge that `can_place_ship` tests. -/
theorem flipped_edge (h : ship.OnGrid) :
    0 ≤ (if ship.horizontal then ship.flipped.col else ship.flipped.row) ∧
      (if ship.horizontal then ship.flipped.col else ship.flipped.row) + ship.length ≤ 5 := by
  obtain ⟨low, left, high, right⟩ := h.bounds
  cases horizontal : ship.horizontal with
  | true =>
      rw [horizontal, if_pos rfl] at right
      exact ⟨left, right⟩
  | false =>
      rw [horizontal, if_neg Bool.false_ne_true] at high
      simp only [ShipRequest.flipped, horizontal, Bool.false_eq_true, if_false]
      omega

/-- Turned over, it fits on an empty board. -/
theorem admits (h : ship.OnGrid) {b : Board} (empty : ∀ r c, b.cells r c = .empty) :
    b.Admits ship.flipped := by
  obtain ⟨low, high⟩ := h.flipped_edge
  have positive := h.positive
  refine ⟨le_trans (by omega) (add_le_add low positive), high, fun i hi => ?_⟩
  obtain ⟨c, eq⟩ := h.inside _ (@mirrored_lt ship _ hi)
  refine ⟨c.flip, (@flipped_shipCell ship _ hi _).mpr ?_, empty _ _⟩
  rw [Cell.flip_flip]
  exact eq.symm

end ShipRequest.OnGrid

/-- This boat is this ship, unhurt. -/
structure Boat.Carries (boat : Boat) (ship : ShipRequest) : Prop where
  length : boat.length = ship.length
  hitCount : boat.hitCount = 0
  cells : boat.cells = ship.cells

theorem Seats.carries {p p' : Player} {ships : List ShipRequest} (h : Seats p ships p')
    {k : Nat} (hk : k < ships.length) (slot : p.boatCount + k < maxShips) :
    (p'.boats ⟨p.boatCount + k, slot⟩).Carries ships[k] :=
  h.slot (fun _ room ship fits =>
    ⟨seated_length room ship, seated_hitCount room ship, seated_cells room ship fits⟩) hk slot

theorem FleetList.exists_seats {ships : List ShipRequest} (h : FleetList ships) {p : Player}
    (empty : ∀ r c, p.board.cells r c = .empty) :
    ∃ p', Seats p.uncounted (ships.map ShipRequest.flipped) p' := by
  refine Battleship.exists_seats ?_ ?_ (flipped_apart h.apart)
  · rw [List.length_map]
    exact (Nat.zero_add _).trans_le h.few
  · intro ship member
    obtain ⟨asked, listed, rfl⟩ := List.mem_map.mp member
    exact (h.onGrid asked listed).admits empty

theorem decoded_list {decode : Json → Option ShipRequest} {turn : ShipRequest → ShipRequest}
    (read : ∀ ship item, ship.OnGrid → item.Describes ship → decode item = some (turn ship))
    {items : List Json} {ships : List ShipRequest}
    (described : List.Forall₂ Json.Describes items ships)
    (onGrid : ∀ ship ∈ ships, ship.OnGrid) :
    List.Forall₂ (fun item ship => decode item = some ship) items (ships.map turn) := by
  induction described with
  | nil => exact .nil
  | cons first _ ih =>
      exact .cons (read _ _ (onGrid _ (.head _)) first)
        (ih fun ship member => onGrid ship (.tail _ member))

/-- The loop of the setup handler takes the whole list. -/
theorem FleetList.setup_loop {ships : List ShipRequest} (h : FleetList ships) {items : List Json}
    (described : List.Forall₂ Json.Describes items ships) {p p' : Player}
    (seats : Seats p (ships.map ShipRequest.flipped) p') :
    seatLoop decodeSetupShip setupEdge items p = some (true, p') := by
  refine seats.seatLoop (decoded_list (fun _ _ onGrid item => onGrid.decodeSetupShip item)
    described h.onGrid) fun ship member => ?_
  obtain ⟨asked, listed, rfl⟩ := List.mem_map.mp member
  exact (h.onGrid asked listed).setupEdge

theorem boardToJson_pictured {b : Board} {ships : List ShipRequest}
    (h : ∀ c : Cell, b.cells c.1 c.2 =
      if ∃ ship ∈ ships.map ShipRequest.flipped, c ∈ ship.cells then .ship else .empty) :
    boardToJson b true = pictured ships := by
  simp only [boardToJson, pictured, List.finRange_reverse, List.map_map, BoardView.mk.injEq]
  refine List.map_congr_left fun r _ => List.map_congr_left fun c _ => ?_
  have asked : (∃ ship ∈ ships.map ShipRequest.flipped, (r.rev, c) ∈ ship.cells) ↔
      ∃ ship ∈ ships, (r, c) ∈ ship.cells := by
    simp [mem_flipped, Cell.flip]
  rw [h (r.rev, c)]
  simp only [asked]
  split <;> rfl

/-- What a list of ships in the grid sets up is what the page is shown. -/
theorem setup_shows_pictured {j : Json} {level : List Char} {ships : List ShipRequest}
    (text : difficultyText j = some level) (manual : isRandom j = false)
    (described : List.Forall₂ Json.Describes (setupShips j) ships) (fleet : FleetList ships)
    {m : Mem} (created : m.currentGame = true)
    (fresh : ∀ r c, m.game.player.board.cells r c = .empty) :
    ∃ m', respond (.setupGame (.json j)) m = .done (.ok, m') ∧
      m'.game.player.boatCount = ships.length ∧
      (∀ (k : Nat) (hk : k < ships.length),
        (m'.game.player.boats ⟨k, hk.trans_le fleet.few⟩).Carries ships[k].flipped) ∧
      boardToJson m'.game.player.board true = pictured ships := by
  obtain ⟨p', seats⟩ := fleet.exists_seats (p := m.game.player) fresh
  have accepted := fleet.setup_loop described seats
  have request : (Request.setupGame (.json j)).manual = some (setupManual j level) := by
    simp [Request.manual, manual, text, setupManual]
  refine ⟨(setupManual j level).after m true p', ?_, ?_, ?_, ?_⟩
  · rw [respond, exec_manual _ request created, Manual.seatAll, setupManual, accepted]
    rfl
  · exact seats.count.trans (by simp [Player.uncounted])
  · intro k hk
    have placed := seats.carries (k := k) (by rwa [List.length_map])
      ((Nat.zero_add k).trans_lt (hk.trans_le fleet.few))
    simpa [Player.uncounted, Manual.after] using placed
  · refine boardToJson_pictured fun c => ?_
    rw [Manual.after, seats.cells]
    exact if_congr Iff.rfl rfl (fresh c.1 c.2)

def pageItem (ship : ShipRequest) : Json :=
  .object [("row", .number ship.row), ("col", .number ship.col), ("length", .number ship.length),
    ("horizontal", .bool ship.horizontal)]

theorem pageItem_describes (ship : ShipRequest) : (pageItem ship).Describes ship := by
  have apart : sameName "col" "row" = false ∧ sameName "length" "row" = false ∧
      sameName "length" "col" = false ∧ sameName "horizontal" "row" = false ∧
      sameName "horizontal" "col" = false ∧ sameName "horizontal" "length" = false := by decide
  have self : ∀ name, sameName name name = true := fun name => decide_eq_true rfl
  refine ⟨?_, ?_, ?_, ?_⟩ <;>
    simp [shipField, pageItem, Json.getObjectItem, List.find?, apart, self, Json.valueint]

theorem pageItems_describe (ships : List ShipRequest) :
    List.Forall₂ Json.Describes (ships.map pageItem) ships := by
  induction ships with
  | nil => exact .nil
  | cons ship ships ih => exact .cons (pageItem_describes ship) ih

/-- The body the page posts to both endpoints. -/
def pageSetup (ships : List ShipRequest) : Json :=
  .object [("difficulty", .string ['2']), ("ships", .array (ships.map pageItem)),
    ("random", .bool false)]

theorem pageSetup_items (ships : List ShipRequest) :
    isRandom (pageSetup ships) = false ∧
      (pageSetup ships).getObjectItem "ships" = some (.array (ships.map pageItem)) ∧
      setupShips (pageSetup ships) = ships.map pageItem := by
  have apart : sameName "ships" "difficulty" = false ∧ sameName "random" "difficulty" = false ∧
      sameName "random" "ships" = false := by decide
  have self : sameName "ships" "ships" = true ∧ sameName "random" "random" = true := by decide
  simp [setupShips, isRandom, pageSetup, Json.getObjectItem, List.find?, apart, self,
    Json.children, Json.isTrue]

/-- Ships of every length, lying both ways. -/
def mixedShips : List ShipRequest :=
  [⟨4, 0, 3, true⟩, ⟨0, 4, 4, false⟩, ⟨1, 1, 1, true⟩, ⟨1, 2, 2, false⟩]

instance (ship : ShipRequest) : Decidable ship.OnGrid :=
  decidable_of_iff (1 ≤ ship.length ∧
    ∀ i < ship.length.toNat, InGrid (shipCell ship.row ship.col ship.horizontal i))
    ⟨fun h => ⟨h.1, h.2⟩, fun h => ⟨h.positive, h.inside⟩⟩

theorem mixedShips_fleet : FleetList mixedShips :=
  ⟨by decide, by decide, by decide⟩

theorem setup_shows_mixed : ∃ m',
    respond (.setupGame (.json (pageSetup mixedShips))) bootMem = .done (.ok, m') ∧
      boardToJson m'.game.player.board true =
        ⟨[['E', 'E', 'E', 'E', 'S'], ['E', 'S', 'S', 'E', 'S'], ['E', 'E', 'S', 'E', 'S'],
          ['E', 'E', 'E', 'E', 'S'], ['S', 'S', 'S', 'E', 'E']]⟩ := by
  obtain ⟨m', answered, -, -, shown⟩ := setup_shows_pictured (m := bootMem)
    (j := pageSetup mixedShips) rfl rfl (pageItems_describe mixedShips) mixedShips_fleet rfl (fun _ _ => rfl)
  exact ⟨m', answered, shown.trans (by decide)⟩

end Battleship
