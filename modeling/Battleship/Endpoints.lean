import Battleship.Browser
import Battleship.Outgoing

/-!
# The two manual endpoints

`post_setup_game_handler` turns the rows of the browser over; the older
`post_place_ships_handler` adds four to them and leaves the anchor of a vertical
ship where it is. They agree on the top row only.
-/
namespace Battleship
open Cooperative

/-- Both requests are answered alike, and leave the same fleet and the same
robot commands. -/
structure SameSetup (m : Mem) (r r' : Request) (a a' : Response) (m₁ m₂ : Mem) : Prop where
  answered : respond r m = .done (a, m₁)
  answered' : respond r' m = .done (a', m₂)
  verdict : a.isError = a'.isError
  cells : m₁.game.player.board.cells = m₂.game.player.board.cells
  boats : m₁.game.player.boats = m₂.game.player.boats
  boatCount : m₁.game.player.boatCount = m₂.game.player.boatCount
  commands : orders (Prog.trace (answer none) (handle r) m) =
    orders (Prog.trace (answer none) (handle r') m)

def Agree (m : Mem) (r r' : Request) : Prop := ∃ a a' m₁ m₂, SameSetup m r r' a a' m₁ m₂

/-- A ship that means the same to both handlers. -/
def ShipRequest.OnTopRow (ship : ShipRequest) : Prop :=
  ship.row = 0 ∧ (ship.horizontal = true ∨ ship.length = 1)

def ShipRequest.lowered (ship : ShipRequest) : ShipRequest := { ship with row := ship.row + 4 }

namespace ShipRequest.OnGrid
variable {ship : ShipRequest}

theorem decodePlaceShip (h : ship.OnGrid) {item : Json} (described : item.Describes ship) :
    Battleship.decodePlaceShip item = some ship.lowered := by
  obtain ⟨low, left, high, right⟩ := h.bounds
  have positive := h.positive
  have size : (gridSize : Int) = 5 := rfl
  have top : ship.row ≤ 4 := by
    split at high <;> omega
  have row := cInt_eq_some (x := ship.row + ((gridSize : Int) - 1)) (by omega) (by omega)
  have flag : decide ((if ship.horizontal then (1 : Int) else 0) ≠ 0) = ship.horizontal := by
    cases ship.horizontal <;> rfl
  unfold Battleship.decodePlaceShip
  rw [described.row, described.col, described.length, described.horizontal]
  simp only [Option.bind_eq_bind, Option.bind_some, row, flag]
  rfl

theorem placeEdge (h : ship.OnGrid) : (Battleship.placeEdge ship.lowered).isSome := by
  obtain ⟨low, left, high, right⟩ := h.bounds
  have positive := h.positive
  have far : ship.col + ship.length ≤ 10 := by
    split at high <;> split at right <;> omega
  have sum := cInt_eq_some (x := ship.col + ship.length) (by omega) (by omega)
  have less := cInt_eq_some (x := ship.col + ship.length - 1) (by omega) (by omega)
  simp [Battleship.placeEdge, ShipRequest.lowered, farEdge, sum, less]

end ShipRequest.OnGrid

/-- On the top row both handlers read the same ship. -/
theorem ShipRequest.OnTopRow.lowered_eq {ship : ShipRequest} (h : ship.OnTopRow) :
    ship.lowered = ship.flipped := by
  obtain ⟨row, flat⟩ := h
  cases horizontal : ship.horizontal with
  | true => simp [ShipRequest.lowered, ShipRequest.flipped, row, horizontal]
  | false =>
      rw [horizontal] at flat
      have one : ship.length = 1 := flat.resolve_left Bool.false_ne_true
      simp [ShipRequest.lowered, ShipRequest.flipped, row, horizontal, one]

theorem ShipRequest.OnTopRow.same_order {ship : ShipRequest} (h : ship.OnTopRow) (slot : Nat) :
    setupOrder ship.flipped slot = placeOrder ship.flipped slot := by
  obtain ⟨row, flat⟩ := h
  cases horizontal : ship.horizontal with
  | true => simp [setupOrder, placeOrder, ShipRequest.flipped, horizontal, add_sub_assoc]
  | false =>
      rw [horizontal] at flat
      have one : ship.length = 1 := flat.resolve_left Bool.false_ne_true
      simp [setupOrder, placeOrder, ShipRequest.flipped, horizontal, one]

/-- The place handler can only seat ships of the top row. -/
theorem Fits.onTopRow {b : Board} {ship : ShipRequest} (onGrid : ship.OnGrid)
    (h : b.Admits ship.lowered) : ship.OnTopRow := by
  obtain ⟨low, left, high, right⟩ := onGrid.bounds
  have positive := onGrid.positive
  obtain ⟨first, eq, -⟩ := h.free 0 (by simp only [ShipRequest.lowered]; omega)
  have bound := first.lt
  have edge := h.edge
  have size : (gridSize : Int) = 5 := rfl
  cases horizontal : ship.horizontal with
  | true =>
      simp only [ShipRequest.lowered, horizontal, shipCell, if_true, Cell.coord,
        Coordinate.mk.injEq] at eq
      exact ⟨by omega, .inl horizontal⟩
  | false =>
      simp only [ShipRequest.lowered, horizontal, Bool.false_eq_true, if_false] at edge
      exact ⟨by omega, .inr (by omega)⟩

theorem Seats.admitted {p p' : Player} {ships : List ShipRequest} (h : Seats p ships p')
    {ship : ShipRequest} (member : ship ∈ ships) : ∃ b : Board, b.Admits ship := by
  induction h with
  | nil p => exact absurd member List.not_mem_nil
  | cons room fits _ ih =>
      rcases List.mem_cons.mp member with rfl | later
      · exact ⟨_, fits⟩
      · exact ih later

/-- What the two endpoints are given: the same ships, in two documents. -/
structure SameShips (j j' : Json) (ships : List ShipRequest) : Prop where
  text : ∃ level, difficultyText j = some level
  manual : isRandom j = false
  described : List.Forall₂ Json.Describes (setupShips j) ships
  listed : ∃ list, j'.getObjectItem "ships" = some list ∧ list.isArray = true ∧
    list.children = setupShips j

theorem map_decoded {decode : Json → Option ShipRequest} {items : List Json}
    {ships : List ShipRequest}
    (h : List.Forall₂ (fun item ship => decode item = some ship) items ships) :
    items.map decode = ships.map some ++ [] := by
  induction h with
  | nil => rfl
  | cons first _ ih => simpa [first] using ih

theorem map_lowered {ships : List ShipRequest} (top : ∀ ship ∈ ships, ship.OnTopRow) :
    ships.map ShipRequest.lowered = ships.map ShipRequest.flipped :=
  List.map_congr_left fun ship member => (top ship member).lowered_eq

/-- The loop of the place handler takes a list of the top row. -/
theorem FleetList.place_loop {ships : List ShipRequest} (h : FleetList ships) {items : List Json}
    (described : List.Forall₂ Json.Describes items ships) {p p' : Player}
    (seats : Seats p (ships.map ShipRequest.flipped) p') (top : ∀ ship ∈ ships, ship.OnTopRow) :
    seatLoop decodePlaceShip placeEdge items p = some (true, p') := by
  have decoded := decoded_list (fun _ _ onGrid item => onGrid.decodePlaceShip item) described
    h.onGrid
  refine (map_lowered top ▸ seats).seatLoop decoded fun ship member => ?_
  obtain ⟨asked, listed, rfl⟩ := List.mem_map.mp member
  exact (h.onGrid asked listed).placeEdge

/-- The place handler takes the list exactly when every ship is on the top row. -/
theorem place_loop_iff {items : List Json} {ships : List ShipRequest}
    (described : List.Forall₂ Json.Describes items ships) (fleet : FleetList ships) {p : Player}
    (empty : ∀ r c, p.board.cells r c = .empty) :
    (∃ p', seatLoop decodePlaceShip Battleship.placeEdge items p.uncounted = some (true, p')) ↔
      ∀ ship ∈ ships, ship.OnTopRow := by
  have decoded := decoded_list (fun _ _ onGrid item => onGrid.decodePlaceShip item) described
    fleet.onGrid
  constructor
  · rintro ⟨p', accepted⟩ ship member
    obtain ⟨placed, rest, eq, seats, stop⟩ := seatLoop_seats accepted
    have whole : placed = ships.map ShipRequest.lowered := by
      rw [map_decoded decoded, List.append_nil] at eq
      have none : rest = [] := by
        rcases stop rfl with none | full
        · exact none
        · have full : maxShips ≤ p'.boatCount := full
          have lengths := congrArg List.length eq
          have counted := seats.count
          have few := fleet.few
          simp only [List.length_append, List.length_map] at lengths
          simp only [Player.uncounted] at counted
          exact List.length_eq_zero_iff.mp (by omega)
      rw [none, List.append_nil] at eq
      exact (List.map_injective_iff.mpr (Option.some_injective _) eq).symm
    obtain ⟨b, fits⟩ := @Seats.admitted _ _ _ seats ship.lowered
      (whole ▸ List.mem_map_of_mem member)
    exact Fits.onTopRow (fleet.onGrid ship member) fits
  · intro top
    obtain ⟨p', seats⟩ := fleet.exists_seats empty
    exact ⟨p', fleet.place_loop described seats top⟩

/-- What a manual request answers, when its loop comes to an end. -/
theorem respond_manual {r : Request} {w : Manual} (h : r.manual = some w) {m : Mem}
    (created : m.currentGame = true) :
    respond r m = .ofOption ((w.seatAll m.game.player).map
      (fun e => (w.answer e.1, w.after m e.1 e.2))) := exec_manual _ h created

theorem orders_accepted {r : Request} {w : Manual} (h : r.manual = some w) {m : Mem}
    (created : m.currentGame = true) {p' : Player} {ships : List ShipRequest}
    (accepted : w.seatAll m.game.player = some (true, p'))
    (decoded : List.Forall₂ (fun item ship => w.decode item = some ship) w.ships ships)
    (seats : Seats m.game.player.uncounted ships p') :
    orders (Prog.trace (answer none) (handle r) m) =
      ships.zipIdx.map (fun s => r.order s.1 s.2) :=
  orders_manual _ h created accepted (map_decoded decoded)
    (seats.count.trans (Nat.zero_add _))

/-- The endpoints agree exactly on the ships of the top row. -/
theorem endpoints_agree_iff {j j' : Json} {ships : List ShipRequest} (posted : SameShips j j' ships)
    (fleet : FleetList ships) {m : Mem} (created : m.currentGame = true)
    (fresh : ∀ r c, m.game.player.board.cells r c = .empty) :
    Agree m (.setupGame (.json j)) (.placeShips (.json j')) ↔ ∀ ship ∈ ships, ship.OnTopRow := by
  obtain ⟨level, text⟩ := posted.text
  obtain ⟨list, item, array, children⟩ := posted.listed
  have setup : (Request.setupGame (.json j)).manual = some (setupManual j level) := by
    simp [Request.manual, posted.manual, text, setupManual]
  have place : (Request.placeShips (.json j')).manual = some (placeManual list) := by
    simp [Request.manual, item, array, placeManual]
  have described : List.Forall₂ Json.Describes list.children ships := children ▸ posted.described
  obtain ⟨p', seats⟩ := fleet.exists_seats (p := m.game.player) fresh
  have accepted : (setupManual j level).seatAll m.game.player = some (true, p') :=
    fleet.setup_loop posted.described seats
  constructor
  · rintro ⟨a, a', m₁, m₂, same⟩
    have first := same.answered
    rw [respond_manual setup created, accepted] at first
    cases first
    have second := same.answered'
    rw [respond_manual place created] at second
    obtain ⟨e, eq, ended⟩ := Option.map_eq_some_iff.mp (Outcome.ofOption_eq_done second)
    have verdict := same.verdict
    cases e with
    | mk placed q =>
        cases placed with
        | true => exact (place_loop_iff described fleet fresh).mp ⟨q, eq⟩
        | false =>
            cases ended
            cases verdict
  · intro top
    have placed : (placeManual list).seatAll m.game.player = some (true, p') :=
      fleet.place_loop described seats top
    refine ⟨.ok, .ok, (setupManual j level).after m true p', (placeManual list).after m true p',
      ?_, ?_, rfl, rfl, rfl, rfl, ?_⟩
    · rw [respond_manual setup created, accepted]
      rfl
    · rw [respond_manual place created, placed]
      rfl
    · rw [orders_accepted setup created accepted (decoded_list
          (fun _ _ onGrid item => onGrid.decodeSetupShip item) posted.described fleet.onGrid) seats,
        orders_accepted place created placed (map_lowered top ▸ decoded_list
          (fun _ _ onGrid item => onGrid.decodePlaceShip item) described fleet.onGrid) seats]
      refine List.map_congr_left fun s member => ?_
      obtain ⟨asked, listed, eq⟩ := List.mem_map.mp (List.fst_mem_of_mem_zipIdx member)
      rw [← eq]
      exact (top asked listed).same_order s.2

theorem pageSetup_same (ships : List ShipRequest) :
    SameShips (pageSetup ships) (pageSetup ships) ships := by
  obtain ⟨manual, item, listed⟩ := pageSetup_items ships
  exact ⟨⟨['2'], rfl⟩, manual, listed ▸ pageItems_describe ships, ⟨_, item, rfl, listed.symm⟩⟩

def topShips : List ShipRequest := [⟨0, 4, 1, false⟩, ⟨0, 0, 3, true⟩]

/-- Both requests with these ships, posted to a game that has just been created. -/
def AgreeOn (ships : List ShipRequest) : Prop :=
  Agree bootMem (.setupGame (.json (pageSetup ships))) (.placeShips (.json (pageSetup ships)))

theorem endpoints_agree_top : AgreeOn topShips :=
  (endpoints_agree_iff (pageSetup_same topShips) ⟨by decide, by decide, by decide⟩ rfl
    (fun _ _ => rfl)).mpr (by simp [topShips, ShipRequest.OnTopRow])

/-- A vertical ship of two cells in the first column. -/
def uprightShips : List ShipRequest := [⟨0, 0, 2, false⟩]

/-- The setup handler takes the ship, and the place handler refuses it. -/
theorem upright_ship_refused : FleetList uprightShips ∧ ¬AgreeOn uprightShips := by
  refine ⟨⟨by decide, by decide, by decide⟩, ?_⟩
  rintro ⟨a, a', m₁, m₂, same⟩
  have taken : ∃ m', respond (.setupGame (.json (pageSetup uprightShips))) bootMem =
      .done (.ok, m') := ⟨_, rfl⟩
  have refused : ∃ m', respond (.placeShips (.json (pageSetup uprightShips))) bootMem =
      .done (.espFail, m') := ⟨_, rfl⟩
  obtain ⟨m', first⟩ := taken
  obtain ⟨m'', second⟩ := refused
  rw [same.answered] at first
  rw [same.answered'] at second
  cases first
  cases second
  exact Bool.false_ne_true same.verdict

end Battleship
