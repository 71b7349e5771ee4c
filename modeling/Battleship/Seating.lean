import Battleship.Placement

/-!
# Seating a list of ships

The loop of the placing handlers on the player alone, without the robot and the
pauses: which ships it seats, and what a seated ship keeps of what was there.
-/
namespace Battleship

def Player.counted (p : Player) : Player := { p with boatCount := p.boatCount + 1 }

def Player.uncounted (p : Player) : Player := { p with boatCount := 0 }

/-- `edge` is the arithmetic the handler does on a seated ship for the robot. -/
def seatLoop (decode : Json → Option ShipRequest) (edge : ShipRequest → Option Int) :
    List Json → Player → Option (Bool × Player)
  | [], p => some (true, p)
  | item :: rest, p => do
      let ship ← decode item
      if maxShips ≤ p.boatCount then some (true, p)
      else match ← p.seat ship with
        | some p' => do
            let _ ← edge ship
            seatLoop decode edge rest p'.counted
        | none => some (false, p)

def Board.Admits (b : Board) (ship : ShipRequest) : Prop :=
  Fits b ship.row ship.col ship.length ship.horizontal

instance (b : Board) (ship : ShipRequest) : Decidable (b.Admits ship) :=
  decidable_of_iff _ canPlaceShip_true

def Board.withRequest (b : Board) (ship : ShipRequest) : Board :=
  b.withShip ship.row ship.col ship.horizontal ship.length.toNat

/-- A ship that fits lies on empty cells. -/
theorem Board.Admits.empty_of_mem {b : Board} {ship : ShipRequest} (h : b.Admits ship) {c : Cell}
    (hc : c ∈ shipCells ship.row ship.col ship.horizontal ship.length.toNat) :
    b.cells c.1 c.2 = .empty := by
  obtain ⟨i, hi, eq⟩ := mem_shipCells.mp hc
  obtain ⟨c', eq', empty⟩ := h.free i hi
  rw [eq] at eq'
  cases Cell.coord_injective eq'
  exact empty

/-- A ship still fits when another one, apart from it, has been put down. -/
theorem Board.Admits.withRequest {b : Board} {ship other : ShipRequest} (h : b.Admits ship)
    (apart : Disjoint
      (shipCells other.row other.col other.horizontal other.length.toNat)
      (shipCells ship.row ship.col ship.horizontal ship.length.toNat)) :
    (b.withRequest other).Admits ship := by
  refine ⟨h.low, h.edge, fun i hi => ?_⟩
  obtain ⟨c, eq, empty⟩ := h.free i hi
  refine ⟨c, eq, ?_⟩
  have outside : c ∉ shipCells other.row other.col other.horizontal other.length.toNat :=
    Finset.disjoint_right.mp apart (mem_shipCells.mpr ⟨i, hi, eq⟩)
  exact (if_neg outside).trans empty

theorem Board.withRequest_cells (b : Board) (ship : ShipRequest) (c : Cell) :
    (b.withRequest ship).cells c.1 c.2 =
      if c ∈ shipCells ship.row ship.col ship.horizontal ship.length.toNat then .ship
      else b.cells c.1 c.2 := rfl

/-- The player with this ship seated and counted. -/
def Player.seated (p : Player) (room : p.boatCount < maxShips) (ship : ShipRequest) : Player :=
  (p.withNext ⟨p.boatCount, room⟩ ship.row ship.col ship.length ship.horizontal).counted

@[simp] theorem seated_board (p : Player) (room : p.boatCount < maxShips) (ship : ShipRequest) :
    (p.seated room ship).board = p.board.withRequest ship := rfl

@[simp] theorem seated_boatCount (p : Player) (room : p.boatCount < maxShips)
    (ship : ShipRequest) : (p.seated room ship).boatCount = p.boatCount + 1 := rfl

/-- A seated ship is the boat of the slot it went into. -/
theorem seated_boat (p : Player) (room : p.boatCount < maxShips) (ship : ShipRequest) :
    (p.seated room ship).boats ⟨p.boatCount, room⟩ =
      { p.boats ⟨p.boatCount, room⟩ with length := ship.length, hitCount := 0 }.withCells
        ship.row ship.col ship.horizontal ship.length.toNat := by
  simp [Player.seated, Player.withNext, Player.counted]

theorem seated_boat_of_ne (p : Player) (room : p.boatCount < maxShips) (ship : ShipRequest)
    {b : Fin maxShips} (h : b.val ≠ p.boatCount) : (p.seated room ship).boats b = p.boats b := by
  have other : b ≠ ⟨p.boatCount, room⟩ := fun eq => h (congrArg Fin.val eq)
  simp [Player.seated, Player.withNext, Player.counted, Function.update_of_ne other]

/-- One turn of the loop: how it ends, or what it goes on with. -/
theorem seatLoop_cons {decode : Json → Option ShipRequest} {edge : ShipRequest → Option Int}
    {item : Json} {rest : List Json} {p : Player} {e : Bool × Player}
    (h : seatLoop decode edge (item :: rest) p = some e) :
    ∃ ship, decode item = some ship ∧
      (maxShips ≤ p.boatCount ∧ e = (true, p) ∨
      p.boatCount < maxShips ∧ e = (false, p) ∧
        canPlaceShip p.board ship.row ship.col ship.length ship.horizontal = some false ∨
      ∃ room far, p.board.Admits ship ∧ edge ship = some far ∧
        seatLoop decode edge rest (p.seated room ship) = some e) := by
  simp only [seatLoop, Option.bind_eq_bind] at h
  obtain ⟨ship, decoded, h⟩ := Option.bind_eq_some_iff.mp h
  refine ⟨ship, decoded, ?_⟩
  split at h
  · rename_i full
    exact .inl ⟨full, (Option.some.inj h).symm⟩
  · rename_i room
    obtain ⟨seat, eq, h⟩ := Option.bind_eq_some_iff.mp h
    cases seat with
    | none => exact .inr (.inl ⟨not_le.mp room, (Option.some.inj h).symm, seat_none eq⟩)
    | some p' =>
        obtain ⟨fits, room, rfl⟩ := seat_some eq
        obtain ⟨far, defined, h⟩ := Option.bind_eq_some_iff.mp h
        exact .inr (.inr ⟨room, far, fits, defined, h⟩)

/-- The turn that seats a ship. -/
theorem seatLoop_step {decode : Json → Option ShipRequest} {edge : ShipRequest → Option Int}
    {item : Json} {ship : ShipRequest} {p : Player} {far : Int} (rest : List Json)
    (decoded : decode item = some ship) (room : p.boatCount < maxShips)
    (fits : p.board.Admits ship) (defined : edge ship = some far) :
    seatLoop decode edge (item :: rest) p = seatLoop decode edge rest (p.seated room ship) := by
  simp only [seatLoop, decoded, Option.bind_eq_bind, Option.bind_some, if_neg (not_le.mpr room),
    seat_of_fits room fits, defined]
  rfl

/-- These ships were seated one after the other. -/
inductive Seats : Player → List ShipRequest → Player → Prop
  | nil (p : Player) : Seats p [] p
  | cons {p p' : Player} {ship : ShipRequest} {ships : List ShipRequest}
      (room : p.boatCount < maxShips) : p.board.Admits ship →
      Seats (p.seated room ship) ships p' → Seats p (ship :: ships) p'

/-- The loop seats a prefix of the list, and stops at its end, at the last slot
or at a ship that does not fit. -/
theorem seatLoop_seats {decode : Json → Option ShipRequest} {edge : ShipRequest → Option Int}
    {items : List Json} {p : Player} {e : Bool × Player}
    (h : seatLoop decode edge items p = some e) :
    ∃ ships rest, items.map decode = ships.map some ++ rest ∧ Seats p ships e.2 ∧
      (e.1 = true → rest = [] ∨ maxShips ≤ e.2.boatCount) := by
  induction items generalizing p with
  | nil =>
      cases h
      exact ⟨[], [], rfl, .nil p, fun _ => .inl rfl⟩
  | cons item rest ih =>
      obtain ⟨ship, decoded, ⟨full, rfl⟩ | ⟨-, rfl, -⟩ | ⟨room, _, fits, -, h⟩⟩ :=
        seatLoop_cons h
      · exact ⟨[], _, rfl, .nil p, fun _ => .inr full⟩
      · exact ⟨[], _, rfl, .nil p, nofun⟩
      · obtain ⟨ships, left, eq, seats, stop⟩ := ih h
        refine ⟨ship :: ships, left, ?_, .cons room fits seats, stop⟩
        simp [decoded, eq]

theorem Seats.count {p p' : Player} {ships : List ShipRequest} (h : Seats p ships p') :
    p'.boatCount = p.boatCount + ships.length := by
  induction h with
  | nil p => rfl
  | cons room _ _ ih =>
      rw [ih, seated_boatCount, List.length_cons]
      omega

theorem Seats.count_le {p p' : Player} {ships : List ShipRequest} (h : Seats p ships p')
    (start : p.boatCount ≤ maxShips) : p'.boatCount ≤ maxShips := by
  induction h with
  | nil p => exact start
  | cons room _ _ ih => exact ih room

/-- Ships only go on empty cells. -/
theorem Seats.keeps_cell {p p' : Player} {ships : List ShipRequest} (h : Seats p ships p')
    {c : Cell} (marked : p.board.cells c.1 c.2 ≠ .empty) :
    p'.board.cells c.1 c.2 = p.board.cells c.1 c.2 := by
  induction h with
  | nil p => rfl
  | @cons p p' ship ships room fits _ ih =>
      have same : (p.board.withRequest ship).cells c.1 c.2 = p.board.cells c.1 c.2 := by
        rw [Board.withRequest_cells, if_neg]
        exact fun inside => marked (fits.empty_of_mem inside)
      rw [seated_board, same] at ih
      exact ih marked

theorem Seats.keeps_boat {p p' : Player} {ships : List ShipRequest} (h : Seats p ships p')
    {b : Fin maxShips} (used : b.val < p.boatCount) : p'.boats b = p.boats b := by
  induction h with
  | nil p => rfl
  | cons room _ _ ih =>
      rw [ih (by rw [seated_boatCount]; omega)]
      exact seated_boat_of_ne _ room _ (by omega)

/-- The ship at index `k` of the list is the boat `k` slots on. -/
theorem Seats.slot {P : Boat → ShipRequest → Prop}
    (new : ∀ (p : Player) (room : p.boatCount < maxShips) (ship : ShipRequest),
      p.board.Admits ship → P ((p.seated room ship).boats ⟨p.boatCount, room⟩) ship)
    {p p' : Player} {ships : List ShipRequest} (h : Seats p ships p') {k : Nat}
    (hk : k < ships.length) (slot : p.boatCount + k < maxShips) :
    P (p'.boats ⟨p.boatCount + k, slot⟩) ships[k] := by
  induction h generalizing k with
  | nil p => exact absurd hk (Nat.not_lt_zero k)
  | @cons p p' ship ships room fits seats ih =>
      cases k with
      | zero =>
          have same := seats.keeps_boat (b := ⟨p.boatCount, room⟩) (Nat.lt_succ_self p.boatCount)
          exact same ▸ new p room ship fits
      | succ k =>
          have shifted : (p.seated room ship).boatCount + k = p.boatCount + (k + 1) := by
            rw [seated_boatCount]
            omega
          have rest := ih (Nat.lt_of_succ_lt_succ hk) (shifted ▸ slot)
          simp only [shifted] at rest
          exact rest

def ShipRequest.cells (ship : ShipRequest) : Finset Cell :=
  shipCells ship.row ship.col ship.horizontal ship.length.toNat

/-- The board afterwards is the board before with the ships on it. -/
theorem Seats.cells {p p' : Player} {ships : List ShipRequest} (h : Seats p ships p') (c : Cell) :
    p'.board.cells c.1 c.2 =
      if ∃ ship ∈ ships, c ∈ ship.cells then .ship else p.board.cells c.1 c.2 := by
  induction h with
  | nil p => simp
  | @cons p p' ship ships room fits _ ih =>
      rw [ih, seated_board, Board.withRequest_cells]
      simp only [List.exists_mem_cons_iff]
      by_cases later : ∃ ship ∈ ships, c ∈ ship.cells
      · rw [if_pos later, if_pos (.inr later)]
      · simp only [later, or_false, if_false]
        rfl

/-- Ships that fit one by one and lie apart can be seated in any order. -/
theorem exists_seats {p : Player} {ships : List ShipRequest}
    (room : p.boatCount + ships.length ≤ maxShips) (fits : ∀ ship ∈ ships, p.board.Admits ship)
    (apart : ships.Pairwise (fun a b => Disjoint a.cells b.cells)) :
    ∃ p', Seats p ships p' := by
  induction ships generalizing p with
  | nil => exact ⟨p, .nil p⟩
  | cons ship ships ih =>
      rw [List.length_cons] at room
      have free : p.boatCount < maxShips := by omega
      obtain ⟨alone, apart⟩ := List.pairwise_cons.mp apart
      obtain ⟨p', seats⟩ := ih (p := p.seated free ship)
        (by rw [seated_boatCount]; omega)
        (fun other member => (fits other (.tail _ member)).withRequest (alone other member)) apart
      exact ⟨p', .cons free (fits ship (.head _)) seats⟩

/-- The loop accepts a list that can be seated. -/
theorem Seats.seatLoop {decode : Json → Option ShipRequest} {edge : ShipRequest → Option Int}
    {items : List Json} {p p' : Player} {ships : List ShipRequest} (h : Seats p ships p')
    (decoded : List.Forall₂ (fun item ship => decode item = some ship) items ships)
    (defined : ∀ ship ∈ ships, (edge ship).isSome) :
    seatLoop decode edge items p = some (true, p') := by
  induction h generalizing items with
  | nil p =>
      cases decoded
      rfl
  | @cons p p' ship ships room fits _ ih =>
      cases decoded with
      | cons first decoded =>
          obtain ⟨far, edge_eq⟩ := Option.isSome_iff_exists.mp (defined ship (.head _))
          rw [seatLoop_step _ first room fits edge_eq]
          exact ih decoded fun other member => defined other (.tail _ member)

theorem Seats.isOpp {p p' : Player} {ships : List ShipRequest} (h : Seats p ships p') :
    p'.board.isOpp = p.board.isOpp := by
  induction h with
  | nil p => rfl
  | cons _ _ _ ih => exact ih

end Battleship
