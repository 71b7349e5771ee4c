import Battleship.Game

/-!
# Game mechanics

The functions of `game_logic.c` as memory functions: everything they do to the
boards between two calls into the system. What they send is in `Effects`.
-/
namespace Battleship

/-- The values `esp_random` returns, and how many have been drawn. -/
structure Rng where
  stream : Nat → UInt32
  drawn : Nat

def Rng.peek (rng : Rng) (k : Nat) : UInt32 := rng.stream (rng.drawn + k)

def Rng.skip (rng : Rng) (k : Nat) : Rng := { rng with drawn := rng.drawn + k }

def initBoard (isOpp : Bool) : Board := ⟨fun _ _ => .empty, isOpp⟩

/-- The cell that offset `i` of a ship occupies. -/
def shipCell (row col : Int) (horizontal : Bool) (i : Nat) : Coordinate :=
  if horizontal then ⟨row, col + i⟩ else ⟨row + i, col⟩

def scanEmpty (b : Board) (row col : Int) (horizontal : Bool) : List Nat → Option Bool
  | [] => some true
  | i :: is => do
      let at_i := shipCell row col horizontal i
      let cell ← b.read at_i.row at_i.col
      if cell ≠ .empty then return false else scanEmpty b row col horizontal is

/-- Only the far edge in the direction of the ship is tested before the cells
are read. -/
def canPlaceShip (b : Board) (row col length : Int) (horizontal : Bool) : Option Bool := do
  let edge ← cInt ((if horizontal then col else row) + length)
  if edge > gridSize then return false
  else scanEmpty b row col horizontal (List.range length.toNat)

def placeCells (row col : Int) (horizontal : Bool) :
    List Nat → Board → Boat → Option (Board × Boat)
  | [], b, boat => some (b, boat)
  | i :: is, b, boat => do
      let at_i := shipCell row col horizontal i
      let b ← b.write at_i.row at_i.col .ship
      let boat ← boat.setCoord i at_i
      placeCells row col horizontal is b { boat with horizontal := horizontal }

def placeShip (b : Board) (boat : Boat) (row col length : Int) (horizontal : Bool) :
    Option (Board × Boat) :=
  placeCells row col horizontal (List.range length.toNat) b
    { boat with length := length, hitCount := 0 }

/-- `place_ship` on a player's board and the boat in slot `boat_count`. -/
def Player.placeNext (p : Player) (row col length : Int) (horizontal : Bool) : Option Player := do
  let slot ← p.boatAt p.boatCount
  let (board, boat) ← placeShip p.board slot row col length horizontal
  { p with board := board }.setBoat p.boatCount boat

/-- The result letters `H`, `M`, `S` and 0 of `apply_guess`. -/
inductive GuessResult where
  | hit
  | miss
  | sunk
  | rejected
  deriving DecidableEq, Repr

def scanCoords (boat : Boat) (row col : Int) : List Nat → Option Bool
  | [] => some false
  | i :: is => do
      let c ← boat.coordAt i
      if c = ⟨row, col⟩ then return true else scanCoords boat row col is

def findBoat (p : Player) (row col : Int) : List Nat → Option (Option Nat)
  | [] => some none
  | b :: bs => do
      let boat ← p.boatAt b
      let found ← scanCoords boat row col (List.range boat.length.toNat)
      if found then return some b else findBoat p row col bs

def sinkCells (boat : Boat) : List Nat → Board → Option Board
  | [], b => some b
  | j :: js, b => do
      let c ← boat.coordAt j
      let b ← b.write c.row c.col .sunk
      sinkCells boat js b

/-- The part of `apply_guess` after its search has found boat `b`: the counter
and, on the last cell, the whole boat. -/
def hitBoat (p : Player) (b : Nat) : Option (Player × GuessResult × Option Nat) := do
  let boat ← p.boatAt b
  let boat := { boat with hitCount := boat.hitCount + 1 }
  let p ← p.setBoat b boat
  if boat.hitCount = boat.length then
    let board ← sinkCells boat (List.range boat.length.toNat) p.board
    return ({ p with board := board }, .sunk, some b)
  else return (p, .hit, none)

/-- All that `apply_guess` does to its target, with the index of the boat it
sank. A ship cell that no boat claims is marked hit and falls through to 0. -/
def guessCell (p : Player) (row col : Int) : Option (Player × GuessResult × Option Nat) := do
  let cell ← p.board.read row col
  if cell = .ship then
    let board ← p.board.write row col .hit
    let p := { p with board := board }
    match ← findBoat p row col (List.range p.boatCount) with
    | some b => hitBoat p b
    | none => return (p, .rejected, none)
  else if cell = .empty then
    let board ← p.board.write row col .miss
    return ({ p with board := board }, .miss, none)
  else return (p, .rejected, none)

def Player.mark (p : Player) (i j : Fin gridSize) (v : CellState) : Player :=
  { p with board := p.board.set i j v }

/-- The four ways a guess can go: a miss, a ship cell that no boat claims, a
hit, and a cell that has been guessed before. -/
theorem guessCell_cases {p : Player} {row col : Int} {r : Player × GuessResult × Option Nat}
    (h : guessCell p row col = some r) : ∃ i j : Fin gridSize, row = i.val ∧ col = j.val ∧
      (p.board.cells i j = .empty ∧ r = (p.mark i j .miss, .miss, none) ∨
      p.board.cells i j = .ship ∧
        findBoat (p.mark i j .hit) row col (List.range p.boatCount) = some none ∧
        r = (p.mark i j .hit, .rejected, none) ∨
      (∃ b, p.board.cells i j = .ship ∧
        findBoat (p.mark i j .hit) row col (List.range p.boatCount) = some (some b) ∧
        hitBoat (p.mark i j .hit) b = some r) ∨
      p.board.cells i j ≠ .ship ∧ p.board.cells i j ≠ .empty ∧ r = (p, .rejected, none)) := by
  simp only [guessCell, Option.bind_eq_bind, Option.bind_eq_some_iff] at h
  obtain ⟨cell, read, h⟩ := h
  obtain ⟨i, j, rfl, rfl, rfl⟩ := Board.read_some read
  refine ⟨i, j, rfl, rfl, ?_⟩
  split at h
  · rename_i ship
    simp only [Option.bind_eq_some_iff, Board.write_val, Option.some.injEq] at h
    obtain ⟨_, rfl, found, search, h⟩ := h
    cases found with
    | none =>
        cases h
        exact .inr (.inl ⟨ship, search, rfl⟩)
    | some b => exact .inr (.inr (.inl ⟨b, ship, search, h⟩))
  · rename_i other
    split at h
    · rename_i empty
      simp only [Option.bind_eq_some_iff, Board.write_val, Option.some.injEq] at h
      obtain ⟨_, rfl, h⟩ := h
      cases h
      exact .inl ⟨empty, rfl⟩
    · rename_i marked
      cases h
      exact .inr (.inr (.inr ⟨other, marked, rfl⟩))

def Boat.countHit (boat : Boat) : Boat := { boat with hitCount := boat.hitCount + 1 }

def Player.countHit (p : Player) (b : Fin maxShips) : Player :=
  { p with boats := Function.update p.boats b (p.boats b).countHit }

theorem hitBoat_slot (p : Player) (b : Fin maxShips) : hitBoat p b =
    if (p.boats b).hitCount + 1 = (p.boats b).length then
      (sinkCells (p.boats b).countHit (List.range (p.boats b).length.toNat) p.board).map
        (fun board => ({ p.countHit b with board := board }, .sunk, some b.val))
    else some (p.countHit b, .hit, none) := by
  simp only [hitBoat, Player.boatAt, dif_pos b.isLt, Option.bind_eq_bind, Option.bind_some,
    Player.setBoat]
  split
  · rw [Option.map_eq_bind]
    rfl
  · rfl

theorem hitBoat_cases {p : Player} {b : Nat} {r : Player × GuessResult × Option Nat}
    (h : hitBoat p b = some r) : ∃ b' : Fin maxShips, b = b'.val ∧
      ((p.boats b').hitCount + 1 ≠ (p.boats b').length ∧ r = (p.countHit b', .hit, none) ∨
      (p.boats b').hitCount + 1 = (p.boats b').length ∧
        ∃ board, sinkCells (p.boats b').countHit (List.range (p.boats b').length.toNat) p.board =
          some board ∧ r = ({ p.countHit b' with board := board }, .sunk, some b)) := by
  by_cases inside : b < maxShips
  · refine ⟨⟨b, inside⟩, rfl, ?_⟩
    rw [show b = (⟨b, inside⟩ : Fin maxShips).val from rfl, hitBoat_slot] at h
    split at h
    · rename_i last
      obtain ⟨board, sunk, eq⟩ := Option.map_eq_some_iff.mp h
      exact .inr ⟨last, board, sunk, eq.symm⟩
    · rename_i more
      exact .inl ⟨more, (Option.some.inj h).symm⟩
  · simp only [hitBoat, Player.boatAt, dif_neg inside, Option.bind_eq_bind, Option.bind_none,
      reduceCtorEq] at h

/-- A rejected guess sinks nothing. -/
theorem guessCell_rejected {p : Player} {row col : Int} {r : Player × GuessResult × Option Nat}
    (h : guessCell p row col = some r) (rejected : r.2.1 = .rejected) : r.2.2 = none := by
  obtain ⟨i, j, -, -, ⟨-, rfl⟩ | ⟨-, -, rfl⟩ | ⟨b, -, -, hit⟩ | ⟨-, -, rfl⟩⟩ := guessCell_cases h
  · rfl
  · rfl
  · obtain ⟨b', -, ⟨-, rfl⟩ | ⟨-, board, -, rfl⟩⟩ := hitBoat_cases hit
    · rfl
    · cases rejected
  · rfl

/-- A sunk boat is one of the array. -/
theorem guessCell_slot {p : Player} {row col : Int} {r : Player × GuessResult × Option Nat}
    (h : guessCell p row col = some r) {b : Nat} (sunk : r.2.2 = some b) : b < maxShips := by
  obtain ⟨i, j, -, -, ⟨-, rfl⟩ | ⟨-, -, rfl⟩ | ⟨b₁, -, -, hit⟩ | ⟨-, -, rfl⟩⟩ := guessCell_cases h
  · cases sunk
  · cases sunk
  · obtain ⟨b', rfl, ⟨-, rfl⟩ | ⟨-, board, -, rfl⟩⟩ := hitBoat_cases hit
    · cases sunk
    · cases sunk
      exact b'.isLt
  · cases sunk

def scanSunk (p : Player) : List Nat → Option Bool
  | [] => some true
  | b :: bs => do
      let boat ← p.boatAt b
      if boat.hitCount < boat.length then return false else scanSunk p bs

def allShipsSunk (p : Player) : Option Bool := scanSunk p (List.range p.boatCount)

/-- One draw of `place_random_ships`: row, column and orientation. -/
structure Draw where
  row : Int
  col : Int
  horizontal : Bool
  deriving DecidableEq, Repr

def Draw.ofRng (rng : Rng) : Draw :=
  ⟨((rng.peek 0).toNat % gridSize : Nat), ((rng.peek 1).toNat % gridSize : Nat),
    (rng.peek 2).toNat % 2 = 1⟩

/-- The attempts for one ship: the first draw that fits, and the stream after
the last draw made. -/
def tryPlace (b : Board) (length : Int) : Nat → Rng → Option (Option Draw × Rng)
  | 0, rng => some (none, rng)
  | n + 1, rng => do
      let d := Draw.ofRng rng
      if ← canPlaceShip b d.row d.col length d.horizontal then return (some d, rng.skip 3)
      else tryPlace b length n (rng.skip 3)

def maxAttempts : Nat := 100

/-- One round of the loop of `place_random_ships` up to its first system call:
search, and put the ship into slot `boat_count`. -/
def placeRandomShip (p : Player) (length : Int) (rng : Rng) :
    Option (Option Draw × Player × Rng) := do
  let (found, rng) ← tryPlace p.board length maxAttempts rng
  match found with
  | none => return (none, p, rng)
  | some d =>
      let p ← p.placeNext d.row d.col length d.horizontal
      return (some d, p, rng)

end Battleship
