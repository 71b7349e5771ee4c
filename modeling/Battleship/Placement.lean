import Battleship.Http
import Mathlib.Data.Fintype.Prod
import Mathlib.Data.Finset.Card

/-!
# Placing a ship

What `can_place_ship` tests and what `place_ship` writes, in closed form. Both
hold for any row, column and length, also those a request made up.
-/
namespace Battleship

abbrev Cell := Fin gridSize × Fin gridSize

def Cell.coord (c : Cell) : Coordinate := ⟨c.1.val, c.2.val⟩

theorem Cell.coord_injective : Function.Injective Cell.coord := by
  intro a b h
  simp only [Cell.coord, Coordinate.mk.injEq] at h
  ext <;> omega

/-- The cells of the grid on the first `n` offsets of a ship. -/
def shipCells (row col : Int) (horizontal : Bool) (n : Nat) : Finset Cell :=
  Finset.univ.filter (fun c => ∃ i < n, shipCell row col horizontal i = c.coord)

theorem mem_shipCells {row col : Int} {horizontal : Bool} {n : Nat} {c : Cell} :
    c ∈ shipCells row col horizontal n ↔ ∃ i < n, shipCell row col horizontal i = c.coord := by
  simp [shipCells]

def InGrid (c : Coordinate) : Prop := ∃ cell : Cell, cell.coord = c

instance (c : Coordinate) : Decidable (InGrid c) :=
  inferInstanceAs (Decidable (∃ cell : Cell, cell.coord = c))

theorem Board.read_coord (b : Board) (c : Cell) :
    b.read c.coord.row c.coord.col = some (b.cells c.1 c.2) := b.read_val c.1 c.2

theorem Board.write_coord (b : Board) (c : Cell) (v : CellState) :
    b.write c.coord.row c.coord.col v = some (b.set c.1 c.2 v) := b.write_val c.1 c.2 v

theorem inGrid_of_read {b : Board} {c : Coordinate} {v : CellState}
    (h : b.read c.row c.col = some v) : ∃ cell : Cell, cell.coord = c ∧ b.cells cell.1 cell.2 = v := by
  obtain ⟨i, j, row, col, eq⟩ := Board.read_some h
  refine ⟨(i, j), ?_, eq⟩
  cases c
  simp only [Cell.coord, Coordinate.mk.injEq]
  exact ⟨row.symm, col.symm⟩

/-- The far edge is inside, and the cells are there and empty. -/
structure Fits (b : Board) (row col length : Int) (horizontal : Bool) : Prop where
  low : -2147483648 ≤ (if horizontal then col else row) + length
  edge : (if horizontal then col else row) + length ≤ gridSize
  free : ∀ i < length.toNat, ∃ c : Cell, shipCell row col horizontal i = c.coord ∧
    b.cells c.1 c.2 = .empty

theorem scanEmpty_true {b : Board} {row col : Int} {horizontal : Bool} {is : List Nat} :
    scanEmpty b row col horizontal is = some true ↔ ∀ i ∈ is, ∃ c : Cell,
      shipCell row col horizontal i = c.coord ∧ b.cells c.1 c.2 = .empty := by
  induction is with
  | nil => simp [scanEmpty]
  | cons i is ih =>
      simp only [scanEmpty, Option.bind_eq_bind, Option.bind_eq_some_iff, List.forall_mem_cons,
        ← ih]
      constructor
      · rintro ⟨cell, read, h⟩
        split at h
        · cases h
        · rename_i empty
          obtain ⟨c, eq, value⟩ := inGrid_of_read read
          exact ⟨⟨c, eq.symm, value.trans (by simpa using empty)⟩, h⟩
      · rintro ⟨⟨c, eq, empty⟩, h⟩
        refine ⟨.empty, ?_, by simpa using h⟩
        rw [eq, Board.read_coord, empty]

theorem canPlaceShip_true {b : Board} {row col length : Int} {horizontal : Bool} :
    canPlaceShip b row col length horizontal = some true ↔ Fits b row col length horizontal := by
  simp only [canPlaceShip, Option.bind_eq_bind, Option.bind_eq_some_iff]
  constructor
  · rintro ⟨edge, defined, h⟩
    have range := cInt_range defined
    have eq := cInt_some defined
    by_cases far : edge > gridSize
    · rw [if_pos far] at h
      cases h
    · rw [if_neg far] at h
      refine ⟨range.1, ?_, fun i hi => scanEmpty_true.mp h i (List.mem_range.mpr hi)⟩
      rw [← eq]
      exact not_lt.mp far
  · rintro ⟨low, edge, free⟩
    have small : (if horizontal = true then col else row) + length ≤ 5 := edge
    refine ⟨_, cInt_eq_some low (by omega), ?_⟩
    rw [if_neg (not_lt.mpr edge)]
    exact scanEmpty_true.mpr fun i hi => free i (List.mem_range.mp hi)

theorem scanEmpty_some (b : Board) {row col : Int} {horizontal : Bool} {is : List Nat}
    (inside : ∀ i ∈ is, InGrid (shipCell row col horizontal i)) :
    ∃ free, scanEmpty b row col horizontal is = some free := by
  induction is with
  | nil => exact ⟨true, rfl⟩
  | cons i is ih =>
      obtain ⟨c, hc⟩ := inside i List.mem_cons_self
      obtain ⟨free, later⟩ := ih fun j hj => inside j (List.mem_cons_of_mem i hj)
      simp only [scanEmpty, ← hc, Board.read_coord, Option.bind_eq_bind, Option.bind_some, later]
      split
      · exact ⟨false, rfl⟩
      · exact ⟨free, rfl⟩

/-- From a cell of the grid the far edge is the only one a ship can cross. -/
theorem canPlaceShip_some (b : Board) (row col : Fin gridSize) {length : Int}
    (short : 0 ≤ length ∧ length ≤ gridSize) (horizontal : Bool) :
    ∃ fits, canPlaceShip b row.val col.val length horizontal = some fits := by
  have size : (gridSize : Int) = 5 := rfl
  let anchor : Fin gridSize := if horizontal then col else row
  have start : (if horizontal then (col.val : Int) else row.val) = anchor.val := by
    cases horizontal <;> rfl
  have defined : cInt ((if horizontal then (col.val : Int) else row.val) + length) =
      some ((anchor.val : Int) + length) := by
    rw [start]
    exact cInt_eq_some (by omega) (by omega)
  simp only [canPlaceShip, defined, Option.bind_eq_bind, Option.bind_some]
  split
  · exact ⟨false, rfl⟩
  · rename_i near
    refine scanEmpty_some b fun i hi => ?_
    have below := List.mem_range.mp hi
    cases horizontal with
    | true =>
        refine ⟨(row, ⟨col.val + i, ?_⟩), ?_⟩
        · have eq : anchor = col := rfl
          rw [eq] at near
          omega
        · simp [Cell.coord, shipCell]
    | false =>
        refine ⟨(⟨row.val + i, ?_⟩, col), ?_⟩
        · have eq : anchor = row := rfl
          rw [eq] at near
          omega
        · simp [Cell.coord, shipCell]

/-- A ship that fits is no longer than the grid. -/
theorem Fits.length_le {b : Board} {row col length : Int} {horizontal : Bool}
    (h : Fits b row col length horizontal) : length.toNat ≤ gridSize := by
  by_contra long
  obtain ⟨first, eq_first, -⟩ := h.free 0 (by omega)
  obtain ⟨last, eq_last, -⟩ := h.free gridSize (by omega)
  cases horizontal with
  | true =>
      simp only [shipCell, if_true, Cell.coord, Coordinate.mk.injEq] at eq_first eq_last
      omega
  | false =>
      simp only [shipCell, Bool.false_eq_true, if_false, Cell.coord,
        Coordinate.mk.injEq] at eq_first eq_last
      omega

def Board.withShip (b : Board) (row col : Int) (horizontal : Bool) (n : Nat) : Board :=
  { b with cells := fun r c => if (r, c) ∈ shipCells row col horizontal n then .ship
    else b.cells r c }

def Boat.withCells (boat : Boat) (row col : Int) (horizontal : Bool) (n : Nat) : Boat :=
  { boat with
    coords := fun j => if j.val < n then shipCell row col horizontal j.val else boat.coords j
    horizontal := if n = 0 then boat.horizontal else horizontal }

theorem placeCells_append (row col : Int) (horizontal : Bool) (is js : List Nat) (b : Board)
    (boat : Boat) : placeCells row col horizontal (is ++ js) b boat =
      (placeCells row col horizontal is b boat).bind
        (fun r => placeCells row col horizontal js r.1 r.2) := by
  induction is generalizing b boat with
  | nil => rfl
  | cons i is ih =>
      simp only [List.cons_append, placeCells, Option.bind_eq_bind, Option.bind_assoc, ih]

theorem withShip_succ {b : Board} {row col : Int} {horizontal : Bool} {n : Nat} {c : Cell}
    (h : shipCell row col horizontal n = c.coord) :
    (b.withShip row col horizontal n).set c.1 c.2 .ship =
      b.withShip row col horizontal (n + 1) := by
  simp only [Board.set, Board.withShip, Board.mk.injEq, and_true]
  funext r c'
  have grown : (r, c') ∈ shipCells row col horizontal (n + 1) ↔
      (r = c.1 ∧ c' = c.2) ∨ (r, c') ∈ shipCells row col horizontal n := by
    simp only [mem_shipCells]
    constructor
    · rintro ⟨i, hi, eq⟩
      by_cases last : i = n
      · subst last
        have same := Cell.coord_injective (eq.symm.trans h)
        exact .inl ⟨congrArg Prod.fst same, congrArg Prod.snd same⟩
      · exact .inr ⟨i, by omega, eq⟩
    · rintro (⟨rfl, rfl⟩ | ⟨i, hi, eq⟩)
      · exact ⟨n, by omega, h⟩
      · exact ⟨i, by omega, eq⟩
  simp only [grown]
  by_cases new : r = c.1 ∧ c' = c.2
  · simp [new]
  · simp [new]

theorem withCells_succ (boat : Boat) (row col : Int) (horizontal : Bool) {n : Nat} (hn : n < 5) :
    { (boat.withCells row col horizontal n) with
      coords := Function.update (boat.withCells row col horizontal n).coords ⟨n, hn⟩
        (shipCell row col horizontal n)
      horizontal := horizontal } = boat.withCells row col horizontal (n + 1) := by
  simp only [Boat.withCells, Boat.mk.injEq, true_and, Nat.succ_ne_zero, if_false, and_true]
  funext j
  by_cases last : j = ⟨n, hn⟩
  · subst last
    simp
  · have other : j.val ≠ n := fun eq => last (Fin.ext eq)
    rw [Function.update_of_ne last]
    by_cases before : j.val < n
    · simp [before, Nat.lt_succ_of_lt before]
    · simp [before, show ¬j.val < n + 1 by omega]

/-- The loop of `place_ship`, when its cells are in the grid. -/
theorem placeCells_range {row col : Int} {horizontal : Bool} {n : Nat} (hn : n ≤ 5)
    (inside : ∀ i < n, InGrid (shipCell row col horizontal i)) (b : Board) (boat : Boat) :
    placeCells row col horizontal (List.range n) b boat =
      some (b.withShip row col horizontal n, boat.withCells row col horizontal n) := by
  induction n with
  | zero => simp [placeCells, Board.withShip, Boat.withCells, shipCells]
  | succ n ih =>
      obtain ⟨c, hc⟩ := inside n (Nat.lt_succ_self n)
      have before := ih (by omega) fun i hi => inside i (by omega)
      rw [List.range_succ, placeCells_append, before]
      simp only [Option.bind_some, placeCells, Option.bind_eq_bind, ← hc, Board.write_coord,
        Boat.setCoord, dif_pos (show n < 5 by omega)]
      rw [withShip_succ hc.symm, hc, withCells_succ boat row col horizontal (by omega)]

theorem placeShip_of_fits {b b' : Board} {row col length : Int} {horizontal : Bool}
    (h : Fits b' row col length horizontal) (boat : Boat) :
    placeShip b boat row col length horizontal =
      some (b.withShip row col horizontal length.toNat,
        { boat with length := length, hitCount := 0 }.withCells row col horizontal
          length.toNat) :=
  placeCells_range h.length_le (fun i hi => (h.free i hi).imp fun _ free => free.1.symm) _ _

/-- The player after `place_ship` on the boat in this slot. -/
def Player.withNext (p : Player) (slot : Fin maxShips) (row col length : Int)
    (horizontal : Bool) : Player where
  board := p.board.withShip row col horizontal length.toNat
  boats := Function.update p.boats slot
    ({ p.boats slot with length := length, hitCount := 0 }.withCells row col horizontal
      length.toNat)
  boatCount := p.boatCount

theorem placeNext_of_fits {p : Player} {row col length : Int} {horizontal : Bool}
    (room : p.boatCount < maxShips) (h : Fits p.board row col length horizontal) :
    p.placeNext row col length horizontal =
      some (p.withNext ⟨p.boatCount, room⟩ row col length horizontal) := by
  simp only [Player.placeNext, Player.boatAt, dif_pos room, Option.bind_eq_bind, Option.bind_some,
    placeShip_of_fits h, Player.setBoat, Player.withNext]

theorem placeNext_room {p p' : Player} {row col length : Int} {horizontal : Bool}
    (h : p.placeNext row col length horizontal = some p') : p.boatCount < maxShips := by
  by_contra full
  simp only [Player.placeNext, Player.boatAt, dif_neg full, Option.bind_eq_bind, Option.bind_none,
    reduceCtorEq] at h

theorem seat_of_fits {p : Player} {ship : ShipRequest} (room : p.boatCount < maxShips)
    (h : Fits p.board ship.row ship.col ship.length ship.horizontal) :
    p.seat ship = some (some
      (p.withNext ⟨p.boatCount, room⟩ ship.row ship.col ship.length ship.horizontal)) := by
  simp only [Player.seat, canPlaceShip_true.mpr h, placeNext_of_fits room h, Option.bind_eq_bind,
    Option.bind_some, if_true]
  rfl

/-- A ship that is seated fitted, and went into slot `boat_count`. -/
theorem seat_some {p p' : Player} {ship : ShipRequest} (h : p.seat ship = some (some p')) :
    Fits p.board ship.row ship.col ship.length ship.horizontal ∧
      ∃ room : p.boatCount < maxShips,
        p' = p.withNext ⟨p.boatCount, room⟩ ship.row ship.col ship.length ship.horizontal := by
  obtain ⟨fits, test, h⟩ := Option.bind_eq_some_iff.mp h
  cases fits with
  | false => cases h
  | true =>
      have fit := canPlaceShip_true.mp test
      obtain ⟨p₁, placed, eq⟩ := Option.bind_eq_some_iff.mp h
      have room := placeNext_room placed
      rw [placeNext_of_fits room fit] at placed
      cases placed
      cases eq
      exact ⟨fit, room, rfl⟩

theorem seat_none {p : Player} {ship : ShipRequest} (h : p.seat ship = some none) :
    canPlaceShip p.board ship.row ship.col ship.length ship.horizontal = some false := by
  obtain ⟨fits, test, h⟩ := Option.bind_eq_some_iff.mp h
  cases fits with
  | false => exact test
  | true =>
      obtain ⟨p₁, -, eq⟩ := Option.bind_eq_some_iff.mp h
      cases eq

end Battleship
