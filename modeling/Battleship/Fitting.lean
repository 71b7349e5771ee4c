import Battleship.Placement

/-!
# The placement test

`can_place_ship` tests one edge and then reads. Its answer is the right one for
what the far edge rejects, and for ships with cells that start in the grid.
-/
namespace Battleship

/-- The ship has a cell, and all of its cells are in the grid and empty. -/
def Placeable (b : Board) (row col length : Int) (horizontal : Bool) : Prop :=
  1 ≤ length ∧ ∀ i : Nat, i < length → ∃ c : Cell,
    shipCell row col horizontal i = c.coord ∧ b.cells c.1 c.2 = .empty

/-- The test answers, from cells of the grid alone, whether the ship can be
placed. After a yes `place_ship` stays in the grid and in the boat's array. -/
structure TestsPlacement (b : Board) (row col length : Int) (horizontal : Bool) : Prop where
  answer : ∃ fits, canPlaceShip b row col length horizontal = some fits ∧
    (fits = true ↔ Placeable b row col length horizontal)
  writes : canPlaceShip b row col length horizontal = some true → length ≤ 5 ∧
    ∀ boat, ∃ b' boat', placeShip b boat row col length horizontal = some (b', boat') ∧
      (∀ c : Cell, c ∉ shipCells row col horizontal length.toNat →
        b'.cells c.1 c.2 = b.cells c.1 c.2) ∧
      ∀ j : Fin 5, length ≤ j.val → boat'.coords j = boat.coords j

/-- The sum that is compared with the size of the grid. -/
def shipEdge (row col length : Int) (horizontal : Bool) : Int :=
  (if horizontal then col else row) + length

/-- The far edge is an `int`, and it is outside the grid or the ship has a cell
and its first one is inside. -/
def Testable (row col length : Int) (horizontal : Bool) : Prop :=
  (-2147483648 ≤ shipEdge row col length horizontal ∧
    shipEdge row col length horizontal ≤ 2147483647) ∧
  (shipEdge row col length horizontal > gridSize ∨
    1 ≤ length ∧ (0 ≤ row ∧ row < gridSize) ∧ 0 ≤ col ∧ col < gridSize)

instance (row col length : Int) (horizontal : Bool) :
    Decidable (Testable row col length horizontal) := inferInstanceAs (Decidable (_ ∧ _))

theorem Fits.free_int {b : Board} {row col length : Int} {horizontal : Bool}
    (h : Fits b row col length horizontal) {i : Nat} (hi : i < length) :
    ∃ c : Cell, shipCell row col horizontal i = c.coord ∧ b.cells c.1 c.2 = .empty :=
  h.free i (by omega)

/-- The last cell of a ship is the one before its far edge. -/
theorem Placeable.shipEdge_le {b : Board} {row col length : Int} {horizontal : Bool}
    (h : Placeable b row col length horizontal) : shipEdge row col length horizontal ≤ gridSize := by
  have size : (gridSize : Int) = 5 := rfl
  have long := h.1
  obtain ⟨c, eq, -⟩ := h.2 (length - 1).toNat (by omega)
  cases horizontal with
  | true =>
      simp only [shipCell, if_true, Cell.coord, Coordinate.mk.injEq] at eq
      simp only [shipEdge, if_true]
      omega
  | false =>
      simp only [shipCell, Bool.false_eq_true, if_false, Cell.coord, Coordinate.mk.injEq] at eq
      simp only [shipEdge, Bool.false_eq_true, if_false]
      omega

theorem fits_iff_placeable {b : Board} {row col length : Int} {horizontal : Bool}
    (long : 1 ≤ length) (low : -2147483648 ≤ shipEdge row col length horizontal) :
    Fits b row col length horizontal ↔ Placeable b row col length horizontal := by
  constructor
  · intro fit
    exact ⟨long, fun i hi => fit.free_int hi⟩
  · intro placeable
    exact ⟨low, placeable.shipEdge_le, fun i hi => placeable.2 i (by omega)⟩

/-- A ship without cells passes unless its far edge is outside. -/
theorem fits_of_nonpos {b : Board} {row col length : Int} {horizontal : Bool}
    (short : length ≤ 0) (low : -2147483648 ≤ shipEdge row col length horizontal)
    (near : shipEdge row col length horizontal ≤ gridSize) : Fits b row col length horizontal :=
  ⟨low, near, fun i hi => by omega⟩

theorem canPlaceShip_edge {b : Board} {row col length : Int} {horizontal : Bool}
    (far : shipEdge row col length horizontal > gridSize)
    (high : shipEdge row col length horizontal ≤ 2147483647) :
    canPlaceShip b row col length horizontal = some false := by
  have size : (gridSize : Int) = 5 := rfl
  have defined : cInt ((if horizontal = true then col else row) + length) =
      some (shipEdge row col length horizontal) :=
    cInt_eq_some (le_trans (by omega) far.le) high
  simp only [canPlaceShip, defined, Option.bind_eq_bind, Option.bind_some]
  exact if_pos far

/-- The test never reads past a ship whose first cell and far edge are inside. -/
theorem canPlaceShip_answers {b : Board} {row col length : Int} {horizontal : Bool}
    (long : 1 ≤ length) (inside : (0 ≤ row ∧ row < gridSize) ∧ 0 ≤ col ∧ col < gridSize)
    (near : shipEdge row col length horizontal ≤ gridSize) :
    ∃ fits, canPlaceShip b row col length horizontal = some fits := by
  have size : (gridSize : Int) = 5 := rfl
  obtain ⟨⟨row_low, row_high⟩, col_low, col_high⟩ := inside
  have short : length ≤ gridSize := by
    cases horizontal with
    | true =>
        simp only [shipEdge, if_true] at near
        omega
    | false =>
        simp only [shipEdge, Bool.false_eq_true, if_false] at near
        omega
  have answer := canPlaceShip_some b ⟨row.toNat, by omega⟩ ⟨col.toNat, by omega⟩
    ⟨by omega, short⟩ horizontal
  simpa only [Int.toNat_of_nonneg row_low, Int.toNat_of_nonneg col_low] using answer

/-- A test that comes to the cells reads the first one. -/
theorem canPlaceShip_first {b : Board} {row col length : Int} {horizontal : Bool} {fits : Bool}
    (h : canPlaceShip b row col length horizontal = some fits) (long : 1 ≤ length)
    (near : shipEdge row col length horizontal ≤ gridSize) :
    (0 ≤ row ∧ row < gridSize) ∧ 0 ≤ col ∧ col < gridSize := by
  have size : (gridSize : Int) = 5 := rfl
  obtain ⟨edge, defined, scan⟩ := Option.bind_eq_some_iff.mp h
  have inside : ¬edge > gridSize := by
    rw [cInt_some defined]
    exact not_lt.mpr near
  rw [if_neg inside] at scan
  obtain ⟨n, eq⟩ : ∃ n, length.toNat = n + 1 := ⟨length.toNat - 1, by omega⟩
  rw [eq, List.range_succ_eq_map] at scan
  obtain ⟨cell, read, -⟩ := Option.bind_eq_some_iff.mp scan
  obtain ⟨i, j, at_row, at_col, -⟩ := Board.read_some read
  cases horizontal with
  | true =>
      simp only [shipCell, if_true] at at_row at_col
      omega
  | false =>
      simp only [shipCell, Bool.false_eq_true, if_false] at at_row at_col
      omega

theorem writes_of_fits {b : Board} {row col length : Int} {horizontal : Bool}
    (fit : Fits b row col length horizontal) : length ≤ 5 ∧
      ∀ boat, ∃ b' boat', placeShip b boat row col length horizontal = some (b', boat') ∧
        (∀ c : Cell, c ∉ shipCells row col horizontal length.toNat →
          b'.cells c.1 c.2 = b.cells c.1 c.2) ∧
        ∀ j : Fin 5, length ≤ j.val → boat'.coords j = boat.coords j := by
  have short : length.toNat ≤ 5 := fit.length_le
  refine ⟨by omega, fun boat => ⟨_, _, placeShip_of_fits fit boat, ?_, ?_⟩⟩
  · intro c other
    exact if_neg other
  · intro j beyond
    exact if_neg (by omega)

theorem testsPlacement_of_far (b : Board) {row col length : Int} {horizontal : Bool}
    (far : shipEdge row col length horizontal > gridSize)
    (high : shipEdge row col length horizontal ≤ 2147483647) :
    TestsPlacement b row col length horizontal := by
  have rejected := canPlaceShip_edge (b := b) far high
  refine ⟨⟨false, rejected, ?_⟩, ?_⟩
  · constructor
    · intro eq
      cases eq
    · intro placeable
      exact absurd placeable.shipEdge_le (not_le.mpr far)
  · intro accepted
    cases rejected.symm.trans accepted

/-- `can_place_ship` accepts exactly the placements that fit, in every case but a
ship without cells, or one starting outside, that the far edge lets pass. -/
theorem testsPlacement_iff (b : Board) (row col length : Int) (horizontal : Bool) :
    TestsPlacement b row col length horizontal ↔ Testable row col length horizontal := by
  constructor
  · rintro ⟨⟨fits, test, right⟩, -⟩
    obtain ⟨edge, defined, -⟩ := Option.bind_eq_some_iff.mp test
    have range := cInt_range defined
    refine ⟨range, ?_⟩
    by_cases near : shipEdge row col length horizontal ≤ gridSize
    · refine .inr ?_
      by_cases long : 1 ≤ length
      · exact ⟨long, canPlaceShip_first test long near⟩
      · have fit := fits_of_nonpos (b := b) (by omega) range.1 near
        cases (canPlaceShip_true.mpr fit).symm.trans test
        exact absurd (right.mp rfl).1 long
    · exact .inl (not_le.mp near)
  · rintro ⟨⟨low, high⟩, far | ⟨long, inside⟩⟩
    · exact testsPlacement_of_far b far high
    · by_cases near : shipEdge row col length horizontal ≤ gridSize
      · obtain ⟨fits, test⟩ := canPlaceShip_answers (b := b) long inside near
        have accepts : canPlaceShip b row col length horizontal = some true ↔
            Placeable b row col length horizontal :=
          canPlaceShip_true.trans (fits_iff_placeable long low)
        refine ⟨⟨fits, test, ?_⟩, fun accepted => writes_of_fits (canPlaceShip_true.mp accepted)⟩
        rw [← accepts, test, Option.some.injEq]
      · exact testsPlacement_of_far b (not_le.mp near) high

/-- The setup handler makes row `-1` of a JSON row 5. The test reads outside the
grid, and it accepts a ship without cells. -/
theorem testsPlacement_above : (canPlaceShip (initBoard false) (-1) 0 1 true = none ∧
    canPlaceShip (initBoard false) 0 0 0 true = some true) ∧
    ¬∀ (b : Board) (row col length : Int) (horizontal : Bool),
      TestsPlacement b row col length horizontal := by
  refine ⟨⟨by decide, by decide⟩, fun all => ?_⟩
  obtain ⟨⟨fits, test, -⟩, -⟩ := all (initBoard false) (-1) 0 1 true
  have undefined : canPlaceShip (initBoard false) (-1) 0 1 true = none := by decide
  cases undefined.symm.trans test

end Battleship
