import Battleship.Seating
import Battleship.Lib.Salvo
import Mathlib.Tactic.IntervalCases

/-!
# A player as a battle

The boats, their counters and the grid say the same thing twice. `Represents`
says that they are the fleet and the shots of one `Salvo.Battle`, and seating a
ship launches it there.
-/
namespace Battleship
open Salvo

/-- The cells a boat records. -/
def Boat.cells (boat : Boat) : Finset Cell :=
  Finset.univ.filter (fun c => ∃ i : Fin 5, (i.val : Int) < boat.length ∧ boat.coords i = c.coord)

theorem Boat.mem_cells {boat : Boat} {c : Cell} :
    c ∈ boat.cells ↔ ∃ i : Fin 5, (i.val : Int) < boat.length ∧ boat.coords i = c.coord := by
  simp [Boat.cells]

/-- As many different cells of the grid as the length says. -/
structure Boat.Sound (boat : Boat) : Prop where
  nonneg : 0 ≤ boat.length
  length_le : boat.length ≤ 5
  inGrid : ∀ i : Fin 5, (i.val : Int) < boat.length → InGrid (boat.coords i)
  distinct : ∀ i j : Fin 5, (i.val : Int) < boat.length → (j.val : Int) < boat.length →
    boat.coords i = boat.coords j → i = j

instance (boat : Boat) : Decidable boat.Sound :=
  decidable_of_iff (0 ≤ boat.length ∧ boat.length ≤ 5 ∧
    (∀ i : Fin 5, (i.val : Int) < boat.length → InGrid (boat.coords i)) ∧
    ∀ i j : Fin 5, (i.val : Int) < boat.length → (j.val : Int) < boat.length →
      boat.coords i = boat.coords j → i = j)
    ⟨fun h => ⟨h.1, h.2.1, h.2.2.1, h.2.2.2⟩,
      fun h => ⟨h.nonneg, h.length_le, h.inGrid, h.distinct⟩⟩

/-- On one row or column, without a gap. -/
def Boat.Straight (boat : Boat) : Prop :=
  ∃ row col horizontal, ∀ i : Fin 5, (i.val : Int) < boat.length →
    boat.coords i = shipCell row col horizontal i

theorem card_below {n : Int} (nonneg : 0 ≤ n) (small : n ≤ 5) :
    ((Finset.univ.filter (fun i : Fin 5 => (i.val : Int) < n)).card : Int) = n := by
  interval_cases n <;> rfl

theorem Boat.Sound.card_cells {boat : Boat} (h : boat.Sound) :
    (boat.cells.card : Int) = boat.length := by
  rw [← card_below h.nonneg h.length_le, Int.natCast_inj]
  symm
  refine Finset.card_bij
    (fun i hi => (h.inGrid i (Finset.mem_filter.mp hi).2).choose) ?_ ?_ ?_
  · intro i hi
    have inside := h.inGrid i (Finset.mem_filter.mp hi).2
    exact Boat.mem_cells.mpr ⟨i, (Finset.mem_filter.mp hi).2, inside.choose_spec.symm⟩
  · intro i hi j hj same
    have at_i := (h.inGrid i (Finset.mem_filter.mp hi).2).choose_spec
    have at_j := (h.inGrid j (Finset.mem_filter.mp hj).2).choose_spec
    exact h.distinct i j (Finset.mem_filter.mp hi).2 (Finset.mem_filter.mp hj).2
      (at_i.symm.trans ((congrArg Cell.coord same).trans at_j))
  · intro c hc
    obtain ⟨i, below, eq⟩ := Boat.mem_cells.mp hc
    have member : i ∈ Finset.univ.filter (fun i : Fin 5 => (i.val : Int) < boat.length) :=
      Finset.mem_filter.mpr ⟨Finset.mem_univ i, below⟩
    exact ⟨i, member, Cell.coord_injective ((h.inGrid i below).choose_spec.trans eq)⟩

def CellState.ofMark : Mark → CellState
  | .water => .empty
  | .ship => .ship
  | .hit => .hit
  | .miss => .miss
  | .sunk => .sunk

theorem ofMark_injective : Function.Injective CellState.ofMark := by
  intro a b h
  cases a <;> cases b <;> first | rfl | cases h

/-- Boats from `boat_count` on are no part of the fleet. -/
structure Player.Represents (p : Player) (B : Battle (Fin maxShips) Cell) : Prop where
  count : p.boatCount ≤ maxShips
  sound : ∀ b : Fin maxShips, b.val < p.boatCount → (p.boats b).Sound
  ships : ∀ b : Fin maxShips, B.ships b = if b.val < p.boatCount then (p.boats b).cells else ∅
  hits : ∀ b : Fin maxShips, b.val < p.boatCount → (p.boats b).hitCount = B.hits b
  board : ∀ c : Cell, p.board.cells c.1 c.2 = .ofMark (B.mark c)

/-- The boats that count, lying apart, and the cells shot at. -/
def Player.battle (p : Player) (shots : Finset Cell)
    (apart : ∀ b b' : Fin maxShips, b.val < p.boatCount → b'.val < p.boatCount → b ≠ b' →
      Disjoint (p.boats b).cells (p.boats b').cells) : Battle (Fin maxShips) Cell where
  ships b := if b.val < p.boatCount then (p.boats b).cells else ∅
  shots := shots
  disjoint b b' different := by
    by_cases used : b.val < p.boatCount
    · by_cases used' : b'.val < p.boatCount
      · simpa only [if_pos used, if_pos used'] using apart b b' used used' different
      · simp [used']
    · simp [used]

theorem mem_battle {p : Player} {shots : Finset Cell} {apart} {b : Fin maxShips} {c : Cell} :
    c ∈ (p.battle shots apart).ships b ↔ b.val < p.boatCount ∧ c ∈ (p.boats b).cells := by
  by_cases used : b.val < p.boatCount <;> simp [Player.battle, used]

namespace Player.Represents
variable {p : Player} {B : Battle (Fin maxShips) Cell} (h : p.Represents B)
include h

theorem ships_of_lt {b : Fin maxShips} (hb : b.val < p.boatCount) :
    B.ships b = (p.boats b).cells := by
  rw [h.ships b, if_pos hb]

theorem used {b : Fin maxShips} {c : Cell} (hc : c ∈ B.ships b) : b.val < p.boatCount := by
  by_contra unused
  rw [h.ships b, if_neg unused] at hc
  simp at hc

/-- A cell of the grid shows a mark exactly when the battle has it there. -/
theorem cell_iff (c : Cell) (mark : Mark) :
    p.board.cells c.1 c.2 = .ofMark mark ↔ B.mark c = mark := by
  rw [h.board c]
  exact ofMark_injective.eq_iff

theorem empty_iff {c : Cell} :
    p.board.cells c.1 c.2 = .empty ↔ (∀ b, c ∉ B.ships b) ∧ c ∉ B.shots :=
  (h.cell_iff c .water).trans B.mark_eq_water

theorem ship_iff {c : Cell} :
    p.board.cells c.1 c.2 = .ship ↔ (∃ b, c ∈ B.ships b) ∧ c ∉ B.shots :=
  (h.cell_iff c .ship).trans B.mark_eq_ship

theorem card_ships {b : Fin maxShips} (hb : b.val < p.boatCount) :
    ((B.ships b).card : Int) = (p.boats b).length := by
  rw [h.ships_of_lt hb]
  exact (h.sound b hb).card_cells

/-- A boat's counter has reached its length exactly when the ship is sunk. -/
theorem sunk_iff {b : Fin maxShips} (hb : b.val < p.boatCount) :
    (p.boats b).hitCount = (p.boats b).length ↔ B.Sunk b := by
  rw [← B.hits_eq_card_iff b, h.hits b hb, ← h.card_ships hb]
  exact Int.natCast_inj

end Player.Represents

/-- No cell belongs to a ship, sunk or not. -/
def Board.Clean (b : Board) : Prop :=
  ∀ c : Cell, b.cells c.1 c.2 = .empty ∨ b.cells c.1 c.2 = .miss

def emptyBattle (shots : Finset Cell) : Battle (Fin maxShips) Cell :=
  ⟨fun _ => ∅, shots, fun _ _ _ => Finset.disjoint_empty_left _⟩

/-- A clean board without boats is a battle without ships. -/
theorem uncounted_represents {p : Player} (clean : p.board.Clean) :
    p.uncounted.Represents
      (emptyBattle (Finset.univ.filter (fun c => p.board.cells c.1 c.2 = .miss))) where
  count := Nat.zero_le _
  sound := fun b hb => absurd hb (Nat.not_lt_zero _)
  ships := fun b => (if_neg (Nat.not_lt_zero _)).symm
  hits := fun b hb => absurd hb (Nat.not_lt_zero _)
  board := by
    intro c
    rw [Battle.mark_of_not_mem _ (fun _ => Finset.notMem_empty c)]
    simp only [Player.uncounted, emptyBattle, Finset.mem_filter, Finset.mem_univ, true_and]
    rcases clean c with water | miss
    · simp [water, CellState.ofMark]
    · simp [miss, CellState.ofMark]

section Seated
variable {p : Player} (room : p.boatCount < maxShips) (ship : ShipRequest)

/-- Its offsets inside the length lie where the request says. -/
theorem seated_coords {i : Fin 5} (hi : (i.val : Int) < ship.length) :
    ((p.seated room ship).boats ⟨p.boatCount, room⟩).coords i =
      shipCell ship.row ship.col ship.horizontal i := by
  rw [seated_boat]
  exact if_pos (by omega)

theorem seated_length :
    ((p.seated room ship).boats ⟨p.boatCount, room⟩).length = ship.length := by
  rw [seated_boat]
  rfl

theorem seated_hitCount :
    ((p.seated room ship).boats ⟨p.boatCount, room⟩).hitCount = 0 := by
  rw [seated_boat]
  rfl

theorem seated_straight : ((p.seated room ship).boats ⟨p.boatCount, room⟩).Straight := by
  refine ⟨ship.row, ship.col, ship.horizontal, fun i hi => ?_⟩
  rw [seated_length] at hi
  exact seated_coords room ship hi

theorem seated_cells (fits : p.board.Admits ship) :
    ((p.seated room ship).boats ⟨p.boatCount, room⟩).cells =
      shipCells ship.row ship.col ship.horizontal ship.length.toNat := by
  ext c
  rw [Boat.mem_cells, mem_shipCells, seated_length]
  constructor
  · rintro ⟨i, hi, eq⟩
    rw [seated_coords room ship hi] at eq
    exact ⟨i, by omega, eq⟩
  · rintro ⟨i, hi, eq⟩
    have small : i < 5 := lt_of_lt_of_le hi fits.length_le
    refine ⟨⟨i, small⟩, by simp only; omega, ?_⟩
    rw [seated_coords room ship (by simp only; omega)]
    exact eq

theorem seated_sound (fits : p.board.Admits ship) (nonneg : 0 ≤ ship.length) :
    ((p.seated room ship).boats ⟨p.boatCount, room⟩).Sound where
  nonneg := by rwa [seated_length]
  length_le := by
    have small : ship.length.toNat ≤ 5 := fits.length_le
    rw [seated_length]
    omega
  inGrid := by
    intro i hi
    rw [seated_length] at hi
    obtain ⟨c, eq, -⟩ := fits.free i (by omega)
    exact ⟨c, by rw [seated_coords room ship hi, eq]⟩
  distinct := by
    intro i j hi hj eq
    rw [seated_length] at hi hj
    rw [seated_coords room ship hi, seated_coords room ship hj] at eq
    cases horizontal : ship.horizontal <;>
      · simp only [shipCell, horizontal, Bool.false_eq_true, if_true, if_false,
          Coordinate.mk.injEq] at eq
        ext
        omega

/-- Seating a ship that fits launches it. -/
theorem seated_represents {B : Battle (Fin maxShips) Cell} (h : p.Represents B)
    (fits : p.board.Admits ship) (nonneg : 0 ≤ ship.length) :
    ∃ B', (p.seated room ship).Represents B' ∧ B'.shots = B.shots := by
  have free : ∀ c ∈ shipCells ship.row ship.col ship.horizontal ship.length.toNat,
      (∀ b, c ∉ B.ships b) ∧ c ∉ B.shots := by
    intro c hc
    exact h.empty_iff.mp (fits.empty_of_mem hc)
  have clear : ∀ b, b ≠ ⟨p.boatCount, room⟩ → Disjoint
      (shipCells ship.row ship.col ship.horizontal ship.length.toNat) (B.ships b) :=
    fun b _ => Finset.disjoint_left.mpr fun c hc => (free c hc).1 b
  have fresh : Disjoint (shipCells ship.row ship.col ship.horizontal ship.length.toNat) B.shots :=
    Finset.disjoint_left.mpr fun c hc => (free c hc).2
  have unused : B.ships ⟨p.boatCount, room⟩ = ∅ := by
    rw [h.ships, if_neg (lt_irrefl p.boatCount)]
  refine ⟨B.launch ⟨p.boatCount, room⟩ _ clear, ⟨room, ?_, ?_, ?_, ?_⟩, rfl⟩
  · intro b hb
    by_cases new : b.val = p.boatCount
    · obtain rfl : b = ⟨p.boatCount, room⟩ := Fin.ext new
      exact seated_sound room ship fits nonneg
    · rw [seated_boat_of_ne p room ship new]
      exact h.sound b (by rw [seated_boatCount] at hb; omega)
  · intro b
    by_cases new : b.val = p.boatCount
    · obtain rfl : b = ⟨p.boatCount, room⟩ := Fin.ext new
      have counted : p.boatCount < (p.seated room ship).boatCount := Nat.lt_succ_self p.boatCount
      rw [B.launch_self clear, seated_cells room ship fits, if_pos counted]
    · have other : b ≠ ⟨p.boatCount, room⟩ := fun eq => new (congrArg Fin.val eq)
      rw [B.launch_of_ne clear other, h.ships b, seated_boat_of_ne p room ship new,
        seated_boatCount]
      congr 1
      simp only [eq_iff_iff]
      omega
  · intro b hb
    by_cases new : b.val = p.boatCount
    · obtain rfl : b = ⟨p.boatCount, room⟩ := Fin.ext new
      rw [seated_hitCount, B.launch_hits_self clear fresh]
      rfl
    · have other : b ≠ ⟨p.boatCount, room⟩ := fun eq => new (congrArg Fin.val eq)
      rw [seated_boat_of_ne p room ship new, B.launch_hits_of_ne clear other]
      exact h.hits b (by rw [seated_boatCount] at hb; omega)
  · intro c
    rw [B.launch_mark clear unused fresh c, seated_board, Board.withRequest_cells]
    by_cases inside : c ∈ shipCells ship.row ship.col ship.horizontal ship.length.toNat
    · rw [if_pos inside, if_pos inside]
      rfl
    · rw [if_neg inside, if_neg inside]
      exact h.board c

end Seated

/-- Four ships of 4, 3, 2 and 1 cells, in rows from the left. -/
def rowsPlayer (isOpp : Bool) : Player where
  board := ⟨fun row col => if col.val < row.val then .ship else .empty, isOpp⟩
  boats := fun b => ⟨4 - b.val, fun i => ⟨4 - b.val, i.val⟩, 0, true⟩
  boatCount := maxShips

end Battleship
