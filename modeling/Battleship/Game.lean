import Mathlib.Data.Fin.Basic
import Mathlib.Logic.Function.Basic
import Mathlib.Tactic.Common

/-!
# Game data

The types of `game.h`. Memory reached through an index that the code computes
is read and written through partial functions: `none` is an access outside the
array, and a signed `int` result that does not fit is also `none`.
-/
namespace Battleship

abbrev gridSize : Nat := 5
abbrev maxShips : Nat := 4

/-- The lengths a fleet is meant to have. -/
def shipLengths : List Int := [4, 3, 2, 1]

/-- The enumeration is an `int` in C, and the handlers store any number in it. -/
abbrev Difficulty := Int

def difficultyRandom : Difficulty := 0
def difficultySmart : Difficulty := 1
def difficultyHard : Difficulty := 2

inductive CellState where
  | empty
  | ship
  | hit
  | miss
  | sunk
  deriving DecidableEq, Repr

inductive GameState where
  | init
  | webInit
  | randomInit
  | running
  | waitingForOpponent
  | waitingForPlayer
  | gameOver
  | gameRestart
  deriving DecidableEq, Repr

structure Coordinate where
  row : Int
  col : Int
  deriving DecidableEq, Repr

structure Boat where
  length : Int
  coords : Fin 5 → Coordinate
  hitCount : Int
  horizontal : Bool

structure Board where
  cells : Fin gridSize → Fin gridSize → CellState
  isOpp : Bool

structure Player where
  board : Board
  boats : Fin maxShips → Boat
  boatCount : Nat

/-- Which of the two `Player`s of a `Game` is meant. -/
inductive Side where
  | player
  | opponent
  deriving DecidableEq, Repr

structure Game where
  player : Player
  opponent : Player
  difficulty : Difficulty
  state : GameState
  gameReady : Bool
  turn : Bool

def Game.side (g : Game) : Side → Player
  | .player => g.player
  | .opponent => g.opponent

def Game.setSide (g : Game) : Side → Player → Game
  | .player, p => { g with player := p }
  | .opponent, p => { g with opponent := p }

def Boat.zero : Boat := ⟨0, fun _ => ⟨0, 0⟩, 0, false⟩

/-- The result of a signed `int` operation. -/
def cInt (x : Int) : Option Int :=
  if -2147483648 ≤ x ∧ x ≤ 2147483647 then some x else none

theorem cInt_eq_some {x : Int} (low : -2147483648 ≤ x) (high : x ≤ 2147483647) :
    cInt x = some x := if_pos ⟨low, high⟩

theorem cInt_some {x y : Int} (h : cInt x = some y) : y = x := by
  unfold cInt at h
  split at h
  · exact (Option.some.inj h).symm
  · cases h

theorem cInt_range {x y : Int} (h : cInt x = some y) : -2147483648 ≤ x ∧ x ≤ 2147483647 := by
  unfold cInt at h
  split at h
  · assumption
  · cases h

def gridIndex (x : Int) : Option (Fin gridSize) :=
  if h : 0 ≤ x ∧ x < gridSize then some ⟨x.toNat, by omega⟩ else none

theorem gridIndex_eq_some {x : Int} {i : Fin gridSize} : gridIndex x = some i ↔ x = i.val := by
  unfold gridIndex
  constructor
  · intro h
    split at h
    · have eq := Option.some.inj h
      subst eq
      simp only
      omega
    · cases h
  · intro h
    have range : 0 ≤ x ∧ x < (gridSize : Int) := by omega
    rw [dif_pos range]
    congr 1
    ext
    simp only
    omega

@[simp] theorem gridIndex_val (i : Fin gridSize) : gridIndex (i.val : Int) = some i :=
  gridIndex_eq_some.mpr rfl

def Board.read (b : Board) (r c : Int) : Option CellState := do
  let r ← gridIndex r
  let c ← gridIndex c
  return b.cells r c

def Board.set (b : Board) (r c : Fin gridSize) (v : CellState) : Board :=
  { b with cells := fun r' c' => if r' = r ∧ c' = c then v else b.cells r' c' }

def Board.write (b : Board) (r c : Int) (v : CellState) : Option Board := do
  let r ← gridIndex r
  let c ← gridIndex c
  return b.set r c v

@[simp] theorem Board.set_isOpp (b : Board) (r c : Fin gridSize) (v : CellState) :
    (b.set r c v).isOpp = b.isOpp := rfl

@[simp] theorem Board.set_cells (b : Board) (r c r' c' : Fin gridSize) (v : CellState) :
    (b.set r c v).cells r' c' = if r' = r ∧ c' = c then v else b.cells r' c' := rfl

@[simp] theorem Board.read_val (b : Board) (r c : Fin gridSize) :
    b.read r.val c.val = some (b.cells r c) := by
  simp [Board.read]

@[simp] theorem Board.write_val (b : Board) (r c : Fin gridSize) (v : CellState) :
    b.write r.val c.val v = some (b.set r c v) := by
  simp [Board.write]

theorem Board.read_some {b : Board} {r c : Int} {v : CellState} (h : b.read r c = some v) :
    ∃ i j : Fin gridSize, r = i.val ∧ c = j.val ∧ b.cells i j = v := by
  unfold Board.read at h
  simp only [Option.bind_eq_bind, Option.bind_eq_some_iff, Option.pure_def,
    Option.some.injEq] at h
  obtain ⟨i, hi, j, hj, eq⟩ := h
  exact ⟨i, j, gridIndex_eq_some.mp hi, gridIndex_eq_some.mp hj, eq⟩

def Boat.coordAt (boat : Boat) (i : Nat) : Option Coordinate :=
  if h : i < 5 then some (boat.coords ⟨i, h⟩) else none

def Boat.setCoord (boat : Boat) (i : Nat) (c : Coordinate) : Option Boat :=
  if h : i < 5 then some { boat with coords := Function.update boat.coords ⟨i, h⟩ c } else none

def Player.boatAt (p : Player) (b : Nat) : Option Boat :=
  if h : b < maxShips then some (p.boats ⟨b, h⟩) else none

def Player.setBoat (p : Player) (b : Nat) (boat : Boat) : Option Player :=
  if h : b < maxShips then some { p with boats := Function.update p.boats ⟨b, h⟩ boat } else none

end Battleship
