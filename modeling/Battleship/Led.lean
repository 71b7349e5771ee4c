import Battleship.Game

/-!
# The LED matrices

The functions of `led_matrix_ctrl.c` on the two arrays of 16-bit rows.
-/
namespace Battleship

/-- Rows beyond those a board has do not exist: `MATRIX_SIZE` is 5 as well. -/
abbrev matrixSize : Nat := 5

inductive Color where
  | off
  | red
  | green
  | blue
  | cyan
  deriving DecidableEq, Repr

abbrev LedMatrix := Vector (BitVec 16) matrixSize

def playerMatrix : Nat := 2
def opponentMatrix : Nat := 1

structure Leds where
  ledMatrix1 : LedMatrix
  ledMatrix2 : LedMatrix

def setBit (w : BitVec 16) (bit : Nat) : BitVec 16 := w ||| (1#16 <<< bit)

def clearBit (w : BitVec 16) (bit : Nat) : BitVec 16 := w &&& ~~~(1#16 <<< bit)

def initRow (on off1 off2 : Nat) : BitVec 16 :=
  (List.range matrixSize).foldl
    (fun w col => setBit (setBit (clearBit w (col * 3 + on)) (col * 3 + off1)) (col * 3 + off2))
    0xFFFF#16

def ledMatrixInit : Leds :=
  ⟨Vector.replicate matrixSize (initRow 1 0 2), Vector.replicate matrixSize (initRow 2 0 1)⟩

/-- Positions of `bit0`, `bit1` and `bit2` within a cell's three bits. -/
def bitOrder (matrixNum : Nat) : Nat × Nat × Nat :=
  if matrixNum = 1 then (0, 2, 1) else (0, 1, 2)

def paint (w : BitVec 16) (bit0 bit1 bit2 : Nat) : Color → BitVec 16
  | .red => clearBit (setBit (setBit w bit1) bit2) bit0
  | .green => clearBit (setBit (setBit w bit0) bit2) bit1
  | .blue => clearBit (setBit (setBit w bit0) bit1) bit2
  | .cyan => setBit (clearBit (clearBit w bit1) bit0) bit2
  | .off => setBit (setBit (setBit w bit0) bit1) bit2

def paintCell (m : LedMatrix) (matrixNum : Nat) (row : Fin matrixSize) (col : Nat)
    (color : Color) : LedMatrix :=
  let (b0, b1, b2) := bitOrder matrixNum
  m.set row (paint m[row] (col * 3 + b0) (col * 3 + b1) (col * 3 + b2) color)

def setLEDColor (leds : Leds) (matrixNum row col : Nat) (color : Color) : Leds :=
  if h : row < matrixSize ∧ col < matrixSize then
    if matrixNum = 1 then
      { leds with ledMatrix1 := paintCell leds.ledMatrix1 matrixNum ⟨row, h.1⟩ col color }
    else { leds with ledMatrix2 := paintCell leds.ledMatrix2 matrixNum ⟨row, h.1⟩ col color }
  else leds

def cellColor (revealShips : Bool) : CellState → Color
  | .ship => if revealShips then .cyan else .blue
  | .sunk => .red
  | .hit => .red
  | .miss => .green
  | .empty => .blue

def renderBoardToMatrix (leds : Leds) (b : Board) (matrixNum : Nat) (revealShips : Bool) : Leds :=
  (List.finRange gridSize).foldl (fun leds row =>
    (List.finRange gridSize).foldl (fun leds col =>
      setLEDColor leds matrixNum row.val col.val (cellColor revealShips (b.cells row col)))
      leds) leds

end Battleship
