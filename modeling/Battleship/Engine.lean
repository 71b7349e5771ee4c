import Battleship.Logic
import Battleship.Lib.Prog

/-!
# The opponent

The functions of `game_engine.c`. Its two statics, the tracker and the guess
board, are passed and returned.
-/
namespace Battleship
open Cooperative

def dirNone : Int := -1
def dirUp : Int := 0
def dirDown : Int := 1
def dirLeft : Int := 2
def dirRight : Int := 3

/-- `hit_count` is the length of `hits`: entries past it are never read. -/
structure AiState where
  hits : List Coordinate
  targetDir : Int
  hunting : Bool
  deriving DecidableEq

def AiState.hitCount (st : AiState) : Nat := st.hits.length

/-- The slots of the array `hits`. -/
def hitsSize : Nat := 5

def aiResetSmart : AiState := ⟨[], dirNone, true⟩

def allCells : List (Fin gridSize × Fin gridSize) :=
  (List.finRange gridSize).flatMap (fun r => (List.finRange gridSize).map (fun c => (r, c)))

/-- The rejection loop of `ai_guess_random` has no bound of its own. -/
def aiGuessRandom (b : Board) : Nat → Rng → Outcome (Coordinate × Rng)
  | 0, _ => .starved
  | fuel + 1, rng =>
      let row : Int := ((rng.peek 0).toNat % gridSize : Nat)
      let col : Int := ((rng.peek 1).toNat % gridSize : Nat)
      (Outcome.ofOption (b.read row col)).bind (fun cell =>
        if cell ≠ .empty then aiGuessRandom b fuel (rng.skip 2)
        else .done (⟨row, col⟩, rng.skip 2))

/-- The bounds test and the comparison of `is_valid_guess` in one checked read. -/
def isValidGuess (b : Board) (r c : Int) : Bool := b.read r c = some .empty

/-- First empty cell of the even diagonal colour, row by row. -/
def huntCell (b : Board) : Option Coordinate :=
  (allCells.find? (fun p => (p.1.val + p.2.val) % 2 = 0 ∧ b.cells p.1 p.2 = .empty)).map
    (fun p => ⟨p.1.val, p.2.val⟩)

def dirStep (dir : Int) : Option (Int × Int) :=
  if dir = dirUp then some (-1, 0)
  else if dir = dirDown then some (1, 0)
  else if dir = dirLeft then some (0, -1)
  else if dir = dirRight then some (0, 1)
  else none

def reverseDir (dir : Int) : Int := if dir % 2 = 0 then dir + 1 else dir - 1

def probeCell (b : Board) (last : Coordinate) : Option Coordinate :=
  ([(-1, 0), (1, 0), (0, -1), (0, 1)] : List (Int × Int)).findSome? (fun d =>
    if isValidGuess b (last.row + d.1) (last.col + d.2)
    then some ⟨last.row + d.1, last.col + d.2⟩ else none)

/-- The cell along the recorded line: ahead of the last hit, else behind the
first. An index outside `dr` and `dc` is undefined. -/
def lineCell (b : Board) (dir : Int) (last base : Coordinate) : Option (Option Coordinate) := do
  let ahead ← dirStep dir
  if isValidGuess b (last.row + ahead.1) (last.col + ahead.2) then
    return some ⟨last.row + ahead.1, last.col + ahead.2⟩
  else
    let behind ← dirStep (reverseDir dir)
    if isValidGuess b (base.row + behind.1) (base.col + behind.2) then
      return some ⟨base.row + behind.1, base.col + behind.2⟩
    else return none

/-- `calls` bounds the self-calls; the code makes one only after a reset. -/
def aiGuessSmart (b : Board) (fuel : Nat) :
    Nat → AiState → Rng → Outcome (Coordinate × AiState × Rng)
  | calls, st, rng =>
      match st.hunting, st.hits.getLast?, st.hits.head? with
      | false, some last, some base =>
          let target := if st.targetDir ≠ dirNone then lineCell b st.targetDir last base
            else some (probeCell b last)
          (Outcome.ofOption target).bind (fun
            | some c => .done (c, st, rng)
            | none => match calls with
              | 0 => .starved
              | calls + 1 => aiGuessSmart b fuel calls aiResetSmart rng)
      | _, _, _ =>
          match huntCell b with
          | some c => .done (c, st, rng)
          | none => (aiGuessRandom b fuel rng).bind (fun r => .done (r.1, st, r.2))

def lineDir (st : AiState) : Int :=
  match st.hits with
  | [a, b] =>
      if a.row = b.row then (if a.col < b.col then dirRight else dirLeft)
      else if a.col = b.col then (if a.row < b.row then dirDown else dirUp)
      else st.targetDir
  | _ => st.targetDir

/-- Whether `hits[hit_count]` is inside an array of this size; `none` stands
for an array without a bound. -/
def hasRoom (size : Option Nat) (st : AiState) : Bool := size.all (fun n => st.hitCount < n)

def aiUpdateSmart (size : Option Nat) (st : AiState) (row col : Int) : GuessResult → Option AiState
  | .hit =>
      if hasRoom size st then
        let st := { st with hits := st.hits ++ [Coordinate.mk row col], hunting := false }
        some { st with targetDir := lineDir st }
      else none
  | .sunk => some aiResetSmart
  | .miss => some st
  | .rejected => some st

/-- What `engine_update_smart_ai` writes to the guess board; a sunk cell is a
hit there. -/
def recordGuess (b : Board) (row col : Int) : GuessResult → Option Board
  | .hit => b.write row col .hit
  | .sunk => b.write row col .hit
  | .miss => b.write row col .miss
  | .rejected => some b

def engineUpdateSmartAi (size : Option Nat) (st : AiState) (b : Board) (row col : Int)
    (result : GuessResult) : Option (AiState × Board) := do
  let st ← aiUpdateSmart size st row col result
  let b ← recordGuess b row col result
  return (st, b)

abbrev Heatmap := Fin gridSize → Fin gridSize → UInt8

/-- The hits in a placement, or nothing when it holds a miss or a sunk cell. -/
def placementBonus (b : Board) (row col : Int) (horizontal : Bool) :
    List Nat → Option (Option Nat)
  | [] => some (some 0)
  | i :: is => do
      let at_i := shipCell row col horizontal i
      let cell ← b.read at_i.row at_i.col
      if cell = .miss ∨ cell = .sunk then return none
      else
        let rest ← placementBonus b row col horizontal is
        return rest.map (fun n => n + if cell = .hit then 1 else 0)

def heatCells (row col : Int) (horizontal : Bool) (amount : UInt8) :
    List Nat → Heatmap → Option Heatmap
  | [], heat => some heat
  | i :: is, heat => do
      let at_i := shipCell row col horizontal i
      let r ← gridIndex at_i.row
      let c ← gridIndex at_i.col
      heatCells row col horizontal amount is
        (fun r' c' => if r' = r ∧ c' = c then heat r c + amount else heat r' c')

def heatPlacement (b : Board) (len : Nat) (heat : Heatmap) (row col : Nat) (horizontal : Bool) :
    Option Heatmap := do
  match ← placementBonus b row col horizontal (List.range len) with
  | some bonus => heatCells row col horizontal (UInt8.ofNat (1 + bonus)) (List.range len) heat
  | none => return heat

/-- Anchors `0 ≤ x ≤ GRID_SIZE - len` of a placement. -/
def anchors (len : Int) : List Nat := List.range (gridSize - len + 1).toNat

def heatShip (b : Board) (heat : Heatmap) (len : Int) : Option Heatmap := do
  let heat ← (List.range gridSize).foldlM (fun heat y =>
    (anchors len).foldlM (fun heat x => heatPlacement b len.toNat heat y x true) heat) heat
  (List.range gridSize).foldlM (fun heat x =>
    (anchors len).foldlM (fun heat y => heatPlacement b len.toNat heat y x false) heat) heat

def generateHeatmap (b : Board) (remainingShips : List Int) : Option Heatmap :=
  remainingShips.foldlM (heatShip b) (fun _ _ => 0)

def betterMove (heat : Heatmap) (b : Board) (best : Coordinate × Int)
    (p : Fin gridSize × Fin gridSize) : Coordinate × Int :=
  if (b.cells p.1 p.2 = .empty ∨ b.cells p.1 p.2 = .ship) ∧ best.2 < (heat p.1 p.2).toNat then
    (⟨p.1.val, p.2.val⟩, (heat p.1 p.2).toNat)
  else best

def selectBestMove (heat : Heatmap) (b : Board) : Coordinate :=
  (allCells.foldl (betterMove heat b) (⟨-1, -1⟩, -1)).1

/-- The lengths `engine_get_guess` feeds to the heat map. -/
def hardShipLengths : List Int := [3, 2, 2]

def engineGetGuess (fuel : Nat) (difficulty : Difficulty) (b : Board) (st : AiState) (rng : Rng) :
    Outcome (Coordinate × AiState × Rng) :=
  if difficulty = difficultySmart then aiGuessSmart b fuel 1 st rng
  else if difficulty = difficultyHard then
    (Outcome.ofOption (generateHeatmap b hardShipLengths)).bind
      (fun heat => .done (selectBestMove heat b, st, rng))
  else (aiGuessRandom b fuel rng).bind (fun r => .done (r.1, st, r.2))

end Battleship
