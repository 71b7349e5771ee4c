import Battleship.Engine
import Battleship.Message

/-!
# The game's memory and its system calls

Everything `game_task` and the HTTP handlers share, the blocking calls they
make, and what they show to the outside. The senders of `io_builder.c` and
`http_server.c` and the effects of `game_logic.c` are tasks over it.
-/
namespace Battleship
open Cooperative

/-- `currentGame` says whether the pointer has been set; the two statics of the
engine, the LED rows and the random source live beside the game. -/
structure Mem where
  game : Game
  currentGame : Bool
  smartAiState : AiState
  aiGuessBoard : Board
  leds : Leds
  wsConnected : Bool
  rng : Rng

/-- Calls at which a task of the game can block. -/
inductive Call where
  | queueSend (m : IoMessage)
  | queueReceive
  | delay (ms : Nat)
  deriving DecidableEq

/-- Only the receive can come back without a result. -/
abbrev Call.Ans : Call → Type
  | .queueSend _ => Unit
  | .queueReceive => Option IoMessage
  | .delay _ => Unit

structure BoardView where
  rows : List (List Char)
  deriving DecidableEq, Repr

inductive WsFrame where
  | update (isInit : Bool) (player opponent : BoardView) (turn : Side)
  | result (winner : Side)
  deriving DecidableEq, Repr

/-- What is logged: frames to the browser, the calls of `apply_guess` and of
`send_ws_result`, the states that web commands ask for, and those dispatched. -/
inductive Out where
  | guess (target : Side) (row col : Int)
  | guessed (target : Side) (result : GuessResult)
  | wsResult (winner : Side)
  | frame (f : WsFrame)
  | command (v : GameState)
  | dispatch (v : GameState)
  deriving DecidableEq, Repr

abbrev GameTask (α : Type) := Prog Mem Out Call Call.Ans α

/-- The fuel of the random search and the slots of the tracker's array. -/
structure Limits where
  fuel : Nat
  hitsSize : Option Nat

def Mem.setState (m : Mem) (v : GameState) : Mem := { m with game := { m.game with state := v } }

def vTaskDelay (ms : Nat) : GameTask Unit := Prog.sys (Call.delay ms)

def ioEnqueueSend (m : IoMessage) : GameTask Unit :=
  if 2 ≤ m.slaveId.toNat ∧ m.slaveId.toNat ≤ 5 then Prog.sys (Call.queueSend m) else .ret ()

def sendRobotCommand (shipId row col notVertical notPlace : Int) : GameTask Unit :=
  ioEnqueueSend (robotCommand 4 shipId row col notVertical notPlace)

def sendSoundCommand (slaveId soundId : Int) : GameTask Unit :=
  ioEnqueueSend (soundCommand slaveId soundId)

def sendLedMatrixUpdate (slaveId : Int) : GameTask Unit := do
  let m ← Prog.get
  ioEnqueueSend (ledMessage slaveId m.leds)

def cellChar (revealShips : Bool) : CellState → Char
  | .ship => if revealShips then 'S' else 'E'
  | .empty => 'E'
  | .hit => 'H'
  | .miss => 'M'
  | .sunk => 'X'

/-- Rows are listed from the last to the first. -/
def boardToJson (b : Board) (revealShips : Bool) : BoardView :=
  ⟨(List.finRange gridSize).reverse.map (fun r =>
    (List.finRange gridSize).map (fun c => cellChar revealShips (b.cells r c)))⟩

def sendWsGameUpdate (isInit : Bool) : GameTask Unit := do
  let m ← Prog.get
  if m.wsConnected then
    Prog.emit (.frame (.update isInit (boardToJson m.game.player.board true)
      (boardToJson m.game.opponent.board false) (if m.game.turn then .opponent else .player)))

def sendWsResult (winner : Side) : GameTask Unit := do
  Prog.emit (.wsResult winner)
  let m ← Prog.get
  if m.wsConnected then Prog.emit (.frame (.result winner))

def renderBoard (side : Side) (matrixNum : Nat) (revealShips : Bool) : GameTask Unit :=
  Prog.modify (fun m =>
    { m with leds := renderBoardToMatrix m.leds (m.game.side side).board matrixNum revealShips })

/-- The robot commands name the far end of a horizontal ship. -/
def removeCommand (boat : Boat) : GameTask Unit :=
  if boat.horizontal then
    sendRobotCommand (4 - boat.length) (boat.coords 0).row
      ((boat.coords 0).col + boat.length - 1) 0 1
  else sendRobotCommand (4 - boat.length) (boat.coords 0).row (boat.coords 0).col 1 1

/-- The command that `removeCommand` sends. -/
def Boat.removal (boat : Boat) : IoMessage :=
  robotCommand 4 (4 - boat.length) (boat.coords 0).row
    (if boat.horizontal then (boat.coords 0).col + boat.length - 1 else (boat.coords 0).col)
    (if boat.horizontal then 0 else 1) 1

/-- The cell a boat was placed at. -/
def Boat.anchor (boat : Boat) : Coordinate := boat.coords 0

/-- A sunk ship of the player is announced and taken off the real board. -/
def showSunk (target : Side) : Option Nat → GameTask Unit
  | none => .ret ()
  | some b => do
      let m ← Prog.get
      if (m.game.side target).board.isOpp = false then
        sendSoundCommand 4 0
        vTaskDelay 100
        let m ← Prog.get
        let boat ← Prog.ofOption ((m.game.side target).boatAt b)
        removeCommand boat
        vTaskDelay 10000

def applyGuess (target : Side) (row col : Int) : GameTask GuessResult := do
  Prog.emit (.guess target row col)
  let (result, sunk) ← Prog.tryModify (fun m => do
    let (p, result, sunk) ← guessCell (m.game.side target) row col
    return ((result, sunk), { m with game := m.game.setSide target p }))
  showSunk target sunk
  Prog.emit (.guessed target result)
  return result

def placeCommand (shipId : Int) (d : Draw) (length : Int) : GameTask Unit :=
  if d.horizontal then sendRobotCommand shipId d.row (d.col + (length - 1)) 0 0
  else sendRobotCommand shipId d.row d.col 1 0

def countRandomShip (side : Side) : GameTask Unit :=
  Prog.modify (fun m =>
    let p := m.game.side side
    { m with game := m.game.setSide side { p with boatCount := p.boatCount + 1 } })

/-- What follows a placement: the robot puts a ship of the player on the real
board, and the ship is counted. -/
def finishRandomShip (side : Side) (length : Int) (d : Draw) : GameTask Unit := do
  let m ← Prog.get
  if (m.game.side side).board.isOpp = false then
    placeCommand (4 - length) d length
    sendWsGameUpdate false
    vTaskDelay 10000
    countRandomShip side
  else countRandomShip side

def placeRandomLoop (side : Side) : List Int → GameTask Unit
  | [] => .ret ()
  | length :: rest => do
      match ← Prog.tryModify (fun m => do
        let (found, p, rng) ← placeRandomShip (m.game.side side) length m.rng
        return (found, { m with game := m.game.setSide side p, rng := rng })) with
      | some d =>
          finishRandomShip side length d
          placeRandomLoop side rest
      | none => placeRandomLoop side rest

def placeRandomShips (side : Side) (lengths : List Int) : GameTask Unit := do
  Prog.modify (fun m =>
    { m with game := m.game.setSide side { m.game.side side with boatCount := 0 } })
  placeRandomLoop side lengths

end Battleship
