import Battleship.Http

/-!
# The game task

One iteration of the loop of `game_task`: the switch on `game->state`, then the
LED update and the pause that end every iteration.
-/
namespace Battleship
open Cooperative

def setState (v : GameState) : GameTask Unit := Prog.modify (fun m => m.setState v)

def setTurn (v : Bool) : GameTask Unit :=
  Prog.modify (fun m => { m with game := { m.game with turn := v } })

/-- The `Game` after `memset` and the assignments of `Game_Init`. -/
def clearedGame : Game where
  player := ⟨initBoard false, fun _ => Boat.zero, maxShips⟩
  opponent := ⟨initBoard true, fun _ => Boat.zero, maxShips⟩
  difficulty := difficultyHard
  state := .init
  gameReady := false
  turn := false

def engineRestart (m : Mem) : Mem :=
  { m with smartAiState := aiResetSmart, aiGuessBoard := initBoard true }

def gameInit : GameTask Unit := do
  Prog.modify (fun m =>
    { engineRestart m with game := clearedGame, currentGame := true, leds := ledMatrixInit })
  sendLedMatrixUpdate 3
  vTaskDelay 1000

def setupGameRandomly : GameTask Unit := do
  placeRandomShips .player shipLengths
  placeRandomShips .opponent shipLengths
  renderBoard .player playerMatrix true
  vTaskDelay 1000

def allSunk (side : Side) : GameTask Bool := do
  let m ← Prog.get
  Prog.ofOption (allShipsSunk (m.game.side side))

def renderBoards : GameTask Unit := do
  renderBoard .player playerMatrix true
  renderBoard .opponent opponentMatrix false

def initCase : GameTask Unit := do
  gameInit
  setState .webInit

def webInitCase : GameTask Unit := do
  let m ← Prog.get
  if m.game.gameReady then
    setState .waitingForPlayer
    renderBoard .player playerMatrix true
    placeRandomShips .opponent shipLengths

def randomInitCase : GameTask Unit := do
  setupGameRandomly
  setState .waitingForPlayer

theorem randomInitCase_eq : randomInitCase = (do
    placeRandomShips .player shipLengths
    placeRandomShips .opponent shipLengths
    renderBoard .player playerMatrix true
    vTaskDelay 1000
    setState .waitingForPlayer) := by
  simp only [randomInitCase, setupGameRandomly, Prog.bind_assoc]

/-- The column byte is mirrored; neither byte is tested against the grid. -/
def buttonCoordinate (msg : IoMessage) : Coordinate :=
  ⟨(msg.payload 1).toNat, (gridSize - 1 : Int) - (msg.payload 0).toNat⟩

/-- What follows an accepted guess of the player. -/
def playerMoved (result : GuessResult) : GameTask Unit := do
  sendSoundCommand 4 (if result = .miss then 1 else 0)
  renderBoards
  setTurn true
  if ← allSunk .opponent then
    setState .gameOver
    sendWsResult .player
  else
    setState .waitingForOpponent
    sendWsGameUpdate false

def waitingForPlayerCase : GameTask Unit := do
  match ← (Prog.sys Call.queueReceive : GameTask (Option IoMessage)) with
  | none => .ret ()
  | some msg =>
      if msg.isType "BUTTON" then
        let coord := buttonCoordinate msg
        let result ← applyGuess .opponent coord.row coord.col
        if result = .rejected then .ret () else playerMoved result

def opponentGuess (lim : Limits) : GameTask Coordinate :=
  Prog.attempt (fun m =>
    (engineGetGuess lim.fuel m.game.difficulty m.aiGuessBoard m.smartAiState m.rng).bind
      (fun r => .done (r.1, { m with smartAiState := r.2.1, rng := r.2.2 })))

def updateSmartAi (lim : Limits) (coord : Coordinate) (result : GuessResult) : GameTask Unit :=
  Prog.tryModify (fun m => do
    let (st, b) ← engineUpdateSmartAi lim.hitsSize m.smartAiState m.aiGuessBoard
      coord.row coord.col result
    return ((), { m with smartAiState := st, aiGuessBoard := b }))

/-- What follows an accepted guess of the opponent. -/
def opponentMoved : GameTask Unit := do
  renderBoards
  setTurn false
  if ← allSunk .player then
    setState .gameOver
    sendLedMatrixUpdate 3
    sendWsResult .opponent
  else
    setState .waitingForPlayer
    sendWsGameUpdate false

def opponentMove (lim : Limits) : GameTask Unit := do
  let coord ← opponentGuess lim
  let result ← applyGuess .player coord.row coord.col
  updateSmartAi lim coord result
  if result = .rejected then .ret () else opponentMoved

def waitingForOpponentCase (lim : Limits) : GameTask Unit := do
  vTaskDelay 2000
  opponentMove lim

def gameOverCase : GameTask Unit := do
  vTaskDelay 500
  setState .gameRestart

def removeBoat (boat : Boat) : GameTask Unit :=
  if boat.hitCount < boat.length then do
    removeCommand boat
    vTaskDelay 12500
  else .ret ()

/-- Every slot of the array is visited, whatever `boat_count` is. -/
def removeLoop : List Nat → GameTask Unit
  | [] => .ret ()
  | i :: is => do
      let m ← Prog.get
      let boat ← Prog.ofOption (m.game.player.boatAt i)
      removeBoat boat
      removeLoop is

def gameRestartCase : GameTask Unit := do
  Prog.modify engineRestart
  removeLoop (List.range maxShips)
  setState .init

def gameSwitch (lim : Limits) : GameState → GameTask Unit
  | .init => initCase
  | .webInit => webInitCase
  | .randomInit => randomInitCase
  | .running => .ret ()
  | .waitingForOpponent => waitingForOpponentCase lim
  | .waitingForPlayer => waitingForPlayerCase
  | .gameOver => gameOverCase
  | .gameRestart => gameRestartCase

def loopTail : GameTask Unit := do
  sendLedMatrixUpdate 3
  vTaskDelay 250

def gameIteration (lim : Limits) : GameTask Unit := do
  let m ← Prog.get
  gameSwitch lim m.game.state
  loopTail

end Battleship
