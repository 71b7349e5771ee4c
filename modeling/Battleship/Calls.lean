import Battleship.GameTask

/-!
# Which calls the game side makes

But for the receive of one case of the switch, the game task and the handlers
only pause and send: LED rows to slave 3, sounds and robot commands to slave 4.
Three cases of the switch wait before they touch the game.
-/
namespace Battleship
open Cooperative

/-- The case that begins with this call, before it reads or writes anything. -/
def Call.opens : Call → Option GameState
  | .queueSend _ => none
  | .queueReceive => some .waitingForPlayer
  | .delay ms =>
      if ms = 2000 then some .waitingForOpponent
      else if ms = 500 then some .gameOver else none

/-- `P` holds of every pause but the two that open a case, and of every command to place
a ship. -/
structure PlaceCalls (P : Call → Prop) : Prop where
  delay : ∀ ms, (Call.delay ms).opens = none → P (.delay ms)
  place : ∀ shipId row col notVertical,
    P (.queueSend (robotCommand 4 shipId row col notVertical 0))

/-- And of every message to the robot and its speaker. -/
structure RobotCalls (P : Call → Prop) : Prop where
  delay : ∀ ms, (Call.delay ms).opens = none → P (.delay ms)
  sound : ∀ soundId, P (.queueSend (soundCommand 4 soundId))
  robot : ∀ shipId row col notVertical notPlace,
    P (.queueSend (robotCommand 4 shipId row col notVertical notPlace))

theorem RobotCalls.places {P : Call → Prop} (w : RobotCalls P) : PlaceCalls P :=
  ⟨w.delay, fun _ _ _ _ => w.robot _ _ _ _ 0⟩

/-- And of every message the game side sends. -/
structure GameCalls (P : Call → Prop) : Prop extends RobotCalls P where
  led : ∀ leds, P (.queueSend (ledMessage 3 leds))

section Calls
variable {P : Call → Prop} {α β : Type}

theorem get_asks {g : Mem → GameTask β} (h : ∀ m, Prog.Asks P (g m)) :
    Prog.Asks P (Prog.get >>= g) := h

theorem write_asks (f : Mem → Mem) (log : List Out) :
    Prog.Asks P (Prog.write f log : GameTask Unit) := fun _ => trivial

theorem tryModify_asks (f : Mem → Option (α × Mem)) :
    Prog.Asks P (Prog.tryModify f : GameTask α) := Prog.asks_attempt _

theorem ioEnqueueSend_asks {m : IoMessage} (h : P (.queueSend m)) :
    Prog.Asks P (ioEnqueueSend m) := .ite ⟨h, fun _ => trivial⟩ trivial

theorem sendWsGameUpdate_asks (isInit : Bool) : Prog.Asks P (sendWsGameUpdate isInit) :=
  get_asks fun _ => .ite (write_asks _ _) trivial

theorem sendWsResult_asks (winner : Side) : Prog.Asks P (sendWsResult winner) :=
  .bind (write_asks _ _) fun _ => get_asks fun _ => .ite (write_asks _ _) trivial

theorem renderBoards_asks : Prog.Asks P renderBoards :=
  .bind (write_asks _ _) fun _ => write_asks _ _

theorem allSunk_asks (side : Side) : Prog.Asks P (allSunk side) :=
  get_asks fun _ => Prog.asks_ofOption _

theorem moveEnds_asks (turn : Bool) (side : Side) (next : GameState) {won : GameTask Unit}
    (h : Prog.Asks P won) : Prog.Asks P (do
      renderBoards
      setTurn turn
      if ← allSunk side then
        setState .gameOver
        won
      else
        setState next
        sendWsGameUpdate false) := by
  apply Prog.Asks.bind renderBoards_asks
  intro _
  apply Prog.Asks.bind (write_asks _ _)
  intro _
  apply Prog.Asks.bind (allSunk_asks side)
  intro sunk
  apply Prog.Asks.ite
  · exact .bind (write_asks _ _) fun _ => h
  · exact .bind (write_asks _ _) fun _ => sendWsGameUpdate_asks false

theorem vTaskDelay_asks {ms : Nat} (h : P (.delay ms)) : Prog.Asks P (vTaskDelay ms) :=
  ⟨h, fun _ => trivial⟩

section Place
variable (w : PlaceCalls P)
include w

theorem placeCommand_asks (shipId row col notVertical : Int) :
    Prog.Asks P (sendRobotCommand shipId row col notVertical 0) :=
  ioEnqueueSend_asks (w.place _ _ _ _)

theorem finishRandomShip_asks (side : Side) (length : Int) (d : Draw) :
    Prog.Asks P (finishRandomShip side length d) := by
  apply get_asks
  intro m
  refine .ite ?_ (write_asks _ _)
  apply Prog.Asks.bind
  · exact .ite (placeCommand_asks w _ _ _ _) (placeCommand_asks w _ _ _ _)
  intro _
  apply Prog.Asks.bind (sendWsGameUpdate_asks false)
  exact fun _ => .bind (vTaskDelay_asks (w.delay 10000 rfl)) fun _ => write_asks _ _

theorem placeRandomLoop_asks (side : Side) (lengths : List Int) :
    Prog.Asks P (placeRandomLoop side lengths) := by
  induction lengths with
  | nil => trivial
  | cons length rest ih =>
      apply Prog.Asks.bind (tryModify_asks _)
      intro found
      cases found with
      | none => exact ih
      | some d => exact .bind (finishRandomShip_asks w side length d) fun _ => ih

theorem placeRandomShips_asks (side : Side) (lengths : List Int) :
    Prog.Asks P (placeRandomShips side lengths) :=
  .bind (write_asks _ _) fun _ => placeRandomLoop_asks w side lengths

omit w in
theorem resetBoatCount_asks : Prog.Asks P resetBoatCount := tryModify_asks _

theorem finishPlaceShip_asks (ship : ShipRequest) (slot : Nat) :
    Prog.Asks P (finishPlaceShip ship slot) := by
  apply Prog.Asks.bind (Prog.asks_ofOption _)
  intro far
  apply Prog.Asks.bind (placeCommand_asks w _ _ _ _)
  exact fun _ => .bind (write_asks _ _) fun _ => vTaskDelay_asks (w.delay 10000 rfl)

theorem finishSetupShip_asks (ship : ShipRequest) (slot : Nat) :
    Prog.Asks P (finishSetupShip ship slot) := by
  apply Prog.Asks.bind
  · apply Prog.Asks.ite
    · exact .bind (Prog.asks_ofOption _) fun far => placeCommand_asks w _ _ _ _
    · exact placeCommand_asks w _ _ _ _
  · exact fun _ => .bind (vTaskDelay_asks (w.delay 10000 rfl)) fun _ => write_asks _ _

omit w in
theorem placeLoop_asks {decode : Json → Option ShipRequest}
    {finish : ShipRequest → Nat → GameTask Unit} (h : ∀ ship slot, Prog.Asks P (finish ship slot))
    (items : List Json) : Prog.Asks P (placeLoop decode finish items) := by
  induction items with
  | nil => trivial
  | cons item rest ih =>
      apply Prog.Asks.bind (Prog.asks_ofOption _)
      intro ship
      apply get_asks
      intro m
      refine .ite trivial ?_
      apply Prog.Asks.bind (tryModify_asks _)
      intro placed
      cases placed with
      | none => trivial
      | some slot => exact .bind (h ship slot) fun _ => ih

omit w in
theorem answerPlaced_asks (placed : Bool) (bad : Response) : Prog.Asks P
    (if placed then (do setReady; return .ok) else .ret bad : GameTask Response) :=
  .ite (.bind (write_asks _ _) fun _ => trivial) trivial

/-- A handler pauses and sends, and nothing else. -/
theorem handle_asks (r : Request) : Prog.Asks P (handle r) := by
  cases r with
  | setDifficulty body =>
      cases body with
      | closed => trivial
      | invalid => trivial
      | json j =>
          simp only [handle, postSetDifficultyHandler]
          split
          · trivial
          · exact .ite (.bind (tryModify_asks _) fun _ => trivial) trivial
  | placeShips body =>
      cases body with
      | closed => trivial
      | invalid => trivial
      | json j =>
          simp only [handle, postPlaceShipsHandler]
          split
          · trivial
          · refine .ite ?_ trivial
            apply Prog.Asks.bind resetBoatCount_asks
            intro _
            apply Prog.Asks.bind (placeLoop_asks (finishPlaceShip_asks w) _)
            exact fun placed => answerPlaced_asks placed _
  | setupGame body =>
      cases body with
      | closed => trivial
      | invalid => trivial
      | json j =>
          apply Prog.Asks.bind (Prog.asks_ofOption _)
          intro level
          apply Prog.Asks.bind (tryModify_asks _)
          intro _
          refine .ite (.bind (write_asks _ _) fun _ => trivial) ?_
          apply Prog.Asks.bind resetBoatCount_asks
          intro _
          apply Prog.Asks.bind (placeLoop_asks (finishSetupShip_asks w) _)
          exact fun placed => answerPlaced_asks placed _
  | wsConnect => exact .bind (write_asks _ _) fun _ => trivial
  | wsMessage text =>
      cases text with
      | init =>
          apply get_asks
          exact fun _ => .ite (.bind (sendWsGameUpdate_asks true) fun _ => trivial) trivial
      | restart => exact get_asks fun _ => .ite (.bind (write_asks _ _) fun _ => trivial) trivial
      | other => trivial

end Place

section Robot
variable (w : RobotCalls P)
include w

theorem sendRobotCommand_asks (shipId row col notVertical notPlace : Int) :
    Prog.Asks P (sendRobotCommand shipId row col notVertical notPlace) :=
  ioEnqueueSend_asks (w.robot _ _ _ _ _)

theorem sendSoundCommand_asks (soundId : Int) : Prog.Asks P (sendSoundCommand 4 soundId) :=
  ioEnqueueSend_asks (w.sound _)

theorem removeCommand_asks (boat : Boat) : Prog.Asks P (removeCommand boat) :=
  .ite (sendRobotCommand_asks w _ _ _ _ _) (sendRobotCommand_asks w _ _ _ _ _)

theorem showSunk_asks (target : Side) (sunk : Option Nat) : Prog.Asks P (showSunk target sunk) := by
  cases sunk with
  | none => trivial
  | some b =>
      apply get_asks
      intro m
      refine .ite ?_ trivial
      apply Prog.Asks.bind (sendSoundCommand_asks w 0)
      intro _
      apply Prog.Asks.bind (vTaskDelay_asks (w.delay 100 rfl))
      intro _
      apply get_asks
      intro m'
      apply Prog.Asks.bind (Prog.asks_ofOption _)
      exact fun boat => .bind (removeCommand_asks w boat) fun _ => vTaskDelay_asks (w.delay 10000 rfl)

theorem applyGuess_asks (target : Side) (row col : Int) :
    Prog.Asks P (applyGuess target row col) := by
  apply Prog.Asks.bind (write_asks _ _)
  intro _
  apply Prog.Asks.bind (tryModify_asks _)
  rintro ⟨result, sunk⟩
  apply Prog.Asks.bind (showSunk_asks w target sunk)
  exact fun _ => .bind (write_asks _ _) fun _ => trivial

theorem playerMoved_asks (result : GuessResult) : Prog.Asks P (playerMoved result) :=
  .bind (sendSoundCommand_asks w _) fun _ => moveEnds_asks _ _ _ (sendWsResult_asks .player)

theorem removeLoop_asks (is : List Nat) : Prog.Asks P (removeLoop is) := by
  induction is with
  | nil => trivial
  | cons i is ih =>
      apply get_asks
      intro m
      apply Prog.Asks.bind (Prog.asks_ofOption _)
      intro boat
      apply Prog.Asks.bind
      · exact .ite (.bind (removeCommand_asks w boat) fun _ => vTaskDelay_asks (w.delay 12500 rfl)) trivial
      · exact fun _ => ih

theorem waitingForPlayerCase_asks (receive : P .queueReceive) :
    Prog.Asks P waitingForPlayerCase := by
  refine ⟨receive, fun msg => ?_⟩
  cases msg with
  | none => trivial
  | some msg =>
      refine .ite ?_ trivial
      apply Prog.Asks.bind (applyGuess_asks w _ _ _)
      exact fun result => .ite trivial (playerMoved_asks w result)

end Robot

variable (w : GameCalls P)
include w

theorem sendLedMatrixUpdate_asks : Prog.Asks P (sendLedMatrixUpdate 3) :=
  get_asks fun _ => ioEnqueueSend_asks (w.led _)

theorem opponentMoved_asks : Prog.Asks P opponentMoved :=
  moveEnds_asks _ _ _ (.bind (sendLedMatrixUpdate_asks w) fun _ => sendWsResult_asks .opponent)

theorem opponentMove_asks (lim : Limits) : Prog.Asks P (opponentMove lim) := by
  apply Prog.Asks.bind (Prog.asks_attempt _)
  intro coord
  apply Prog.Asks.bind (applyGuess_asks w.toRobotCalls _ _ _)
  intro result
  apply Prog.Asks.bind (tryModify_asks _)
  exact fun _ => .ite trivial (opponentMoved_asks w)

/-- A case that opens with a call makes it once. -/
theorem gameSwitch_asks (lim : Limits) {v : GameState} (first : ∀ c, c.opens = some v → P c) :
    Prog.Asks P (gameSwitch lim v) := by
  cases v with
  | init =>
      apply Prog.Asks.bind
      · apply Prog.Asks.bind (write_asks _ _)
        intro _
        exact .bind (sendLedMatrixUpdate_asks w) fun _ => vTaskDelay_asks (w.delay 1000 rfl)
      · exact fun _ => write_asks _ _
  | webInit =>
      apply get_asks
      intro m
      refine .ite ?_ trivial
      apply Prog.Asks.bind (write_asks _ _)
      exact fun _ => .bind (write_asks _ _) fun _ => placeRandomShips_asks w.places _ _
  | randomInit =>
      apply Prog.Asks.bind
      · apply Prog.Asks.bind (placeRandomShips_asks w.places _ _)
        intro _
        apply Prog.Asks.bind (placeRandomShips_asks w.places _ _)
        exact fun _ => .bind (write_asks _ _) fun _ => vTaskDelay_asks (w.delay 1000 rfl)
      · exact fun _ => write_asks _ _
  | running => trivial
  | waitingForOpponent =>
      exact ⟨first (.delay 2000) rfl, fun _ => opponentMove_asks w lim⟩
  | waitingForPlayer => exact waitingForPlayerCase_asks w.toRobotCalls (first .queueReceive rfl)
  | gameOver => exact ⟨first (.delay 500) rfl, fun _ => write_asks _ _⟩
  | gameRestart =>
      apply Prog.Asks.bind (write_asks _ _)
      exact fun _ => .bind (removeLoop_asks w.toRobotCalls _) fun _ => write_asks _ _

theorem loopTail_asks : Prog.Asks P loopTail :=
  .bind (sendLedMatrixUpdate_asks w) fun _ => vTaskDelay_asks (w.delay 250 rfl)

end Calls
end Battleship
