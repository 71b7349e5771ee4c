import Battleship.Requests

/-!
# Robot commands

The commands for the robot that a run queues, and those that the placing
handlers queue for the ships they seat.
-/
namespace Battleship
open Cooperative

def IoMessage.isRobot (m : IoMessage) : Bool := m.isType "ROBOT"

def Call.order : Call → Option IoMessage
  | .queueSend m => if m.isRobot then some m else none
  | .queueReceive => none
  | .delay _ => none

/-- The robot commands in a piece of a run. -/
def orders (run : List (Out ⊕ Call)) : List IoMessage :=
  run.filterMap (Sum.elim (fun _ => none) Call.order)

@[simp] theorem orders_nil : orders [] = [] := rfl

@[simp] theorem orders_append (a b : List (Out ⊕ Call)) :
    orders (a ++ b) = orders a ++ orders b := List.filterMap_append

@[simp] theorem orders_call (c : Call) : orders [.inr c] = c.order.toList := by
  cases order : c.order <;> simp [orders, order]

@[simp] theorem isRobot_robotCommand (slaveId shipId row col notVertical notPlace : Int) :
    (robotCommand slaveId shipId row col notVertical notPlace).isRobot = true := by
  have named : decide ((List.ofFn (messageTypeOf "ROBOT")).takeWhile (fun b => b ≠ 0) =
      typeBytes "ROBOT") = true := by decide
  exact named

@[simp] theorem robotCommand_order (slaveId shipId row col notVertical notPlace : Int) :
    (Call.queueSend (robotCommand slaveId shipId row col notVertical notPlace)).order =
      some (robotCommand slaveId shipId row col notVertical notPlace) := by
  rw [Call.order, if_pos (isRobot_robotCommand ..)]

/-- The robot is one of the slaves a message may be sent to. -/
theorem sendRobotCommand_sys (shipId row col notVertical notPlace : Int) :
    sendRobotCommand shipId row col notVertical notPlace =
      Prog.sys (Call.queueSend (robotCommand 4 shipId row col notVertical notPlace)) := by
  have slave : (robotCommand 4 shipId row col notVertical notPlace).slaveId = 4 := rfl
  rw [sendRobotCommand, ioEnqueueSend, if_pos]
  rw [slave]
  decide

section Run
variable (ans : ∀ c : Call, c.Ans)

@[simp] theorem orders_sendRobotCommand (shipId row col notVertical notPlace : Int) (m : Mem) :
    orders (Prog.trace ans (sendRobotCommand shipId row col notVertical notPlace) m) =
      [robotCommand 4 shipId row col notVertical notPlace] := by
  rw [sendRobotCommand_sys, Prog.trace_sys, orders_call, robotCommand_order]
  rfl

@[simp] theorem orders_vTaskDelay (ms : Nat) (m : Mem) :
    orders (Prog.trace ans (vTaskDelay ms) m) = [] := rfl

@[simp] theorem orders_countBoat (m : Mem) : orders (Prog.trace ans countBoat m) = [] := rfl

end Run

/-- Whatever its calls return, the task queues nothing for the robot. -/
def Mute {α : Type} (t : GameTask α) : Prop := Prog.Asks (fun c => c.order = none) t

theorem Mute.silent {α : Type} {t : GameTask α} (h : Mute t) (ans : ∀ c : Call, c.Ans) (m : Mem) :
    orders (Prog.trace ans t m) = [] := by
  refine List.filterMap_eq_nil_iff.mpr fun e he => ?_
  cases e with
  | inl o => rfl
  | inr c => exact h.trace_call ans m c he

theorem orders_traceAfter_mute (ans : ∀ c : Call, c.Ans) {α β : Type} {g : α → GameTask β}
    (mute : ∀ a, Mute (g a)) (o : Outcome (α × Mem)) :
    orders (Prog.traceAfter ans g o) = [] := by
  cases o with
  | done r => exact (mute r.1).silent ans r.2
  | undefined => rfl
  | starved => rfl

theorem orders_bind_done {ans : ∀ c : Call, c.Ans} {α β : Type} {t : GameTask α}
    {g : α → GameTask β} {m : Mem} {r : α × Mem} (ran : Prog.exec ans t m = .done r) :
    orders (Prog.trace ans (t >>= g) m) =
      orders (Prog.trace ans t m) ++ orders (Prog.trace ans (g r.1) r.2) := by
  rw [Prog.trace_bind, orders_append, ran, Prog.traceAfter_done]

theorem orders_bind_mute (ans : ∀ c : Call, c.Ans) {α β : Type} {t : GameTask α}
    {g : α → GameTask β} (mute : ∀ a, Mute (g a)) (m : Mem) :
    orders (Prog.trace ans (t >>= g) m) = orders (Prog.trace ans t m) := by
  rw [Prog.trace_bind, orders_append, orders_traceAfter_mute ans mute, List.append_nil]

section Mute
variable {α β : Type}

theorem Mute.first {t : GameTask α} {g : α → GameTask β} (mute : Mute t) {ans : ∀ c : Call, c.Ans}
    {m : Mem} {r : α × Mem} (ran : Prog.exec ans t m = .done r) :
    orders (Prog.trace ans (t >>= g) m) = orders (Prog.trace ans (g r.1) r.2) := by
  rw [orders_bind_done ran, mute.silent ans m, List.nil_append]

theorem Mute.bind {t : GameTask α} {g : α → GameTask β} (ht : Mute t) (hg : ∀ a, Mute (g a)) :
    Mute (t >>= g) := Prog.Asks.bind ht hg

theorem Mute.ite {p : Prop} [Decidable p] {t u : GameTask α} (ht : Mute t) (hu : Mute u) :
    Mute (if p then t else u) := Prog.Asks.ite ht hu

theorem mute_ret (a : α) : Mute (.ret a : GameTask α) := trivial

theorem mute_undefined : Mute (.undefined : GameTask α) := trivial

theorem mute_get : Mute (Prog.get : GameTask Mem) := fun _ => trivial

theorem mute_write (f : Mem → Mem) (log : List Out) : Mute (Prog.write f log) := fun _ => trivial

theorem mute_attempt (f : Mem → Outcome (α × Mem)) : Mute (Prog.attempt f) := Prog.asks_attempt f

theorem mute_tryModify (f : Mem → Option (α × Mem)) : Mute (Prog.tryModify f) := mute_attempt _

theorem mute_ofOption (o : Option α) : Mute (Prog.ofOption o) := Prog.asks_ofOption o

theorem mute_sys {c : Call} (h : c.order = none) : Mute (Prog.sys c : GameTask c.Ans) :=
  ⟨h, fun _ => trivial⟩

theorem mute_ioEnqueueSend {msg : IoMessage} (other : msg.isRobot = false) :
    Mute (ioEnqueueSend msg) :=
  .ite (mute_sys (if_neg (by simp [other]))) (mute_ret ())

theorem ledMessage_isRobot (slaveId : Int) (leds : Leds) :
    (ledMessage slaveId leds).isRobot = false := by
  have named : decide ((List.ofFn (messageTypeOf "LED")).takeWhile (fun b => b ≠ 0) =
      typeBytes "ROBOT") = false := by decide
  exact named

theorem soundCommand_isRobot (slaveId soundId : Int) :
    (soundCommand slaveId soundId).isRobot = false := by
  have named : decide ((List.ofFn (messageTypeOf "SOUND")).takeWhile (fun b => b ≠ 0) =
      typeBytes "ROBOT") = false := by decide
  exact named

theorem mute_sendSoundCommand (slaveId soundId : Int) : Mute (sendSoundCommand slaveId soundId) :=
  mute_ioEnqueueSend (soundCommand_isRobot slaveId soundId)

theorem mute_sendLedMatrixUpdate (slaveId : Int) : Mute (sendLedMatrixUpdate slaveId) :=
  mute_get.bind fun m => mute_ioEnqueueSend (ledMessage_isRobot slaveId m.leds)

theorem mute_vTaskDelay (ms : Nat) : Mute (vTaskDelay ms) := mute_sys rfl

theorem mute_sendWsGameUpdate (isInit : Bool) : Mute (sendWsGameUpdate isInit) :=
  mute_get.bind fun _ => .ite (mute_write _ _) (mute_ret ())

theorem mute_sendWsResult (winner : Side) : Mute (sendWsResult winner) :=
  (mute_write _ _).bind fun _ => mute_get.bind fun _ => .ite (mute_write _ _) (mute_ret ())

theorem mute_setState (v : GameState) : Mute (setState v) := mute_write _ _

theorem mute_setTurn (v : Bool) : Mute (setTurn v) := mute_write _ _

theorem mute_renderBoard (side : Side) (matrixNum : Nat) (revealShips : Bool) :
    Mute (renderBoard side matrixNum revealShips) := mute_write _ _

theorem mute_renderBoards : Mute renderBoards :=
  (mute_renderBoard _ _ _).bind fun _ => mute_renderBoard _ _ _

theorem mute_allSunk (side : Side) : Mute (allSunk side) := mute_get.bind fun _ => mute_ofOption _

theorem mute_loopTail : Mute loopTail :=
  (mute_sendLedMatrixUpdate 3).bind fun _ => mute_vTaskDelay 250

theorem mute_setDifficulty (body : Body) : Mute (postSetDifficultyHandler body) := by
  cases body with
  | closed => exact mute_ret _
  | invalid => exact mute_ret _
  | json j =>
      simp only [postSetDifficultyHandler]
      split
      · exact mute_ret _
      · exact .ite ((mute_tryModify _).bind fun _ => mute_ret _) (mute_ret _)

theorem mute_placeShips {body : Body} (other : (Request.placeShips body).manual = none) :
    Mute (postPlaceShipsHandler body) := by
  cases body with
  | closed => exact mute_ret _
  | invalid => exact mute_ret _
  | json j =>
      cases item : j.getObjectItem "ships" with
      | none =>
          simp only [postPlaceShipsHandler, item]
          exact mute_ret _
      | some list =>
          have scalar : ¬list.isArray = true := fun array => by
            simp [Request.manual, item, array] at other
          simp only [postPlaceShipsHandler, item, if_neg scalar]
          exact mute_ret _

theorem mute_setupGame {body : Body} (other : (Request.setupGame body).manual = none) :
    Mute (postSetupGameHandler body) := by
  cases body with
  | closed => exact mute_ret _
  | invalid => exact mute_ret _
  | json j =>
      cases text : difficultyText j with
      | none =>
          simp only [postSetupGameHandler, text]
          exact mute_undefined
      | some level =>
          have random : isRandom j = true := by
            by_contra manual
            simp [Request.manual, text, manual] at other
          simp only [postSetupGameHandler, random, if_true]
          exact (mute_ofOption _).bind fun _ => (mute_tryModify _).bind fun _ =>
            (mute_write _ _).bind fun _ => mute_ret _

theorem mute_websocket (text : WsText) : Mute (websocketHandler text) := by
  cases text with
  | init =>
      exact mute_get.bind fun _ =>
        .ite ((mute_sendWsGameUpdate true).bind fun _ => mute_ret _) mute_undefined
  | restart =>
      exact mute_get.bind fun _ => .ite ((mute_write _ _).bind fun _ => mute_ret _) mute_undefined
  | other => exact mute_ret _

/-- Only a request that reaches a placing loop tells the robot anything. -/
theorem mute_other {r : Request} (other : r.manual = none) : Mute (handle r) := by
  cases r with
  | setDifficulty body => exact mute_setDifficulty body
  | placeShips body => exact mute_placeShips other
  | setupGame body => exact mute_setupGame other
  | wsConnect => exact (mute_write _ _).bind fun _ => mute_ret _
  | wsMessage text => exact mute_websocket text

end Mute

section Run
variable (ans : ∀ c : Call, c.Ans)

/-- The command of the setup handler for a ship and its slot. -/
def setupOrder (ship : ShipRequest) (slot : Nat) : IoMessage :=
  robotCommand 4 slot ship.row (if ship.horizontal then ship.col + (ship.length - 1) else ship.col)
    (if ship.horizontal then 0 else 1) 0

/-- The command of the place handler for a ship and its slot. -/
def placeOrder (ship : ShipRequest) (slot : Nat) : IoMessage :=
  robotCommand 4 slot ship.row (ship.col + ship.length - 1) (if ship.horizontal then 0 else 1) 0

theorem orders_finishSetupShip {ship : ShipRequest} {far : Int} (h : setupEdge ship = some far)
    (slot : Nat) (m : Mem) :
    orders (Prog.trace ans (finishSetupShip ship slot) m) = [setupOrder ship slot] := by
  cases horizontal : ship.horizontal with
  | false => simp [finishSetupShip, setupCommand, setupOrder, horizontal]
  | true =>
      have edge : lastEdge ship.col ship.length = some far := by
        simpa [setupEdge, horizontal] using h
      have value : far = ship.col + (ship.length - 1) := by
        obtain ⟨less, first, last⟩ := Option.bind_eq_some_iff.mp edge
        rw [cInt_some last, cInt_some first]
      simp [finishSetupShip, setupCommand, setupOrder, horizontal, edge, value]

theorem orders_finishPlaceShip {ship : ShipRequest} {far : Int} (h : placeEdge ship = some far)
    (slot : Nat) (m : Mem) :
    orders (Prog.trace ans (finishPlaceShip ship slot) m) = [placeOrder ship slot] := by
  have edge : farEdge ship.col ship.length = some far := h
  have value : far = ship.col + ship.length - 1 := by
    obtain ⟨sum, first, last⟩ := Option.bind_eq_some_iff.mp edge
    rw [cInt_some last, cInt_some first]
  simp [finishPlaceShip, placeOrder, edge, value, countBoat, vTaskDelay, Call.order]

/-- The loop of a placing handler sends one command for each ship it seats. -/
theorem orders_placeLoop {decode : Json → Option ShipRequest}
    {finish : ShipRequest → Nat → GameTask Unit} {edge : ShipRequest → Option Int}
    {order : ShipRequest → Nat → IoMessage}
    (hf : ∀ ship slot m, Prog.exec ans (finish ship slot) m = .ofOption ((edge ship).map
      (fun _ => ((), m.setPlayer m.game.player.counted))))
    (ho : ∀ ship far, edge ship = some far → ∀ slot m,
      orders (Prog.trace ans (finish ship slot) m) = [order ship slot])
    {items : List Json} {m : Mem} (hm : m.currentGame = true) {e : Bool × Player}
    (h : seatLoop decode edge items m.game.player = some e) {ships : List ShipRequest}
    {rest : List (Option ShipRequest)} (listed : items.map decode = ships.map some ++ rest)
    (count : e.2.boatCount = m.game.player.boatCount + ships.length) :
    orders (Prog.trace ans (placeLoop decode finish items) m) =
      (ships.zipIdx m.game.player.boatCount).map (fun s => order s.1 s.2) := by
  induction items generalizing m ships with
  | nil =>
      have none : ships = [] := by simpa using (List.append_eq_nil_iff.mp listed.symm).1
      subst none
      rfl
  | cons item items ih =>
      obtain ⟨ship, decoded, stops⟩ := seatLoop_cons h
      simp only [placeLoop, decoded, Prog.trace_bind, Prog.trace_ofOption, Prog.exec_ofOption,
        Option.map_some, Outcome.ofOption_some, Prog.traceAfter_done, Prog.trace_get, Prog.exec_get,
        List.nil_append]
      rcases stops with ⟨full, rfl⟩ | ⟨room, rfl, bad⟩ | ⟨room, far, fits, defined, h⟩
      · have none : ships = [] := List.length_eq_zero_iff.mp (by simpa using count)
        subst none
        rw [if_pos full]
        rfl
      · have none : ships = [] := List.length_eq_zero_iff.mp (by simpa using count)
        subst none
        have misfit : m.game.player.seat ship = some none := by
          simp [Player.seat, bad]
        rw [if_neg (not_le.mpr room), Prog.trace_bind, Prog.trace_tryModify,
          exec_placeRequest ans ship hm, misfit]
        rfl
      · obtain ⟨placed, -, -, seats, -⟩ := seatLoop_seats h
        have more := seats.count
        rw [seated_boatCount] at more
        cases ships with
        | nil =>
            rw [List.length_nil] at count
            omega
        | cons first ships =>
            simp only [List.map_cons, List.cons_append, List.cons.injEq, decoded,
              Option.some.injEq] at listed
            obtain ⟨rfl, listed⟩ := listed
            have later := ih (m := m.setPlayer (m.game.player.seated room ship)) hm h listed
              (by rw [List.length_cons] at count; rw [count]; simp [Mem.setPlayer]; omega)
            have placed : Prog.exec ans (finish ship m.game.player.boatCount)
                (m.setPlayer (m.game.player.withNext ⟨m.game.player.boatCount, room⟩ ship.row
                  ship.col ship.length ship.horizontal)) =
                .done ((), m.setPlayer (m.game.player.seated room ship)) := by
              rw [hf, defined]
              rfl
            rw [if_neg (not_le.mpr room), Prog.trace_bind, Prog.trace_tryModify,
              exec_placeRequest ans ship hm, seat_of_fits room fits]
            simp only [Option.map_some, Outcome.ofOption_some, Prog.traceAfter_done,
              Prog.trace_bind, placed, List.nil_append, orders_append, ho ship far defined, later]
            rfl

/-- The command a manual request sends for a ship and its slot. -/
def Request.order : Request → ShipRequest → Nat → IoMessage
  | .placeShips _ => placeOrder
  | _ => setupOrder

/-- A manual request sends one command for each ship it seats, in their order. -/
theorem orders_manual {r : Request} {w : Manual} (h : r.manual = some w) {m : Mem}
    (hm : m.currentGame = true) {e : Bool × Player} (seated : w.seatAll m.game.player = some e)
    {ships : List ShipRequest} {rest : List (Option ShipRequest)}
    (listed : w.ships.map w.decode = ships.map some ++ rest)
    (count : e.2.boatCount = ships.length) :
    orders (Prog.trace ans (handle r) m) = ships.zipIdx.map (fun s => r.order s.1 s.2) := by
  have counted : e.2.boatCount = m.game.player.uncounted.boatCount + ships.length :=
    count.trans (Nat.zero_add _).symm
  have finished : ∀ (bad : Response) (placed : Bool),
      Mute (if placed then (do setReady; return .ok) else return bad : GameTask Response) :=
    fun bad placed => .ite ((mute_write _ _).bind fun _ => mute_ret _) (mute_ret _)
  have silent : ∀ m : Mem, orders (Prog.trace ans resetBoatCount m) = [] :=
    (mute_tryModify _).silent ans
  rcases manual_cases h with ⟨j, level, rfl, manual, text, rfl⟩ | ⟨j, list, rfl, item, array, rfl⟩
  · let leveled : Mem := { m with game := { m.game with difficulty := atoi level } }
    have set : Prog.exec ans (Prog.tryModify (withGame (fun g =>
        some ((), { g with difficulty := atoi level }))) : GameTask Unit) m =
        .done ((), leveled) := exec_setLevel ans level hm
    have loop := orders_placeLoop ans (exec_finishSetupShip ans)
      (fun ship far edge slot m => orders_finishSetupShip ans edge slot m)
      (m := leveled.setPlayer m.game.player.uncounted) hm seated listed counted
    have opened : handle (.setupGame (.json j)) = (do
        Prog.tryModify (withGame (fun g => some ((), { g with difficulty := atoi level })))
        resetBoatCount
        let placed ← placeLoop decodeSetupShip finishSetupShip (setupShips j)
        if placed then do setReady; return .ok
        else return .badRequest "Invalid placement") := by
      simp only [handle, postSetupGameHandler, manual, text]
      rfl
    rw [opened, Prog.trace_bind, set, Prog.traceAfter_done, Prog.trace_tryModify, List.nil_append,
      Prog.trace_bind, exec_resetBoatCount ans (m := leveled) hm, Prog.traceAfter_done,
      orders_append, silent, List.nil_append, orders_bind_mute ans (finished _)]
    exact loop
  · have loop := orders_placeLoop ans (exec_finishPlaceShip ans)
      (fun ship far edge slot m => orders_finishPlaceShip ans edge slot m)
      (m := m.setPlayer m.game.player.uncounted) hm seated listed counted
    have opened : handle (.placeShips (.json j)) = (do
        resetBoatCount
        let placed ← placeLoop decodePlaceShip finishPlaceShip list.children
        if placed then do setReady; return .ok else return .espFail) := by
      simp only [handle, postPlaceShipsHandler, item, array, if_true]
    rw [opened, Prog.trace_bind, exec_resetBoatCount ans hm, Prog.traceAfter_done, orders_append,
      silent, List.nil_append, orders_bind_mute ans (finished .espFail)]
    exact loop

end Run

end Battleship
