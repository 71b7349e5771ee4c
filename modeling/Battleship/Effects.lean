import Battleship.GameTask

/-!
# Who writes the state

`game->state` is assigned in `setState` and in the two web commands, and nowhere
else. Every other program of the game side keeps it, and but for `applyGuess` and
`sendWsResult` it logs only frames to the browser.
-/
namespace Battleship
open Cooperative

/-- Neither a command nor a dispatch. -/
def Out.Plain : Out → Prop
  | .command _ => False
  | .dispatch _ => False
  | _ => True

def Out.IsFrame : Out → Prop
  | .frame _ => True
  | _ => False

/-- A frame to the browser, or the call that sends the result. -/
def Out.Shown : Out → Prop
  | .frame _ => True
  | .wsResult _ => True
  | _ => False

theorem Out.IsFrame.shown {o : Out} (h : o.IsFrame) : o.Shown := by
  cases o with
  | frame f => trivial
  | _ => exact h.elim

theorem Out.Shown.plain {o : Out} (h : o.Shown) : o.Plain := by
  cases o with
  | frame f => trivial
  | wsResult winner => trivial
  | guess target row col => trivial
  | guessed target result => trivial
  | command v => exact h
  | dispatch v => exact h

/-- The log gains entries in `P` only. -/
def Logs (P : Out → Prop) (_ : Mem) (r : Mem × List Out) : Prop := ∀ o ∈ r.2, P o

def Steady (m : Mem) (r : Mem × List Out) : Prop :=
  r.1.game.state = m.game.state ∧ Logs Out.IsFrame m r

/-- Steady, or one web command that writes the state it asks for. -/
def Obeys (m : Mem) (r : Mem × List Out) : Prop :=
  Steady m r ∨ ∃ c, r.2 = [.command c] ∧ r.1.game.state = c

theorem logs_nil {P : Out → Prop} (m m' : Mem) : Logs P m (m', []) :=
  fun _ ho => absurd ho List.not_mem_nil

theorem steady_nil {m m' : Mem} (h : m'.game.state = m.game.state) : Steady m (m', []) :=
  ⟨h, logs_nil m m'⟩

section Steady
variable {α β : Type}

theorem steady_get {g : Mem → GameTask β} (h : ∀ m, Prog.Always Steady (g m)) :
    Prog.Always Steady (Prog.get >>= g) :=
  .bind (Prog.always_get fun _ => steady_nil rfl) h

theorem steady_emit (o : Out) (h : o.IsFrame) :
    Prog.Always Steady (Prog.emit o : GameTask Unit) :=
  Prog.always_write fun _ => ⟨rfl, by simpa [Logs] using h⟩

theorem steady_tryModify {f : Mem → Option (α × Mem)}
    (h : ∀ m r, f m = some r → r.2.game.state = m.game.state) :
    Prog.Always Steady (Prog.tryModify f : GameTask α) :=
  Prog.always_tryModify (fun _ => steady_nil rfl) (fun m r eq => steady_nil (h m r eq))

@[simp] theorem setSide_state (g : Game) (side : Side) (p : Player) :
    (g.setSide side p).state = g.state := by
  cases side <;> rfl

theorem ioEnqueueSend_always {R : Mem → Mem × List Out → Prop} (m : IoMessage) :
    Prog.Always R (ioEnqueueSend m) :=
  .ite (Prog.always_sys _) trivial

/-- `R` holds of each single write of the game task to the opponent's engine and
the LEDs. -/
structure EngineWrites (R : Mem → Mem × List Out → Prop) : Prop where
  none : ∀ m, R m (m, [])
  engine : ∀ m st b rng, R m ({ m with smartAiState := st, aiGuessBoard := b, rng := rng }, [])
  leds : ∀ m leds, R m ({ m with leds := leds }, [])

/-- And of each write to a player. -/
structure PlayWrites (R : Mem → Mem × List Out → Prop) : Prop extends EngineWrites R where
  side : ∀ m side p, R m ({ m with game := m.game.setSide side p }, [])

section Play
variable {R : Mem → Mem × List Out → Prop}

theorem countRandomShip_always (w : PlayWrites R) (side : Side) :
    Prog.Always R (countRandomShip side) := Prog.always_write fun m => w.side m side _

variable (w : EngineWrites R)
include w

theorem sendLedMatrixUpdate_always (slaveId : Int) :
    Prog.Always R (sendLedMatrixUpdate slaveId) :=
  .bind (Prog.always_get w.none) fun _ => ioEnqueueSend_always _

theorem renderBoard_always (side : Side) (matrixNum : Nat) (revealShips : Bool) :
    Prog.Always R (renderBoard side matrixNum revealShips) :=
  Prog.always_write fun m => w.leds m _

theorem renderBoards_always : Prog.Always R renderBoards :=
  .bind (renderBoard_always w _ _ _) fun _ => renderBoard_always w _ _ _

omit w in
theorem removeCommand_always (boat : Boat) : Prog.Always R (removeCommand boat) :=
  .ite (ioEnqueueSend_always _) (ioEnqueueSend_always _)

omit w in
/-- Announcing a sunk ship writes nothing. -/
theorem showSunk_idle (idle : ∀ m, R m (m, [])) (target : Side) (sunk : Option Nat) :
    Prog.Always R (showSunk target sunk) := by
  cases sunk with
  | none => trivial
  | some b =>
      apply Prog.Always.bind (Prog.always_get idle)
      intro m
      refine .ite ?_ trivial
      apply Prog.Always.bind (ioEnqueueSend_always _)
      intro _
      apply Prog.Always.bind (Prog.always_sys _)
      intro _
      apply Prog.Always.bind (Prog.always_get idle)
      intro m'
      apply Prog.Always.bind (Prog.always_ofOption _)
      exact fun boat => .bind (removeCommand_always boat) fun _ => Prog.always_sys _

theorem showSunk_always (target : Side) (sunk : Option Nat) :
    Prog.Always R (showSunk target sunk) := showSunk_idle w.none target sunk

omit w in
theorem placeCommand_always (shipId : Int) (d : Draw) (length : Int) :
    Prog.Always R (placeCommand shipId d length) :=
  .ite (ioEnqueueSend_always _) (ioEnqueueSend_always _)

theorem allSunk_always (side : Side) : Prog.Always R (allSunk side) :=
  .bind (Prog.always_get w.none) fun _ => Prog.always_ofOption _

theorem opponentGuess_always (lim : Limits) : Prog.Always R (opponentGuess lim) := by
  apply Prog.always_attempt w.none
  intro m r eq
  obtain ⟨g, -, eq⟩ := Outcome.bind_eq_done eq
  cases eq
  exact w.engine m g.2.1 m.aiGuessBoard g.2.2

theorem updateSmartAi_always (lim : Limits) (coord : Coordinate) (result : GuessResult) :
    Prog.Always R (updateSmartAi lim coord result) := by
  apply Prog.always_tryModify w.none
  intro m r eq
  simp only [Option.bind_eq_bind, Option.bind_eq_some_iff, Option.pure_def,
    Option.some.injEq] at eq
  obtain ⟨ai, -, rfl⟩ := eq
  exact w.engine m ai.1 ai.2 m.rng

omit w in
theorem removeLoop_idle (idle : ∀ m, R m (m, [])) (is : List Nat) :
    Prog.Always R (removeLoop is) := by
  induction is with
  | nil => trivial
  | cons i is ih =>
      apply Prog.Always.bind (Prog.always_get idle)
      intro m
      apply Prog.Always.bind (Prog.always_ofOption _)
      intro boat
      apply Prog.Always.bind
      · exact .ite (.bind (removeCommand_always boat) fun _ => Prog.always_sys _) trivial
      · exact fun _ => ih

theorem removeLoop_always (is : List Nat) : Prog.Always R (removeLoop is) :=
  removeLoop_idle w.none is

theorem loopTail_always : Prog.Always R loopTail :=
  .bind (sendLedMatrixUpdate_always w _) fun _ => Prog.always_sys _

end Play

theorem steady_engine : EngineWrites Steady where
  none _ := steady_nil rfl
  engine _ _ _ _ := steady_nil rfl
  leds _ _ := steady_nil rfl

theorem ioEnqueueSend_steady (m : IoMessage) : Prog.Always Steady (ioEnqueueSend m) :=
  ioEnqueueSend_always m

theorem sendLedMatrixUpdate_steady (slaveId : Int) :
    Prog.Always Steady (sendLedMatrixUpdate slaveId) := sendLedMatrixUpdate_always steady_engine slaveId

theorem sendWsGameUpdate_steady (isInit : Bool) :
    Prog.Always Steady (sendWsGameUpdate isInit) := by
  apply steady_get
  intro m
  apply Prog.Always.ite
  · exact steady_emit _ trivial
  · trivial

theorem renderBoard_steady (side : Side) (matrixNum : Nat) (revealShips : Bool) :
    Prog.Always Steady (renderBoard side matrixNum revealShips) :=
  renderBoard_always steady_engine side matrixNum revealShips

theorem renderBoards_steady : Prog.Always Steady renderBoards := renderBoards_always steady_engine

theorem showSunk_steady (target : Side) (sunk : Option Nat) :
    Prog.Always Steady (showSunk target sunk) := showSunk_always steady_engine target sunk

theorem steady_shown {t : GameTask α} (h : Prog.Always Steady t) :
    Prog.Always (Logs Out.Shown) t := h.mono fun _ _ steady o ho => (steady.2 o ho).shown

theorem shown_plain {t : GameTask α} (h : Prog.Always (Logs Out.Shown) t) :
    Prog.Always (Logs Out.Plain) t := h.mono fun _ _ shown o ho => (shown o ho).plain

theorem steady_plain {t : GameTask α} (h : Prog.Always Steady t) :
    Prog.Always (Logs Out.Plain) t := shown_plain (steady_shown h)

/-- `R` holds of each single write of a random placement: the outcome of a round, a count,
and a frame. -/
structure RoundWrites (R : Mem → Mem × List Out → Prop) (side : Side) : Prop where
  none : ∀ m, R m (m, [])
  frame : ∀ m f, R m (m, [.frame f])
  round : ∀ m length found p rng,
    placeRandomShip (m.game.side side) length m.rng = some (found, p, rng) →
      R m ({ m with game := m.game.setSide side p, rng := rng }, [])
  count : ∀ m n, R m
    ({ m with game := m.game.setSide side { m.game.side side with boatCount := n } }, [])

theorem sendWsGameUpdate_shows {R : Mem → Mem × List Out → Prop} (none : ∀ m, R m (m, []))
    (frame : ∀ m f, R m (m, [.frame f])) (isInit : Bool) :
    Prog.Always R (sendWsGameUpdate isInit) :=
  .bind (Prog.always_get none) fun _ => .ite (Prog.always_write fun m => frame m _) trivial

theorem placeRandomShips_writes {R : Mem → Mem × List Out → Prop} {side : Side}
    (w : RoundWrites R side) (lengths : List Int) :
    Prog.Always R (placeRandomShips side lengths) := by
  have count : Prog.Always R (countRandomShip side) := Prog.always_write fun m => w.count m _
  apply Prog.Always.bind (Prog.always_write fun m => w.count m 0)
  intro _
  induction lengths with
  | nil => trivial
  | cons length rest ih =>
      apply Prog.Always.bind
      · apply Prog.always_tryModify w.none
        intro m r eq
        simp only [Option.bind_eq_bind, Option.bind_eq_some_iff, Option.pure_def,
          Option.some.injEq] at eq
        obtain ⟨⟨found, p, rng⟩, round, rfl⟩ := eq
        exact w.round m length found p rng round
      intro found
      cases found with
      | none => exact ih
      | some d =>
          refine .bind ?_ fun _ => ih
          apply Prog.Always.bind (Prog.always_get w.none)
          intro m
          refine .ite ?_ count
          apply Prog.Always.bind (placeCommand_always _ _ _)
          intro _
          apply Prog.Always.bind (sendWsGameUpdate_shows w.none w.frame _)
          exact fun _ => .bind (Prog.always_sys _) fun _ => count

theorem placeRandomShips_steady (side : Side) (lengths : List Int) :
    Prog.Always Steady (placeRandomShips side lengths) :=
  placeRandomShips_writes
    { none := fun _ => steady_nil rfl
      frame := fun _ _ => ⟨rfl, by simp [Logs, Out.IsFrame]⟩
      round := fun _ _ _ _ _ _ => steady_nil (setSide_state _ _ _)
      count := fun _ _ => steady_nil (setSide_state _ _ _) } lengths

/-- `R` holds of each single write of the HTTP server to the difficulty, the
connection and the state, and of each frame to the browser. -/
structure WebWrites (R : Mem → Mem × List Out → Prop) : Prop where
  none : ∀ m, R m (m, [])
  difficulty : ∀ m d, R m ({ m with game := { m.game with difficulty := d } }, [])
  connected : ∀ m, R m ({ m with wsConnected := true }, [])
  command : ∀ m c, c ∈ [GameState.gameRestart, .randomInit] → R m (m.setState c, [.command c])
  frame : ∀ m f, R m (m, [.frame f])

/-- `R` holds of each single write that takes up a list of ships: the difficulty, a ship
seated or counted, all of them uncounted, and the flag. -/
structure ListWrites (R : Mem → Mem × List Out → Prop) : Prop where
  none : ∀ m, R m (m, [])
  difficulty : ∀ m d, R m ({ m with game := { m.game with difficulty := d } }, [])
  seated : ∀ m ship p, m.game.player.seat ship = some (some p) →
    R m ({ m with game := { m.game with player := p } }, [])
  count : ∀ m n, R m ({ m with game := { m.game with player :=
    { m.game.player with boatCount := n } } }, [])
  ready : ∀ m, R m ({ m with game := { m.game with gameReady := true } }, [])

/-- And of every other write of the HTTP server. -/
structure SeatWrites (R : Mem → Mem × List Out → Prop) : Prop extends WebWrites R, ListWrites R

/-- And of any write to the player. -/
structure ServerWrites (R : Mem → Mem × List Out → Prop) : Prop extends WebWrites R where
  player : ∀ m p, R m ({ m with game := { m.game with player := p } }, [])
  ready : ∀ m, R m ({ m with game := { m.game with gameReady := true } }, [])

theorem ServerWrites.seats {R : Mem → Mem × List Out → Prop} (w : ServerWrites R) :
    SeatWrites R where
  toWebWrites := w.toWebWrites
  seated m _ p _ := w.player m p
  count m _ := w.player m _
  ready := w.ready

section Handlers
variable {R : Mem → Mem × List Out → Prop}

theorem withGame_always (none : ∀ m, R m (m, [])) {f : Game → Option (α × Game)}
    (h : ∀ m r, f m.game = some r → R m ({ m with game := r.2 }, [])) :
    Prog.Always R (Prog.tryModify (withGame f) : GameTask α) := by
  apply Prog.always_tryModify none
  intro m r eq
  unfold withGame at eq
  split at eq
  · obtain ⟨r', hf, rfl⟩ := Option.map_eq_some_iff.mp eq
    exact h m r' hf
  · cases eq

theorem setDifficulty_always (none : ∀ m, R m (m, []))
    (difficulty : ∀ m d, R m ({ m with game := { m.game with difficulty := d } }, []))
    (level : Int) : Prog.Always R
    (Prog.tryModify (withGame (fun g => some ((), { g with difficulty := level }))) :
      GameTask Unit) := by
  apply withGame_always none
  intro m r eq
  cases eq
  exact difficulty m level

section Web
variable (w : WebWrites R)
include w

theorem postSetDifficultyHandler_always (body : Body) :
    Prog.Always R (postSetDifficultyHandler body) := by
  cases body with
  | closed => trivial
  | invalid => trivial
  | json j =>
      simp only [postSetDifficultyHandler]
      split
      · trivial
      · exact .ite (.bind (setDifficulty_always w.none w.difficulty _) fun _ => trivial) trivial

theorem command_always {c : GameState} (hc : c ∈ [GameState.gameRestart, .randomInit]) :
    Prog.Always R
      (do Prog.write (fun m => m.setState c) [.command c]; return .ok : GameTask Response) :=
  .bind (Prog.always_write fun m => w.command m c hc) fun _ => trivial

theorem sendWsGameUpdate_always (isInit : Bool) : Prog.Always R (sendWsGameUpdate isInit) :=
  sendWsGameUpdate_shows w.none w.frame isInit

theorem websocketHandler_always (text : WsText) : Prog.Always R (websocketHandler text) := by
  cases text with
  | init =>
      apply Prog.Always.bind (Prog.always_get w.none)
      intro m
      exact .ite (.bind (sendWsGameUpdate_always w _) fun _ => trivial) trivial
  | restart =>
      apply Prog.Always.bind (Prog.always_get w.none)
      exact fun m => .ite (command_always w (by simp)) trivial
  | other => trivial

end Web

section Lists
variable (w : ListWrites R)
include w

theorem placeRequest_always (ship : ShipRequest) : Prog.Always R
    (Prog.tryModify (withGame (placeRequest ship)) : GameTask (Option Nat)) := by
  apply withGame_always w.none
  intro m r eq
  obtain ⟨seated, seat, eq⟩ := Option.bind_eq_some_iff.mp eq
  cases seated with
  | none =>
      cases eq
      exact w.none m
  | some p =>
      cases eq
      exact w.seated m ship p seat

theorem countBoat_always : Prog.Always R countBoat := Prog.always_write fun m => w.count m _

theorem finishPlaceShip_always (ship : ShipRequest) (slot : Nat) :
    Prog.Always R (finishPlaceShip ship slot) := by
  apply Prog.Always.bind (Prog.always_ofOption _)
  intro far
  apply Prog.Always.bind (ioEnqueueSend_always _)
  exact fun _ => .bind (countBoat_always w) fun _ => Prog.always_sys _

theorem finishSetupShip_always (ship : ShipRequest) (slot : Nat) :
    Prog.Always R (finishSetupShip ship slot) := by
  apply Prog.Always.bind
  · refine .ite ?_ (ioEnqueueSend_always _)
    exact .bind (Prog.always_ofOption _) fun _ => ioEnqueueSend_always _
  · exact fun _ => .bind (Prog.always_sys _) fun _ => countBoat_always w

theorem placeLoop_always {decode : Json → Option ShipRequest}
    {finish : ShipRequest → Nat → GameTask Unit}
    (h : ∀ ship slot, Prog.Always R (finish ship slot)) (items : List Json) :
    Prog.Always R (placeLoop decode finish items) := by
  induction items with
  | nil => trivial
  | cons item rest ih =>
      apply Prog.Always.bind (Prog.always_ofOption _)
      intro ship
      apply Prog.Always.bind (Prog.always_get w.none)
      intro m
      refine .ite trivial ?_
      apply Prog.Always.bind (placeRequest_always w ship)
      intro placed
      cases placed with
      | none => trivial
      | some slot => exact .bind (h ship slot) fun _ => ih

theorem resetBoatCount_always : Prog.Always R resetBoatCount := by
  apply withGame_always w.none
  intro m r eq
  cases eq
  exact w.count m 0

/-- Whatever the rest of a placing handler answers, it only sets `game_ready`. -/
theorem answerPlaced_always (placed : Bool) (bad : Response) : Prog.Always R
    (if placed then (do setReady; return .ok) else .ret bad : GameTask Response) :=
  .ite (.bind (Prog.always_write w.ready) fun _ => trivial) trivial

theorem seatShips_always {decode : Json → Option ShipRequest}
    {finish : ShipRequest → Nat → GameTask Unit} (h : ∀ ship slot, Prog.Always R (finish ship slot))
    (items : List Json) (bad : Response) : Prog.Always R (do
      resetBoatCount
      let placed ← placeLoop decode finish items
      if placed then (do setReady; return .ok) else return bad : GameTask Response) := by
  apply Prog.Always.bind (resetBoatCount_always w)
  intro _
  apply Prog.Always.bind (placeLoop_always w h items)
  exact fun placed => answerPlaced_always w placed bad

theorem postPlaceShipsHandler_always (body : Body) :
    Prog.Always R (postPlaceShipsHandler body) := by
  cases body with
  | closed => trivial
  | invalid => trivial
  | json j =>
      simp only [postPlaceShipsHandler]
      split
      · trivial
      · exact .ite (seatShips_always w (finishPlaceShip_always w) _ _) trivial

/-- Without a random fleet the other handler takes up a list and nothing else. -/
theorem setupList_always {j : Json} (list : isRandom j = false) :
    Prog.Always R (postSetupGameHandler (.json j)) := by
  apply Prog.Always.bind (Prog.always_ofOption _)
  intro level
  apply Prog.Always.bind (setDifficulty_always w.none w.difficulty _)
  intro _
  rw [if_neg (by simp [list])]
  exact seatShips_always w (finishSetupShip_always w) _ _

end Lists

variable (w : SeatWrites R)
include w

theorem postSetupGameHandler_always (body : Body) :
    Prog.Always R (postSetupGameHandler body) := by
  cases body with
  | closed => trivial
  | invalid => trivial
  | json j =>
      apply Prog.Always.bind (Prog.always_ofOption _)
      intro level
      apply Prog.Always.bind (setDifficulty_always w.none w.difficulty _)
      intro _
      exact .ite (command_always w.toWebWrites (by simp))
        (seatShips_always w.toListWrites (finishSetupShip_always w.toListWrites) _ _)

/-- What holds of every single write holds of every action of a handler. -/
theorem handle_seats (r : Request) : Prog.Always R (handle r) := by
  cases r with
  | setDifficulty body => exact postSetDifficultyHandler_always w.toWebWrites body
  | placeShips body => exact postPlaceShipsHandler_always w.toListWrites body
  | setupGame body => exact postSetupGameHandler_always w body
  | wsConnect => exact .bind (Prog.always_write w.connected) fun _ => trivial
  | wsMessage text => exact websocketHandler_always w.toWebWrites text

omit w in
theorem handle_always (w : ServerWrites R) (r : Request) : Prog.Always R (handle r) :=
  handle_seats w.seats r

end Handlers

theorem obeys_writes : ServerWrites Obeys where
  none _ := .inl (steady_nil rfl)
  player _ _ := .inl (steady_nil rfl)
  difficulty _ _ := .inl (steady_nil rfl)
  ready _ := .inl (steady_nil rfl)
  connected _ := .inl (steady_nil rfl)
  command _ c _ := .inr ⟨c, rfl, rfl⟩
  frame _ _ := .inl ⟨rfl, by simp [Logs, Out.IsFrame]⟩

/-- A handler obeys: all it ever does to the state is a web command. -/
theorem handle_obeys (r : Request) : Prog.Always Obeys (handle r) := handle_always obeys_writes r

/-- `R` holds of each single write that ends a move. -/
structure MoveWrites (R : Mem → Mem × List Out → Prop) : Prop extends EngineWrites R where
  frame : ∀ m f, R m (m, [.frame f])
  result : ∀ m winner, R m (m, [.wsResult winner])
  turn : ∀ m v, R m ({ m with game := { m.game with turn := v } }, [])
  state : ∀ m v, R m (m.setState v, [])

section Moves
variable {R : Mem → Mem × List Out → Prop} (w : MoveWrites R)
include w

theorem sendWsResult_always (winner : Side) : Prog.Always R (sendWsResult winner) := by
  apply Prog.Always.bind (Prog.always_write fun m => w.result m winner)
  intro _
  apply Prog.Always.bind (Prog.always_get w.none)
  exact fun m => .ite (Prog.always_write fun m' => w.frame m' _) trivial

theorem moveEnds_always (turn : Bool) (side : Side) (next : GameState) {won : GameTask Unit}
    (ended : Prog.Always R won) : Prog.Always R (do
      renderBoards
      setTurn turn
      if ← allSunk side then
        setState .gameOver
        won
      else
        setState next
        sendWsGameUpdate false) := by
  apply Prog.Always.bind (renderBoards_always w.toEngineWrites)
  intro _
  apply Prog.Always.bind (Prog.always_write fun m => w.turn m turn)
  intro _
  apply Prog.Always.bind (allSunk_always w.toEngineWrites side)
  intro sunk
  apply Prog.Always.ite
  · exact .bind (Prog.always_write fun m => w.state m _) fun _ => ended
  · exact .bind (Prog.always_write fun m => w.state m _) fun _ =>
      sendWsGameUpdate_shows w.none w.frame _

theorem playerMoved_always (result : GuessResult) : Prog.Always R (playerMoved result) :=
  .bind (ioEnqueueSend_always _) fun _ => moveEnds_always w _ _ _ (sendWsResult_always w .player)

theorem opponentMoved_always : Prog.Always R opponentMoved := by
  refine moveEnds_always w _ _ _ ?_
  exact .bind (sendLedMatrixUpdate_always w.toEngineWrites _) fun _ => sendWsResult_always w _

end Moves

theorem loopTail_steady : Prog.Always Steady loopTail := loopTail_always steady_engine

theorem allSunk_steady (side : Side) : Prog.Always Steady (allSunk side) :=
  allSunk_always steady_engine side

theorem opponentGuess_steady (lim : Limits) : Prog.Always Steady (opponentGuess lim) :=
  opponentGuess_always steady_engine lim

theorem updateSmartAi_steady (lim : Limits) (coord : Coordinate) (result : GuessResult) :
    Prog.Always Steady (updateSmartAi lim coord result) :=
  updateSmartAi_always steady_engine lim coord result

theorem removeLoop_steady (is : List Nat) : Prog.Always Steady (removeLoop is) :=
  removeLoop_always steady_engine is

theorem setState_shown (v : GameState) : Prog.Always (Logs Out.Shown) (setState v) :=
  Prog.always_write fun _ => logs_nil _ _

theorem shown_moves : MoveWrites (Logs Out.Shown) where
  none m := logs_nil m m
  engine _ _ _ _ := logs_nil _ _
  leds _ _ := logs_nil _ _
  frame _ _ := by simp [Logs, Out.Shown]
  result _ _ := by simp [Logs, Out.Shown]
  turn _ _ := logs_nil _ _
  state _ _ := logs_nil _ _

theorem playerMoved_shown (result : GuessResult) :
    Prog.Always (Logs Out.Shown) (playerMoved result) := playerMoved_always shown_moves result

theorem opponentMoved_shown : Prog.Always (Logs Out.Shown) opponentMoved :=
  opponentMoved_always shown_moves

/-- `P` holds of frames and results, and of every answer to a guess. -/
structure Out.Covers (P : Out → Prop) : Prop where
  shown : ∀ o, o.Shown → P o
  guessed : ∀ target result, P (.guessed target result)

section Covers
variable {P : Out → Prop} (h : Out.Covers P)
include h

theorem shown_logs {t : GameTask α} (shown : Prog.Always (Logs Out.Shown) t) :
    Prog.Always (Logs P) t := shown.mono fun _ _ shown o ho => h.shown o (shown o ho)

theorem steady_logs {t : GameTask α} (steady : Prog.Always Steady t) : Prog.Always (Logs P) t :=
  shown_logs h (steady_shown steady)

theorem applyGuess_logs {target : Side} {row col : Int} (guess : P (.guess target row col)) :
    Prog.Always (Logs P) (applyGuess target row col) := by
  apply Prog.Always.bind (Prog.always_write fun _ => by simpa [Logs] using guess)
  intro _
  apply Prog.Always.bind
  · exact Prog.always_tryModify (fun _ => logs_nil _ _) fun _ _ _ => logs_nil _ _
  rintro ⟨result, sunk⟩
  apply Prog.Always.bind (steady_logs h (showSunk_steady target sunk))
  exact fun _ => .bind (Prog.always_write fun _ => by simpa [Logs] using h.guessed target result)
    fun _ => trivial

theorem waitingForPlayerCase_logs (guess : ∀ row col, P (.guess .opponent row col)) :
    Prog.Always (Logs P) waitingForPlayerCase := by
  apply Prog.Always.bind (Prog.always_sys _)
  intro msg
  cases msg with
  | none => trivial
  | some msg =>
      refine .ite ?_ trivial
      apply Prog.Always.bind (applyGuess_logs h (guess _ _))
      exact fun result => .ite trivial (shown_logs h (playerMoved_shown result))

theorem opponentMove_logs (guess : ∀ row col, P (.guess .player row col)) (lim : Limits) :
    Prog.Always (Logs P) (opponentMove lim) := by
  apply Prog.Always.bind (steady_logs h (opponentGuess_steady lim))
  intro coord
  apply Prog.Always.bind (applyGuess_logs h (guess _ _))
  intro result
  apply Prog.Always.bind (steady_logs h (updateSmartAi_steady lim coord result))
  exact fun _ => .ite trivial (shown_logs h opponentMoved_shown)

theorem gameSwitch_logs (guess : ∀ row col, P (.guess .player row col)) (lim : Limits)
    {v : GameState}
    (waiting : v = .waitingForPlayer → ∀ row col, P (.guess .opponent row col)) :
    Prog.Always (Logs P) (gameSwitch lim v) := by
  cases v with
  | init =>
      apply Prog.Always.bind
      · apply Prog.Always.bind (Prog.always_write fun _ => logs_nil _ _)
        intro _
        exact .bind (steady_logs h (sendLedMatrixUpdate_steady _)) fun _ => Prog.always_sys _
      · exact fun _ => shown_logs h (setState_shown _)
  | webInit =>
      apply Prog.Always.bind (Prog.always_get fun _ => logs_nil _ _)
      intro m
      refine .ite ?_ trivial
      apply Prog.Always.bind (shown_logs h (setState_shown _))
      intro _
      apply Prog.Always.bind (steady_logs h (renderBoard_steady _ _ _))
      exact fun _ => steady_logs h (placeRandomShips_steady _ _)
  | randomInit =>
      apply Prog.Always.bind
      · apply Prog.Always.bind (steady_logs h (placeRandomShips_steady _ _))
        intro _
        apply Prog.Always.bind (steady_logs h (placeRandomShips_steady _ _))
        intro _
        exact .bind (steady_logs h (renderBoard_steady _ _ _)) fun _ => Prog.always_sys _
      · exact fun _ => shown_logs h (setState_shown _)
  | running => trivial
  | waitingForOpponent => exact .bind (Prog.always_sys _) fun _ => opponentMove_logs h guess lim
  | waitingForPlayer => exact waitingForPlayerCase_logs h (waiting rfl)
  | gameOver => exact .bind (Prog.always_sys _) fun _ => shown_logs h (setState_shown _)
  | gameRestart =>
      apply Prog.Always.bind (Prog.always_write fun _ => logs_nil _ _)
      intro _
      exact .bind (steady_logs h (removeLoop_steady _)) fun _ => shown_logs h (setState_shown _)

end Covers

theorem gameSwitch_plain (lim : Limits) (v : GameState) :
    Prog.Always (Logs Out.Plain) (gameSwitch lim v) :=
  gameSwitch_logs ⟨fun _ shown => shown.plain, fun _ _ => trivial⟩ (fun _ _ => trivial) lim
    fun _ _ _ => trivial

end Steady
end Battleship
